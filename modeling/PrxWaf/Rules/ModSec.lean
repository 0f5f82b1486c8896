import PrxWaf.Cluster.RuleSync
import PrxWaf.Gateway.Request

/-!
# SecRule files

A line of a ModSecurity file has variables, an operator and actions.  It is cut
into these parts at blanks outside of double quotes, and the actions are cut at
commas.  The second cut knows nothing of the single quotes around a message.
-/

namespace PrxWaf
namespace Rules
namespace ModSec

open Lib
open Cluster (Rule)
open Gateway (TextMap)

/-- The case conversions of texts.  The directive is recognised in upper case. -/
structure CaseMaps where
  toLowercase : Text -> Text
  toUppercase : Text -> Text
  directive : forall rest : Text,
    "SECRULE ".toList.isPrefixOf
      (toUppercase ("SecRule ".toList ++ rest)) = true

/-! ## The parser -/

/-- A line that ends in a backslash goes on in the next one. -/
def joinFrom : Option Text -> List Text -> Text
  | none, [] => []
  | some base, [] => base ++ ['\n']
  | pending, line :: rest =>
    match Text.stripLast '\\' line with
    | some stripped =>
      joinFrom (some (pending.getD [] ++ stripped.rdropWhile Text.isWhitespace ++ [' '])) rest
    | none => pending.getD [] ++ (line ++ '\n' :: joinFrom none rest)

def joinLines (content : Text) : Text :=
  joinFrom none (Text.lines content)

/-- The part that is being read, and whether it stands in double quotes. -/
def splitFrom : Text -> Bool -> Text -> List Text
  | current, _, [] => if current = [] then [] else [current]
  | current, inQuotes, c :: rest =>
    if c = '"' then
      if inQuotes ∧ current ≠ [] then current :: splitFrom [] false rest
      else splitFrom current (!inQuotes) rest
    else if (c = ' ' ∨ c = '\t') ∧ inQuotes = false then
      if current = [] then splitFrom [] inQuotes rest
      else current :: splitFrom [] inQuotes rest
    else splitFrom (current ++ [c]) inQuotes rest

def splitSecruleParts (s : Text) : List Text :=
  splitFrom [] false s

inductive OperatorName where
  | rx
  | contains
  | beginsWith
  | endsWith
  | ipMatch
  deriving DecidableEq

namespace OperatorName

def token : OperatorName -> Text
  | rx => "@rx ".toList
  | contains => "@contains ".toList
  | beginsWith => "@beginsWith ".toList
  | endsWith => "@endsWith ".toList
  | ipMatch => "@ipMatch ".toList

def label : OperatorName -> Text
  | rx => "regex".toList
  | contains => "contains".toList
  | beginsWith => "beginsWith".toList
  | endsWith => "endsWith".toList
  | ipMatch => "ipMatch".toList

/-- The names in the order in which they are tried. -/
def all : List OperatorName :=
  [rx, contains, beginsWith, endsWith, ipMatch]

end OperatorName

def isQuote (quote c : Char) : Bool :=
  c = quote

def namedOperator (op : Text) : Option (Text × Text) :=
  OperatorName.all.findSome? (fun name =>
    (Text.stripFront name.token op).map (fun rest => (name.label, rest)))

/-- Without a known name the operator is a regular expression. -/
def parseOperator (op : Text) : Text × Text :=
  let op := Text.trimMatches (isQuote '"') op
  (namedOperator op).getD ("regex".toList, op)

def parseAction (maps : CaseMaps) (part : Text) : Option (Text × Text) :=
  let part := Text.trimMatches (isQuote '\'')
    (Text.trimMatches (isQuote '"') (Text.trim part))
  match Text.splitOnce ':' part with
  | some (k, v) =>
    some (maps.toLowercase (Text.trim k), Text.trimMatches (isQuote '\'') (Text.trim v))
  | none => if part = [] then none else some (maps.toLowercase part, [])

def insertAction (actions : TextMap) (action : Text × Text) : TextMap :=
  actions.insert action.1 action.2

def parseActions (maps : CaseMaps) (actions : Text) : TextMap :=
  ((actions.splitOn ',').filterMap (parseAction maps)).foldl insertAction ∅

def has (needle : String) (s : Text) : Bool :=
  decide (needle.toList <:+: s)

def inferCategory (maps : CaseMaps) (vars value : Text) : Text :=
  let v := maps.toLowercase vars
  let val := maps.toLowercase value
  if has "union" val && has "select" val then "sqli".toList
  else if has "<script" val || has "javascript:" val then "xss".toList
  else if has "../" val || has "..\\" val then "traversal".toList
  else if has "request_uri" v then "path".toList
  else if has "args" v then "input".toList
  else "custom".toList

def ruleAction (actions : TextMap) : Text :=
  if (actions.lookup "deny".toList).isSome ||
      (actions.lookup "block".toList).isSome then "block".toList
  else if (actions.lookup "allow".toList).isSome ||
      (actions.lookup "pass".toList).isSome then "allow".toList
  else "log".toList

def ruleId (lineNo : Nat) (actions : TextMap) : Text :=
  match actions.lookup "id".toList with
  | none => "MODSEC-LINE-".toList ++ (Nat.repr lineNo).toList
  | some s => "MODSEC-".toList ++ s

def metadataOf (actions : TextMap) (key : String) : List (Text × Text) :=
  ((actions.lookup key.toList).map (fun v => (key.toList, v))).toList

def ruleOf (maps : CaseMaps) (lineNo : Nat) (vars operatorStr actionsStr : Text) : Rule :=
  let operator := parseOperator operatorStr
  let actions := parseActions maps actionsStr
  let id := ruleId lineNo actions
  { id := id
    name := (actions.lookup "msg".toList).getD ("ModSecurity rule ".toList ++ id)
    description := actions.lookup "msg".toList
    category := inferCategory maps vars operator.2
    source := "modsec".toList
    enabled := true
    action := ruleAction actions
    severity := actions.lookup "severity".toList
    pattern := some operator.2
    tags := ["modsec".toList]
    metadata := [("variables".toList, vars), ("operator".toList, operator.1)] ++
      metadataOf actions "phase" ++ metadataOf actions "status" }

/-- Drop the characters that the first `n` bytes are. -/
def dropBytes : Text -> Nat -> Text
  | [], _ => []
  | c :: rest, 0 => c :: rest
  | c :: rest, n + 1 => dropBytes rest (n + 1 - c.utf8Size)

def parseSecrule (maps : CaseMaps) (line : Text) (lineNo : Nat) : Except Text Rule :=
  match splitSecruleParts (dropBytes line "SecRule ".utf8ByteSize) with
  | vars :: operatorStr :: actionsStr :: _ =>
    .ok (ruleOf maps lineNo vars operatorStr actionsStr)
  | _ =>
    .error ("line ".toList ++ (Nat.repr lineNo).toList ++
      ": expected VARIABLES OPERATOR ACTIONS, got ".toList ++ line)

/-- Lines that are no rules, or that cannot be parsed, are left out. -/
def parseLine (maps : CaseMaps) (lineNo : Nat) (line : Text) : Option Rule :=
  let line := Text.trim line
  if line = [] ∨ line.head? = some '#' then none
  else if "SECRULE ".toList.isPrefixOf (maps.toUppercase line) then
    (parseSecrule maps line lineNo).toOption
  else none

def parse (maps : CaseMaps) (content : Text) : List Rule :=
  (Text.lines (joinLines content)).zipIdx.filterMap (fun line =>
    parseLine maps (line.2 + 1) line.1)

end ModSec
end Rules
end PrxWaf
