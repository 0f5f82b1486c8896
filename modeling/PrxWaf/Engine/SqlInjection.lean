import PrxWaf.Engine.Patterns
import PrxWaf.Engine.Targets
import PrxWaf.Lib.JsonBuild

/-!
# SQL injection

The values of the query, the strings of a JSON body, the headers and the parts of the
request are compared with a set of patterns.  The body is searched in the value that
was built from it, not in the document itself.
-/

namespace PrxWaf
namespace Engine
namespace SqlInjection

open Lib Http
open Cache (Bytes)
open Gateway (TextMap)

structure SqliScanConfig where
  scanHeaders : Bool
  headerDenylist : List Text
  headerAllowlist : List Text
  headerScanCap : Nat
  jsonParseCap : Nat

def SqliScanConfig.default : SqliScanConfig :=
  { scanHeaders := true
    headerDenylist := [
      "content-length".toList, "content-type".toList, "host".toList,
      "connection".toList, "accept-encoding".toList, "cookie".toList]
    headerAllowlist := []
    headerScanCap := 4096
    jsonParseCap := 256 * 1024 }

/-- The document that a body stands for.  There is none if the body is no JSON text,
or is nested too deeply. -/
structure JsonReader where
  document : Bytes -> Option Json
  empty : document [] = none

/-- The value that `serde_json` makes of a body. -/
def JsonReader.fromSlice (reader : JsonReader) (body : Bytes) : Option Json :=
  (reader.document body).map Json.build

def hit (set : PatternSet) (location value : Text) : Option (Text × Nat) :=
  (set.firstMatch value).map (fun idx => (location, idx))

mutual

def walkJson (set : PatternSet) (path : Text) : Json -> Option (Text × Nat)
  | .string s => hit set path (urlDecodeRecursive s)
  | .object fields => walkFields set path fields
  | .array items => walkItems set path 0 items
  | .null => none
  | .bool _ => none
  | .int _ => none
  | .float _ => none

def walkFields (set : PatternSet) (path : Text) : List (Text × Json) -> Option (Text × Nat)
  | [] => none
  | (k, child) :: rest =>
    (walkJson set (path ++ '.' :: k) child).or (walkFields set path rest)

def walkItems (set : PatternSet) (path : Text) (i : Nat) : List Json -> Option (Text × Nat)
  | [] => none
  | child :: rest =>
    (walkJson set (path ++ '[' :: ((Nat.repr i).toList ++ [']'])) child).or
      (walkItems set path (i + 1) rest)

end

def scanJsonBody (reader : JsonReader) (body : Bytes) (set : PatternSet)
    (jsonParseCap : Nat) : Option (Text × Nat) :=
  if jsonParseCap < body.length then none
  else
    match reader.fromSlice body with
    | none => none
    | some value => walkJson set "body".toList value

def parseForm (query : Text) : List (Text × Text) :=
  ((query.splitOn '&').filter (fun piece => piece ≠ [])).map (fun piece =>
    let pair := (Text.splitOnce '=' piece).getD (piece, [])
    (urlDecode pair.1, urlDecode pair.2))

def scanQueryParams (query : Text) (set : PatternSet) : Option (Text × Nat) :=
  (parseForm query).findSome? (fun pair =>
    hit set ("query.".toList ++ pair.1) (urlDecodeRecursive pair.2))

/-- The characters that fit into so many bytes. -/
def floorChars : Nat -> Text -> Text
  | _, [] => []
  | cap, c :: rest =>
    if c.utf8Size ≤ cap then c :: floorChars (cap - c.utf8Size) rest else []

def headerSlice (cap : Nat) (value : Text) : Text :=
  if cap < (utf8 value).length then floorChars cap value else value

/-- A list of permitted headers takes the place of the list of skipped ones. -/
def SqliScanConfig.skips (cfg : SqliScanConfig) (key : Text) : Bool :=
  if cfg.headerAllowlist ≠ [] then
    !(cfg.headerAllowlist.map toAsciiLowercase).contains key
  else (cfg.headerDenylist.map toAsciiLowercase).contains key

def scanHeaders (headers : TextMap) (cfg : SqliScanConfig) (set : PatternSet) :
    Option (Text × Nat) :=
  if cfg.scanHeaders = false then none
  else
    headers.entries.findSome? (fun entry =>
      let key := toAsciiLowercase entry.1
      if cfg.skips key then none
      else
        hit set ("header.".toList ++ key)
          (urlDecodeRecursive (headerSlice cfg.headerScanCap entry.2)))

def sqliDescs : List Text :=
  ["UNION SELECT injection".toList,
    "comment-based injection (-- / #)".toList,
    "stacked query injection (;DROP/DELETE/...)".toList,
    "time-based blind injection (SLEEP/BENCHMARK/WAITFOR)".toList,
    "xp_cmdshell execution".toList,
    "INFORMATION_SCHEMA enumeration".toList,
    "OR/AND always-true tautology".toList,
    "LOAD_FILE() read".toList,
    "INTO OUTFILE/DUMPFILE write".toList,
    "hex-encoded string injection (0x...)".toList,
    "quoted string escape (')".toList,
    "MySQL/MSSQL system table enumeration".toList,
    "numeric tautology (AND 1=1, OR 2>1)".toList,
    "blind data-extraction function (SUBSTRING/ASCII/LENGTH)".toList,
    "conditional blind IF(x,y,z)".toList,
    "database fingerprint (@@version/@@datadir)".toList,
    "error-based CAST injection".toList,
    "error-based CONVERT injection (MySQL)".toList,
    "error-based DOUBLE overflow (MySQL exp(~()))".toList]

def report : PatternReport :=
  { code := "SQLI".toList
    ruleName := "SQL Injection".toList
    phase := .sqlInjection
    descs := sqliDescs
    otherDesc := "SQL Injection pattern".toList }

def isJson (headers : TextMap) : Bool :=
  (headers.lookup "content-type".toList).any (fun ct =>
    decide ("application/json".toList <:+: ct))

/-- The first place at which a pattern matches, in the order of the scans. -/
def firstHit (reader : JsonReader) (set : PatternSet) (cfg : SqliScanConfig)
    (ctx : InspectCtx) : Option (Text × Nat) :=
  (if ctx.query = [] then none else scanQueryParams ctx.query set).or
    ((if ctx.bodyPreview ≠ [] ∧ isJson ctx.headers = true then
        scanJsonBody reader ctx.bodyPreview set cfg.jsonParseCap
      else none).or
      ((scanHeaders ctx.headers cfg set).or
        ((requestTargets ctx).findSome? (fun target =>
          hit set target.1.label target.2))))

/-- The patterns are arbitrary. -/
def check (reader : JsonReader) (set : PatternSet) (cfg : SqliScanConfig)
    (defense : DefenseConfig) (ctx : InspectCtx) : Option DetectionResult :=
  if defense.sqli = false then none
  else
    (firstHit reader set cfg ctx).map (fun place =>
      report.result place.2 place.1)

def Matched (set : PatternSet) (value : Text) : Prop :=
  exists pattern, pattern ∈ set ∧ pattern value = true

variable {set : PatternSet}

theorem hit_isSome_iff {location value : Text} :
    (hit set location value).isSome = true <-> Matched set value := by
  unfold hit
  rw [Option.isSome_map]
  exact PatternSet.firstMatch_isSome_iff

mutual

theorem walkJson_isSome_iff {set : PatternSet} (path : Text) : (value : Json) ->
    ((walkJson set path value).isSome = true <->
      exists s, s ∈ value.strings ∧ Matched set (urlDecodeRecursive s))
  | .string s => by
      rw [walkJson, hit_isSome_iff, Json.strings]
      simp
  | .object fields => by
      rw [walkJson, Json.strings]
      exact walkFields_isSome_iff path fields
  | .array items => by
      rw [walkJson, Json.strings]
      exact walkItems_isSome_iff path 0 items
  | .null => by simp [walkJson, Json.strings]
  | .bool _ => by simp [walkJson, Json.strings]
  | .int _ => by simp [walkJson, Json.strings]
  | .float _ => by simp [walkJson, Json.strings]

theorem walkFields_isSome_iff {set : PatternSet} (path : Text) :
    (fields : List (Text × Json)) -> ((walkFields set path fields).isSome = true <->
      exists s, s ∈ Json.fieldStrings fields ∧ Matched set (urlDecodeRecursive s))
  | [] => by simp [walkFields, Json.fieldStrings]
  | (k, child) :: rest => by
      rw [walkFields, Option.isSome_or, Bool.or_eq_true,
        walkJson_isSome_iff _ child, walkFields_isSome_iff path rest, Json.fieldStrings]
      simp only [List.mem_append, or_and_right, exists_or]

theorem walkItems_isSome_iff {set : PatternSet} (path : Text) (i : Nat) :
    (items : List Json) -> ((walkItems set path i items).isSome = true <->
      exists s, s ∈ Json.itemStrings items ∧ Matched set (urlDecodeRecursive s))
  | [] => by simp [walkItems, Json.itemStrings]
  | child :: rest => by
      rw [walkItems, Option.isSome_or, Bool.or_eq_true,
        walkJson_isSome_iff _ child, walkItems_isSome_iff path (i + 1) rest, Json.itemStrings]
      simp only [List.mem_append, or_and_right, exists_or]

end

def queryTexts (ctx : InspectCtx) : List Text :=
  if ctx.query = [] then []
  else (parseForm ctx.query).map (fun pair => urlDecodeRecursive pair.2)

def headerTexts (cfg : SqliScanConfig) (headers : TextMap) : List Text :=
  if cfg.scanHeaders = false then []
  else
    (headers.entries.filter (fun entry =>
      !cfg.skips (toAsciiLowercase entry.1))).map (fun entry =>
        urlDecodeRecursive (headerSlice cfg.headerScanCap entry.2))

def otherTexts (cfg : SqliScanConfig) (ctx : InspectCtx) : List Text :=
  queryTexts ctx ++ (headerTexts cfg ctx.headers ++ (requestTargets ctx).map Prod.snd)

theorem scanQueryParams_isSome_iff {query : Text} :
    (scanQueryParams query set).isSome = true <->
      exists t, t ∈ (parseForm query).map
        (fun pair => urlDecodeRecursive pair.2) ∧ Matched set t := by
  unfold scanQueryParams
  rw [List.findSome?_isSome_iff]
  simp only [hit_isSome_iff, List.mem_map, exists_exists_and_eq_and]

theorem scanHeaders_isSome_iff {headers : TextMap} {cfg : SqliScanConfig} :
    (scanHeaders headers cfg set).isSome = true <->
      exists t, t ∈ headerTexts cfg headers ∧ Matched set t := by
  unfold scanHeaders headerTexts
  split
  · simp
  · rw [List.findSome?_isSome_iff]
    simp only [List.mem_map, List.mem_filter, exists_exists_and_eq_and]
    refine exists_congr (fun entry => ?_)
    split
    · rename_i hskipped
      simp [hskipped]
    · rename_i hscanned
      simp [hscanned, hit_isSome_iff]

theorem requestTargets_isSome_iff {ctx : InspectCtx} :
    ((requestTargets ctx).findSome? (fun target =>
        hit set target.1.label target.2)).isSome = true <->
      exists t, t ∈ (requestTargets ctx).map Prod.snd ∧ Matched set t := by
  rw [List.findSome?_isSome_iff]
  simp only [hit_isSome_iff, List.mem_map, exists_exists_and_eq_and]

section Documents

variable {reader : JsonReader} {cfg : SqliScanConfig}
  {ctx : InspectCtx} {document : Json}
  (hread : reader.document ctx.bodyPreview = some document)
  (htype : isJson ctx.headers = true)
  (hcap : ctx.bodyPreview.length ≤ cfg.jsonParseCap)

include hread htype hcap

theorem scanJson_isSome_iff {set : PatternSet} :
    (if ctx.bodyPreview ≠ [] ∧ isJson ctx.headers = true then
        scanJsonBody reader ctx.bodyPreview set cfg.jsonParseCap
      else none).isSome = true <->
      exists s, s ∈ document.lastStrings ∧ Matched set (urlDecodeRecursive s) := by
  have hne : ctx.bodyPreview ≠ [] := by
    intro hnil
    rw [hnil, reader.empty] at hread
    cases hread
  rw [if_pos ⟨hne, htype⟩]
  unfold scanJsonBody JsonReader.fromSlice
  rw [if_neg (Nat.not_lt.mpr hcap), hread]
  refine (walkJson_isSome_iff _ _).trans ?_
  simp only [Json.mem_strings_build]

theorem firstHit_isSome_iff {set : PatternSet} :
    (firstHit reader set cfg ctx).isSome = true <->
      exists t, (t ∈ document.lastStrings.map urlDecodeRecursive ∨
        t ∈ otherTexts cfg ctx) ∧ Matched set t := by
  have hquery : (if ctx.query = [] then none
      else scanQueryParams ctx.query set).isSome = true <->
        exists t, t ∈ queryTexts ctx ∧ Matched set t := by
    unfold queryTexts
    split
    · simp
    · exact scanQueryParams_isSome_iff
  unfold firstHit otherTexts
  simp only [Option.isSome_or, Bool.or_eq_true]
  rw [hquery, scanJson_isSome_iff hread htype hcap, scanHeaders_isSome_iff,
    requestTargets_isSome_iff]
  simp only [List.mem_append, or_and_right, exists_or, List.mem_map, exists_exists_and_eq_and]
  exact or_left_comm

theorem check_isSome_iff {defense : DefenseConfig} (hon : defense.sqli = true) {set : PatternSet} :
    (check reader set cfg defense ctx).isSome = true <->
      exists t, (t ∈ document.lastStrings.map urlDecodeRecursive ∨
        t ∈ otherTexts cfg ctx) ∧ Matched set t := by
  unfold check
  rw [if_neg (by rw [hon]; decide), Option.isSome_map]
  exact firstHit_isSome_iff hread htype hcap

end Documents

def readerOf (body : Bytes) (hne : body ≠ []) (document : Json) : JsonReader :=
  { document := fun bytes => if bytes = body then some document else none
    empty := if_neg hne.symm }

theorem readerOf_document {body : Bytes} (hne : body ≠ []) (document : Json) :
    (readerOf body hne document).document body = some document :=
  if_pos rfl

def jsonCtx (body : Text) : InspectCtx :=
  { plainCtx with
    headers := AList.insert "content-type".toList "application/json".toList ∅
    bodyPreview := utf8 body }

def onlyMember : Json :=
  .object [("a".toList, .string "1 or 1=1".toList)]

def onlyMemberBody : Text :=
  "\x7b\"a\":\"1 \\u006fr 1=1\"\x7d".toList

def replacedMember : Json :=
  .object [("a".toList, .string "1 or 1=1".toList), ("a".toList, .string "x".toList)]

def replacedMemberBody : Text :=
  "\x7b\"a\":\"1 \\u006fr 1=1\",\"a\":\"x\"\x7d".toList

/-- The strings of a document are searched for every pattern exactly when those under a
member whose key comes again are found in another place. -/
theorem strings_searched_iff {reader : JsonReader} {cfg : SqliScanConfig}
    {defense : DefenseConfig} {ctx : InspectCtx} {document : Json} (hon : defense.sqli = true)
    (hread : reader.document ctx.bodyPreview = some document)
    (htype : isJson ctx.headers = true) (hcap : ctx.bodyPreview.length ≤ cfg.jsonParseCap) :
    (forall set : PatternSet,
      (exists s, s ∈ document.strings ∧ Matched set (urlDecodeRecursive s)) ->
        (check reader set cfg defense ctx).isSome = true) <->
      forall s, s ∈ document.repeatedStrings ->
        urlDecodeRecursive s ∈ document.lastStrings.map urlDecodeRecursive ∨
          urlDecodeRecursive s ∈ otherTexts cfg ctx := by
  constructor
  · intro h s hrepeated
    have hs : s ∈ document.strings := (Json.mem_strings_iff document).mpr (Or.inr hrepeated)
    have hmatched : Matched [fun t => decide (t = urlDecodeRecursive s)]
        (urlDecodeRecursive s) := ⟨_, List.mem_singleton_self _, decide_eq_true rfl⟩
    have hfound := h _ ⟨s, hs, hmatched⟩
    obtain ⟨t, hplace, pattern, hpattern, ht⟩ := (check_isSome_iff hread htype hcap hon).mp hfound
    rw [List.mem_singleton.mp hpattern] at ht
    rw [← of_decide_eq_true ht]
    exact hplace
  · rintro h set ⟨s, hs, hmatched⟩
    refine (check_isSome_iff hread htype hcap hon).mpr ⟨_, ?_, hmatched⟩
    rcases (Json.mem_strings_iff document).mp hs with hlast | hrepeated
    · exact Or.inl (List.mem_map_of_mem hlast)
    · exact h s hrepeated

theorem only_member_searched :
    onlyMember.strings = ["1 or 1=1".toList] ∧ forall set : PatternSet,
      (exists s, s ∈ onlyMember.strings ∧ Matched set (urlDecodeRecursive s)) ->
      (check (readerOf (utf8 onlyMemberBody) (by decide) onlyMember) set
        SqliScanConfig.default { sqli := true, dirTraversal := true }
        (jsonCtx onlyMemberBody)).isSome = true := by
  refine ⟨rfl, (strings_searched_iff rfl (readerOf_document _ _) (by decide) (by decide)).mpr ?_⟩
  intro s hrepeated
  cases hrepeated

/-- The member that is replaced has the payload. -/
theorem replaced_member_missed :
    (exists s, s ∈ replacedMember.strings ∧ Matched [fun t => decide ("or 1=1".toList <:+: t)]
        (urlDecodeRecursive s)) ∧
    check (readerOf (utf8 replacedMemberBody) (by decide) replacedMember)
      [fun t => decide ("or 1=1".toList <:+: t)]
      SqliScanConfig.default { sqli := true, dirTraversal := true }
      (jsonCtx replacedMemberBody) = none := by
  refine ⟨⟨"1 or 1=1".toList, List.mem_cons_self, _, List.mem_singleton_self _, ?_⟩, ?_⟩
  · decide +kernel
  · decide +kernel

end SqlInjection
end Engine
end PrxWaf
