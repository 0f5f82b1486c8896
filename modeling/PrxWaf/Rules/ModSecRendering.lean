import PrxWaf.Rules.ModSec

/-!
# Rendered SecRule lines

A rule is written as one line, with the operator and the actions in double quotes.
What the parser makes of the line is the rule again unless a message has a comma.
-/

namespace PrxWaf
namespace Rules
namespace ModSec

open Lib
open Cluster (Rule)
open Gateway (TextMap)

inductive Operator where
  | named (name : OperatorName) (value : Text)
  | bare (text : Text)
      (unnamed : forall name : OperatorName, name.token.isPrefixOf text = false)

namespace Operator

def text : Operator -> Text
  | named name value => name.token ++ value
  | bare text _ => text

def value : Operator -> Text
  | named _ value => value
  | bare text _ => text

end Operator

inductive ActionItem where
  | bare (name : Text)
  | valued (name value : Text)
  | msg (text : Text)

def isBlankOrMark (c : Char) : Bool :=
  Text.isWhitespace c || c = ',' || c = '"' || c = '\''

def PlainName (name : Text) : Prop :=
  name ≠ [] ∧ forall c, c ∈ name -> isBlankOrMark c = false ∧ c ≠ ':'

namespace ActionItem

def name : ActionItem -> Text
  | bare name => name
  | valued name _ => name
  | msg _ => "msg".toList

/-- A bare name has the empty value. -/
def value : ActionItem -> Text
  | bare _ => []
  | valued _ value => value
  | msg text => text

def render : ActionItem -> Text
  | bare name => name
  | valued name value => name ++ ':' :: value
  | msg text => "msg:'".toList ++ (text ++ ['\''])

/-- What the parts of an item may be made of.  A message may have blanks inside,
and commas. -/
def Plain : ActionItem -> Prop
  | bare name => PlainName name
  | valued name value =>
    PlainName name ∧ forall c, c ∈ value -> isBlankOrMark c = false
  | msg text =>
    (forall c, c ∈ text -> c ≠ '"' ∧ c ≠ '\'' ∧ c ≠ '\n' ∧ c ≠ '\r') ∧
      (forall c, c ∈ text.head? -> Text.isWhitespace c = false) ∧
      forall c, c ∈ text.getLast? -> Text.isWhitespace c = false

end ActionItem

structure SecRule (maps : CaseMaps) where
  vars : Text
  operator : Operator
  items : List ActionItem
  vars_ne : vars ≠ []
  vars_plain : forall c, c ∈ vars -> Text.isWhitespace c = false ∧ c ≠ '"'
  operator_ne : operator.text ≠ []
  operator_plain : forall c, c ∈ operator.text -> c ≠ '"' ∧ c ≠ '\n' ∧ c ≠ '\r'
  items_plain : forall item, item ∈ items -> item.Plain
  lower : forall item, item ∈ items -> maps.toLowercase item.name = item.name
  distinct : (items.map ActionItem.name).Nodup
  hasId : "id".toList ∈ items.map ActionItem.name

namespace SecRule

variable {maps : CaseMaps}

def actionsText (rule : SecRule maps) : Text :=
  [','].intercalate (rule.items.map ActionItem.render)

def body (rule : SecRule maps) : Text :=
  rule.vars ++ (" \"".toList ++ (rule.operator.text ++ ("\" \"".toList ++
    (rule.actionsText ++ ['"']))))

def render (rule : SecRule maps) : Text :=
  "SecRule ".toList ++ rule.body

def given (rule : SecRule maps) (name : String) : Option Text :=
  (rule.items.find? (fun item => item.name = name.toList)).map
    ActionItem.value

/-- The parsed rule says what was written. -/
structure Matches (rule : SecRule maps) (parsed : Rule) : Prop where
  id : exists v, rule.given "id" = some v ∧ parsed.id = "MODSEC-".toList ++ v
  msg : parsed.description = rule.given "msg"
  name : forall text, rule.given "msg" = some text -> parsed.name = text
  operatorValue : parsed.pattern = some rule.operator.value
  phase : parsed.metadata.lookup "phase".toList = rule.given "phase"
  status : parsed.metadata.lookup "status".toList = rule.given "status"
  severity : parsed.severity = rule.given "severity"
  action : parsed.action =
    if (rule.given "deny").isSome || (rule.given "block").isSome then
      "block".toList
    else if (rule.given "allow").isSome || (rule.given "pass").isSome then
      "allow".toList
    else "log".toList

end SecRule

variable {part : Text}

theorem splitFrom_plain (h : forall c, c ∈ part -> c ≠ '"' ∧ c ≠ ' ' ∧ c ≠ '\t')
    (current rest : Text) :
    splitFrom current false (part ++ rest) = splitFrom (current ++ part) false rest := by
  induction part generalizing current with
  | nil => rw [List.append_nil, List.nil_append]
  | cons c more ih =>
    obtain ⟨hquote, hspace, htab⟩ := h c List.mem_cons_self
    rw [List.cons_append, splitFrom, if_neg hquote, if_neg ?_,
      ih (fun d hd => h d (List.mem_cons_of_mem c hd)), List.append_assoc]
    · rfl
    · rintro ⟨hblank | hblank, -⟩
      · exact hspace hblank
      · exact htab hblank

theorem splitFrom_quoted (h : forall c, c ∈ part -> c ≠ '"') (current rest : Text) :
    splitFrom current true (part ++ rest) = splitFrom (current ++ part) true rest := by
  induction part generalizing current with
  | nil => rw [List.append_nil, List.nil_append]
  | cons c more ih =>
    rw [List.cons_append, splitFrom, if_neg (h c List.mem_cons_self),
      if_neg (fun hblank => Bool.false_ne_true hblank.right.symm),
      ih (fun d hd => h d (List.mem_cons_of_mem c hd)), List.append_assoc]
    rfl

theorem splitFrom_close {current : Text} (h : current ≠ []) (rest : Text) :
    splitFrom current true ('"' :: rest) = current :: splitFrom [] false rest := by
  rw [splitFrom, if_pos rfl, if_pos ⟨rfl, h⟩]

theorem splitFrom_blank_quoted (hne : part ≠ []) (h : forall c, c ∈ part -> c ≠ '"') (rest : Text) :
    splitFrom [] false (" \"".toList ++ (part ++ '"' :: rest)) =
      part :: splitFrom [] false rest := by
  have hopen : splitFrom [] false (" \"".toList ++ (part ++ '"' :: rest)) =
      splitFrom [] true (part ++ '"' :: rest) := rfl
  rw [hopen, splitFrom_quoted h, List.nil_append, splitFrom_close hne]

theorem splitFrom_word (hne : part ≠ [])
    (h : forall c, c ∈ part -> c ≠ '"' ∧ c ≠ ' ' ∧ c ≠ '\t') (rest : Text) :
    splitFrom [] false (part ++ ' ' :: rest) = part :: splitFrom [] false (' ' :: rest) := by
  rw [splitFrom_plain h, List.nil_append, splitFrom, if_neg (by decide),
    if_pos ⟨Or.inl rfl, rfl⟩, if_neg hne]
  rfl

theorem isQuote_of_mem {quote c : Char} (h : c ∈ [quote]) :
    isQuote quote c = true :=
  decide_eq_true (List.mem_singleton.mp h)

theorem trimMatches_isQuote {quote : Char} {s : Text} (h : forall c, c ∈ s -> c ≠ quote) :
    Text.trimMatches (isQuote quote) s = s := by
  refine Text.trimMatches_eq_self ?_
  intro c hc
  exact decide_eq_false (h c hc)

theorem parseOperator_text {op : Operator} (h : forall c, c ∈ op.text -> c ≠ '"') :
    (parseOperator op.text).2 = op.value := by
  unfold parseOperator
  dsimp only
  rw [trimMatches_isQuote h]
  cases op with
  | named name value =>
    -- no name is the beginning of another one
    cases name with
    | rx => rfl
    | contains => rfl
    | beginsWith => rfl
    | endsWith => rfl
    | ipMatch => rfl
  | bare text unnamed =>
    have hnone : namedOperator text = none := by
      unfold namedOperator
      rw [List.findSome?_eq_none_iff]
      intro name _
      unfold Text.stripFront
      rw [unnamed name]
      rfl
    unfold Operator.text
    rw [hnone]
    rfl

section Action

variable {maps : CaseMaps}

theorem isBlankOrMark_false {c : Char} (h : isBlankOrMark c = false) :
    Text.isWhitespace c = false ∧ c ≠ ',' ∧ c ≠ '"' ∧ c ≠ '\'' := by
  unfold isBlankOrMark at h
  simpa [Bool.or_eq_false_iff, and_assoc] using h

theorem cleaned_of_plain {s : Text} (h : forall c, c ∈ s -> isBlankOrMark c = false) :
    Text.trim s = s ∧ Text.trimMatches (isQuote '"') s = s ∧
      Text.trimMatches (isQuote '\'') s = s :=
  ⟨Text.trim_eq_self (fun c hc => (isBlankOrMark_false (h c hc)).1),
    trimMatches_isQuote (fun c hc => (isBlankOrMark_false (h c hc)).2.2.1),
    trimMatches_isQuote (fun c hc => (isBlankOrMark_false (h c hc)).2.2.2)⟩

theorem parseAction_bare {name : Text} (hname : PlainName name) :
    parseAction maps name = some (maps.toLowercase name, []) := by
  have hplain := cleaned_of_plain (fun c hc => (hname.right c hc).left)
  have hcolon : ':' ∉ name := fun hmem => (hname.right ':' hmem).right rfl
  unfold parseAction
  dsimp only
  rw [hplain.1, hplain.2.1, hplain.2.2, Text.splitOnce_eq_none hcolon]
  exact if_neg hname.left

theorem parseAction_valued {name value : Text} (hname : PlainName name)
    (hvalue : forall c, c ∈ value -> isBlankOrMark c = false) :
    parseAction maps (name ++ ':' :: value) = some (maps.toLowercase name, value) := by
  have hwhole : forall c, c ∈ name ++ ':' :: value -> isBlankOrMark c = false := by
    intro c hc
    rcases List.mem_append.mp hc with hn | hv
    · exact (hname.right c hn).left
    · rcases List.mem_cons.mp hv with hcolon | hv
      · rw [hcolon]
        rfl
      · exact hvalue c hv
  have hplain := cleaned_of_plain hwhole
  have hnames := cleaned_of_plain (fun c hc => (hname.right c hc).left)
  have hvalues := cleaned_of_plain hvalue
  have hcolon : ':' ∉ name := fun hmem => (hname.right ':' hmem).right rfl
  unfold parseAction
  dsimp only
  rw [hplain.1, hplain.2.1, hplain.2.2, Text.splitOnce_append_cons hcolon]
  dsimp only
  rw [hnames.1, hvalues.1, hvalues.2.2]

variable {text : Text}

theorem trimMatches_msg (hne : text ≠ []) (h : forall c, c ∈ text -> c ≠ '\'') :
    Text.trimMatches (isQuote '\'') ("msg:'".toList ++ (text ++ ['\''])) =
      "msg:'".toList ++ text := by
  have hlast : forall c, c ∈ ("msg:'".toList ++ text).getLast? -> isQuote '\'' c = false := by
    intro c hc
    rw [List.getLast?_append_of_ne_nil _ hne] at hc
    exact decide_eq_false (h c (List.mem_of_getLast? hc))
  have hwrapped := @Text.trimMatches_wrapped (isQuote '\'')
    ("msg:'".toList ++ text) [] ['\''] (fun _ h => absurd h List.not_mem_nil)
    (fun _ hc => isQuote_of_mem hc) (by rintro c ⟨⟩; rfl) hlast
  rw [List.nil_append, List.append_assoc] at hwrapped
  exact hwrapped

theorem cleaned_value (hne : text ≠ []) (h : (ActionItem.msg text).Plain) :
    Text.trimMatches (isQuote '\'') (Text.trim ('\'' :: text)) = text := by
  obtain ⟨hchars, -, hlast⟩ := h
  have htrim : Text.trim ('\'' :: text) = '\'' :: text := by
    refine Text.trimMatches_of_ends (by rintro c ⟨⟩; rfl) ?_
    intro c hc
    refine hlast c ?_
    rw [List.getLast?_cons_of_ne_nil hne] at hc
    exact hc
  have hquote : forall c, c ∈ text -> isQuote '\'' c = false :=
    fun c hc => decide_eq_false (hchars c hc).2.1
  have hwrapped := @Text.trimMatches_wrapped (isQuote '\'') text ['\''] []
    (fun _ hc => isQuote_of_mem hc) (fun _ h => absurd h List.not_mem_nil)
    (fun c hc => hquote c (List.mem_of_head? hc)) (fun c hc => hquote c (List.mem_of_getLast? hc))
  rw [List.append_nil] at hwrapped
  rw [htrim]
  exact hwrapped

theorem parseAction_msg (h : (ActionItem.msg text).Plain) :
    parseAction maps (ActionItem.msg text).render = some (maps.toLowercase "msg".toList, text) := by
  have htrim : Text.trim ("msg:'".toList ++ (text ++ ['\''])) =
      "msg:'".toList ++ (text ++ ['\'']) := by
    refine Text.trimMatches_of_ends (by rintro c ⟨⟩; rfl) ?_
    intro c hc
    rw [← List.append_assoc, List.getLast?_concat] at hc
    cases hc
    rfl
  have hdouble : forall c, c ∈ "msg:'".toList ++ (text ++ ['\'']) -> c ≠ '"' := by
    intro c hc
    rcases List.mem_append.mp hc with hfront | hc
    · rintro rfl
      exact absurd hfront (by decide)
    · rcases List.mem_append.mp hc with htext | hback
      · exact (h.1 c htext).1
      · rw [List.mem_singleton.mp hback]
        decide
  unfold parseAction ActionItem.render
  dsimp only
  rw [htrim, trimMatches_isQuote hdouble]
  rcases Decidable.em (text = []) with hnil | hne
  · rw [hnil]
    rfl
  · have hsplit : Text.splitOnce ':' ("msg:'".toList ++ text) = some ("msg".toList, '\'' :: text) :=
      @Text.splitOnce_append_cons ':' "msg".toList (by decide) ('\'' :: text)
    rw [trimMatches_msg hne (fun c hc => (h.1 c hc).2.1), hsplit]
    dsimp only
    rw [cleaned_value hne h]
    rfl

theorem parseAction_render {item : ActionItem} (h : item.Plain) :
    parseAction maps item.render = some (maps.toLowercase item.name, item.value) := by
  cases item with
  | bare name => exact parseAction_bare h
  | valued name value => exact parseAction_valued h.left h.right
  | msg text => exact parseAction_msg h

theorem not_mem_comma_of_parseAction {part : Text} {action : Text × Text}
    (hpart : ',' ∉ part) (h : parseAction maps part = some action) :
    ',' ∉ action.2 := by
  unfold parseAction at h
  dsimp only at h
  split at h
  · rename_i k v hsplit
    injection h with h
    rw [← h]
    intro hmem
    have hv : ',' ∈ v := Text.mem_of_mem_trimMatches (Text.mem_of_mem_trimMatches hmem)
    unfold Text.splitOnce at hsplit
    split at hsplit
    · injection hsplit with hsplit
      injection hsplit with _ hrest
      rw [← hrest] at hv
      have hcleaned := List.dropWhile_subset _ (List.mem_of_mem_tail hv)
      exact hpart (Text.mem_of_mem_trimMatches
        (Text.mem_of_mem_trimMatches (Text.mem_of_mem_trimMatches hcleaned)))
    · cases hsplit
  · split at h
    · cases h
    · injection h with h
      rw [← h]
      exact List.not_mem_nil

end Action

section Actions

variable {maps : CaseMaps} {actions : List (Text × Text)} {k v : Text}

theorem lookup_foldl_of_not_mem (h : k ∉ actions.map Prod.fst)
    (m : TextMap) : (actions.foldl insertAction m).lookup k = m.lookup k := by
  induction actions generalizing m with
  | nil => rfl
  | cons action rest ih =>
    rw [List.map_cons, List.mem_cons, not_or] at h
    rw [List.foldl_cons, ih h.right]
    exact AList.lookup_insert_ne h.left

theorem lookup_foldl_of_mem (hdistinct : (actions.map Prod.fst).Nodup)
    (h : (k, v) ∈ actions) (m : TextMap) :
    (actions.foldl insertAction m).lookup k = some v := by
  induction actions generalizing m with
  | nil => cases h
  | cons action rest ih =>
    rw [List.map_cons, List.nodup_cons] at hdistinct
    rw [List.foldl_cons]
    rcases List.mem_cons.mp h with hfirst | hlater
    · rw [← hfirst] at hdistinct ⊢
      rw [lookup_foldl_of_not_mem hdistinct.left]
      exact AList.lookup_insert m
    · exact ih hdistinct.right hlater (insertAction m action)

theorem lookup_foldl_values {P : Text -> Prop}
    (h : forall action, action ∈ actions -> P action.2) {m : TextMap}
    (hm : forall k v, m.lookup k = some v -> P v)
    (hv : (actions.foldl insertAction m).lookup k = some v) : P v := by
  induction actions generalizing m with
  | nil => exact hm k v hv
  | cons action rest ih =>
    refine ih (fun other hother => h other (List.mem_cons_of_mem _ hother)) ?_ hv
    intro k' v' hlookup
    unfold insertAction at hlookup
    rcases Decidable.em (k' = action.1) with hsame | hne
    · rw [hsame, AList.lookup_insert] at hlookup
      rw [← Option.some.inj hlookup]
      exact h action List.mem_cons_self
    · rw [AList.lookup_insert_ne hne] at hlookup
      exact hm k' v' hlookup

theorem not_mem_comma_of_lookup {text : Text}
    (h : (parseActions maps text).lookup k = some v) : ',' ∉ v := by
  refine lookup_foldl_values (P := fun v => ',' ∉ v) ?_ (fun _ _ hnone => by cases hnone) h
  intro action haction
  obtain ⟨part, hpart, hparsed⟩ := List.mem_filterMap.mp haction
  exact not_mem_comma_of_parseAction (Text.not_mem_of_mem_splitOn hpart) hparsed

end Actions

/-! ## A rendered rule -/

namespace SecRule

variable {maps : CaseMaps} (rule : SecRule maps)

variable {item : ActionItem}

theorem not_mem_comma_render (h : item.Plain) (hmsg : forall text, item = .msg text -> ',' ∉ text) :
    ',' ∉ item.render := by
  have hmark : forall s : Text, (forall c, c ∈ s -> isBlankOrMark c = false) -> ',' ∉ s := by
    intro s hs hmem
    exact (isBlankOrMark_false (hs ',' hmem)).2.1 rfl
  cases item with
  | bare name => exact hmark name (fun c hc => (h.right c hc).left)
  | valued name value =>
    unfold ActionItem.render
    rw [List.mem_append, List.mem_cons, not_or, not_or]
    exact ⟨hmark name (fun c hc => (h.left.right c hc).left), by decide, hmark value h.right⟩
  | msg text =>
    unfold ActionItem.render
    rw [List.mem_append, List.mem_append, not_or, not_or]
    exact ⟨by decide, hmsg text rfl, by decide⟩

theorem splitOn_actionsText (hmsg : forall text, ActionItem.msg text ∈ rule.items -> ',' ∉ text) :
    rule.actionsText.splitOn ',' = rule.items.map ActionItem.render := by
  have hne : rule.items.map ActionItem.render ≠ [] := by
    intro hnil
    have hid := rule.hasId
    rw [List.map_eq_nil_iff.mp hnil] at hid
    cases hid
  refine List.splitOn_intercalate ',' ?_ hne
  intro part hpart
  obtain ⟨item, hitem, rfl⟩ := List.mem_map.mp hpart
  exact not_mem_comma_render (rule.items_plain item hitem)
    (fun text htext => hmsg text (htext ▸ hitem))

theorem filterMap_parseAction :
    (rule.items.map ActionItem.render).filterMap (parseAction maps) =
      rule.items.map (fun item => (item.name, item.value)) := by
  rw [List.filterMap_map, ← List.filterMap_eq_map]
  refine List.filterMap_congr ?_
  intro item hitem
  rw [Function.comp_apply, parseAction_render (rule.items_plain item hitem), rule.lower item hitem]
  rfl

theorem lookup_parseActions (hmsg : forall text, ActionItem.msg text ∈ rule.items -> ',' ∉ text)
    (name : String) :
    (parseActions maps rule.actionsText).lookup name.toList = rule.given name := by
  have hkeys : (rule.items.map (fun item => (item.name, item.value))).map
      Prod.fst = rule.items.map ActionItem.name := by
    rw [List.map_map]
    rfl
  unfold parseActions given
  rw [rule.splitOn_actionsText hmsg, rule.filterMap_parseAction]
  cases hfind : rule.items.find? (fun item => item.name = name.toList) with
  | none =>
    rw [List.find?_eq_none] at hfind
    rw [lookup_foldl_of_not_mem]
    · rfl
    · rw [hkeys]
      intro hmem
      obtain ⟨item, hitem, hname⟩ := List.mem_map.mp hmem
      exact hfind item hitem (decide_eq_true hname)
  | some item =>
    have hname : item.name = name.toList := by
      have hsome := List.find?_some hfind
      rw [decide_eq_true_eq] at hsome
      exact hsome
    refine lookup_foldl_of_mem (by rw [hkeys]; exact rule.distinct) ?_ ∅
    rw [← hname]
    exact List.mem_map.mpr ⟨item, List.mem_of_find?_eq_some hfind, rfl⟩

/-- The characters that no part of a rendered rule has. -/
def isForbidden (c : Char) : Bool :=
  c = '"' || c = '\n' || c = '\r'

theorem isForbidden_of_plain {s : Text} (h : forall c, c ∈ s -> isBlankOrMark c = false) :
    forall c, c ∈ s -> isForbidden c = false := by
  intro c hc
  obtain ⟨hspace, -, hquote, -⟩ := isBlankOrMark_false (h c hc)
  unfold isForbidden
  rw [Bool.or_eq_false_iff, Bool.or_eq_false_iff]
  refine ⟨⟨decide_eq_false hquote, decide_eq_false ?_⟩, decide_eq_false ?_⟩
  · rintro rfl
    cases hspace
  · rintro rfl
    cases hspace

theorem isForbidden_render (h : item.Plain) :
    forall c, c ∈ item.render -> isForbidden c = false := by
  intro c hc
  cases item with
  | bare name =>
    exact isForbidden_of_plain (fun c hc => (h.right c hc).left) c hc
  | valued name value =>
    rcases List.mem_append.mp hc with hname | hvalue
    · exact isForbidden_of_plain (fun c hc => (h.left.right c hc).left) c hname
    · rcases List.mem_cons.mp hvalue with hcolon | hvalue
      · rw [hcolon]
        rfl
      · exact isForbidden_of_plain h.right c hvalue
  | msg text =>
    rcases List.mem_append.mp hc with hfront | hrest
    · have hmsg : "msg:'".toList.all (fun c => !isForbidden c) = true := by
        decide
      simpa using List.all_eq_true.mp hmsg c hfront
    · rcases List.mem_append.mp hrest with htext | hback
      · obtain ⟨hdouble, -, hnewline, hreturn⟩ := h.1 c htext
        unfold isForbidden
        simp [hdouble, hnewline, hreturn]
      · rw [List.mem_singleton.mp hback]
        rfl

theorem isForbidden_actionsText :
    forall c, c ∈ rule.actionsText -> isForbidden c = false := by
  intro c hc
  rcases Text.mem_intercalate hc with hcomma | ⟨piece, hpiece, hc⟩
  · rw [hcomma]
    rfl
  · obtain ⟨item, hitem, rfl⟩ := List.mem_map.mp hpiece
    exact isForbidden_render (rule.items_plain item hitem) c hc

theorem render_ne (h : item.Plain) : item.render ≠ [] := by
  cases item with
  | bare name => exact h.left
  | valued name value => exact List.append_ne_nil_of_right_ne_nil _ (by simp)
  | msg text => exact List.append_ne_nil_of_left_ne_nil (by decide) _

theorem actionsText_ne : rule.actionsText ≠ [] := by
  obtain ⟨item, hitem, -⟩ := List.mem_map.mp rule.hasId
  obtain ⟨c, rest, hrender⟩ := List.exists_cons_of_ne_nil (render_ne (rule.items_plain item hitem))
  have hc : c ∈ item.render := by
    rw [hrender]
    exact List.mem_cons_self
  exact List.ne_nil_of_mem (Text.mem_intercalate_of_mem (List.mem_map.mpr ⟨item, hitem, rfl⟩) hc)

theorem render_getLast? : rule.render.getLast? = some '"' := by
  have hfront : exists front, rule.render = front ++ ['"'] := by
    unfold render body
    exact ⟨"SecRule ".toList ++ (rule.vars ++ (" \"".toList ++
      (rule.operator.text ++ ("\" \"".toList ++ rule.actionsText)))),
      by simp only [List.append_assoc]⟩
  obtain ⟨front, hrender⟩ := hfront
  rw [hrender, List.getLast?_concat]

theorem newline_not_mem_render : '\n' ∉ rule.render := by
  have hvars : '\n' ∉ rule.vars := fun hmem =>
    Bool.false_ne_true (rule.vars_plain '\n' hmem).left.symm
  have hoperator : '\n' ∉ rule.operator.text := fun hmem =>
    (rule.operator_plain '\n' hmem).2.1 rfl
  have hactions : '\n' ∉ rule.actionsText := fun hmem =>
    Bool.false_ne_true (rule.isForbidden_actionsText '\n' hmem).symm
  unfold render body
  simp only [List.mem_append, not_or]
  exact ⟨by decide, hvars, by decide, hoperator, by decide, hactions, by decide⟩

theorem lines_render :
    Text.lines (joinLines rule.render) = [rule.render] ∧ Text.trim rule.render = rule.render := by
  have hlast := rule.render_getLast?
  have hnewline := rule.newline_not_mem_render
  have hne : rule.render ≠ [] := by
    intro hnil
    rw [hnil] at hlast
    cases hlast
  constructor
  · have hstrip : Text.stripLast '\\' rule.render = none := by
      unfold Text.stripLast
      rw [hlast]
      exact if_neg (by decide)
    have hjoin : joinLines rule.render = rule.render ++ ['\n'] := by
      unfold joinLines
      rw [Text.lines_eq_singleton hne hnewline, joinFrom, hstrip]
      rfl
    rw [hjoin, Text.lines_append_newline hnewline (by rw [hlast]; decide)]
  · refine Text.trimMatches_of_ends (by rintro c ⟨⟩; rfl) ?_
    intro c hc
    rw [hlast] at hc
    cases hc
    rfl

theorem dropBytes_zero (s : Text) : dropBytes s 0 = s := by
  cases s with
  | nil => rfl
  | cons c rest => rfl

theorem dropBytes_render :
    dropBytes rule.render "SecRule ".utf8ByteSize = rule.body := by
  have hbytes : "SecRule ".utf8ByteSize = 8 := by decide
  rw [hbytes]
  exact dropBytes_zero rule.body

theorem splitSecruleParts_body :
    splitSecruleParts rule.body = [rule.vars, rule.operator.text, rule.actionsText] := by
  have hvars : forall c, c ∈ rule.vars -> c ≠ '"' ∧ c ≠ ' ' ∧ c ≠ '\t' := by
    intro c hc
    obtain ⟨hspace, hquote⟩ := rule.vars_plain c hc
    refine ⟨hquote, ?_, ?_⟩
    · rintro rfl
      cases hspace
    · rintro rfl
      cases hspace
  have hactions : forall c, c ∈ rule.actionsText -> c ≠ '"' := by
    rintro c hc rfl
    exact Bool.false_ne_true (rule.isForbidden_actionsText '"' hc).symm
  have hfirst := splitFrom_word rule.vars_ne hvars ('"' ::
    (rule.operator.text ++ ("\" \"".toList ++ (rule.actionsText ++ ['"']))))
  have hsecond := splitFrom_blank_quoted rule.operator_ne
    (fun c hc => (rule.operator_plain c hc).1) (" \"".toList ++ (rule.actionsText ++ ['"']))
  have hthird := splitFrom_blank_quoted rule.actionsText_ne hactions []
  rw [hthird] at hsecond
  exact hfirst.trans (congrArg (rule.vars :: ·) hsecond)

theorem parse_render :
    parse maps rule.render = [ruleOf maps 1 rule.vars rule.operator.text rule.actionsText] := by
  obtain ⟨hlines, htrim⟩ := rule.lines_render
  have hhead : rule.render.head? = some 'S' := rfl
  have hline : parseLine maps 1 rule.render =
      some (ruleOf maps 1 rule.vars rule.operator.text rule.actionsText) := by
    unfold parseLine
    dsimp only
    rw [htrim, if_neg ?_]
    · have hdirective : "SECRULE ".toList.isPrefixOf
          (maps.toUppercase rule.render) = true := maps.directive rule.body
      rw [if_pos hdirective]
      unfold parseSecrule
      rw [rule.dropBytes_render, rule.splitSecruleParts_body]
      rfl
    · rw [hhead]
      rintro (hnil | hhash)
      · cases hnil
      · cases hhash
  unfold parse
  rw [hlines, List.zipIdx_singleton, List.filterMap_cons]
  dsimp only
  rw [hline]
  rfl

end SecRule

/-! ## When a rule is parsed as it was written -/

section Faithful

variable {maps : CaseMaps}

theorem lookup_metadata {actions : TextMap} {vars op : Text} :
    ([("variables".toList, vars), ("operator".toList, op)] ++
        metadataOf actions "phase" ++ metadataOf actions "status").lookup
          "phase".toList = actions.lookup "phase".toList ∧
      ([("variables".toList, vars), ("operator".toList, op)] ++
        metadataOf actions "phase" ++ metadataOf actions "status").lookup
          "status".toList = actions.lookup "status".toList := by
  unfold metadataOf
  cases actions.lookup "phase".toList with
  | none =>
    cases actions.lookup "status".toList with
    | none => exact ⟨rfl, rfl⟩
    | some status => exact ⟨rfl, rfl⟩
  | some phase =>
    cases actions.lookup "status".toList with
    | none => exact ⟨rfl, rfl⟩
    | some status => exact ⟨rfl, rfl⟩

theorem given_of_mem (rule : SecRule maps) {item : ActionItem} {name : String}
    (h : item ∈ rule.items) (hname : item.name = name.toList) :
    rule.given name = some item.value := by
  unfold SecRule.given
  cases hfind : rule.items.find? (fun item => item.name = name.toList) with
  | none =>
    rw [List.find?_eq_none] at hfind
    exact absurd (decide_eq_true hname) (hfind item h)
  | some other =>
    have hother := List.find?_some hfind
    rw [decide_eq_true_eq] at hother
    have hsame : other = item := List.inj_on_of_nodup_map rule.distinct
        (List.mem_of_find?_eq_some hfind) h (hother.trans hname.symm)
    rw [hsame]
    rfl

theorem matches_of_no_comma (rule : SecRule maps)
    (hmsg : forall text, ActionItem.msg text ∈ rule.items -> ',' ∉ text) :
    rule.Matches (ruleOf maps 1 rule.vars rule.operator.text rule.actionsText) := by
  have hgiven := rule.lookup_parseActions hmsg
  obtain ⟨item, hitem, hname⟩ := List.mem_map.mp rule.hasId
  have hid : rule.given "id" = some item.value := given_of_mem rule hitem hname
  have hmetadata := @lookup_metadata (parseActions maps rule.actionsText)
    rule.vars (parseOperator rule.operator.text).1
  refine ⟨⟨item.value, hid, ?_⟩, hgiven "msg", ?_, ?_, hmetadata.left.trans (hgiven "phase"),
    hmetadata.right.trans (hgiven "status"), hgiven "severity", ?_⟩
  · unfold ruleOf ruleId
    dsimp only
    rw [hgiven "id", hid]
  · intro text htext
    unfold ruleOf
    dsimp only
    rw [hgiven "msg", htext, Option.getD_some]
  · exact congrArg some (parseOperator_text (fun c hc => (rule.operator_plain c hc).1))
  · unfold ruleOf ruleAction
    dsimp only
    rw [hgiven "deny", hgiven "block", hgiven "allow", hgiven "pass"]

/-- A rule is parsed as it was written exactly when no message has a comma. -/
theorem parsed_iff_no_comma (rule : SecRule maps) :
    (exists parsed, parse maps rule.render = [parsed] ∧ rule.Matches parsed) <->
      forall text, ActionItem.msg text ∈ rule.items -> ',' ∉ text := by
  constructor
  · rintro ⟨parsed, hparsed, hmatches⟩ text htext
    rw [rule.parse_render] at hparsed
    injection hparsed with hparsed
    have hmsg := hmatches.msg
    rw [← hparsed, given_of_mem rule htext rfl] at hmsg
    exact not_mem_comma_of_lookup hmsg
  · intro hmsg
    exact ⟨_, rule.parse_render, matches_of_no_comma rule hmsg⟩

end Faithful

def asciiMaps : CaseMaps where
  toLowercase := fun s => s.map Char.toLower
  toUppercase := fun s => s.map Char.toUpper
  directive := by
    intro rest
    have hfront : "SecRule ".toList.map Char.toUpper = "SECRULE ".toList := by
      decide
    rw [List.map_append, hfront]
    exact List.isPrefixOf_iff_prefix.mpr (List.prefix_append _ _)

theorem plainName_of_all {name : Text} (hne : name ≠ [])
    (h : name.all (fun c => !isBlankOrMark c && c != ':') = true) :
    PlainName name := by
  refine ⟨hne, ?_⟩
  intro c hc
  simpa using List.all_eq_true.mp h c hc

def wordsRule : SecRule asciiMaps where
  vars := "ARGS".toList
  operator := .named .rx "x".toList
  items := [.valued "id".toList "1".toList, .bare "deny".toList, .msg "a,b".toList]
  vars_ne := by decide
  vars_plain := by simp [Text.isWhitespace]
  operator_ne := by decide
  operator_plain := by
    have hall : "@rx x".toList.all (fun c => !SecRule.isForbidden c) = true := by
      decide
    intro c hc
    have hfree := List.all_eq_true.mp hall c hc
    unfold SecRule.isForbidden at hfree
    simpa [and_assoc] using hfree
  items_plain := by
    intro item hitem
    simp only [List.mem_cons, List.not_mem_nil, or_false] at hitem
    rcases hitem with rfl | rfl | rfl
    · refine ⟨plainName_of_all (by decide) (by decide), ?_⟩
      intro c hc
      rw [List.mem_singleton.mp hc]
      rfl
    · exact plainName_of_all (by decide) (by decide)
    · refine ⟨by simp, ?_, ?_⟩
      · rintro c ⟨⟩
        rfl
      · rintro c ⟨⟩
        rfl
  lower := by
    intro item hitem
    simp only [List.mem_cons, List.not_mem_nil, or_false] at hitem
    rcases hitem with rfl | rfl | rfl
    · decide
    · decide
    · decide
  distinct := by
    have hnames : ["id".toList, "deny".toList, "msg".toList].Nodup := by decide
    exact hnames
  hasId := List.mem_cons_self

theorem comma_cuts_message :
    wordsRule.render = "SecRule ARGS \"@rx x\" \"id:1,deny,msg:'a,b'\"".toList ∧
      (parse asciiMaps wordsRule.render).map Rule.description = [some "a".toList] ∧
      ¬ exists parsed, parse asciiMaps wordsRule.render = [parsed] ∧ wordsRule.Matches parsed := by
  have hcut : (parse asciiMaps wordsRule.render).map Rule.description = [some "a".toList] := by
    decide +kernel
  refine ⟨by decide +kernel, hcut, ?_⟩
  rintro ⟨parsed, hparsed, hmatches⟩
  rw [hparsed] at hcut
  injection hcut with hcut
  rw [hmatches.msg] at hcut
  revert hcut
  decide

end ModSec
end Rules
end PrxWaf
