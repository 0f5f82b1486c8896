import PrxWaf.Engine.Context

/-!
# What the detectors look at

The detectors search the parts of a request in three forms: as they came, decoded
once, and decoded up to three times.  A payload may be hidden under layers of
percent-encoding; it is found if one of the forms is the payload itself.
-/

namespace PrxWaf
namespace Engine

open Lib

def percent : UInt8 := 0x25

def plus : UInt8 := 0x2B

/-- `char::to_digit` with radix 16. -/
def hexDigit (b : UInt8) : Option Nat :=
  if 0x30 ≤ b ∧ b ≤ 0x39 then some (b.toNat - 0x30)
  else if 0x61 ≤ b ∧ b ≤ 0x66 then some (b.toNat - 0x61 + 10)
  else if 0x41 ≤ b ∧ b ≤ 0x46 then some (b.toNat - 0x41 + 10)
  else none

def escaped (hi lo : UInt8) : Option UInt8 :=
  match hexDigit hi, hexDigit lo with
  | some h, some l => some (UInt8.ofNat (h * 16 + l))
  | _, _ => none

def urlDecodeBytes : List UInt8 -> List UInt8
  | [] => []
  | b :: rest =>
    if b = percent then
      match rest with
      | hi :: lo :: later =>
        match escaped hi lo with
        | some byte => byte :: urlDecodeBytes later
        | none => b :: urlDecodeBytes (hi :: lo :: later)
      | short => b :: urlDecodeBytes short
    else if b = plus then 0x20 :: urlDecodeBytes rest
    else b :: urlDecodeBytes rest

def urlDecode (s : Text) : Text :=
  fromUtf8Lossy (urlDecodeBytes (utf8 s))

/-- Decode so many times, or until nothing changes. -/
def decodeAgain : Nat -> Text -> Text
  | 0, current => current
  | passes + 1, current =>
    let next := urlDecode current
    if next = current then current else decodeAgain passes next

def maxIterations : Nat := 3

def urlDecodeRecursive (input : Text) : Text :=
  decodeAgain (maxIterations - 1) (urlDecode input)

/-! ## Targets -/

inductive TargetField where
  | path
  | query
  | cookie
  | body
  deriving DecidableEq

inductive TargetForm where
  | raw
  | decoded
  | decodedRecursive
  deriving DecidableEq

structure Location where
  field : TargetField
  form : TargetForm
  deriving DecidableEq

def TargetField.label : TargetField -> Text
  | .path => "path".toList
  | .query => "query".toList
  | .cookie => "cookie".toList
  | .body => "body".toList

def TargetForm.label : TargetForm -> Text
  | .raw => []
  | .decoded => "(decoded)".toList
  | .decodedRecursive => "(decoded-recursive)".toList

def Location.label (location : Location) : Text :=
  location.field.label ++ location.form.label

/-- The forms of one field.  A form that is the same as the one before it is left
out. -/
def forms (field : TargetField) (value : Text) : List (Location × Text) :=
  let decoded := urlDecode value
  let decodedRecursive := urlDecodeRecursive value
  (⟨field, .raw⟩, value) ::
    ((if decoded ≠ value then [(⟨field, .decoded⟩, decoded)] else []) ++
      (if decodedRecursive ≠ decoded then
        [(⟨field, .decodedRecursive⟩, decodedRecursive)]
      else []))

def requestTargets (ctx : InspectCtx) : List (Location × Text) :=
  forms .path ctx.path ++ (if ctx.query = [] then [] else forms .query ctx.query) ++
    ((ctx.headers.lookup "cookie".toList).elim [] (forms .cookie)) ++
    (if ctx.bodyPreview = [] then []
      else forms .body (fromUtf8Lossy ctx.bodyPreview))

def queryPart (targets : List (Location × Text)) : List Text :=
  targets.filterMap (fun target =>
    if target.1.field = .query then some target.2 else none)

def queryValues (ctx : InspectCtx) : List Text :=
  queryPart (requestTargets ctx)

/-- One layer on bytes: `%` and `+` are escaped, and any other byte may be. -/
inductive Encodes : List UInt8 -> List UInt8 -> Prop where
  | nil : Encodes [] []
  | keep {b : UInt8} {s t : List UInt8} (hpercent : b ≠ percent)
      (hplus : b ≠ plus) (rest : Encodes s t) : Encodes (b :: s) (b :: t)
  | escape {b hi lo : UInt8} {s t : List UInt8} (hbyte : escaped hi lo = some b)
      (rest : Encodes s t) : Encodes (b :: s) (percent :: hi :: lo :: t)

/-- One layer of encoding takes a text to a text. -/
def Layer (s t : Text) : Prop :=
  Encodes (utf8 s) (utf8 t)

/-- The text `x` is the text `s` under so many layers. -/
def Layers : Nat -> Text -> Text -> Prop
  | 0, s, x => x = s
  | k + 1, s, x => exists t, Layers k s t ∧ Layer t x

variable (passes : Nat) (rest : List UInt8) {s x : Text} {field : TargetField}
  {ctx : InspectCtx}

theorem urlDecodeBytes_escape {hi lo b : UInt8} (h : escaped hi lo = some b) :
    urlDecodeBytes (percent :: hi :: lo :: rest) = b :: urlDecodeBytes rest := by
  rw [urlDecodeBytes, if_pos rfl, h]

theorem urlDecodeBytes_keep {b : UInt8} (hpercent : b ≠ percent) (hplus : b ≠ plus) :
    urlDecodeBytes (b :: rest) = b :: urlDecodeBytes rest := by
  rw [urlDecodeBytes.eq_def]
  dsimp only
  rw [if_neg hpercent, if_neg hplus]

theorem urlDecodeBytes_cons (b : UInt8) (rest : List UInt8) :
    (b = percent ∧ exists hi lo later byte, rest = hi :: lo :: later ∧
        escaped hi lo = some byte ∧ urlDecodeBytes (b :: rest) = byte :: urlDecodeBytes later) ∨
      (b = percent ∧ urlDecodeBytes (b :: rest) = percent :: urlDecodeBytes rest) ∨
      (b = plus ∧ urlDecodeBytes (b :: rest) = 0x20 :: urlDecodeBytes rest) ∨
      (b ≠ percent ∧ b ≠ plus ∧ urlDecodeBytes (b :: rest) = b :: urlDecodeBytes rest) := by
  rw [urlDecodeBytes.eq_def]
  dsimp only
  split
  · rename_i hpercent
    split
    · rename_i hi lo later
      split
      · rename_i byte hescaped
        exact Or.inl ⟨hpercent, hi, lo, later, byte, rfl, hescaped, rfl⟩
      · rw [hpercent]
        exact Or.inr (Or.inl ⟨rfl, rfl⟩)
    · rw [hpercent]
      exact Or.inr (Or.inl ⟨rfl, rfl⟩)
  · rename_i hpercent
    split
    · rename_i hplus
      exact Or.inr (Or.inr (Or.inl ⟨hplus, rfl⟩))
    · rename_i hplus
      exact Or.inr (Or.inr (Or.inr ⟨hpercent, hplus, rfl⟩))

theorem urlDecodeBytes_of_encodes {s t : List UInt8} (h : Encodes s t) :
    urlDecodeBytes t = s := by
  induction h with
  | nil => rfl
  | keep hpercent hplus _ ih => rw [urlDecodeBytes_keep _ hpercent hplus, ih]
  | escape hbyte _ ih => rw [urlDecodeBytes_escape _ hbyte, ih]

theorem urlDecode_of_layer {t : Text} (h : Layer s t) : urlDecode t = s := by
  unfold urlDecode
  rw [urlDecodeBytes_of_encodes h, fromUtf8Lossy_utf8]

theorem length_le_of_encodes {s t : List UInt8} (h : Encodes s t) :
    s.length ≤ t.length := by
  induction h with
  | nil => exact Nat.le_refl 0
  | keep _ _ _ ih => exact Nat.succ_le_succ ih
  | escape _ _ ih =>
    simp only [List.length_cons]
    lia

theorem eq_of_encodes {s t : List UInt8} (h : Encodes s t)
    (hlength : t.length ≤ s.length) : s = t := by
  induction h with
  | nil => rfl
  | keep _ _ _ ih => rw [ih (Nat.le_of_succ_le_succ hlength)]
  | escape _ hrest _ =>
    have hle := length_le_of_encodes hrest
    simp only [List.length_cons] at hlength
    lia

theorem field_of_mem_forms {value : Text}
    {target : Location × Text} (h : target ∈ forms field value) :
    target.1.field = field := by
  unfold forms at h
  dsimp only at h
  rcases List.mem_cons.mp h with hraw | hrest
  · rw [hraw]
  · rcases List.mem_append.mp hrest with hdecoded | hrecursive
    · split at hdecoded
      · rw [List.mem_singleton.mp hdecoded]
      · cases hdecoded
    · split at hrecursive
      · rw [List.mem_singleton.mp hrecursive]
      · cases hrecursive

theorem mem_forms (field : TargetField) (value s : Text) :
    s ∈ (forms field value).map Prod.snd <->
      s = value ∨ s = urlDecode value ∨ s = urlDecodeRecursive value := by
  unfold forms
  dsimp only
  rw [List.map_cons, List.map_append, List.mem_cons, List.mem_append]
  rcases Decidable.em (urlDecode value = value) with hsame | hdecoded
  · rw [if_neg (not_not_intro hsame), hsame]
    rcases Decidable.em (urlDecodeRecursive value = value) with heq | hne
    · rw [if_neg (not_not_intro heq), heq]
      simp
    · rw [if_pos hne]
      simp
  · rw [if_pos hdecoded]
    rcases Decidable.em (urlDecodeRecursive value = urlDecode value) with heq | hne
    · rw [if_neg (not_not_intro heq), heq]
      simp
    · rw [if_pos hne]
      simp

theorem queryPart_append (front back : List (Location × Text)) :
    queryPart (front ++ back) = queryPart front ++ queryPart back :=
  List.filterMap_append

theorem queryPart_forms_query (value : Text) :
    queryPart (forms .query value) = (forms .query value).map Prod.snd := by
  unfold queryPart
  rw [← List.filterMap_eq_map]
  refine List.filterMap_congr ?_
  intro target htarget
  rw [if_pos (field_of_mem_forms htarget)]
  rfl

theorem queryPart_forms_other (h : field ≠ .query)
    (value : Text) : queryPart (forms field value) = [] := by
  refine List.filterMap_eq_nil_iff.mpr ?_
  intro target htarget
  rw [field_of_mem_forms htarget, if_neg h]

theorem queryValues_eq (hquery : ctx.query ≠ []) :
    queryValues ctx = (forms .query ctx.query).map Prod.snd := by
  have hcookie : queryPart ((ctx.headers.lookup "cookie".toList).elim [] (forms .cookie)) = [] := by
    cases ctx.headers.lookup "cookie".toList with
    | none => rfl
    | some cookie => exact queryPart_forms_other (by decide) cookie
  have hbody : queryPart (if ctx.bodyPreview = [] then []
      else forms .body (fromUtf8Lossy ctx.bodyPreview)) = [] := by
    split
    · rfl
    · exact queryPart_forms_other (by decide) _
  have hpath : queryPart (forms .path ctx.path) = [] := queryPart_forms_other (by decide) ctx.path
  unfold queryValues requestTargets
  rw [if_neg hquery, queryPart_append, queryPart_append, queryPart_append,
    hpath, hcookie, hbody, List.append_nil, List.append_nil, List.nil_append, queryPart_forms_query]

theorem decodeAgain_of_fixed {current : Text}
    (h : urlDecode current = current) : decodeAgain passes current = current := by
  cases passes with
  | zero => rfl
  | succ passes =>
    unfold decodeAgain
    exact if_pos h

theorem decodeAgain_succ (current : Text) :
    decodeAgain (passes + 1) current = decodeAgain passes (urlDecode current) := by
  rcases Decidable.em (urlDecode current = current) with hsame | hchanged
  · rw [decodeAgain_of_fixed (passes + 1) hsame, hsame, decodeAgain_of_fixed passes hsame]
  · rw [decodeAgain]
    exact if_neg hchanged

theorem urlDecodeRecursive_eq (input : Text) :
    urlDecodeRecursive input = urlDecode (urlDecode (urlDecode input)) := by
  unfold urlDecodeRecursive maxIterations
  rw [decodeAgain_succ, decodeAgain_succ]
  rfl

theorem encodes_self {s : List UInt8}
    (h : forall b, b ∈ s -> b ≠ percent ∧ b ≠ plus) : Encodes s s := by
  induction s with
  | nil => exact .nil
  | cons b rest ih =>
    obtain ⟨hpercent, hplus⟩ := h b List.mem_cons_self
    exact .keep hpercent hplus (ih (fun c hc => h c (List.mem_cons_of_mem b hc)))

theorem urlDecode_of_plain (h : forall b, b ∈ utf8 s -> b ≠ percent ∧ b ≠ plus) : urlDecode s = s :=
  urlDecode_of_layer (encodes_self h)

theorem urlDecode_of_two_layers {t : Text} (hinner : Layer s t)
    (houter : Layer t s) : urlDecode s = s := by
  have hsame : s = t := utf8_injective (eq_of_encodes hinner (length_le_of_encodes houter))
  rw [← hsame] at hinner
  exact urlDecode_of_layer hinner

theorem two_layers_listed_iff {t : Text} (hinner : Layer s t) (houter : Layer t x) :
    s = x ∨ s = urlDecode x ∨ s = urlDecode (urlDecode (urlDecode x)) <-> urlDecode s = s := by
  rw [urlDecode_of_layer houter, urlDecode_of_layer hinner]
  constructor
  · rintro (hraw | hdecoded | hrecursive)
    · rw [← hraw] at houter
      exact urlDecode_of_two_layers hinner houter
    · rw [← hdecoded] at hinner
      exact urlDecode_of_layer hinner
    · exact hrecursive.symm
  · intro hfixed
    exact Or.inr (Or.inr hfixed.symm)

theorem listed_iff {k : Nat} (hk : k ≤ 3)
    (hlayers : Layers k s x) (hx : x ≠ []) (hquery : ctx.query = x) :
    s ∈ queryValues ctx <-> k ≠ 2 ∨ urlDecode s = s := by
  rw [queryValues_eq (by rw [hquery]; exact hx), mem_forms, hquery, urlDecodeRecursive_eq]
  match k, hlayers with
  | 0, hraw =>
    exact ⟨fun _ => Or.inl (by decide), fun _ => Or.inl hraw.symm⟩
  | 1, ⟨_, hraw, hlayer⟩ =>
    have hdecoded := urlDecode_of_layer hlayer
    rw [hraw] at hdecoded
    exact ⟨fun _ => Or.inl (by decide), fun _ => Or.inr (Or.inl hdecoded.symm)⟩
  | 2, ⟨_, ⟨_, hraw, hinner⟩, houter⟩ =>
    rw [hraw] at hinner
    rw [two_layers_listed_iff hinner houter]
    exact ⟨Or.inr, fun h => h.resolve_left (by decide)⟩
  | 3, ⟨_, ⟨_, ⟨_, hraw, hinner⟩, hmiddle⟩, houter⟩ =>
    rw [hraw] at hinner
    rw [urlDecode_of_layer houter, urlDecode_of_layer hmiddle, urlDecode_of_layer hinner]
    exact ⟨fun _ => Or.inl (by decide), fun _ => Or.inr (Or.inr rfl)⟩

end Engine
end PrxWaf
