import PrxWaf.DeviceFp.Capture

/-!
# The text of an HTTP/2 capture

The published fingerprint holds a text of four fields.  A field without content is
written as `00` or `0`, which no content is written as.
-/

namespace PrxWaf
namespace DeviceFp
namespace H2AkamaiFingerprint

open Lib

def encodeSettings (settings : List (UInt16 × UInt32)) : Text :=
  [';'].intercalate (settings.map (fun s =>
    [':'].intercalate [decimal s.1.toNat, decimal s.2.toNat]))

/-- The first increment for the connection itself, which is stream 0. -/
def connectionWindow (updates : List (UInt32 × UInt32)) : Option UInt32 :=
  (updates.find? (fun update => update.1 == 0)).map Prod.snd

def encodeWindow (updates : List (UInt32 × UInt32)) : Text :=
  match connectionWindow updates with
  | none => "00".toList
  | some inc => decimal inc.toNat

def encodePriority (p : PriorityFrame) : Text :=
  [':'].intercalate [decimal p.streamId.toNat, decimal p.exclusive.toNat,
    decimal p.dependsOn.toNat, decimal p.weight.toNat]

def encodePriorities (priorities : List PriorityFrame) : Text :=
  if priorities = [] then "0".toList else [','].intercalate (priorities.map encodePriority)

def pseudoLetter (name : Text) : Text :=
  if name = ":method".toList then "m".toList
  else if name = ":authority".toList then "a".toList
  else if name = ":scheme".toList then "s".toList
  else if name = ":path".toList then "p".toList
  else if name = ":status".toList then "st".toList
  else "x".toList

def encodePseudo (order : Option (List Text)) : Text :=
  match order with
  | none => "0".toList
  | some headers =>
    if headers = [] then "0".toList else [','].intercalate (headers.map pseudoLetter)

def IsEmpty (h2 : H2Capture) : Prop :=
  h2.settings = [] ∧ h2.windowUpdates = [] ∧ h2.priority = [] ∧ h2.pseudoHeaderOrder = none

instance (h2 : H2Capture) : Decidable (IsEmpty h2) :=
  inferInstanceAs (Decidable (_ ∧ _))

def canonical (h2 : H2Capture) : Option Text :=
  if IsEmpty h2 then none
  else some (['|'].intercalate [encodeSettings h2.settings, encodeWindow h2.windowUpdates,
    encodePriorities h2.priority, encodePseudo h2.pseudoHeaderOrder])

/-- The published value holds both a part of the hash and the text. -/
def compute (sha256 : List UInt8 -> List UInt8) (raw : RawCapture) : Option Text :=
  (canonical raw.h2).map (fun text => (hexEncode (sha256 (utf8 text))).take 12 ++ ':' :: text)

theorem not_mem_numbers {c sep : Char} (hdigit : ¬ c.isDigit = true) (hsep : c ≠ sep)
    (numbers : List Nat) : c ∉ [sep].intercalate (numbers.map decimal) := by
  refine not_mem_intercalate hsep (forall_mem_map ?_ numbers)
  exact fun _ => not_mem_decimal hdigit

theorem numbers_inj {xs ys : List Nat} :
    [':'].intercalate (xs.map decimal) = [':'].intercalate (ys.map decimal) <-> xs = ys :=
  intercalate_map_inj decimal_injective (fun n => ⟨decimal_ne_nil n, not_mem_decimal (by decide)⟩)

theorem colon_mem_numbers (m n : Nat) (rest : List Nat) :
    ':' ∈ [':'].intercalate ((m :: n :: rest).map decimal) := by
  rw [List.map_cons, List.map_cons, List.intercalate_cons_cons]
  exact List.mem_append_left _ (List.mem_append_right _ (List.mem_singleton_self _))

def settingNumbers (s : UInt16 × UInt32) : List Nat :=
  [s.1.toNat, s.2.toNat]

def priorityNumbers (p : PriorityFrame) : List Nat :=
  [p.streamId.toNat, p.exclusive.toNat, p.dependsOn.toNat, p.weight.toNat]

theorem settingNumbers_injective : Function.Injective settingNumbers := by
  rintro ⟨id, value⟩ ⟨id', value'⟩ h
  simpa [settingNumbers, UInt16.toNat_inj, UInt32.toNat_inj] using h

theorem priorityNumbers_injective : Function.Injective priorityNumbers := by
  rintro ⟨stream, parent, weight, exclusive⟩ ⟨stream', parent', weight', exclusive'⟩ h
  simp only [priorityNumbers, List.cons.injEq, UInt32.toNat_inj, UInt8.toNat_inj] at h
  obtain ⟨rfl, hexclusive, rfl, rfl, -⟩ := h
  have hflag : forall a b : Bool, a.toNat = b.toNat -> a = b := by decide
  rw [hflag _ _ hexclusive]

theorem encodeSettings_inj (settings others : List (UInt16 × UInt32)) :
    encodeSettings settings = encodeSettings others <-> settings = others :=
  intercalate_map_inj (fun _ _ h => settingNumbers_injective (numbers_inj.mp h))
    (fun s => ⟨List.ne_nil_of_mem (colon_mem_numbers s.1.toNat s.2.toNat []),
      not_mem_numbers (by decide) (by decide) (settingNumbers s)⟩)

theorem encodeWindow_inj (updates others : List (UInt32 × UInt32)) :
    encodeWindow updates = encodeWindow others <->
      connectionWindow updates = connectionWindow others := by
  -- two zeros have the value of one, but are not how it is printed
  have hzeros : forall inc : UInt32, "00".toList ≠ decimal inc.toNat := by
    intro inc h
    have hvalue : 0 = inc.toNat := (congrArg Text.digitsValue h).trans (digitsValue_decimal _)
    rw [← hvalue] at h
    exact absurd h (by decide)
  unfold encodeWindow
  cases connectionWindow updates with
  | none =>
    cases connectionWindow others with
    | none => exact iff_of_true rfl rfl
    | some inc => exact iff_of_false (hzeros inc) nofun
  | some inc =>
    cases connectionWindow others with
    | none => exact iff_of_false (hzeros inc).symm nofun
    | some inc' =>
      dsimp only
      rw [decimal_injective.eq_iff, UInt32.toNat_inj, Option.some_inj]

/-- The first update of stream 0 has the increment. -/
def FirstIncrement (updates : List (UInt32 × UInt32)) (inc : UInt32) : Prop :=
  exists front back, updates = front ++ (0, inc) :: back ∧
    forall update, update ∈ front -> update.1 ≠ 0

theorem connectionWindow_eq_some {updates : List (UInt32 × UInt32)} {inc : UInt32} :
    connectionWindow updates = some inc <-> FirstIncrement updates inc := by
  unfold connectionWindow
  rw [Option.map_eq_some_iff]
  constructor
  · rintro ⟨⟨stream, found⟩, hfind, rfl⟩
    rcases List.find?_eq_some_iff_append.mp hfind with ⟨hstream, front, back, hsplit, hfront⟩
    change (stream == 0) = true at hstream
    rw [beq_iff_eq] at hstream
    rw [hstream] at hsplit
    exact ⟨front, back, hsplit, fun update hupdate => by simpa using hfront update hupdate⟩
  · rintro ⟨front, back, hsplit, hfront⟩
    refine ⟨(0, inc), List.find?_eq_some_iff_append.mpr ⟨rfl, front, back, hsplit, ?_⟩, rfl⟩
    intro update hupdate
    simpa using hfront update hupdate

theorem connectionWindow_eq_iff {updates others : List (UInt32 × UInt32)} :
    connectionWindow updates = connectionWindow others <->
      forall inc, FirstIncrement updates inc <-> FirstIncrement others inc := by
  rw [Option.ext_iff]
  refine forall_congr' (fun inc => ?_)
  rw [connectionWindow_eq_some, connectionWindow_eq_some]

theorem zero_or_joined_inj {element : Type} {text : element -> Text} [DecidableEq element]
    (hpiece : forall x, IsPiece ',' (text x)) {xs ys : List element}
    (hzero : forall zs : List element, zs ≠ [] -> "0".toList ≠ [','].intercalate (zs.map text)) :
    (if xs = [] then "0".toList else [','].intercalate (xs.map text)) =
        (if ys = [] then "0".toList else [','].intercalate (ys.map text)) <->
      xs.map text = ys.map text := by
  split
  · rename_i hx
    split
    · rename_i hy
      rw [hx, hy]
      exact iff_of_true rfl rfl
    · rename_i hy
      rw [hx]
      exact iff_of_false (hzero ys hy) (fun h => hy (List.map_eq_nil_iff.mp h.symm))
  · rename_i hx
    split
    · rename_i hy
      rw [hy]
      exact iff_of_false (hzero xs hx).symm (fun h => hx (List.map_eq_nil_iff.mp h))
    · exact intercalate_inj_of_pieces (forall_mem_map hpiece xs) (forall_mem_map hpiece ys)

theorem colon_mem_encodePriority (p : PriorityFrame) : ':' ∈ encodePriority p :=
  colon_mem_numbers p.streamId.toNat p.exclusive.toNat [p.dependsOn.toNat, p.weight.toNat]

theorem encodePriorities_inj (priorities others : List PriorityFrame) :
    encodePriorities priorities = encodePriorities others <-> priorities = others := by
  have hinjective : Function.Injective encodePriority :=
    fun _ _ h => priorityNumbers_injective (numbers_inj.mp h)
  have hpiece : forall p, IsPiece ',' (encodePriority p) :=
    fun p => ⟨List.ne_nil_of_mem (colon_mem_encodePriority p),
      not_mem_numbers (by decide) (by decide) (priorityNumbers p)⟩
  rw [← (List.map_injective_iff.mpr hinjective).eq_iff]
  refine zero_or_joined_inj hpiece ?_
  -- the text of a frame has a colon
  intro frames hne h
  obtain ⟨p, hp⟩ := List.exists_mem_of_ne_nil frames hne
  have hcolon : ':' ∈ [','].intercalate (frames.map encodePriority) :=
    Text.mem_intercalate_of_mem (List.mem_map_of_mem hp) (colon_mem_encodePriority p)
  rw [← h] at hcolon
  exact absurd hcolon (by decide)

def pseudoLetters (order : Option (List Text)) : List Text :=
  (order.getD []).map pseudoLetter

theorem pseudoLetter_mem (name : Text) : pseudoLetter name ∈
    ["m".toList, "a".toList, "s".toList, "p".toList, "st".toList, "x".toList] := by
  unfold pseudoLetter
  repeat' split
  all_goals simp

theorem isPiece_pseudoLetter (name : Text) : IsPiece ',' (pseudoLetter name) ∧
    '0' ∉ pseudoLetter name ∧ '|' ∉ pseudoLetter name := by
  have h := pseudoLetter_mem name
  revert h
  generalize pseudoLetter name = letter
  unfold IsPiece
  revert letter
  decide

theorem encodePseudo_eq (order : Option (List Text)) :
    encodePseudo order = if order.getD [] = [] then "0".toList
      else [','].intercalate (pseudoLetters order) := by
  cases order <;> rfl

theorem encodePseudo_inj (order other : Option (List Text)) :
    encodePseudo order = encodePseudo other <-> pseudoLetters order = pseudoLetters other := by
  rw [encodePseudo_eq, encodePseudo_eq]
  refine zero_or_joined_inj (fun name => (isPiece_pseudoLetter name).1) ?_
  intro headers hne h
  have hzero : '0' ∉ [','].intercalate (headers.map pseudoLetter) := not_mem_intercalate (by decide)
      (forall_mem_map (fun name => (isPiece_pseudoLetter name).2.1) headers)
  rw [← h] at hzero
  exact absurd hzero (by decide)

theorem bar_not_mem_zero_or_joined {element : Type} {text : element -> Text}
    [DecidableEq element] (h : forall x, '|' ∉ text x) (xs : List element) :
    '|' ∉ if xs = [] then "0".toList else [','].intercalate (xs.map text) := by
  split
  · decide
  · exact not_mem_intercalate (by decide) (forall_mem_map h xs)

theorem bar_not_mem_fields (h2 : H2Capture) : forall piece,
    piece ∈ [encodeSettings h2.settings, encodeWindow h2.windowUpdates,
      encodePriorities h2.priority, encodePseudo h2.pseudoHeaderOrder] -> '|' ∉ piece := by
  have hsettings : '|' ∉ encodeSettings h2.settings :=
    not_mem_intercalate (by decide) (forall_mem_map
      (fun s => not_mem_numbers (by decide) (by decide) (settingNumbers s)) h2.settings)
  have hwindow : '|' ∉ encodeWindow h2.windowUpdates := by
    unfold encodeWindow
    split
    · decide
    · exact not_mem_decimal (by decide)
  have hpriorities : '|' ∉ encodePriorities h2.priority := bar_not_mem_zero_or_joined
      (fun p => not_mem_numbers (by decide) (by decide) (priorityNumbers p)) h2.priority
  have hpseudo : '|' ∉ encodePseudo h2.pseudoHeaderOrder := by
    rw [encodePseudo_eq]
    exact bar_not_mem_zero_or_joined (fun name => (isPiece_pseudoLetter name).2.2) _
  simp [hsettings, hwindow, hpriorities, hpseudo]

/-- The text shows the settings, the first increment of the connection, the priorities
and the letters of the pseudo-headers. -/
theorem akamai_separates {h2 h2' : H2Capture} (h : ¬ IsEmpty h2) (h' : ¬ IsEmpty h2') :
    canonical h2 = canonical h2' <-> h2.settings = h2'.settings ∧
      (forall inc, FirstIncrement h2.windowUpdates inc <-> FirstIncrement h2'.windowUpdates inc) ∧
      h2.priority = h2'.priority ∧
      pseudoLetters h2.pseudoHeaderOrder = pseudoLetters h2'.pseudoHeaderOrder := by
  unfold canonical
  rw [if_neg h, if_neg h', Option.some_inj, intercalate_inj (List.cons_ne_nil _ _)
    (List.cons_ne_nil _ _) (bar_not_mem_fields h2) (bar_not_mem_fields h2')]
  simp only [List.cons.injEq, and_true, encodeSettings_inj, encodeWindow_inj,
    connectionWindow_eq_iff, encodePriorities_inj, encodePseudo_inj]

def captureWith (stream : UInt32) : H2Capture :=
  { settings := [(4, 65535)]
    windowUpdates := [(stream, 100), (0, 0)]
    priority := []
    pseudoHeaderOrder := none }

theorem other_streams_not_shown :
    ¬ IsEmpty (captureWith 1) ∧ canonical (captureWith 1) = canonical (captureWith 3) :=
  ⟨by decide, (akamai_separates (by decide) (by decide)).mpr
    ⟨rfl, connectionWindow_eq_iff.mp rfl, rfl, rfl⟩⟩

end H2AkamaiFingerprint
end DeviceFp
end PrxWaf
