import PrxWaf.Engine.Targets

/-!
# Layers on bytes

A layer of encoding may escape some of the bytes of a character and leave the
others, so that what it gives is no text.  The decoder puts replacement characters
for such bytes and never gets rid of them.
-/

namespace PrxWaf
namespace Engine

open Lib

/-- The bytes `x` are the bytes `s` under so many layers. -/
def ByteLayers : Nat -> List UInt8 -> List UInt8 -> Prop
  | 0, s, x => x = s
  | k + 1, s, x => exists t, ByteLayers k s t ∧ Encodes t x

/-- Every query that hides the payload under so many layers has it listed. -/
def Covered (k : Nat) (s : Text) : Prop :=
  forall ctx, ctx.query ≠ [] -> ByteLayers k (utf8 s) (utf8 ctx.query) -> s ∈ queryValues ctx

variable {b : UInt8} {t bytes : List UInt8} {s : Text} {k : Nat}

theorem hexDigit_lt {n : Nat} (h : hexDigit b = some n) :
    b < 0x80 := by
  have hlow : b ≤ 0x66 := by
    unfold hexDigit at h
    split at h
    · rename_i hdigit
      exact UInt8.le_trans hdigit.2 (by decide)
    · split at h
      · rename_i hlower
        exact hlower.2
      · split at h
        · rename_i hupper
          exact UInt8.le_trans hupper.2 (by decide)
        · cases h
  exact UInt8.lt_of_le_of_lt hlow (by decide)

theorem escaped_lt {hi lo : UInt8} (h : escaped hi lo = some b) :
    hi < 0x80 ∧ lo < 0x80 := by
  unfold escaped at h
  split at h
  · rename_i _ _ hhi hlo
    exact ⟨hexDigit_lt hhi, hexDigit_lt hlo⟩
  · cases h

theorem ascii_of_encodes {s : List UInt8} (h : Encodes s t)
    (hs : forall b, b ∈ s -> b < 0x80) : forall b, b ∈ t -> b < 0x80 := by
  induction h with
  | nil => exact hs
  | keep _ _ _ ih =>
    intro a ha
    rcases List.mem_cons.mp ha with hfirst | hmem
    · exact hs a (List.mem_cons.mpr (Or.inl hfirst))
    · exact ih (fun c hc => hs c (List.mem_cons_of_mem _ hc)) a hmem
  | escape hbyte _ ih =>
    have hdigits := escaped_lt hbyte
    intro a ha
    simp only [List.mem_cons] at ha
    rcases ha with rfl | rfl | rfl | hmem
    · decide
    · exact hdigits.1
    · exact hdigits.2
    · exact ih (fun c hc => hs c (List.mem_cons_of_mem _ hc)) a hmem

theorem ne_nil_of_encodes {s : List UInt8} (h : Encodes s t) (hs : s ≠ []) :
    t ≠ [] := by
  have hle := length_le_of_encodes h
  rintro rfl
  exact hs (List.length_eq_zero_iff.mp (Nat.le_zero.mp hle))

def asciiText (bytes : List UInt8) : Text :=
  bytes.map (fun b => Char.ofNat b.toNat)

theorem utf8_asciiText (h : forall b, b ∈ bytes -> b < 0x80) : utf8 (asciiText bytes) = bytes :=
  utf8_ascii h

theorem asciiText_utf8 (h : IsAscii s) : asciiText (utf8 s) = s :=
  utf8_injective (utf8_asciiText h)

theorem layers_of_byteLayers {x : List UInt8} (hs : IsAscii s) (h : ByteLayers k (utf8 s) x) :
    (forall b, b ∈ x -> b < 0x80) ∧ Layers k s (asciiText x) := by
  induction k generalizing x with
  | zero =>
    rw [ByteLayers] at h
    rw [h]
    exact ⟨hs, asciiText_utf8 hs⟩
  | succ k ih =>
    obtain ⟨t, hinner, houter⟩ := h
    obtain ⟨hascii, hlayers⟩ := ih hinner
    have hx := ascii_of_encodes houter hascii
    refine ⟨hx, _, hlayers, ?_⟩
    unfold Layer
    rw [utf8_asciiText hascii, utf8_asciiText hx]
    exact houter

def hexOf (n : UInt8) : UInt8 :=
  if n < 10 then 0x30 + n else 0x37 + n

theorem escaped_hexOf : forall b : UInt8, escaped (hexOf (b / 16)) (hexOf (b % 16)) = some b := by
  decide +kernel

/-- Escape `%`, `+` and the bytes that meet a condition. -/
def escapeWhere (p : UInt8 -> Bool) (bytes : List UInt8) : List UInt8 :=
  bytes.flatMap (fun b =>
    if b = percent ∨ b = plus ∨ p b then
      [percent, hexOf (b / 16), hexOf (b % 16)]
    else [b])

theorem encodes_escapeWhere (p : UInt8 -> Bool) (bytes : List UInt8) :
    Encodes bytes (escapeWhere p bytes) := by
  induction bytes with
  | nil => exact .nil
  | cons b rest ih =>
    unfold escapeWhere
    rw [List.flatMap_cons]
    split
    · exact .escape (escaped_hexOf b) ih
    · rename_i hkept
      simp only [not_or] at hkept
      exact .keep hkept.1 hkept.2.1 ih

theorem hexOf_lt (b : UInt8) : hexOf (b / 16) < 0x80 ∧ hexOf (b % 16) < 0x80 :=
  escaped_lt (escaped_hexOf b)

theorem mem_escapeWhere {p : UInt8 -> Bool} {a : UInt8}
    (h : a ∈ escapeWhere p bytes) : a < 0x80 ∨ p a = false := by
  obtain ⟨b, _, ha⟩ := List.mem_flatMap.mp h
  split at ha
  · simp only [List.mem_cons, List.not_mem_nil, or_false] at ha
    rcases ha with rfl | rfl | rfl
    · exact Or.inl (by decide)
    · exact Or.inl (hexOf_lt b).1
    · exact Or.inl (hexOf_lt b).2
  · rename_i hkept
    simp only [not_or, Bool.not_eq_true] at hkept
    rw [List.mem_singleton.mp ha]
    exact Or.inr hkept.2.2

def escapeAll (bytes : List UInt8) : List UInt8 :=
  escapeWhere (fun _ => true) bytes

theorem escapeAll_lt (bytes : List UInt8) :
    forall b, b ∈ escapeAll bytes -> b < 0x80 := by
  intro b hb
  rcases mem_escapeWhere hb with hlow | hkept
  · exact hlow
  · cases hkept

theorem escapeWhere_ne_nil (p : UInt8 -> Bool) {bytes : List UInt8}
    (h : bytes ≠ []) : escapeWhere p bytes ≠ [] :=
  ne_nil_of_encodes (encodes_escapeWhere p bytes) h

/-- The first bytes of characters of several bytes are escaped, the others are
not. -/
def escapeFirst (bytes : List UInt8) : List UInt8 :=
  escapeWhere (fun b => 0xC0 ≤ b) bytes

theorem escapeFirst_lt (bytes : List UInt8) :
    forall b, b ∈ escapeFirst bytes -> b < 0xC2 := by
  intro b hb
  rcases mem_escapeWhere hb with hlow | hkept
  · exact UInt8.lt_trans hlow (by decide)
  · have hlt := UInt8.not_le.mp (of_decide_eq_false hkept)
    exact UInt8.lt_trans hlt (by decide)

theorem countP_escapeFirst (bytes : List UInt8) :
    (escapeFirst bytes).countP (fun b => 0x80 ≤ b) = bytes.countP isContinuation := by
  induction bytes with
  | nil => rfl
  | cons b rest ih =>
    unfold escapeFirst escapeWhere at ih ⊢
    rw [List.flatMap_cons, List.countP_append, ih, List.countP_cons, Nat.add_comm]
    congr 1
    split
    · rename_i hescaped
      have hdigits := hexOf_lt b
      have hnot : isContinuation b = false := by
        rcases hescaped with rfl | rfl | hfirst
        · decide
        · decide
        · unfold isContinuation
          rw [Bool.and_eq_false_iff, decide_eq_false_iff_not, decide_eq_false_iff_not, UInt8.not_lt]
          exact Or.inr (of_decide_eq_true hfirst)
      rw [hnot, List.countP_eq_zero.mpr]
      · rfl
      · intro a ha
        simp only [List.mem_cons, List.not_mem_nil, or_false] at ha
        rw [decide_eq_true_eq, UInt8.not_le]
        rcases ha with rfl | rfl | rfl
        · decide
        · exact hdigits.1
        · exact hdigits.2
    · rename_i hkept
      simp only [not_or, decide_eq_true_eq, UInt8.not_le] at hkept
      unfold isContinuation
      rw [List.countP_singleton, decide_eq_true hkept.2.2, Bool.and_true]

theorem ne_first_of_lt (h : b < 0x80) : b ≠ 0xEF := by
  rintro rfl
  exact absurd h (by decide)

theorem urlDecodeBytes_replacementBytes (rest : List UInt8) :
    urlDecodeBytes (replacementBytes ++ rest) = replacementBytes ++ urlDecodeBytes rest := by
  unfold replacementBytes
  rw [List.cons_append, List.cons_append, List.singleton_append,
    urlDecodeBytes_keep _ (by decide) (by decide), urlDecodeBytes_keep _ (by decide) (by decide),
    urlDecodeBytes_keep _ (by decide) (by decide)]
  rfl

theorem replacements_urlDecodeBytes (bytes : List UInt8) :
    replacements bytes ≤ replacements (urlDecodeBytes bytes) := by
  induction hn : bytes.length using Nat.strong_induction_on generalizing bytes with
  | _ n ih =>
    cases bytes with
    | nil => exact Nat.le_refl 0
    | cons b rest =>
      have hrest := ih rest.length (by rw [← hn]; exact Nat.lt_succ_self _) rest rfl
      rcases Decidable.em (replacementBytes <+: b :: rest) with ⟨later, hlater⟩ | hno
      · have hle := ih later.length (by
          rw [← hn, ← hlater, List.length_append]
          exact Nat.lt_add_of_pos_left (by decide)) later rfl
        rw [← hlater, urlDecodeBytes_replacementBytes, replacements_append, replacements_append]
        exact Nat.succ_le_succ hle
      · rw [replacements, if_neg hno, Nat.zero_add]
        have hone : forall c, urlDecodeBytes (b :: rest) = c :: urlDecodeBytes rest ->
              replacements rest ≤ replacements (urlDecodeBytes (b :: rest)) := by
          intro c hdecode
          rw [hdecode]
          exact hrest.trans (replacements_le_append [c] _)
        rcases urlDecodeBytes_cons b rest with ⟨_, hi, lo, later, byte, hlater, hescaped, hdecode⟩ |
            ⟨_, hdecode⟩ | ⟨_, hdecode⟩ | ⟨_, _, hdecode⟩
        · have hdigits := escaped_lt hescaped
          have hle := ih later.length (by
            rw [← hn, hlater]
            simp only [List.length_cons]
            lia) later rfl
          rw [hdecode, hlater, replacements_cons_of_ne _ (ne_first_of_lt hdigits.1),
            replacements_cons_of_ne _ (ne_first_of_lt hdigits.2)]
          exact hle.trans (replacements_le_append [byte] _)
        · exact hone _ hdecode
        · exact hone _ hdecode
        · exact hone _ hdecode

theorem count_le_urlDecode (t : Text) :
    t.count replacementChar ≤ (urlDecode t).count replacementChar :=
  calc t.count replacementChar
      ≤ replacements (utf8 t) := count_le_replacements t
    _ ≤ replacements (urlDecodeBytes (utf8 t)) := replacements_urlDecodeBytes (utf8 t)
    _ ≤ (urlDecode t).count replacementChar := replacements_le_count _ waits_none

theorem mem_queryValues {ctx : InspectCtx} (hquery : ctx.query ≠ []) (s : Text) :
    s ∈ queryValues ctx <-> s = ctx.query ∨ s = urlDecode ctx.query ∨
        s = urlDecode (urlDecode (urlDecode ctx.query)) := by
  rw [queryValues_eq hquery, mem_forms, urlDecodeRecursive_eq]

def ctxWithQuery (query : Text) : InspectCtx :=
  { plainCtx with query := query }

theorem urlDecode_asciiText (h : forall b, b ∈ t -> b < 0x80) (hlayer : Encodes bytes t) :
    urlDecode (asciiText t) = fromUtf8Lossy bytes := by
  unfold urlDecode
  rw [utf8_asciiText h, urlDecodeBytes_of_encodes hlayer]

theorem utf8_ne_nil (h : s ≠ []) : utf8 s ≠ [] :=
  fun hnil => h (utf8_injective hnil)

theorem Covered.listed
    (hcovered : Covered (k + 1) s) (hlayers : ByteLayers k (utf8 s) bytes) (hne : bytes ≠ []) :
    s = asciiText (escapeAll bytes) ∨ s = fromUtf8Lossy bytes ∨
      s = urlDecode (urlDecode (fromUtf8Lossy bytes)) := by
  have hall := escapeAll_lt bytes
  have hlayer : Encodes bytes (escapeAll bytes) := encodes_escapeWhere _ bytes
  have hquery : asciiText (escapeAll bytes) ≠ [] :=
    fun hnil => escapeWhere_ne_nil _ hne (List.map_eq_nil_iff.mp hnil)
  have hbytes : ByteLayers (k + 1) (utf8 s) (utf8 (asciiText (escapeAll bytes))) := by
    rw [utf8_asciiText hall]
    exact ⟨bytes, hlayers, hlayer⟩
  have hlisted := (mem_queryValues hquery s).mp
    (hcovered (ctxWithQuery (asciiText (escapeAll bytes))) hquery hbytes)
  rw [← urlDecode_asciiText hall hlayer]
  exact hlisted

theorem layer_escapeAll (s : Text) :
    Layer s (asciiText (escapeAll (utf8 s))) := by
  unfold Layer
  rw [utf8_asciiText (escapeAll_lt (utf8 s))]
  exact encodes_escapeWhere _ (utf8 s)

theorem covered_ascii_iff (hk : k ≤ 3) (hs : IsAscii s) :
    Covered k s <-> k ≠ 2 ∨ urlDecode s = s := by
  constructor
  · intro hcovered
    rcases Decidable.em (k = 2) with rfl | hne
    · rcases Decidable.em (s = []) with rfl | hsome
      · exact Or.inr rfl
      · obtain ⟨t, hinner⟩ : exists t, Layer s t := ⟨_, layer_escapeAll s⟩
        have hne : utf8 t ≠ [] := ne_nil_of_encodes hinner (utf8_ne_nil hsome)
        have hlisted := hcovered.listed ⟨_, rfl, hinner⟩ hne
        have htwice := two_layers_listed_iff hinner (layer_escapeAll t)
        rw [urlDecode_of_layer (layer_escapeAll t)] at htwice
        rw [fromUtf8Lossy_utf8] at hlisted
        exact Or.inr (htwice.mp hlisted)
    · exact Or.inl hne
  · intro hcases ctx hquery hlayers
    obtain ⟨hascii, htext⟩ := layers_of_byteLayers hs hlayers
    rw [asciiText_utf8 hascii] at htext
    exact (listed_iff hk htext hquery rfl).mpr hcases

/-! A payload of other bytes is not listed if its characters are broken by the
first layer and escaped by the next. -/

section Broken

variable (hs : ¬ IsAscii s)

include hs

theorem ne_asciiText_of_not_ascii {bytes : List UInt8}
    (h : forall b, b ∈ bytes -> b < 0x80) : s ≠ asciiText bytes := by
  rintro rfl
  refine hs (fun b hb => ?_)
  rw [utf8_asciiText h] at hb
  exact h b hb

theorem count_lt_broken :
    s.count replacementChar < (fromUtf8Lossy (escapeFirst (utf8 s))).count replacementChar := by
  rw [fromUtf8Lossy_stray (escapeFirst_lt (utf8 s)), count_map_strayChar, countP_escapeFirst]
  exact count_lt_continuations hs

theorem ne_of_broken {t : Text} (h : (fromUtf8Lossy (escapeFirst (utf8 s))).count replacementChar ≤
      t.count replacementChar) : s ≠ t := by
  have hlt := count_lt_broken hs
  rintro rfl
  lia

theorem escapeFirst_ne_nil : escapeFirst (utf8 s) ≠ [] := by
  refine escapeWhere_ne_nil _ (utf8_ne_nil ?_)
  rintro rfl
  exact hs (fun b hb => absurd hb List.not_mem_nil)

theorem not_covered_two : ¬ Covered 2 s := by
  intro hcovered
  rcases hcovered.listed ⟨_, rfl, encodes_escapeWhere _ (utf8 s)⟩
    (escapeFirst_ne_nil hs) with hraw | hdecoded | hrecursive
  · exact ne_asciiText_of_not_ascii hs (escapeAll_lt _) hraw
  · exact ne_of_broken hs (Nat.le_refl _) hdecoded
  · exact ne_of_broken hs ((count_le_urlDecode _).trans (count_le_urlDecode _)) hrecursive

theorem not_covered_three : ¬ Covered 3 s := by
  intro hcovered
  have hall := escapeAll_lt (escapeFirst (utf8 s))
  have hlossy : fromUtf8Lossy (escapeAll (escapeFirst (utf8 s))) =
      asciiText (escapeAll (escapeFirst (utf8 s))) := by
    rw [← utf8_asciiText hall, fromUtf8Lossy_utf8, utf8_asciiText hall]
  have hdecode := urlDecode_asciiText hall
    (encodes_escapeWhere (fun _ => true) (escapeFirst (utf8 s)))
  rcases hcovered.listed ⟨_, ⟨_, rfl, encodes_escapeWhere _ (utf8 s)⟩,
      encodes_escapeWhere (fun _ => true) (escapeFirst (utf8 s))⟩
    (escapeWhere_ne_nil _ (escapeFirst_ne_nil hs)) with hraw | hdecoded | hrecursive
  · exact ne_asciiText_of_not_ascii hs (escapeAll_lt _) hraw
  · exact ne_asciiText_of_not_ascii hs hall (hdecoded.trans hlossy)
  · refine ne_of_broken hs ?_ hrecursive
    change _ ≤ (urlDecode (urlDecode (fromUtf8Lossy (escapeAll (escapeFirst (utf8 s)))))).count _
    rw [hlossy, hdecode]
    exact count_le_urlDecode _

end Broken

/-- Payloads under so many layers are always listed exactly when there is at most
one layer, or the payload is of single bytes and there are three layers or nothing
to decode in it. -/
theorem covered_iff {k : Nat} (s : Text) (hk : k ≤ 3) :
    Covered k s <-> k ≤ 1 ∨ IsAscii s ∧ (k = 3 ∨ urlDecode s = s) := by
  rcases Classical.em (IsAscii s) with hs | hs
  · rw [covered_ascii_iff hk hs]
    have hcases : k ≠ 2 <-> k ≤ 1 ∨ k = 3 := by lia
    rw [hcases, and_iff_right hs, or_assoc]
  · constructor
    · intro hcovered
      match k, hk with
      | 0, _ => exact Or.inl (by decide)
      | 1, _ => exact Or.inl (by decide)
      | 2, _ => exact absurd hcovered (not_covered_two hs)
      | 3, _ => exact absurd hcovered (not_covered_three hs)
    · rintro (hlow | ⟨hascii, _⟩)
      · intro ctx hquery hlayers
        refine (listed_iff hk ?_ hquery rfl).mpr (Or.inl (by lia))
        match k, hlow, hlayers with
        | 0, _, hraw => exact utf8_injective hraw
        | 1, _, ⟨_, hraw, hlayer⟩ =>
          rw [hraw] at hlayer
          exact ⟨s, rfl, hlayer⟩
      · exact absurd hascii hs

theorem script_covered : Covered 2 "<a>".toList := by
  have hall : (utf8 "<a>".toList).all
      (fun b => b < 128 ∧ b ≠ percent ∧ b ≠ plus) = true := by decide
  have hplain : forall b, b ∈ utf8 "<a>".toList -> b < 128 ∧ b ≠ percent ∧ b ≠ plus :=
    fun b hb => of_decide_eq_true (List.all_eq_true.mp hall b hb)
  refine (covered_iff _ (by decide)).mpr (Or.inr ⟨?_, Or.inr ?_⟩)
  · exact fun b hb => (hplain b hb).1
  · exact urlDecode_of_plain (fun b hb => (hplain b hb).2)

/-- The sum is decoded once too often: what is listed is the text with a space. -/
theorem sum_not_listed :
    ByteLayers 2 (utf8 "1+1".toList) (utf8 "1%252B1".toList) ∧
      (requestTargets (ctxWithQuery "1%252B1".toList)).map Prod.snd =
        ["/".toList, "1%252B1".toList, "1%2B1".toList, "1 1".toList] ∧
      "1+1".toList ∉ queryValues (ctxWithQuery "1%252B1".toList) := by
  have hinner : Encodes (utf8 "1+1".toList) (utf8 "1%2B1".toList) := by
    change Encodes [0x31, 0x2B, 0x31] [0x31, 0x25, 0x32, 0x42, 0x31]
    exact .keep (by decide) (by decide) (.escape (by decide) (.keep (by decide) (by decide) .nil))
  have houter : Encodes (utf8 "1%2B1".toList) (utf8 "1%252B1".toList) := by
    change Encodes [0x31, 0x25, 0x32, 0x42, 0x31] [0x31, 0x25, 0x32, 0x35, 0x32, 0x42, 0x31]
    exact .keep (by decide) (by decide) (.escape (by decide)
      (.keep (by decide) (by decide) (.keep (by decide) (by decide)
        (.keep (by decide) (by decide) .nil))))
  refine ⟨⟨_, ⟨_, rfl, hinner⟩, houter⟩, by decide +kernel, ?_⟩
  decide +kernel

end Engine
end PrxWaf
