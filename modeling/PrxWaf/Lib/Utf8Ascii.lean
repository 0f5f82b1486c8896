import PrxWaf.Lib.Utf8

/-!
# Single bytes in decoded text

The lossy decoder gives an ASCII character exactly for the byte of that character.
So a word of ASCII characters stands in the text where its bytes stand in the bytes.
-/

namespace PrxWaf
namespace Lib

def asciiChar (b : UInt8) : Char :=
  Char.ofNat b.toNat

variable {b : UInt8}

theorem toNat_asciiChar (h : b < 0x80) :
    (asciiChar b).toNat = b.toNat := by
  have hlow : b.toNat < 128 := UInt8.lt_iff_toNat_lt.mp h
  exact toNat_val_ofNat (Or.inl (by lia))

theorem asciiChar_injective {a : UInt8} (ha : a < 0x80) (hb : b < 0x80)
    (h : asciiChar a = asciiChar b) : a = b := by
  refine UInt8.toNat_inj.mp ?_
  rw [← toNat_asciiChar ha, ← toNat_asciiChar hb, h]

def IsWide (c : Char) : Prop :=
  128 ≤ c.toNat

theorem asciiChar_not_isWide (h : b < 0x80) :
    ¬ IsWide (asciiChar b) := by
  have hlow : b.toNat < 128 := UInt8.lt_iff_toNat_lt.mp h
  unfold IsWide
  rw [toNat_asciiChar h]
  lia

theorem isWide_replacementChar : IsWide replacementChar := by
  unfold IsWide
  decide

/-- Whatever bytes follow, the character that they complete is a wide one.  The
bounds are those of the code with the next byte. -/
def PartialChar.Wide (p : PartialChar) : Prop :=
  let least := p.code * 64 + p.low.toNat % 64
  let greatest := p.code * 64 + p.high.toNat % 64
  (0x80 ≤ p.low ∧ p.high ≤ 0xBF) ∧
    ((p.owed = 1 ∧ 128 ≤ least ∧ (greatest < 0xD800 ∨ 0xE000 ≤ least) ∧
        greatest < 0x110000) ∨
      (p.owed = 2 ∧ 2 ≤ least ∧ (greatest < 864 ∨ 896 ≤ least) ∧ greatest < 17408) ∨
      (p.owed = 3 ∧ 14 ≤ least ∧ greatest < 272))

instance (p : PartialChar) : Decidable p.Wide :=
  inferInstanceAs (Decidable (_ ∧ _))

def StateWide (state : Option PartialChar) : Prop :=
  forall p, p ∈ state -> p.Wide

theorem stateWide_none : StateWide none :=
  fun _ h => nomatch h

theorem stateWide_beginChar (b : UInt8) : StateWide (beginChar b).2 := by
  have hall : forall b : UInt8, (beginChar b).2.all (fun p => p.Wide) = true := by
    decide +kernel
  intro p hp
  have hwide := hall b
  rw [hp] at hwide
  exact of_decide_eq_true hwide

theorem toNat_mod_of_range {low high : UInt8} (hlow : 0x80 ≤ low)
    (hhigh : high ≤ 0xBF) (hmin : low ≤ b) (hmax : b ≤ high) :
    low.toNat % 64 ≤ b.toNat % 64 ∧ b.toNat % 64 ≤ high.toNat % 64 := by
  rw [UInt8.le_iff_toNat_le] at hlow hhigh hmin hmax
  change 128 ≤ low.toNat at hlow
  change high.toNat ≤ 191 at hhigh
  lia

theorem continueChar_wide {p : PartialChar} (hp : p.Wide) {b : UInt8}
    (hmin : p.low ≤ b) (hmax : b ≤ p.high) :
    (exists c, IsWide c ∧ continueChar p b = ([c], none)) ∨
      exists q, q.Wide ∧ continueChar p b = ([], some q) := by
  obtain ⟨⟨hlow, hhigh⟩, hcases⟩ := hp
  have hnext := toNat_mod_of_range hlow hhigh hmin hmax
  have hfirst : (0x80 : UInt8).toNat % 64 = 0 := by decide
  have hlast : (0xBF : UInt8).toNat % 64 = 63 := by decide
  unfold continueChar
  rw [if_pos ⟨hmin, hmax⟩]
  dsimp only
  rcases hcases with ⟨howed, hbounds⟩ | ⟨howed, hbounds⟩ | ⟨howed, hbounds⟩
  · rw [if_pos howed]
    refine Or.inl ⟨_, ?_, rfl⟩
    unfold IsWide
    rw [Char.toNat_ofNat, if_pos]
    · lia
    · refine Or.imp ?_ ?_ hbounds.2.1
      · lia
      · lia
  · rw [howed, if_neg (by decide)]
    refine Or.inr ⟨_, ⟨⟨UInt8.le_refl _, UInt8.le_refl _⟩, Or.inl ?_⟩, rfl⟩
    refine ⟨rfl, ?_⟩
    dsimp only
    rw [hfirst, hlast]
    lia
  · rw [howed, if_neg (by decide)]
    refine Or.inr ⟨_, ⟨⟨UInt8.le_refl _, UInt8.le_refl _⟩, Or.inr (Or.inl ?_)⟩, rfl⟩
    refine ⟨rfl, ?_⟩
    dsimp only
    rw [hfirst, hlast]
    lia

/-- What an ASCII byte says of the character before it. -/
def brokenOff : Option PartialChar -> Text
  | none => []
  | some _ => [replacementChar]

theorem lossyFrom_ascii {state : Option PartialChar} (h : StateWide state)
    {b : UInt8} (hb : b < 0x80) (rest : List UInt8) :
    lossyFrom state (b :: rest) = brokenOff state ++ asciiChar b :: lossyFrom none rest := by
  have hbegin : beginChar b = ([asciiChar b], none) := by
    unfold beginChar
    exact if_pos hb
  cases state with
  | none =>
    rw [lossyFrom, hbegin]
    rfl
  | some p =>
    have hout : ¬ (p.low ≤ b ∧ b ≤ p.high) := by
      rintro ⟨hlow, _⟩
      exact UInt8.not_le.mpr hb (UInt8.le_trans (h p rfl).1.1 hlow)
    rw [lossyFrom]
    unfold continueChar
    rw [if_neg hout, hbegin]
    rfl

theorem beginChar_wide (hb : ¬ b < 0x80) :
    (forall c, c ∈ (beginChar b).1 -> IsWide c) ∧
      ((beginChar b).1 = [] -> (beginChar b).2 ≠ none) := by
  have hcases : (beginChar b).1 = [replacementChar] ∨
      ((beginChar b).1 = [] ∧ (beginChar b).2 ≠ none) := by
    unfold beginChar
    rw [if_neg hb]
    split_ifs
    all_goals simp
  rcases hcases with hout | ⟨hout, hstate⟩
  · rw [hout]
    refine ⟨?_, fun hnil => absurd hnil (List.cons_ne_nil _ _)⟩
    intro c hc
    rw [List.mem_singleton.mp hc]
    exact isWide_replacementChar
  · rw [hout]
    exact ⟨fun c hc => absurd hc List.not_mem_nil, fun _ => hstate⟩

theorem lossyFrom_wide {state : Option PartialChar} (h : StateWide state)
    {b : UInt8} (hb : ¬ b < 0x80) :
    exists out next, StateWide next ∧ (forall c, c ∈ out -> IsWide c) ∧
      (out = [] -> next ≠ none) ∧ forall rest,
        lossyFrom state (b :: rest) = out ++ lossyFrom next rest := by
  have hbegin := beginChar_wide hb
  cases state with
  | none =>
    exact ⟨_, _, stateWide_beginChar b, hbegin.1, hbegin.2, fun _ => rfl⟩
  | some p =>
    rcases Decidable.em (p.low ≤ b ∧ b ≤ p.high) with ⟨hmin, hmax⟩ | hout
    · rcases continueChar_wide (h p rfl) hmin hmax with ⟨c, hc, hnext⟩ | ⟨q, hq, hnext⟩
      · refine ⟨[c], none, stateWide_none, ?_, ?_, ?_⟩
        · intro d hd
          rw [List.mem_singleton.mp hd]
          exact hc
        · exact fun hnil => absurd hnil (List.cons_ne_nil _ _)
        · intro rest
          rw [lossyFrom, hnext]
      · refine ⟨[], some q, ?_, ?_, ?_, ?_⟩
        · rintro _ ⟨rfl⟩
          exact hq
        · exact fun d hd => absurd hd List.not_mem_nil
        · exact fun _ => Option.some_ne_none q
        · intro rest
          rw [lossyFrom, hnext]
    · have hnext : continueChar p b = (replacementChar :: (beginChar b).1, (beginChar b).2) := by
        unfold continueChar
        exact if_neg hout
      refine ⟨replacementChar :: (beginChar b).1, _, stateWide_beginChar b, ?_, ?_, ?_⟩
      · intro c hc
        rcases List.mem_cons.mp hc with rfl | hc
        · exact isWide_replacementChar
        · exact hbegin.1 c hc
      · exact fun hnil => absurd hnil (List.cons_ne_nil _ _)
      · intro rest
        rw [lossyFrom, hnext]

theorem lossyFrom_append (front : List UInt8) {state : Option PartialChar} (h : StateWide state) :
    exists out next, StateWide next ∧ forall rest,
      lossyFrom state (front ++ rest) = out ++ lossyFrom next rest := by
  induction front generalizing state with
  | nil => exact ⟨[], state, h, fun _ => rfl⟩
  | cons b front ih =>
    rcases Decidable.em (b < 0x80) with hb | hb
    · obtain ⟨out, next, hnext, hread⟩ := ih stateWide_none
      refine ⟨brokenOff state ++ asciiChar b :: out, next, hnext, ?_⟩
      intro rest
      rw [List.cons_append, lossyFrom_ascii h hb, hread, List.append_assoc, List.cons_append]
    · obtain ⟨out, next, hnext, _, _, hread⟩ := lossyFrom_wide h hb
      obtain ⟨later, last, hlast, hlater⟩ := ih hnext
      refine ⟨out ++ later, last, hlast, ?_⟩
      intro rest
      rw [List.cons_append, hread, hlater, List.append_assoc]

def asciiWord (bytes : List UInt8) : Text :=
  bytes.map asciiChar

section Words

variable {w : List UInt8} (hw : forall b, b ∈ w -> b < 0x80)

include hw

theorem not_prefix_of_isWide {c : Char} (hc : IsWide c) (s : Text)
    (hne : w ≠ []) : ¬ asciiWord w <+: c :: s := by
  intro h
  cases w with
  | nil => exact hne rfl
  | cons a rest =>
    have hfirst : asciiChar a = c := (List.cons_prefix_cons.mp h).1
    rw [← hfirst] at hc
    exact asciiChar_not_isWide (hw a List.mem_cons_self) hc

theorem infix_of_infix_append {out s : Text} (hne : w ≠ [])
    (hout : forall c, c ∈ out -> IsWide c) (h : asciiWord w <:+: out ++ s) :
    asciiWord w <:+: s := by
  induction out with
  | nil => exact h
  | cons c out ih =>
    rcases List.infix_cons_iff.mp h with hfront | hinside
    · exact absurd hfront (not_prefix_of_isWide hw (hout c List.mem_cons_self) _ hne)
    · exact ih (fun d hd => hout d (List.mem_cons_of_mem c hd)) hinside

variable {bytes : List UInt8} {state : Option PartialChar}

theorem prefix_of_prefix_lossyFrom (hstate : StateWide state)
    (hne : w ≠ []) (h : asciiWord w <+: lossyFrom state bytes) :
    state = none ∧ w <+: bytes := by
  induction bytes generalizing w state with
  | nil =>
    cases state with
    | none => exact absurd (List.map_eq_nil_iff.mp (List.prefix_nil.mp h)) hne
    | some p =>
      exact absurd h (not_prefix_of_isWide hw isWide_replacementChar [] hne)
  | cons b rest ih =>
    rcases Decidable.em (b < 0x80) with hb | hb
    · rw [lossyFrom_ascii hstate hb] at h
      cases state with
      | some p =>
        exact absurd h (not_prefix_of_isWide hw isWide_replacementChar _ hne)
      | none =>
        refine ⟨rfl, ?_⟩
        cases w with
        | nil => exact absurd rfl hne
        | cons a later =>
          obtain ⟨hfirst, hlater⟩ := List.cons_prefix_cons.mp h
          rw [asciiChar_injective (hw a List.mem_cons_self) hb hfirst]
          refine List.cons_prefix_cons.mpr ⟨rfl, ?_⟩
          cases later with
          | nil => exact List.nil_prefix
          | cons a' later =>
            exact (ih (fun c hc => hw c (List.mem_cons_of_mem a hc))
              stateWide_none (List.cons_ne_nil _ _) hlater).2
    · obtain ⟨out, next, hnext, hout, hopen, hread⟩ := lossyFrom_wide hstate hb
      rw [hread] at h
      cases out with
      | nil => exact absurd (ih hw hnext hne h).1 (hopen rfl)
      | cons c out =>
        exact absurd h (not_prefix_of_isWide hw (hout c List.mem_cons_self) _ hne)

theorem infix_of_infix_lossyFrom (hstate : StateWide state)
    (hne : w ≠ []) (h : asciiWord w <:+: lossyFrom state bytes) :
    w <:+: bytes := by
  induction bytes generalizing state with
  | nil =>
    cases state with
    | none =>
      exact absurd (List.map_eq_nil_iff.mp (List.infix_nil.mp h)) hne
    | some p =>
      rcases List.infix_cons_iff.mp h with hfront | hinside
      · exact absurd hfront (not_prefix_of_isWide hw isWide_replacementChar [] hne)
      · exact absurd (List.map_eq_nil_iff.mp (List.infix_nil.mp hinside)) hne
  | cons b rest ih =>
    rcases Decidable.em (b < 0x80) with hb | hb
    · rw [lossyFrom_ascii hstate hb] at h
      have hbroken : forall c, c ∈ brokenOff state -> IsWide c := by
        cases state with
        | none => exact fun c hc => absurd hc List.not_mem_nil
        | some p =>
          intro c hc
          rw [List.mem_singleton.mp hc]
          exact isWide_replacementChar
      have hrest := infix_of_infix_append hw hne hbroken h
      rcases List.infix_cons_iff.mp hrest with hfront | hinside
      · have hread := lossyFrom_ascii stateWide_none hb rest
        rw [brokenOff, List.nil_append] at hread
        rw [← hread] at hfront
        exact (prefix_of_prefix_lossyFrom hw stateWide_none hne hfront).2.isInfix
      · exact (ih stateWide_none hinside).trans (List.suffix_cons b rest).isInfix
    · obtain ⟨out, next, hnext, hout, _, hread⟩ := lossyFrom_wide hstate hb
      rw [hread] at h
      exact (ih hnext (infix_of_infix_append hw hne hout h)).trans (List.suffix_cons b rest).isInfix

theorem lossyFrom_word (hstate : StateWide state) (hne : w ≠ []) (rest : List UInt8) :
    lossyFrom state (w ++ rest) = brokenOff state ++ (asciiWord w ++ lossyFrom none rest) := by
  induction w generalizing state with
  | nil => exact absurd rfl hne
  | cons b later ih =>
    rw [List.cons_append, lossyFrom_ascii hstate (hw b List.mem_cons_self)]
    cases later with
    | nil => rfl
    | cons a later =>
      rw [ih (fun c hc => hw c (List.mem_cons_of_mem b hc)) stateWide_none (List.cons_ne_nil _ _)]
      rfl

/-- A word stands in the decoded text where its bytes do in the bytes. -/
theorem infix_fromUtf8Lossy_iff (hne : w ≠ []) :
    asciiWord w <:+: fromUtf8Lossy bytes <-> w <:+: bytes := by
  constructor
  · exact infix_of_infix_lossyFrom hw stateWide_none hne
  · rintro ⟨front, back, rfl⟩
    rw [List.append_assoc]
    obtain ⟨out, next, hnext, hread⟩ := lossyFrom_append front stateWide_none
    unfold fromUtf8Lossy
    rw [hread, lossyFrom_word hw hnext hne]
    refine ⟨out ++ brokenOff next, lossyFrom none back, ?_⟩
    simp only [List.append_assoc]

theorem infix_utf8_iff {s : Text} (hne : w ≠ []) :
    w <:+: utf8 s <-> asciiWord w <:+: s := by
  rw [← infix_fromUtf8Lossy_iff hw hne, fromUtf8Lossy_utf8]

end Words

end Lib
end PrxWaf
