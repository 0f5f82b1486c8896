import PrxWaf.Engine.EncodingDepth
import PrxWaf.Lib.Utf8Ascii

/-!
# Words in decoded text

A word stands in a decoded text exactly when one of its encodings stands in the text
that was decoded.
-/

namespace PrxWaf
namespace Engine

open Lib

section Word

variable {w : List UInt8} (hw : forall b, b ∈ w -> b ≠ percent ∧ b ≠ 0x20)

include hw

theorem encodes_of_front {bytes : List UInt8} (h : w <+: urlDecodeBytes bytes) :
    exists t, Encodes w t ∧ t <+: bytes := by
  induction w generalizing bytes with
  | nil => exact ⟨[], .nil, List.nil_prefix⟩
  | cons b later ih =>
    have hb := hw b List.mem_cons_self
    have hrest := @ih (fun c hc => hw c (List.mem_cons_of_mem b hc))
    cases bytes with
    | nil => exact absurd (List.prefix_nil.mp h) (List.cons_ne_nil _ _)
    | cons c rest =>
      rcases urlDecodeBytes_cons c rest with
        ⟨hc, hi, lo, tail, byte, htail, hbyte, hread⟩ | ⟨_, hread⟩ |
          ⟨_, hread⟩ | ⟨hpercent, hplus, hread⟩
      · rw [hread] at h
        obtain ⟨rfl, hlater⟩ := List.cons_prefix_cons.mp h
        obtain ⟨t, ht, hfront⟩ := hrest hlater
        refine ⟨percent :: hi :: lo :: t, .escape hbyte ht, ?_⟩
        rw [hc, htail]
        exact (List.prefix_append_right_inj [percent, hi, lo]).mpr hfront
      · rw [hread] at h
        exact absurd (List.cons_prefix_cons.mp h).1 hb.1
      · rw [hread] at h
        exact absurd (List.cons_prefix_cons.mp h).1 hb.2
      · rw [hread] at h
        obtain ⟨rfl, hlater⟩ := List.cons_prefix_cons.mp h
        obtain ⟨t, ht, hfront⟩ := hrest hlater
        exact ⟨b :: t, .keep hpercent hplus ht, List.cons_prefix_cons.mpr ⟨rfl, hfront⟩⟩

theorem encodes_of_inside {bytes : List UInt8} (hne : w ≠ [])
    (h : w <:+: urlDecodeBytes bytes) : exists t, Encodes w t ∧ t <:+: bytes := by
  induction hn : bytes.length using Nat.strong_induction_on generalizing bytes with
  | _ n ih =>
    cases bytes with
    | nil => exact absurd (List.infix_nil.mp h) hne
    | cons b rest =>
      have hstep : forall later byte, later <:+ rest ->
          urlDecodeBytes (b :: rest) = byte :: urlDecodeBytes later ->
          exists t, Encodes w t ∧ t <:+: b :: rest := by
        intro later byte hsuffix hread
        have hinside := h
        rw [hread] at hinside
        rcases List.infix_cons_iff.mp hinside with hfront | hlater
        · rw [← hread] at hfront
          obtain ⟨t, ht, hplace⟩ := encodes_of_front hw hfront
          exact ⟨t, ht, hplace.isInfix⟩
        · have hlength := hsuffix.length_le
          obtain ⟨t, ht, hplace⟩ := ih later.length (by rw [← hn, List.length_cons]; lia) hlater rfl
          exact ⟨t, ht, hplace.trans (hsuffix.trans (List.suffix_cons b rest)).isInfix⟩
      rcases urlDecodeBytes_cons b rest with
        ⟨_, hi, lo, tail, byte, htail, _, hread⟩ | ⟨_, hread⟩ | ⟨_, hread⟩ | ⟨_, _, hread⟩
      · refine hstep tail byte ?_ hread
        rw [htail]
        exact List.suffix_append [hi, lo] tail
      · exact hstep rest _ List.suffix_rfl hread
      · exact hstep rest _ List.suffix_rfl hread
      · exact hstep rest _ List.suffix_rfl hread

end Word

variable {b : UInt8}

theorem urlDecodeBytes_append_of_encodes {s t : List UInt8} (h : Encodes s t) (back : List UInt8) :
    urlDecodeBytes (t ++ back) = s ++ urlDecodeBytes back := by
  induction h with
  | nil => rfl
  | keep hpercent hplus _ ih =>
    rw [List.cons_append, urlDecodeBytes_keep _ hpercent hplus, ih]
    rfl
  | escape hbyte _ ih =>
    rw [List.cons_append, List.cons_append, List.cons_append, urlDecodeBytes_escape _ hbyte, ih]
    rfl

theorem hexDigit_of_escaped {hi lo byte : UInt8}
    (h : escaped hi lo = some byte) : hexDigit hi ≠ none ∧ hexDigit lo ≠ none := by
  unfold escaped at h
  split at h
  · rename_i _ _ hhi hlo
    rw [hhi, hlo]
    exact ⟨Option.some_ne_none _, Option.some_ne_none _⟩
  · cases h

theorem urlDecodeBytes_append {c : UInt8} (hc : hexDigit c = none) (front back : List UInt8) :
    exists out, urlDecodeBytes (front ++ c :: back) = out ++ urlDecodeBytes (c :: back) := by
  induction hn : front.length using Nat.strong_induction_on generalizing front with
  | _ n ih =>
    cases front with
    | nil => exact ⟨[], rfl⟩
    | cons b rest =>
      have hstep : forall later byte, later.length ≤ rest.length ->
          urlDecodeBytes (b :: (rest ++ c :: back)) = byte :: urlDecodeBytes (later ++ c :: back) ->
          exists out, urlDecodeBytes (b :: rest ++ c :: back) =
            out ++ urlDecodeBytes (c :: back) := by
        intro later byte hlength hread
        obtain ⟨out, hout⟩ := ih later.length (by rw [← hn, List.length_cons]; lia) later rfl
        refine ⟨byte :: out, ?_⟩
        rw [List.cons_append, hread, hout, List.cons_append]
      rcases urlDecodeBytes_cons b (rest ++ c :: back) with
        ⟨_, hi, lo, tail, byte, htail, hbyte, hread⟩ | ⟨_, hread⟩ | ⟨_, hread⟩ | ⟨_, _, hread⟩
      · obtain ⟨hhi, hlo⟩ := hexDigit_of_escaped hbyte
        -- the two digits stand before the byte
        have hbefore : exists later, rest = hi :: lo :: later ∧ tail = later ++ c :: back := by
          match rest, htail with
          | [], htail =>
            injection htail with hfirst
            exact absurd (hfirst ▸ hc) hhi
          | [_], htail =>
            injection htail with _ hrest
            injection hrest with hsecond
            exact absurd (hsecond ▸ hc) hlo
          | x :: y :: later, htail =>
            injection htail with hfirst hrest
            injection hrest with hsecond hlater
            exact ⟨later, by rw [hfirst, hsecond], hlater.symm⟩
        obtain ⟨later, hrest, rfl⟩ := hbefore
        refine hstep later byte ?_ hread
        rw [hrest, List.length_cons, List.length_cons]
        lia
      · exact hstep rest _ (Nat.le_refl _) hread
      · exact hstep rest _ (Nat.le_refl _) hread
      · exact hstep rest _ (Nat.le_refl _) hread

theorem infix_of_encodes {s t bytes : List UInt8}
    (hb : hexDigit b = none) (h : Encodes (b :: s) t) (hplace : t <:+: bytes) :
    b :: s <:+: urlDecodeBytes bytes := by
  obtain ⟨front, back, rfl⟩ := hplace
  have hread := urlDecodeBytes_append_of_encodes h back
  obtain ⟨c, later, hfirst, hc⟩ : exists c later, t = c :: later ∧ hexDigit c = none := by
    cases h with
    | keep _ _ _ => exact ⟨_, _, rfl, hb⟩
    | escape _ _ => exact ⟨_, _, rfl, rfl⟩
  obtain ⟨out, hout⟩ := urlDecodeBytes_append hc front (later ++ back)
  refine ⟨out, urlDecodeBytes back, ?_⟩
  have htext : front ++ t ++ back = front ++ c :: (later ++ back) := by
    rw [hfirst, List.append_assoc, List.cons_append]
  rw [htext, hout, ← List.cons_append, ← hfirst, hread, List.append_assoc]

theorem infix_urlDecode_iff {s : List UInt8} (hb : hexDigit b = none)
    (hs : forall c, c ∈ b :: s -> c < 0x80 ∧ c ≠ percent ∧ c ≠ 0x20) (x : Text) :
    asciiWord (b :: s) <:+: urlDecode x <->
      exists t, Encodes (b :: s) t ∧ asciiWord t <:+: x := by
  have hascii : forall c, c ∈ b :: s -> c < 0x80 := fun c hc => (hs c hc).1
  have hplace : forall t, Encodes (b :: s) t -> (t <:+: utf8 x <-> asciiWord t <:+: x) := by
    intro t ht
    exact infix_utf8_iff (ascii_of_encodes ht hascii) (ne_nil_of_encodes ht (List.cons_ne_nil b s))
  unfold urlDecode
  rw [infix_fromUtf8Lossy_iff hascii (List.cons_ne_nil b s)]
  constructor
  · intro h
    obtain ⟨t, ht, hinside⟩ := encodes_of_inside (fun c hc => (hs c hc).2) (List.cons_ne_nil b s) h
    exact ⟨t, ht, (hplace t ht).mp hinside⟩
  · rintro ⟨t, ht, hinside⟩
    exact infix_of_encodes hb ht ((hplace t ht).mpr hinside)

/-- The bytes that are read as a hexadecimal digit. -/
def digitForms (n : Nat) : List UInt8 :=
  if n < 10 then [UInt8.ofNat (0x30 + n)]
  else [UInt8.ofNat (0x57 + n), UInt8.ofNat (0x37 + n)]

/-- A byte by itself and its escapes. -/
def formsOf (b : UInt8) : List (List UInt8) :=
  [b] :: (digitForms (b.toNat / 16)).flatMap (fun hi =>
    (digitForms (b.toNat % 16)).map (fun lo => [percent, hi, lo]))

theorem hexDigit_eq_some_iff : forall (n : Fin 16) (b : UInt8),
    hexDigit b = some n.val <-> b ∈ digitForms n.val := by
  decide +kernel

theorem hexDigit_lt_sixteen : forall b : UInt8, (hexDigit b).all (fun n => n < 16) = true := by
  decide +kernel

theorem lt_sixteen {n : Nat} (h : hexDigit b = some n) :
    n < 16 := by
  have hall := hexDigit_lt_sixteen b
  rw [h] at hall
  exact of_decide_eq_true hall

theorem escaped_eq_some_iff {hi lo : UInt8} :
    escaped hi lo = some b <-> hi ∈ digitForms (b.toNat / 16) ∧ lo ∈ digitForms (b.toNat % 16) := by
  have hlt := b.toNat_lt
  rw [← hexDigit_eq_some_iff ⟨b.toNat / 16, by lia⟩ hi,
    ← hexDigit_eq_some_iff ⟨b.toNat % 16, by lia⟩ lo]
  unfold escaped
  constructor
  · intro h
    split at h
    · rename_i m n hhi hlo
      have hm := lt_sixteen hhi
      have hn := lt_sixteen hlo
      have hb : b.toNat = m * 16 + n := by
        rw [← Option.some.inj h, UInt8.toNat_ofNat']
        lia
      have hfirst : m = b.toNat / 16 := by lia
      have hsecond : n = b.toNat % 16 := by lia
      rw [hhi, hlo]
      exact ⟨congrArg some hfirst, congrArg some hsecond⟩
    · cases h
  · rintro ⟨hhi, hlo⟩
    rw [hhi, hlo]
    refine congrArg some (UInt8.toNat_inj.mp ?_)
    rw [UInt8.toNat_ofNat']
    lia

theorem encodes_cons_iff (hpercent : b ≠ percent) (hplus : b ≠ plus) {s t : List UInt8} :
    Encodes (b :: s) t <->
      exists f rest, t = f ++ rest ∧ f ∈ formsOf b ∧ Encodes s rest := by
  constructor
  · intro h
    cases h with
    | keep _ _ hrest => exact ⟨[b], _, rfl, List.mem_cons_self, hrest⟩
    | escape hbyte hrest =>
      obtain ⟨hhi, hlo⟩ := escaped_eq_some_iff.mp hbyte
      refine ⟨[percent, _, _], _, rfl, List.mem_cons_of_mem _ ?_, hrest⟩
      exact List.mem_flatMap.mpr ⟨_, hhi, List.mem_map.mpr ⟨_, hlo, rfl⟩⟩
  · rintro ⟨f, rest, rfl, hf, hrest⟩
    rcases List.mem_cons.mp hf with rfl | hf
    · exact .keep hpercent hplus hrest
    · obtain ⟨hi, hhi, hf⟩ := List.mem_flatMap.mp hf
      obtain ⟨lo, hlo, rfl⟩ := List.mem_map.mp hf
      exact .escape (escaped_eq_some_iff.mpr ⟨hhi, hlo⟩) hrest

end Engine
end PrxWaf
