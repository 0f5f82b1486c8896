import PrxWaf.Lib.Utf8
import PrxWaf.Net.IpDisplay

/-!
# How long the text of an address is

An address text has at most 45 bytes: six groups of four digits and an embedded IPv4
address.
-/

namespace PrxWaf
namespace Net

open Lib

variable {c : Char} {s rest : Text}

theorem utf8EncodeChar_length (h : c.toNat < 128) :
    (String.utf8EncodeChar c).length = 1 := by
  have hbyte : (UInt8.ofNat c.toNat).toNat = c.toNat := by
    rw [UInt8.toNat_ofNat']
    lia
  have hsmall : UInt8.ofNat c.toNat < 128 := by
    rw [UInt8.lt_iff_toNat_lt, hbyte]
    exact h
  have hchar := utf8EncodeChar_ascii hsmall
  rw [hbyte, Char.ofNat_toNat] at hchar
  rw [hchar]
  rfl

theorem utf8_length_cons (h : c.toNat < 128) (s : Text) :
    (utf8 (c :: s)).length = (utf8 s).length + 1 := by
  rw [utf8_cons, List.length_append, utf8EncodeChar_length h]
  lia

theorem readDigits_length (radix : Nat) (s : Text) :
    (utf8 s).length = (utf8 (readDigits radix s).2).length + (readDigits radix s).1.length := by
  induction s with
  | nil => rfl
  | cons c rest ih =>
    unfold readDigits
    cases hdigit : toDigit radix c with
    | none => rfl
    | some d =>
      have hsome : (digitValue c).isSome := by
        rw [(Option.filter_eq_some_iff.mp hdigit).1]
        rfl
      have hrange := digitValue_range hsome
      rw [utf8_length_cons (by lia), ih]
      exact Nat.add_assoc _ _ _

theorem readNumber_length {radix maxDigits limit : Nat} {allow : Bool} {n : Nat}
    (h : readNumber radix maxDigits allow limit s = some (n, rest)) :
    (utf8 s).length ≤ (utf8 rest).length + maxDigits := by
  unfold readNumber at h
  dsimp only at h
  split at h
  · cases h
  · rename_i hdigits
    split at h
    · cases h
    · split at h
      · injection h with h
        injection h with _ hrest
        have hlength := readDigits_length radix s
        rw [hrest] at hlength
        lia
      · cases h

theorem readGivenChar_length (hc : c.toNat < 128) {s rest : Text}
    (h : readGivenChar c s = some rest) :
    (utf8 s).length = (utf8 rest).length + 1 := by
  cases s with
  | nil => cases h
  | cons d tail =>
    have hread : (if d = c then some tail else none) = some rest := h
    split at hread
    · rename_i hsame
      injection hread with hread
      rw [hsame, ← hread, utf8_length_cons hc]
    · cases hread

def sepBytes : Nat -> Nat
  | 0 => 0
  | _ + 1 => 1

theorem readSeparator_length {sep : Char} (hsep : sep.toNat < 128) {index k : Nat}
    {inner : Text -> Option (value × Text)}
    (hinner : forall {s : Text} {v rest}, inner s = some (v, rest) ->
      (utf8 s).length ≤ (utf8 rest).length + k) {s rest : Text} {v : value}
    (h : readSeparator sep index inner s = some (v, rest)) :
    (utf8 s).length ≤ (utf8 rest).length + k + sepBytes index := by
  cases index with
  | zero => exact hinner h
  | succ index =>
    unfold readSeparator at h
    rw [if_neg (Nat.succ_ne_zero index)] at h
    rcases Option.bind_eq_some_iff.mp h with ⟨tail, htail, hread⟩
    have hfirst := readGivenChar_length hsep htail
    have hrest := hinner hread
    have hone : sepBytes (index + 1) = 1 := rfl
    lia

theorem readOctet_length {octet : UInt8} (h : readOctet s = some (octet, rest)) :
    (utf8 s).length ≤ (utf8 rest).length + 3 := by
  rcases Option.map_eq_some_iff.mp h with ⟨⟨n, tail⟩, hnumber, hr⟩
  injection hr with _ hrest
  rw [← hrest]
  exact readNumber_length hnumber

theorem readGroup_length {group : UInt16} (h : readGroup s = some (group, rest)) :
    (utf8 s).length ≤ (utf8 rest).length + 4 := by
  rcases Option.map_eq_some_iff.mp h with ⟨⟨n, tail⟩, hnumber, hr⟩
  injection hr with _ hrest
  rw [← hrest]
  exact readNumber_length hnumber

theorem readIpv4Addr_length {ip : Ipv4Addr} (h : readIpv4Addr s = some (ip, rest)) :
    (utf8 s).length ≤ (utf8 rest).length + 15 := by
  unfold readIpv4Addr at h
  simp only [Option.bind_eq_bind, Option.bind_eq_some_iff] at h
  rcases h with ⟨⟨a, s1⟩, ha, ⟨b, s2⟩, hb, ⟨c, s3⟩, hc, ⟨d, s4⟩, hd, hreturn⟩
  injection hreturn with hreturn
  injection hreturn with _ hrest
  have hdot : '.'.toNat < 128 := by decide
  have h1 := readSeparator_length hdot readOctet_length ha
  have h2 := readSeparator_length hdot readOctet_length hb
  have h3 := readSeparator_length hdot readOctet_length hc
  have h4 := readSeparator_length hdot readOctet_length hd
  rw [← hrest]
  simp only [sepBytes] at h1 h2 h3 h4 ⊢
  lia

theorem embeddedGroups_length (ip : Ipv4Addr) :
    (embeddedGroups ip.octets).length = 2 := by
  rcases ip with ⟨octets, hlength⟩
  match octets, hlength with
  | [a, b, c, d], _ => rfl

theorem readGroups_succ_cases (index left : Nat) (s : Text) :
    (exists ip rest, 0 < left ∧ readSeparator ':' index readIpv4Addr s = some (ip, rest) ∧
      readGroups index (left + 1) s = (embeddedGroups ip.octets, true, rest)) ∨
    readGroups index (left + 1) s = ([], false, s) ∨
    exists group rest, readSeparator ':' index readGroup s = some (group, rest) ∧
      readGroups index (left + 1) s = (group :: (readGroups (index + 1) left rest).1,
          (readGroups (index + 1) left rest).2) := by
  rw [readGroups]
  cases hembedded : (if 0 < left then readSeparator ':' index readIpv4Addr s
      else none) with
  | some result =>
    rcases result with ⟨ip, rest⟩
    left
    split at hembedded
    · rename_i hleft
      exact ⟨ip, rest, hleft, hembedded, rfl⟩
    · cases hembedded
  | none =>
    right
    cases hgroup : readSeparator ':' index readGroup s with
    | none => exact Or.inl rfl
    | some result =>
      rcases result with ⟨group, rest⟩
      exact Or.inr ⟨group, rest, rfl, rfl⟩

/-- What an embedded address takes more than the two groups that it is. -/
def embeddedBytes : Bool -> Nat
  | true => 6
  | false => 0

/-- A group takes five bytes with its separator, which the first one does not
have. -/
theorem readGroups_length (index left : Nat) (s : Text) :
    (readGroups index left s).1.length ≤ left ∧ (readGroups index left s = ([], false, s) ∨
        (utf8 s).length + 1 ≤ (utf8 (readGroups index left s).2.2).length +
            5 * (readGroups index left s).1.length +
            embeddedBytes (readGroups index left s).2.1 + sepBytes index) := by
  have hcolon : ':'.toNat < 128 := by decide
  induction left generalizing index s with
  | zero => exact ⟨Nat.le_refl 0, Or.inl rfl⟩
  | succ left ih =>
    rcases readGroups_succ_cases index left s with
      ⟨ip, rest, hleft, hread, heq⟩ | heq | ⟨group, rest, hread, heq⟩
    · have hlength := readSeparator_length hcolon readIpv4Addr_length hread
      rw [heq]
      dsimp only
      rw [embeddedGroups_length]
      refine ⟨by lia, Or.inr ?_⟩
      simp only [embeddedBytes]
      lia
    · rw [heq]
      exact ⟨Nat.zero_le _, Or.inl rfl⟩
    · have hlength := readSeparator_length hcolon readGroup_length hread
      rcases ih (index + 1) rest with ⟨hcount, hrest⟩
      rw [heq]
      dsimp only
      rw [List.length_cons]
      refine ⟨by lia, Or.inr ?_⟩
      rcases hrest with hnone | hsome
      · rw [hnone]
        simp only [List.length_nil, embeddedBytes]
        lia
      · have hone : sepBytes (index + 1) = 1 := rfl
        lia

theorem readGroups_zero_length (left : Nat) (s : Text) :
    (utf8 s).length ≤ (utf8 (readGroups 0 left s).2.2).length +
      5 * (readGroups 0 left s).1.length + embeddedBytes (readGroups 0 left s).2.1 := by
  rcases (readGroups_length 0 left s).2 with hnone | hsome
  · rw [hnone]
    lia
  · have hzero : sepBytes 0 = 0 := rfl
    lia

theorem embeddedBytes_le (b : Bool) : embeddedBytes b ≤ 6 := by
  cases b with
  | false => decide
  | true => decide

theorem readIpv6Addr_length {ip : Ipv6Addr} (h : readIpv6Addr s = some (ip, rest)) :
    (utf8 s).length ≤ (utf8 rest).length + 45 := by
  have hcolon : ':'.toNat < 128 := by decide
  have hhead := readGroups_zero_length 8 s
  unfold readIpv6Addr at h
  dsimp only at h
  split at h
  · rename_i hfull
    injection h with h
    injection h with _ hrest
    rcases (readGroups_length 0 8 s).2 with hnone | hsome
    · rw [hnone] at hfull
      cases hfull
    · rw [hfull, hrest] at hsome
      have hsix := embeddedBytes_le (readGroups 0 8 s).2.1
      have hzero : sepBytes 0 = 0 := rfl
      lia
  · split at h
    · cases h
    · rename_i hipv4
      rw [Bool.not_eq_true] at hipv4
      simp only [Option.bind_eq_bind, Option.bind_eq_some_iff] at h
      rcases h with ⟨s1, h1, s2, h2, hreturn⟩
      injection hreturn with hreturn
      injection hreturn with _ hrest
      have hfirst := readGivenChar_length hcolon h1
      have hsecond := readGivenChar_length hcolon h2
      have hcount := (readGroups_length 0 8 s).1
      have hcount' := (readGroups_length 0 (8 - ((readGroups 0 8 s).1.length + 1)) s2).1
      have htail := readGroups_zero_length (8 - ((readGroups 0 8 s).1.length + 1)) s2
      have hsix := embeddedBytes_le (readGroups 0 (8 - ((readGroups 0 8 s).1.length + 1)) s2).2.1
      rw [hipv4] at hhead
      simp only [embeddedBytes] at hhead
      rw [hrest] at htail
      lia

theorem IpAddr.fromStr_length {ip : IpAddr}
    (h : IpAddr.fromStr s = some ip) : (utf8 s).length ≤ 45 := by
  unfold IpAddr.fromStr at h
  split at h
  · rename_i addr hread
    unfold readIpAddr at hread
    split at hread
    · rename_i ip4 rest hv4
      injection hread with hread
      injection hread with _ hrest
      have hlength := readIpv4Addr_length hv4
      rw [hrest] at hlength
      exact Nat.le_trans hlength (by decide)
    · rcases Option.map_eq_some_iff.mp hread with ⟨⟨ip6, rest⟩, hv6, hr⟩
      injection hr with _ hrest
      have hlength := readIpv6Addr_length hv6
      dsimp only at hrest
      rw [hrest] at hlength
      exact hlength
  · cases h

theorem IpAddr.display_length (ip : IpAddr) : (utf8 ip.display).length ≤ 45 :=
  IpAddr.fromStr_length (IpAddr.fromStr_display ip)

end Net
end PrxWaf
