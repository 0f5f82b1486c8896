import PrxWaf.Net.IpParse

/-!
# Displayed addresses read back

The text that the standard library writes for an address leaves out zeros.  The
parser puts them back, so two addresses with one text are the same.
-/

namespace PrxWaf
namespace Net

open Lib

def hexDigits (n : Nat) : List Nat :=
  if n < 16 then [n]
  else if n < 256 then [n / 16, n % 16]
  else if n < 4096 then [n / 256, n / 16 % 16, n % 16]
  else [n / 4096, n / 256 % 16, n / 16 % 16, n % 16]

variable (group : UInt16) (groups : List UInt16) (ip : Ipv6Addr) {n : Nat} {rest : Text}
  {run : Nat × Nat}

theorem toDigits_eq_hexDigits (hn : n < 2 ^ 16) :
    Nat.toDigits 16 n = (hexDigits n).map Nat.digitChar := by
  have hbase : 1 < 16 := by decide
  unfold hexDigits
  split
  · rename_i h1
    exact Nat.toDigits_of_lt_base h1
  · rename_i h1
    rw [Nat.toDigits_of_base_le hbase (by lia)]
    split
    · rw [Nat.toDigits_of_lt_base (by lia)]
      rfl
    · rw [Nat.toDigits_of_base_le hbase (by lia)]
      split
      · rw [Nat.toDigits_of_lt_base (by lia), Nat.div_div_eq_div_mul]
        rfl
      · rw [Nat.toDigits_of_base_le hbase (by lia),
          Nat.toDigits_of_lt_base (by lia), Nat.div_div_eq_div_mul n 16 16, Nat.div_div_eq_div_mul]
        rfl

theorem hexDigits_lt (hn : n < 2 ^ 16) :
    forall d, d ∈ hexDigits n -> d < 16 := by
  intro d hd
  unfold hexDigits at hd
  split at hd
  · simp only [List.mem_singleton] at hd
    lia
  · split at hd
    · simp only [List.mem_cons, List.not_mem_nil, or_false] at hd
      lia
    · split at hd
      · simp only [List.mem_cons, List.not_mem_nil, or_false] at hd
        lia
      · simp only [List.mem_cons, List.not_mem_nil, or_false] at hd
        lia

theorem digitsValue_hexDigits (n : Nat) :
    digitsValue 16 (hexDigits n) = n := by
  unfold hexDigits
  split
  · simp [digitsValue]
  · split
    · simp only [digitsValue, List.foldl_cons, List.foldl_nil]
      lia
    · split
      · simp only [digitsValue, List.foldl_cons, List.foldl_nil]
        lia
      · simp only [digitsValue, List.foldl_cons, List.foldl_nil]
        lia

theorem hexDigits_shape (n : Nat) :
    hexDigits n ≠ [] ∧ (hexDigits n).length ≤ 4 := by
  unfold hexDigits
  split
  · exact ⟨by simp, by simp⟩
  · split
    · exact ⟨by simp, by simp⟩
    · split
      · exact ⟨by simp, by simp⟩
      · exact ⟨by simp, by simp⟩

theorem hexText_eq :
    hexText group = (hexDigits group.toNat).map Nat.digitChar :=
  toDigits_eq_hexDigits (UInt16.toNat_lt group)

theorem readGroup_hexText (hends : EndsDigits 16 rest) :
    readGroup (hexText group ++ rest) = some (group, rest) := by
  have hlt : group.toNat < 2 ^ 16 := UInt16.toNat_lt group
  rcases hexDigits_shape group.toNat with ⟨hne, hlength⟩
  have hvalue := digitsValue_hexDigits group.toNat
  rw [readGroup, hexText_eq, readNumber_append (by decide) (hexDigits_lt hlt)
    hne hlength (Or.inl rfl) (by rw [hvalue]; exact hlt) hends, hvalue]
  simp

theorem not_mem_hexText {c : Char} (hc : digitValue c = none) : c ∉ hexText group := by
  rw [hexText_eq]
  exact digitChar_not_mem (hexDigits_lt (UInt16.toNat_lt group)) hc

/-- Where a list of groups ends: at the end of the text or at a double colon. -/
def StopsGroups (s : Text) : Prop :=
  s = [] ∨ exists rest, s = ':' :: ':' :: rest

variable {s stop : Text} {c : Char}

theorem endsDigits_of_stopsGroups (h : StopsGroups s) :
    EndsDigits 16 s := by
  rcases h with h | ⟨rest, h⟩
  · rw [h]
    intro c hc
    cases hc
  · rw [h]
    intro c hc
    cases hc
    rfl

theorem readGroup_colon (s : Text) : readGroup (':' :: s) = none := rfl

theorem readSeparator_of_stopsGroups (h : StopsGroups s)
    (index : Nat) : readSeparator ':' (index + 1) readGroup s = none := by
  rcases h with h | ⟨rest, h⟩
  · rw [h]
    rfl
  · rw [h, readSeparator_succ, readGroup_colon]

theorem endsDigits_separated_append {stop : Text} (hstop : StopsGroups stop) :
    EndsDigits 16 (separated ':' hexText groups ++ stop) := by
  cases groups with
  | nil => exact endsDigits_of_stopsGroups hstop
  | cons group rest =>
    intro c hc
    cases hc
    rfl

theorem readGroups_of_stop (hstop : StopsGroups stop) (hdot : '.' ∉ stop) (index left : Nat) :
    readGroups (index + 1) left stop = ([], false, stop) := by
  cases left with
  | zero => rfl
  | succ left =>
    rw [readGroups, readSeparator_ipv4_of_no_dot hdot, ite_self, readSeparator_of_stopsGroups hstop]

theorem readGroups_hex_separated {groups : List UInt16} (hstop : StopsGroups stop)
    (hdot : '.' ∉ separated ':' hexText groups ++ stop) {left : Nat}
    (hleft : groups.length ≤ left) (index : Nat) :
    readGroups (index + 1) left (separated ':' hexText groups ++ stop) = (groups, false, stop) := by
  induction groups generalizing index left with
  | nil => exact readGroups_of_stop hstop hdot index left
  | cons group rest ih =>
    cases left with
    | zero => cases hleft
    | succ left =>
      have hends := endsDigits_separated_append rest hstop
      have hrest := ih (fun hmem => hdot (by
        simp only [separated, List.cons_append, List.mem_cons,
          List.append_assoc, List.mem_append] at hmem ⊢
        tauto)) (Nat.le_of_succ_le_succ hleft) (index + 1)
      rw [readGroups, readSeparator_ipv4_of_no_dot hdot, ite_self]
      simp only [separated, List.cons_append, List.append_assoc,
        readSeparator_succ, readGroup_hexText group hends, hrest]

theorem readGroups_hex_joined {groups : List UInt16}
    (hstop : StopsGroups stop) (hdot : '.' ∉ joined ':' hexText groups ++ stop)
    {left : Nat} (hleft : groups.length ≤ left) :
    readGroups 0 left (joined ':' hexText groups ++ stop) = (groups, false, stop) := by
  cases groups with
  | nil =>
    cases left with
    | zero => rfl
    | succ left =>
      have hgroup : readGroup stop = none := by
        rcases hstop with h | ⟨rest, h⟩
        · rw [h]
          rfl
        · rw [h, readGroup_colon]
      have hjoined : joined ':' hexText [] ++ stop = stop := rfl
      rw [hjoined] at hdot ⊢
      rw [readGroups, readSeparator_ipv4_of_no_dot hdot, ite_self, readSeparator_zero, hgroup]
  | cons group rest =>
    cases left with
    | zero => cases hleft
    | succ left =>
      have hends := endsDigits_separated_append rest hstop
      have hrest := readGroups_hex_separated hstop (fun hmem => hdot (by
        simp only [joined, separated, List.tail_cons, List.append_assoc, List.mem_append] at hmem ⊢
        tauto)) (Nat.le_of_succ_le_succ hleft) 0
      rw [readGroups, readSeparator_ipv4_of_no_dot hdot, ite_self]
      simp only [joined, separated, List.tail_cons, List.append_assoc,
        readSeparator_zero, readGroup_hexText group hends, hrest]

/-- A run of zero groups, by its start and length. -/
def ZeroRun (groups : List UInt16) (run : Nat × Nat) : Prop :=
  run.1 + run.2 ≤ groups.length ∧ forall j, run.1 ≤ j -> j < run.1 + run.2 -> groups[j]? = some 0

theorem longestZeros_spec {front rest : List UInt16} {current longest : Nat × Nat}
    (hcurrent : ZeroRun (front ++ rest) current)
    (hopen : current.2 = 0 ∨ current.1 + current.2 = front.length)
    (hlongest : ZeroRun (front ++ rest) longest) :
    ZeroRun (front ++ rest) (longestZeros front.length current longest rest) := by
  induction rest generalizing front current longest with
  | nil => exact hlongest
  | cons group rest ih =>
    have hsplit : front ++ group :: rest = (front ++ [group]) ++ rest := by
      rw [List.append_assoc]
      rfl
    have hlength : (front ++ [group]).length = front.length + 1 := by simp
    rw [hsplit] at hcurrent hlongest ⊢
    unfold longestZeros
    split
    · rename_i hzero
      have hhere : ((front ++ [group]) ++ rest)[front.length]? = some 0 := by
        simp [hzero]
      have hnext : ZeroRun ((front ++ [group]) ++ rest)
            (if current.2 = 0 then (front.length, 1)
              else (current.1, current.2 + 1)) ∧
          (if current.2 = 0 then (front.length, 1)
              else (current.1, current.2 + 1)).1 +
            (if current.2 = 0 then (front.length, 1)
              else (current.1, current.2 + 1)).2 = front.length + 1 := by
        split
        · refine ⟨⟨by simp, fun j hle hlt => ?_⟩, rfl⟩
          have hj : j = front.length := by dsimp only at hle hlt; lia
          rw [hj, hhere]
        · rename_i hne
          have hend := hopen.resolve_left hne
          refine ⟨⟨by simp; lia, fun j hle hlt => ?_⟩, by dsimp only; lia⟩
          dsimp only at hle hlt
          rcases Nat.lt_or_ge j front.length with hj | hj
          · exact hcurrent.2 j hle (by lia)
          · have hj' : j = front.length := by lia
            rw [hj', hhere]
      dsimp only
      generalize (if current.2 = 0 then (front.length, 1)
        else (current.1, current.2 + 1)) = next at hnext ⊢
      rw [← hlength]
      refine ih hnext.1 (Or.inr (hnext.2.trans hlength.symm)) ?_
      split
      · exact hnext.1
      · exact hlongest
    · rw [← hlength]
      exact ih ⟨Nat.zero_le _, fun j _ hlt => absurd hlt (Nat.not_lt_zero j)⟩ (Or.inl rfl) hlongest

theorem longestZeros_zeroRun :
    ZeroRun groups (longestZeros 0 (0, 0) (0, 0) groups) := by
  have hnone : ZeroRun groups (0, 0) :=
    ⟨Nat.zero_le _, fun j _ hlt => absurd hlt (Nat.not_lt_zero j)⟩
  have hspec : ZeroRun ([] ++ groups) (longestZeros 0 (0, 0) (0, 0) groups) :=
    longestZeros_spec hnone (Or.inl rfl) hnone
  exact hspec

/-! ## Addresses -/

theorem ofGroups_take_drop {ip : Ipv6Addr} (h : ZeroRun ip.segments run) :
    Ipv6Addr.ofGroups (ip.segments.take run.1) (ip.segments.drop (run.1 + run.2)) = ip := by
  rcases ip with ⟨segments, hlength⟩
  rcases h with ⟨hend, hzero⟩
  dsimp only at hend hzero
  have htail : 8 - (segments.drop (run.1 + run.2)).length = run.1 + run.2 := by
    rw [List.length_drop]
    lia
  unfold Ipv6Addr.ofGroups
  congr 1
  refine List.ext_getElem? (fun i => ?_)
  dsimp only
  rw [htail, List.getElem?_map]
  rcases Nat.lt_or_ge i 8 with hi | hi
  · rw [List.getElem?_range hi, Option.map_some]
    have hseg : segments[i]? = some (segments.getD i 0) := by
      rw [List.getD_eq_getElem?_getD, List.getElem?_eq_getElem (by lia)]
      rfl
    rw [hseg]
    congr 1
    split
    · rename_i hle
      rw [List.getD_eq_getElem?_getD, List.getElem?_drop,
        List.getD_eq_getElem?_getD, Nat.add_sub_cancel' hle]
    · rename_i hlt
      rcases Nat.lt_or_ge i run.1 with hrun | hrun
      · rw [List.getD_eq_getElem?_getD, List.getElem?_take_of_lt hrun, List.getD_eq_getElem?_getD]
      · rw [List.getD_eq_getElem?_getD, List.getD_eq_getElem?_getD,
          hzero i hrun (Nat.lt_of_not_le hlt),
          List.getElem?_eq_none (by rw [List.length_take]; lia)]
        rfl
  · rw [List.getElem?_eq_none (by simpa using hi), List.getElem?_eq_none (by lia)]
    rfl

theorem not_mem_joined_hexText (hc : digitValue c = none)
    (hcolon : c ≠ ':') (groups : List UInt16) :
    c ∉ joined ':' hexText groups :=
  not_mem_joined hcolon (fun g => not_mem_hexText g hc) groups

theorem readIpv6Addr_joined :
    readIpv6Addr (joined ':' hexText ip.segments) = some (ip, []) := by
  have hdot : '.' ∉ joined ':' hexText ip.segments ++ [] := by
    rw [List.append_nil]
    exact not_mem_joined_hexText (by decide) (by decide) ip.segments
  have hgroups := readGroups_hex_joined (Or.inl rfl) hdot (Nat.le_of_eq ip.segments_length)
  rw [List.append_nil] at hgroups
  simp only [readIpv6Addr, hgroups, ip.segments_length, if_true, ofGroups_segments]

theorem readIpv6Addr_compressed (h : ZeroRun ip.segments run) (hlong : 1 < run.2) :
    readIpv6Addr (joined ':' hexText (ip.segments.take run.1) ++ "::".toList ++
        joined ':' hexText (ip.segments.drop (run.1 + run.2))) = some (ip, []) := by
  have hlength := ip.segments_length
  have hend := h.1
  have hno : forall groups, '.' ∉ joined ':' hexText groups :=
    not_mem_joined_hexText (by decide) (by decide)
  have htail : '.' ∉ joined ':' hexText (ip.segments.drop (run.1 + run.2)) ++ [] := by
    rw [List.append_nil]
    exact hno _
  have hhead : '.' ∉ joined ':' hexText (ip.segments.take run.1) ++
      ':' :: ':' :: joined ':' hexText (ip.segments.drop (run.1 + run.2)) := by
    simp only [List.mem_append, List.mem_cons, not_or]
    exact ⟨hno _, by decide, by decide, hno _⟩
  have hsize : (ip.segments.take run.1).length = run.1 := by
    rw [List.length_take]
    lia
  have hread := readGroups_hex_joined (Or.inr ⟨_, rfl⟩) hhead
    (show (ip.segments.take run.1).length ≤ 8 by lia)
  have hrest := readGroups_hex_joined (Or.inl rfl) htail
    (show (ip.segments.drop (run.1 + run.2)).length ≤ 8 - (run.1 + 1) by
      rw [List.length_drop]
      lia)
  rw [List.append_nil] at hrest
  have htext : joined ':' hexText (ip.segments.take run.1) ++ "::".toList ++
        joined ':' hexText (ip.segments.drop (run.1 + run.2)) =
      joined ':' hexText (ip.segments.take run.1) ++
        ':' :: ':' :: joined ':' hexText (ip.segments.drop (run.1 + run.2)) := by
    rw [List.append_assoc]
    rfl
  rw [htext]
  simp only [readIpv6Addr, hread, hsize]
  rw [if_neg (by lia), if_neg Bool.false_ne_true]
  simp only [readGivenChar, if_true, Option.bind_eq_bind, Option.bind_some,
    hrest, ofGroups_take_drop h]
  rfl

theorem octets_of_group :
    UInt16.ofNat ((group / 256).toUInt8.toNat * 2 ^ 8 + (group % 256).toUInt8.toNat) = group := by
  have hlt : group.toNat < 65536 := UInt16.toNat_lt group
  refine UInt16.toNat_inj.mp ?_
  rw [UInt16.toNat_ofNat', UInt16.toNat_toUInt8, UInt16.toNat_toUInt8,
    UInt16.toNat_div, UInt16.toNat_mod]
  simp only [UInt16.reduceToNat]
  lia

theorem readIpv4Addr_of_not_digit (hc : toDigit 10 c = none)
    (s : Text) : readIpv4Addr (c :: s) = none := by
  have hoctet : readOctet (c :: s) = none := by
    unfold readOctet readNumber readDigits
    rw [hc]
    rfl
  rw [readIpv4Addr, readSeparator_zero, hoctet]
  rfl

theorem readGroups_of_group {index left : Nat} {group : UInt16}
    (hipv4 : readSeparator ':' index readIpv4Addr s = none)
    (hgroup : readSeparator ':' index readGroup s = some (group, rest)) :
    readGroups index (left + 1) s = (group :: (readGroups (index + 1) left rest).1,
        (readGroups (index + 1) left rest).2) := by
  rw [readGroups, hipv4, ite_self]
  simp only [hgroup]

theorem readIpv6Addr_mapped {ip : Ipv4Addr} (h : readIpv4Addr s = some (ip, [])) :
    readIpv6Addr ("::ffff:".toList ++ s) =
      some (Ipv6Addr.ofGroups [] (0xffff :: embeddedGroups ip.octets), []) := by
  have hfront : readGroups 0 8 ("::ffff:".toList ++ s) = ([], false, "::ffff:".toList ++ s) := by
    have hipv4 : readSeparator ':' 0 readIpv4Addr ("::ffff:".toList ++ s) =
        none := readIpv4Addr_of_not_digit (by decide) _
    have hgroup : readSeparator ':' 0 readGroup ("::ffff:".toList ++ s) =
        none := readGroup_colon (":ffff:".toList ++ s)
    rw [readGroups, hipv4, ite_self, hgroup]
  have hback : readGroups 0 7 ("ffff:".toList ++ s) =
      (0xffff :: embeddedGroups ip.octets, true, []) := by
    have hipv4 : readSeparator ':' 0 readIpv4Addr ("ffff:".toList ++ s) =
        none := readIpv4Addr_of_not_digit (by decide) _
    have hgroup : readSeparator ':' 0 readGroup ("ffff:".toList ++ s) =
        some (0xffff, ':' :: s) := by
      have hends : EndsDigits 16 (':' :: s) := by
        intro c hc
        cases hc
        rfl
      exact readGroup_hexText 0xffff hends
    rw [readGroups_of_group hipv4 hgroup, readGroups, readSeparator_succ, h]
    rfl
  simp only [readIpv6Addr, hfront]
  rw [if_neg (by decide), if_neg Bool.false_ne_true]
  have hcolon : readGivenChar ':' ("::ffff:".toList ++ s) = some (":ffff:".toList ++ s) := rfl
  have hcolon' : readGivenChar ':' (":ffff:".toList ++ s) = some ("ffff:".toList ++ s) := rfl
  rw [hcolon, Option.bind_eq_bind, Option.bind_some, hcolon', Option.bind_some]
  have hleft : 8 - (([] : List UInt16).length + 1) = 7 := rfl
  rw [hleft, hback]
  rfl

theorem readIpv6Addr_display :
    readIpv6Addr ip.display = some (ip, []) := by
  unfold Ipv6Addr.display
  split
  · rename_i high low hsegments
    have hipv4 := readIpv4Addr_joined (Ipv4Addr.new (high / 256).toUInt8
      (high % 256).toUInt8 (low / 256).toUInt8 (low % 256).toUInt8)
    have hgroups : Ipv6Addr.ofGroups [] (0xffff :: embeddedGroups
        [(high / 256).toUInt8, (high % 256).toUInt8, (low / 256).toUInt8,
          (low % 256).toUInt8]) = ip := by
      rcases ip with ⟨segments, hlength⟩
      dsimp only at hsegments
      unfold Ipv6Addr.ofGroups
      congr 1
      rw [hsegments]
      simp only [embeddedGroups, octets_of_group]
      rfl
    exact (readIpv6Addr_mapped hipv4).trans (congrArg (fun a => some (a, [])) hgroups)
  · dsimp only
    split
    · rename_i hlong
      exact readIpv6Addr_compressed ip (longestZeros_zeroRun ip.segments) hlong
    · exact readIpv6Addr_joined ip

theorem readIpv4Addr_display : readIpv4Addr ip.display = none := by
  unfold Ipv6Addr.display
  split
  · exact readIpv4Addr_of_not_digit (by decide) _
  · have hno : forall groups, '.' ∉ joined ':' hexText groups :=
      not_mem_joined_hexText (by decide) (by decide)
    dsimp only
    split
    · refine readIpv4Addr_of_no_dot ?_
      simp only [List.mem_append, not_or]
      exact ⟨⟨hno _, by decide⟩, hno _⟩
    · exact readIpv4Addr_of_no_dot (hno _)

theorem Ipv6Addr.not_mem_display {c : Char}
    (hc : digitValue c = none) (hdot : c ≠ '.') (hcolon : c ≠ ':') :
    c ∉ ip.display := by
  have hgroups : forall groups, c ∉ joined ':' hexText groups := not_mem_joined_hexText hc hcolon
  unfold display
  split
  · rw [List.mem_append, not_or]
    refine ⟨?_, not_mem_joined hdot (fun o => not_mem_octetText o hc) _⟩
    intro hmem
    have hcases : c = ':' ∨ c = 'f' ∨ c = ':' := by
      simpa using hmem
    rcases hcases with h | h | h
    · exact hcolon h
    · rw [h] at hc
      cases hc
    · exact hcolon h
  · dsimp only
    split
    · simp only [List.mem_append, not_or]
      refine ⟨⟨hgroups _, ?_⟩, hgroups _⟩
      intro hmem
      exact hcolon (by simpa using hmem)
    · exact hgroups _

theorem IpAddr.not_mem_display (ip : IpAddr) {c : Char}
    (hc : digitValue c = none) (hdot : c ≠ '.') (hcolon : c ≠ ':') :
    c ∉ ip.display := by
  cases ip with
  | v4 ip =>
    exact not_mem_joined hdot (fun o => not_mem_octetText o hc) ip.octets
  | v6 ip => exact ip.not_mem_display hc hdot hcolon

theorem IpAddr.display_range {ip : IpAddr} (h : c ∈ ip.display) :
    46 ≤ c.toNat ∧ c.toNat ≤ 122 := by
  rcases Decidable.em (c = '.') with hdot | hdot
  · rw [hdot]
    decide
  rcases Decidable.em (c = ':') with hcolon | hcolon
  · rw [hcolon]
    decide
  cases hdigit : digitValue c with
  | none => exact absurd h (ip.not_mem_display hdigit hdot hcolon)
  | some d =>
    have := digitValue_range (c := c) (by rw [hdigit]; rfl)
    lia

theorem IpAddr.isWhitespace_display {ip : IpAddr}
    (h : c ∈ ip.display) : Text.isWhitespace c = false := by
  have hrange := display_range h
  exact Text.isWhitespace_of_range (by lia) (by lia)

theorem IpAddr.trim_display (ip : IpAddr) : Text.trim ip.display = ip.display :=
  Text.trim_eq_self (fun _ hc => isWhitespace_display hc)

theorem IpAddr.fromStr_display (ip : IpAddr) : fromStr ip.display = some ip := by
  cases ip with
  | v4 ip =>
    simp only [fromStr, display, readIpAddr, readIpv4Addr_joined]
  | v6 ip =>
    simp only [fromStr, display, readIpAddr, readIpv4Addr_display,
      readIpv6Addr_display, Option.map_some]

theorem IpAddr.display_injective : Function.Injective IpAddr.display := by
  intro a b h
  have hread := congrArg IpAddr.fromStr h
  rw [fromStr_display, fromStr_display] at hread
  injection hread

end Net
end PrxWaf
