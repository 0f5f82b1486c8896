import PrxWaf.Lib.Text
import PrxWaf.Net.IpAddr

/-!
# Reading addresses

The recursive-descent parser behind `IpAddr::from_str`.  A reader consumes the
front of the input and returns what it read with the rest; a reader that fails
consumes nothing.  An IPv4 address is tried first, and whatever is read must be
the whole input.
-/

namespace PrxWaf
namespace Net

open Lib

def digitValue (c : Char) : Option Nat :=
  if '0' ≤ c ∧ c ≤ '9' then some (c.toNat - '0'.toNat)
  else if 'a' ≤ c ∧ c ≤ 'z' then some (c.toNat - 'a'.toNat + 10)
  else if 'A' ≤ c ∧ c ≤ 'Z' then some (c.toNat - 'A'.toNat + 10)
  else none

def toDigit (radix : Nat) (c : Char) : Option Nat :=
  (digitValue c).filter (fun d => d < radix)

/-- The longest run of digits at the front, with the rest. -/
def readDigits (radix : Nat) : Text -> List Nat × Text
  | [] => ([], [])
  | c :: rest =>
    match toDigit radix c with
    | none => ([], c :: rest)
    | some d => (d :: (readDigits radix rest).1, (readDigits radix rest).2)

def digitsValue (radix : Nat) (digits : List Nat) : Nat :=
  digits.foldl (fun n d => n * radix + d) 0

/--
Read a number below `limit`.  A run of more than `maxDigits` digits fails, and
so does a leading zero where it is not allowed.
-/
def readNumber (radix maxDigits : Nat) (allowZeroPrefix : Bool) (limit : Nat)
    (s : Text) : Option (Nat × Text) :=
  let digits := (readDigits radix s).1
  if maxDigits < digits.length ∨ digits = [] then none
  else if !allowZeroPrefix && s.head? == some '0' && 1 < digits.length then none
  else if digitsValue radix digits < limit then
    some (digitsValue radix digits, (readDigits radix s).2)
  else none

def readGivenChar (c : Char) : Text -> Option Text
  | [] => none
  | d :: rest => if d = c then some rest else none

/-- Read `inner`, after the separator unless this is the first element. -/
def readSeparator (sep : Char) (index : Nat) (inner : Text -> Option (value × Text)) (s : Text) :
    Option (value × Text) :=
  if index = 0 then inner s
  else (readGivenChar sep s).bind inner

def readOctet (s : Text) : Option (UInt8 × Text) :=
  (readNumber 10 3 false (2 ^ 8) s).map (fun r => (UInt8.ofNat r.1, r.2))

def readGroup (s : Text) : Option (UInt16 × Text) :=
  (readNumber 16 4 true (2 ^ 16) s).map (fun r => (UInt16.ofNat r.1, r.2))

def readIpv4Addr (s : Text) : Option (Ipv4Addr × Text) := do
  let (a, s) <- readSeparator '.' 0 readOctet s
  let (b, s) <- readSeparator '.' 1 readOctet s
  let (c, s) <- readSeparator '.' 2 readOctet s
  let (d, s) <- readSeparator '.' 3 readOctet s
  return (Ipv4Addr.new a b c d, s)

/-- The octets of an embedded IPv4 address as groups of an IPv6 address. -/
def embeddedGroups : List UInt8 -> List UInt16
  | a :: b :: rest =>
    UInt16.ofNat (a.toNat * 2 ^ 8 + b.toNat) :: embeddedGroups rest
  | _ => []

/--
Read up to `left` more groups, the first of them at place `index`.  An embedded
IPv4 address takes two places and ends the groups; the flag says that it did.
-/
def readGroups (index : Nat) : Nat -> Text -> List UInt16 × Bool × Text
  | 0, s => ([], false, s)
  | left + 1, s =>
    let embedded :=
      if 0 < left then readSeparator ':' index readIpv4Addr s else none
    match embedded with
    | some (ip, rest) => (embeddedGroups ip.octets, true, rest)
    | none =>
      match readSeparator ':' index readGroup s with
      | none => ([], false, s)
      | some (group, rest) =>
        let (groups, ipv4, rest') := readGroups (index + 1) left rest
        (group :: groups, ipv4, rest')

/-- Eight groups, `head` at the front, `tail` at the back, zeros between. -/
def Ipv6Addr.ofGroups (head tail : List UInt16) : Ipv6Addr where
  segments := (List.range 8).map (fun i =>
    if 8 - tail.length ≤ i then tail.getD (i - (8 - tail.length)) 0
    else head.getD i 0)
  segments_length := by rw [List.length_map, List.length_range]

def readIpv6Addr (s : Text) : Option (Ipv6Addr × Text) :=
  let (head, headIpv4, s) := readGroups 0 8 s
  if head.length = 8 then some (Ipv6Addr.ofGroups head [], s)
  else if headIpv4 then none
  else do
    let s <- readGivenChar ':' s
    let s <- readGivenChar ':' s
    let (tail, _, s) := readGroups 0 (8 - (head.length + 1)) s
    return (Ipv6Addr.ofGroups head tail, s)

def readIpAddr (s : Text) : Option (IpAddr × Text) :=
  match readIpv4Addr s with
  | some (ip, rest) => some (IpAddr.v4 ip, rest)
  | none => (readIpv6Addr s).map (fun r => (IpAddr.v6 r.1, r.2))

/-- `IpAddr::from_str`: an address and nothing after it. -/
def IpAddr.fromStr (s : Text) : Option IpAddr :=
  match readIpAddr s with
  | some (ip, []) => some ip
  | _ => none

example : IpAddr.fromStr "2001:db8::1".toList =
    some (.v6 (Ipv6Addr.new 0x2001 0xdb8 0 0 0 0 0 1)) := by decide

example : IpAddr.fromStr "::ffff:1.2.3.4".toList =
    some (.v6 (Ipv6Addr.new 0 0 0 0 0 0xffff 0x102 0x304)) := by decide

example : IpAddr.fromStr "10.0.0.01".toList = none := by decide

/-!
# Writing addresses

Every address has a text that reads back as that address: four decimal octets,
or eight groups of four hexadecimal digits.
-/

def octetDigits (n : Nat) : List Nat :=
  if n < 10 then [n]
  else if n < 100 then [n / 10, n % 10]
  else [n / 100, n / 10 % 10, n % 10]

def groupDigits (n : Nat) : List Nat :=
  [n / 4096, n / 256 % 16, n / 16 % 16, n % 16]

def octetText (octet : UInt8) : Text :=
  (octetDigits octet.toNat).map Nat.digitChar

def groupText (group : UInt16) : Text :=
  (groupDigits group.toNat).map Nat.digitChar

def separated (sep : Char) (text : element -> Text) : List element -> Text
  | [] => []
  | e :: rest => sep :: (text e ++ separated sep text rest)

def joined (sep : Char) (text : element -> Text) (elements : List element) : Text :=
  (separated sep text elements).tail

def IpAddr.toText : IpAddr -> Text
  | .v4 ip => joined '.' octetText ip.octets
  | .v6 ip => joined ':' groupText ip.segments

example : (IpAddr.v4 (Ipv4Addr.new 10 0 200 1)).toText = "10.0.200.1".toList := by
  decide

/-!
The standard library writes the groups of a long address without leading zeros
and leaves out the first longest run of zero groups.
-/

/-- The first longest run of zeros in groups that begin at position `i`, given
the run that is open and the longest so far, as pairs of start and length. -/
def longestZeros : Nat -> Nat × Nat -> Nat × Nat -> List UInt16 -> Nat × Nat
  | _, _, longest, [] => longest
  | i, current, longest, group :: rest =>
    if group = 0 then
      let current := if current.2 = 0 then (i, 1) else (current.1, current.2 + 1)
      longestZeros (i + 1) current (if longest.2 < current.2 then current else longest) rest
    else longestZeros (i + 1) (0, 0) longest rest

def hexText (group : UInt16) : Text :=
  Nat.toDigits 16 group.toNat

def Ipv6Addr.display (ip : Ipv6Addr) : Text :=
  match ip.segments with
  | [0, 0, 0, 0, 0, 0xffff, high, low] =>
    "::ffff:".toList ++ joined '.' octetText
        [(high / 256).toUInt8, (high % 256).toUInt8, (low / 256).toUInt8, (low % 256).toUInt8]
  | segments =>
    let zeros := longestZeros 0 (0, 0) (0, 0) segments
    if 1 < zeros.2 then
      joined ':' hexText (segments.take zeros.1) ++ "::".toList ++
        joined ':' hexText (segments.drop (zeros.1 + zeros.2))
    else joined ':' hexText segments

def IpAddr.display : IpAddr -> Text
  | .v4 ip => joined '.' octetText ip.octets
  | .v6 ip => ip.display

example : (IpAddr.v6 (Ipv6Addr.new 0x2001 0xdb8 0 0 1 0 0 1)).display =
    "2001:db8::1:0:0:1".toList := by
  decide

/-! Digits read back. -/

theorem digitValue_digitChar {d : Nat} (hd : d < 16) :
    digitValue (Nat.digitChar d) = some d := by
  revert d
  decide

variable {radix : Nat} {s : Text} {c : Char}

theorem toDigit_digitChar {d : Nat} (hradix : radix ≤ 16)
    (hd : d < radix) : toDigit radix (Nat.digitChar d) = some d := by
  rw [toDigit, digitValue_digitChar (Nat.lt_of_lt_of_le hd hradix)]
  simp [hd]

/-- No digit of the radix stands at the front. -/
def EndsDigits (radix : Nat) (s : Text) : Prop :=
  forall c, s.head? = some c -> toDigit radix c = none

theorem readDigits_of_endsDigits (hends : EndsDigits radix s) : readDigits radix s = ([], s) := by
  cases s with
  | nil => rfl
  | cons c rest =>
    rw [readDigits, hends c rfl]

theorem readDigits_append (hradix : radix ≤ 16) {ds : List Nat}
    (hds : forall d, d ∈ ds -> d < radix) {rest : Text} (hends : EndsDigits radix rest) :
    readDigits radix (ds.map Nat.digitChar ++ rest) = (ds, rest) := by
  induction ds with
  | nil =>
    exact readDigits_of_endsDigits hends
  | cons d ds ih =>
    have hd := toDigit_digitChar hradix (hds d List.mem_cons_self)
    have hrest := ih (fun e he => hds e (List.mem_cons_of_mem d he))
    simp only [List.map_cons, List.cons_append, readDigits, hd, hrest]

theorem readNumber_append {maxDigits limit : Nat} {allow : Bool}
    (hradix : radix ≤ 16) {ds : List Nat} (hds : forall d, d ∈ ds -> d < radix)
    (hne : ds ≠ []) (hlength : ds.length ≤ maxDigits)
    (hzero : allow = true ∨ ds.length = 1 ∨ ds.head? ≠ some 0)
    (hlimit : digitsValue radix ds < limit) {rest : Text} (hends : EndsDigits radix rest) :
    readNumber radix maxDigits allow limit (ds.map Nat.digitChar ++ rest) =
      some (digitsValue radix ds, rest) := by
  have hread := readDigits_append hradix hds hends
  have hfirst : ¬ ((!allow && (ds.map Nat.digitChar ++ rest).head? == some '0' &&
      decide (1 < ds.length)) = true) := by
    intro h
    simp only [Bool.and_eq_true, Bool.not_eq_true', beq_iff_eq, decide_eq_true_eq] at h
    rcases h with ⟨⟨hallow, hhead⟩, hlong⟩
    rcases hzero with hyes | hone | hnonzero
    · rw [hyes] at hallow
      cases hallow
    · lia
    · cases ds with
      | nil => exact hne rfl
      | cons d ds =>
        simp only [List.map_cons, List.cons_append, List.head?_cons,
          Option.some.injEq] at hhead hnonzero
        have hd := toDigit_digitChar hradix (hds d List.mem_cons_self)
        rw [hhead] at hd
        simp only [toDigit, show digitValue '0' = some 0 from rfl] at hd
        simp only [Option.filter_eq_some_iff, Option.some.injEq] at hd
        exact hnonzero (congrArg some hd.left.symm)
  simp only [readNumber, hread, not_lt.mpr hlength, hne, or_self, if_false, hfirst, if_pos hlimit]
  simp

theorem octetDigits_lt {n : Nat} (hn : n < 2 ^ 8) :
    forall d, d ∈ octetDigits n -> d < 10 := by
  intro d hd
  unfold octetDigits at hd
  split at hd
  · simp only [List.mem_singleton] at hd
    lia
  · split at hd
    · simp only [List.mem_cons, List.not_mem_nil, or_false] at hd
      lia
    · simp only [List.mem_cons, List.not_mem_nil, or_false] at hd
      lia

theorem groupDigits_lt {n : Nat} (hn : n < 2 ^ 16) :
    forall d, d ∈ groupDigits n -> d < 16 := by
  intro d hd
  simp only [groupDigits, List.mem_cons, List.not_mem_nil, or_false] at hd
  lia

theorem digitsValue_octetDigits (n : Nat) :
    digitsValue 10 (octetDigits n) = n := by
  unfold octetDigits
  split
  · simp [digitsValue]
  · split
    · simp only [digitsValue, List.foldl_cons, List.foldl_nil]
      lia
    · simp only [digitsValue, List.foldl_cons, List.foldl_nil]
      lia

theorem digitsValue_groupDigits (n : Nat) :
    digitsValue 16 (groupDigits n) = n := by
  simp only [digitsValue, groupDigits, List.foldl_cons, List.foldl_nil]
  lia

theorem octetDigits_shape (n : Nat) :
    octetDigits n ≠ [] ∧ (octetDigits n).length ≤ 3 ∧
      ((octetDigits n).length = 1 ∨ (octetDigits n).head? ≠ some 0) := by
  unfold octetDigits
  split
  · exact ⟨by simp, by simp, Or.inl rfl⟩
  · split
    · refine ⟨by simp, by simp, Or.inr ?_⟩
      simp only [List.head?_cons, ne_eq, Option.some.injEq]
      lia
    · refine ⟨by simp, by simp, Or.inr ?_⟩
      simp only [List.head?_cons, ne_eq, Option.some.injEq]
      lia

theorem readOctet_append (octet : UInt8) {rest : Text} (hends : EndsDigits 10 rest) :
    readOctet (octetText octet ++ rest) = some (octet, rest) := by
  have hlt : octet.toNat < 2 ^ 8 := UInt8.toNat_lt octet
  rcases octetDigits_shape octet.toNat with ⟨hne, hlength, hzero⟩
  have hvalue := digitsValue_octetDigits octet.toNat
  rw [readOctet, octetText, readNumber_append (by decide) (octetDigits_lt hlt)
    hne hlength (Or.inr hzero) (by rw [hvalue]; exact hlt) hends, hvalue]
  simp

theorem readGroup_append (group : UInt16) {rest : Text} (hends : EndsDigits 16 rest) :
    readGroup (groupText group ++ rest) = some (group, rest) := by
  have hlt : group.toNat < 2 ^ 16 := UInt16.toNat_lt group
  have hvalue := digitsValue_groupDigits group.toNat
  rw [readGroup, groupText, readNumber_append (by decide) (groupDigits_lt hlt)
    (by simp [groupDigits]) (Nat.le_refl 4) (Or.inl rfl) (by rw [hvalue]; exact hlt) hends, hvalue]
  simp

theorem endsDigits_separated (radix : Nat) {sep : Char}
    (hsep : digitValue sep = none) (text : element -> Text) (elements : List element) :
    EndsDigits radix (separated sep text elements) := by
  intro c hc
  cases elements with
  | nil => cases hc
  | cons e rest =>
    simp only [separated, List.head?_cons, Option.some.injEq] at hc
    rw [← hc, toDigit, hsep]
    rfl

/-! Addresses read back. -/

theorem readSeparator_zero (sep : Char) (inner : Text -> Option (value × Text))
    (s : Text) : readSeparator sep 0 inner s = inner s := rfl

theorem readSeparator_succ (sep : Char) (index : Nat)
    (inner : Text -> Option (value × Text)) (s : Text) :
    readSeparator sep (index + 1) inner (sep :: s) = inner s := by
  simp [readSeparator, readGivenChar]

theorem readIpv4Addr_joined (ip : Ipv4Addr) :
    readIpv4Addr (joined '.' octetText ip.octets) = some (ip, []) := by
  rcases ip with ⟨octets, hlength⟩
  match octets, hlength with
  | [a, b, c, d], _ =>
    have hends := endsDigits_separated 10 (show digitValue '.' = none from rfl) octetText
    have ha := readOctet_append a (hends [b, c, d])
    have hb := readOctet_append b (hends [c, d])
    have hc := readOctet_append c (hends [d])
    have hd := readOctet_append d (hends [])
    simp only [separated] at ha hb hc hd
    simp only [readIpv4Addr, joined, separated, List.tail_cons,
      readSeparator_zero, readSeparator_succ '.', ha, hb, hc, hd,
      Option.bind_eq_bind, Option.bind_some]
    rfl

theorem readDigits_suffix (radix : Nat) (s : Text) :
    (readDigits radix s).2 <:+ s := by
  induction s with
  | nil => exact List.suffix_rfl
  | cons c rest ih =>
    unfold readDigits
    cases toDigit radix c with
    | none => exact List.suffix_rfl
    | some d => exact ih.trans (List.suffix_cons c rest)

theorem readOctet_suffix {rest : Text} {octet : UInt8}
    (h : readOctet s = some (octet, rest)) : rest <:+ s := by
  rcases Option.map_eq_some_iff.mp h with ⟨r, hnumber, hr⟩
  injection hr with _ hrest
  rw [← hrest]
  unfold readNumber at hnumber
  simp only at hnumber
  split at hnumber
  · cases hnumber
  · split at hnumber
    · cases hnumber
    · split at hnumber
      · injection hnumber with hvalue
        rw [← hvalue]
        exact readDigits_suffix 10 s
      · cases hnumber

theorem readIpv4Addr_of_no_dot (h : '.' ∉ s) :
    readIpv4Addr s = none := by
  rw [readIpv4Addr, readSeparator_zero]
  cases hfirst : readOctet s with
  | none => rfl
  | some r =>
    have hdot : readSeparator '.' 1 readOctet r.2 = none := by
      have hsuffix := readOctet_suffix hfirst
      cases hrest : r.2 with
      | nil => rfl
      | cons c rest =>
        have hc : c ≠ '.' := by
          intro heq
          apply h
          apply hsuffix.subset
          rw [hrest, heq]
          exact List.mem_cons_self
        simp [readSeparator, readGivenChar, hc]
    simp only [Option.bind_eq_bind, Option.bind_some, hdot, Option.bind_none]

theorem readSeparator_ipv4_of_no_dot (h : '.' ∉ s) (index : Nat) :
    readSeparator ':' index readIpv4Addr s = none := by
  unfold readSeparator
  split
  · exact readIpv4Addr_of_no_dot h
  · cases s with
    | nil => rfl
    | cons c rest =>
      simp only [readGivenChar]
      split
      · exact readIpv4Addr_of_no_dot (List.not_mem_of_not_mem_cons h)
      · rfl

theorem readGroups_separated {groups : List UInt16}
    (hdot : '.' ∉ separated ':' groupText groups) (index : Nat) :
    readGroups (index + 1) groups.length (separated ':' groupText groups) =
      (groups, false, []) := by
  induction groups generalizing index with
  | nil => rfl
  | cons group rest ih =>
    have hends := endsDigits_separated 16 (show digitValue ':' = none from rfl) groupText rest
    have hrest := ih (fun hmem => hdot (by simp [separated, hmem])) (index + 1)
    rw [List.length_cons, readGroups, readSeparator_ipv4_of_no_dot hdot, ite_self]
    simp only [separated, readSeparator_succ, readGroup_append group hends, hrest]

theorem readGroups_joined {group : UInt16} {groups : List UInt16}
    (hdot : '.' ∉ joined ':' groupText (group :: groups)) :
    readGroups 0 (groups.length + 1) (joined ':' groupText (group :: groups)) =
      (group :: groups, false, []) := by
  have hends := endsDigits_separated 16 (show digitValue ':' = none from rfl) groupText groups
  have hdots : '.' ∉ separated ':' groupText groups := by
    intro hmem
    exact hdot (by simp [joined, separated, hmem])
  have hrest := readGroups_separated hdots 0
  rw [readGroups, readSeparator_ipv4_of_no_dot hdot, ite_self]
  simp only [joined, separated, List.tail_cons, readSeparator_zero,
    readGroup_append group hends, hrest]

theorem ofGroups_segments (ip : Ipv6Addr) :
    Ipv6Addr.ofGroups ip.segments [] = ip := by
  rcases ip with ⟨segments, hlength⟩
  match segments, hlength with
  | [a, b, c, d, e, f, g, h], _ => rfl

/-! The characters of an address text. -/

theorem digitValue_range (h : (digitValue c).isSome) :
    48 ≤ c.toNat ∧ c.toNat ≤ 122 := by
  unfold digitValue at h
  split at h
  · rename_i hdigit
    exact ⟨hdigit.left, Nat.le_trans hdigit.right (by decide)⟩
  · split at h
    · rename_i hlower
      exact ⟨Nat.le_trans (by decide) hlower.left, hlower.right⟩
    · split at h
      · rename_i hupper
        exact ⟨Nat.le_trans (by decide) hupper.left, Nat.le_trans hupper.right (by decide)⟩
      · cases h

theorem digitChar_not_mem {ds : List Nat} (hds : forall d, d ∈ ds -> d < 16)
    {c : Char} (hc : digitValue c = none) : c ∉ ds.map Nat.digitChar := by
  intro hmem
  rcases List.mem_map.mp hmem with ⟨d, hd, heq⟩
  rw [← heq, digitValue_digitChar (hds d hd)] at hc
  cases hc

theorem not_mem_octetText (octet : UInt8) {c : Char}
    (hc : digitValue c = none) : c ∉ octetText octet := by
  apply digitChar_not_mem _ hc
  intro d hd
  have hlt := octetDigits_lt (UInt8.toNat_lt octet) d hd
  lia

theorem not_mem_groupText (group : UInt16) {c : Char}
    (hc : digitValue c = none) : c ∉ groupText group :=
  digitChar_not_mem (groupDigits_lt (UInt16.toNat_lt group)) hc

theorem not_mem_separated {sep : Char} {text : element -> Text}
    (hsep : c ≠ sep) (htext : forall e, c ∉ text e) (elements : List element) :
    c ∉ separated sep text elements := by
  induction elements with
  | nil => exact List.not_mem_nil
  | cons e rest ih =>
    simp only [separated, List.mem_cons, List.mem_append, not_or]
    exact ⟨hsep, htext e, ih⟩

theorem not_mem_joined {sep : Char} {text : element -> Text}
    (hsep : c ≠ sep) (htext : forall e, c ∉ text e) (elements : List element) :
    c ∉ joined sep text elements := by
  intro hmem
  exact not_mem_separated hsep htext elements (List.mem_of_mem_tail hmem)

theorem IpAddr.not_mem_toText (ip : IpAddr) {c : Char}
    (hc : digitValue c = none) (hdot : c ≠ '.') (hcolon : c ≠ ':') :
    c ∉ ip.toText := by
  cases ip with
  | v4 ip =>
    exact not_mem_joined hdot (fun o => not_mem_octetText o hc) ip.octets
  | v6 ip =>
    exact not_mem_joined hcolon (fun g => not_mem_groupText g hc) ip.segments

theorem IpAddr.mem_toText {ip : IpAddr} (hc : c ∈ ip.toText) :
    (digitValue c).isSome ∨ c = '.' ∨ c = ':' := by
  apply Classical.byContradiction
  intro hnot
  rw [not_or, not_or, Option.not_isSome_iff_eq_none] at hnot
  exact not_mem_toText ip hnot.left hnot.right.left hnot.right.right hc

theorem octetText_length (octet : UInt8) : (octetText octet).length ≤ 3 := by
  rw [octetText, List.length_map]
  exact (octetDigits_shape octet.toNat).right.left

theorem groupText_length (group : UInt16) : (groupText group).length = 4 := rfl

theorem IpAddr.toText_length_le (ip : IpAddr) : ip.toText.length ≤ 39 := by
  cases ip with
  | v4 ip =>
    rcases ip with ⟨octets, hlength⟩
    match octets, hlength with
    | [a, b, c, d], _ =>
      have ha := octetText_length a
      have hb := octetText_length b
      have hc := octetText_length c
      have hd := octetText_length d
      simp only [toText, joined, separated, List.tail_cons,
        List.length_append, List.length_cons, List.length_nil]
      lia
  | v6 ip =>
    rcases ip with ⟨segments, hlength⟩
    match segments, hlength with
    | [a, b, c, d, e, f, g, h], _ =>
      simp only [toText, joined, separated, List.tail_cons,
        List.length_append, List.length_cons, List.length_nil, groupText_length]
      lia

theorem IpAddr.count_colon_toText (ip : IpAddr) :
    ip.toText.count ':' ≠ 1 := by
  cases ip with
  | v4 ip =>
    have hnone : ':' ∉ joined '.' octetText ip.octets := not_mem_joined (by decide)
        (fun o => not_mem_octetText o (by decide)) ip.octets
    rw [toText, List.count_eq_zero.mpr hnone]
    decide
  | v6 ip =>
    rcases ip with ⟨segments, hlength⟩
    match segments, hlength with
    | [a, b, c, d, e, f, g, h], _ =>
      have hgroup : forall group, (groupText group).count ':' = 0 := by
        intro group
        exact List.count_eq_zero.mpr (not_mem_groupText group (by decide))
      simp only [toText, joined, separated, List.tail_cons,
        List.count_append, List.count_cons_self, List.count_nil, hgroup]
      decide

theorem IpAddr.fromStr_toText (ip : IpAddr) : fromStr ip.toText = some ip := by
  cases ip with
  | v4 ip =>
    simp only [fromStr, toText, readIpAddr, readIpv4Addr_joined]
  | v6 ip =>
    have hdot : '.' ∉ joined ':' groupText ip.segments := not_mem_joined (by decide)
        (fun g => not_mem_groupText g (by decide)) ip.segments
    have hgroups : readGroups 0 8 (joined ':' groupText ip.segments) =
        (ip.segments, false, []) := by
      rcases ip with ⟨segments, hlength⟩
      match segments, hlength with
      | group :: groups, hlength =>
        have hsize : groups.length + 1 = 8 := hlength
        rw [← hsize]
        exact readGroups_joined hdot
    simp only [fromStr, toText, readIpAddr, readIpv4Addr_of_no_dot hdot,
      readIpv6Addr, hgroups, ip.segments_length, if_true, Option.map_some, ofGroups_segments]

end Net
end PrxWaf
