import PrxWaf.Net.IpAddr

/-!
# Address ranges

The tests of the standard library for special addresses, the ranges that networks
written with a prefix length are, and the masks that cut such a range out of an
octet or a segment.
-/

namespace PrxWaf
namespace Net

namespace Ipv4Addr

def isBroadcast (ip : Ipv4Addr) : Bool :=
  ip == new 255 255 255 255

def isMulticast (ip : Ipv4Addr) : Bool :=
  match ip.octets with
  | a :: _ => 224 ≤ a && a ≤ 239
  | _ => false

theorem exists_new (ip : Ipv4Addr) : exists a b c d, ip = new a b c d := by
  obtain ⟨octets, hlength⟩ := ip
  match octets, hlength with
  | [a, b, c, d], _ => exact ⟨a, b, c, d, rfl⟩

theorem toNat_new (a b c d : UInt8) :
    (new a b c d).toNat = ((a.toNat * 256 + b.toNat) * 256 + c.toNat) * 256 + d.toNat := by
  unfold toNat new
  simp only [List.foldl_cons, List.foldl_nil]
  lia

theorem toNat_lt (ip : Ipv4Addr) : ip.toNat < 2 ^ 32 := by
  obtain ⟨a, b, c, d, rfl⟩ := ip.exists_new
  have ha := a.toNat_lt
  have hb := b.toNat_lt
  have hc := c.toNat_lt
  have hd := d.toNat_lt
  rw [toNat_new]
  lia

end Ipv4Addr

namespace Ipv6Addr

def isMulticast (ip : Ipv6Addr) : Bool :=
  match ip.segments with
  | a :: _ => a &&& 0xff00 == 0xff00
  | _ => false

theorem exists_new (ip : Ipv6Addr) :
    exists a b c d e f g h, ip = new a b c d e f g h := by
  obtain ⟨segments, hlength⟩ := ip
  match segments, hlength with
  | [a, b, c, d, e, f, g, h], _ => exact ⟨a, b, c, d, e, f, g, h, rfl⟩

theorem toNat_new (a b c d e f g h : UInt16) :
    (new a b c d e f g h).toNat = a.toNat * 2 ^ 112 + b.toNat * 2 ^ 96 + c.toNat * 2 ^ 80 +
        d.toNat * 2 ^ 64 + e.toNat * 2 ^ 48 + f.toNat * 2 ^ 32 + g.toNat * 2 ^ 16 + h.toNat := by
  unfold toNat new
  simp only [List.foldl_cons, List.foldl_nil]
  lia

theorem toNat_lt (ip : Ipv6Addr) : ip.toNat < 2 ^ 128 := by
  obtain ⟨a, b, c, d, e, f, g, h, rfl⟩ := ip.exists_new
  have ha := a.toNat_lt
  have hb := b.toNat_lt
  have hc := c.toNat_lt
  have hd := d.toNat_lt
  have he := e.toNat_lt
  have hf := f.toNat_lt
  have hg := g.toNat_lt
  have hh := h.toNat_lt
  rw [toNat_new]
  lia

end Ipv6Addr

namespace IpNet

def ofIpv4 (ip : Ipv4Addr) (len : Fin 33) : IpNet :=
  .v4
    { addr := ip.toNat
      addr_lt := ip.toNat_lt
      prefixLen := len.val
      prefixLen_le := Nat.le_of_lt_succ len.isLt }

def ofIpv6 (ip : Ipv6Addr) (len : Fin 129) : IpNet :=
  .v6
    { addr := ip.toNat
      addr_lt := ip.toNat_lt
      prefixLen := len.val
      prefixLen_le := Nat.le_of_lt_succ len.isLt }

end IpNet

theorem Prefixed.contains_iff {width : Nat} (net : Prefixed width) (addr : Nat) :
    net.contains addr = true <-> addr / 2 ^ (width - net.prefixLen) =
        net.addr / 2 ^ (width - net.prefixLen) := by
  have hpos : 0 < 2 ^ (width - net.prefixLen) := Nat.two_pow_pos _
  unfold contains broadcast network hostSize
  rw [Bool.and_eq_true, decide_eq_true_eq, decide_eq_true_eq]
  generalize 2 ^ (width - net.prefixLen) = size at hpos
  constructor
  · rintro ⟨hlow, hhigh⟩
    refine Nat.div_eq_of_lt_le hlow ?_
    rw [Nat.succ_mul]
    lia
  · intro heq
    rw [← heq]
    refine ⟨Nat.div_mul_le_self addr size, ?_⟩
    have hmod := Nat.div_add_mod addr size
    have hlt := Nat.mod_lt addr hpos
    rw [Nat.mul_comm] at hmod
    lia

theorem IpNet.contains_ofIpv4 {base ip : Ipv4Addr} {len : Fin 33} :
    (ofIpv4 base len).contains (.v4 ip) = true <->
      ip.toNat / 2 ^ (32 - len.val) = base.toNat / 2 ^ (32 - len.val) :=
  Prefixed.contains_iff _ _

theorem IpNet.contains_ofIpv6 {base ip : Ipv6Addr} {len : Fin 129} :
    (ofIpv6 base len).contains (.v6 ip) = true <->
      ip.toNat / 2 ^ (128 - len.val) = base.toNat / 2 ^ (128 - len.val) :=
  Prefixed.contains_iff _ _

theorem IpNet.contains_ofIpv6_v4 {base : Ipv6Addr} {len : Fin 129} {ip : Ipv4Addr} :
    (ofIpv6 base len).contains (.v4 ip) = false :=
  rfl

theorem IpNet.contains_ofIpv4_v6 {base : Ipv4Addr} {len : Fin 33} {ip : Ipv6Addr} :
    (ofIpv4 base len).contains (.v6 ip) = false :=
  rfl

theorem and_high_bits {n w : Nat} (k : Nat) (hn : n < 2 ^ w) :
    n &&& ((2 ^ (w - k) - 1) <<< k) = n / 2 ^ k * 2 ^ k := by
  rw [← Nat.shiftRight_eq_div_pow, ← Nat.shiftLeft_eq]
  refine Nat.eq_of_testBit_eq ?_
  intro i
  rw [Nat.testBit_and, Nat.testBit_shiftLeft, Nat.testBit_two_pow_sub_one,
    Nat.testBit_shiftLeft, Nat.testBit_shiftRight]
  rcases Nat.lt_or_ge i k with hlow | hhigh
  · simp [Nat.not_le.mpr hlow]
  · have hsum : k + (i - k) = i := by lia
    rw [hsum]
    rcases Nat.lt_or_ge i w with hin | hout
    · have hlt : i - k < w - k := by lia
      simp [hhigh, hlt]
    · have hfalse : n.testBit i = false := Nat.testBit_lt_two_pow
          (hn.trans_le (Nat.pow_le_pow_right (by decide) hout))
      simp [hfalse]

theorem octet_and_eq_iff {o mask value : UInt8} (k : Nat)
    (hmask : mask.toNat = (2 ^ (8 - k) - 1) <<< k) :
    o &&& mask = value <-> o.toNat / 2 ^ k * 2 ^ k = value.toNat := by
  rw [← UInt8.toNat_inj, UInt8.toNat_and, hmask, and_high_bits k o.toNat_lt]

theorem segment_and_eq_iff {s mask value : UInt16} (k : Nat)
    (hmask : mask.toNat = (2 ^ (16 - k) - 1) <<< k) :
    s &&& mask = value <-> s.toNat / 2 ^ k * 2 ^ k = value.toNat := by
  rw [← UInt16.toNat_inj, UInt16.toNat_and, hmask, and_high_bits k s.toNat_lt]

end Net
end PrxWaf
