import Mathlib

/-!
# Addresses and networks

Internet addresses as the standard library has them, and the networks of the
`ipnet` crate: an address with a prefix length, which contains the addresses
between its network and its broadcast address.
-/

namespace PrxWaf
namespace Net

structure Ipv4Addr where
  octets : List UInt8
  octets_length : octets.length = 4
  deriving DecidableEq

structure Ipv6Addr where
  segments : List UInt16
  segments_length : segments.length = 8
  deriving DecidableEq

inductive IpAddr where
  | v4 (addr : Ipv4Addr)
  | v6 (addr : Ipv6Addr)
  deriving DecidableEq

namespace Ipv4Addr

def new (a b c d : UInt8) : Ipv4Addr where
  octets := [a, b, c, d]
  octets_length := rfl

/-- The address as one number, the first octet the most significant. -/
def toNat (ip : Ipv4Addr) : Nat :=
  ip.octets.foldl (fun n octet => n * 2 ^ 8 + octet.toNat) 0

def isPrivate (ip : Ipv4Addr) : Bool :=
  match ip.octets with
  | a :: b :: _ =>
    a == 10 || (a == 172 && 16 ≤ b && b ≤ 31) || (a == 192 && b == 168)
  | _ => false

def isLoopback (ip : Ipv4Addr) : Bool :=
  ip.octets.head? == some 127

def isLinkLocal (ip : Ipv4Addr) : Bool :=
  ip.octets.take 2 == [169, 254]

def isUnspecified (ip : Ipv4Addr) : Bool :=
  ip == new 0 0 0 0

end Ipv4Addr

namespace Ipv6Addr

def new (a b c d e f g h : UInt16) : Ipv6Addr where
  segments := [a, b, c, d, e, f, g, h]
  segments_length := rfl

def toNat (ip : Ipv6Addr) : Nat :=
  ip.segments.foldl (fun n segment => n * 2 ^ 16 + segment.toNat) 0

def isLoopback (ip : Ipv6Addr) : Bool :=
  ip == new 0 0 0 0 0 0 0 1

def isUnspecified (ip : Ipv6Addr) : Bool :=
  ip == new 0 0 0 0 0 0 0 0

end Ipv6Addr

/-- A network of `width`-bit addresses: an address and a prefix length. -/
structure Prefixed (width : Nat) where
  addr : Nat
  addr_lt : addr < 2 ^ width
  prefixLen : Nat
  prefixLen_le : prefixLen ≤ width
  deriving DecidableEq

namespace Prefixed

def hostSize {width : Nat} (net : Prefixed width) : Nat :=
  2 ^ (width - net.prefixLen)

/-- The lowest address of the network: the host bits cleared. -/
def network {width : Nat} (net : Prefixed width) : Nat :=
  net.addr / net.hostSize * net.hostSize

/-- The highest address of the network: the host bits set. -/
def broadcast {width : Nat} (net : Prefixed width) : Nat :=
  net.network + (net.hostSize - 1)

def contains {width : Nat} (net : Prefixed width) (addr : Nat) : Bool :=
  net.network ≤ addr && addr ≤ net.broadcast

end Prefixed

inductive IpNet where
  | v4 (net : Prefixed 32)
  | v6 (net : Prefixed 128)
  deriving DecidableEq

namespace IpNet

/-- An address of the other family is never contained. -/
def contains : IpNet -> IpAddr -> Bool
  | .v4 net, .v4 ip => net.contains ip.toNat
  | .v6 net, .v6 ip => net.contains ip.toNat
  | _, _ => false

end IpNet

end Net
end PrxWaf
