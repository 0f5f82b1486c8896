import PrxWaf.Lib.Hex
import PrxWaf.Lib.Joined
import PrxWaf.Lib.Utf8

/-!
# Captures and their JA3 text

What is kept of a connection, and the text that its JA3 fingerprint is the hash of.
Values that clients draw at random are left out of the lists.
-/

namespace PrxWaf
namespace DeviceFp

open Lib

structure ParsedClientHello where
  legacyVersion : UInt16
  cipherSuites : List UInt16
  extensions : List UInt16
  supportedGroups : List UInt16
  signatureAlgorithms : List UInt16
  alpn : List Text
  sni : Option Text
  deriving DecidableEq

structure PriorityFrame where
  streamId : UInt32
  dependsOn : UInt32
  weight : UInt8
  exclusive : Bool
  deriving DecidableEq

structure H2Capture where
  settings : List (UInt16 × UInt32)
  windowUpdates : List (UInt32 × UInt32)
  priority : List PriorityFrame
  pseudoHeaderOrder : Option (List Text)
  deriving DecidableEq

structure RawCapture where
  tls : Option ParsedClientHello
  h2 : H2Capture

def RawCapture.default : RawCapture :=
  { tls := none
    h2 :=
      { settings := []
        windowUpdates := []
        priority := []
        pseudoHeaderOrder := none } }

def isGrease (v : UInt16) : Bool :=
  let lo := (v &&& 0xFF).toUInt8
  let hi := (v >>> 8).toUInt8
  hi == lo && (lo &&& 0x0F) == 0x0A

def withoutGrease (values : List UInt16) : List UInt16 :=
  values.filter (fun v => !isGrease v)

/-- The values that RFC 8701 reserves. -/
def greaseValues : List UInt16 :=
  [0x0A0A, 0x1A1A, 0x2A2A, 0x3A3A, 0x4A4A, 0x5A5A, 0x6A6A, 0x7A7A,
    0x8A8A, 0x9A9A, 0xAAAA, 0xBABA, 0xCACA, 0xDADA, 0xEAEA, 0xFAFA]

theorem isGrease_iff_toNat (v : UInt16) :
    isGrease v = true <-> v.toNat / 256 = v.toNat % 256 ∧ v.toNat % 16 = 10 := by
  have hlow : (v &&& 0xFF).toUInt8.toNat = v.toNat % 256 := by
    rw [UInt16.toNat_toUInt8, UInt16.toNat_and]
    change (v.toNat &&& 2 ^ 8 - 1) % 2 ^ 8 = v.toNat % 256
    rw [Nat.and_two_pow_sub_one_eq_mod, Nat.mod_mod]
  have hhigh : (v >>> 8).toUInt8.toNat = v.toNat / 256 := by
    have hlt := v.toNat_lt
    rw [UInt16.toNat_toUInt8, UInt16.toNat_shiftRight]
    change v.toNat >>> 8 % 2 ^ 8 = v.toNat / 256
    rw [Nat.shiftRight_eq_div_pow]
    lia
  have hnibble : ((v &&& 0xFF).toUInt8 &&& 0x0F).toNat = v.toNat % 16 := by
    rw [UInt8.toNat_and, hlow]
    change v.toNat % 256 &&& 2 ^ 4 - 1 = v.toNat % 16
    rw [Nat.and_two_pow_sub_one_eq_mod]
    lia
  unfold isGrease
  rw [Bool.and_eq_true, beq_iff_eq, beq_iff_eq, ← UInt8.toNat_inj, ← UInt8.toNat_inj,
    hlow, hhigh, hnibble]
  rfl

theorem isGrease_iff (v : UInt16) : isGrease v = true <-> v ∈ greaseValues := by
  have hvalues : v ∈ greaseValues <-> v.toNat ∈ [2570, 6682, 10794, 14906, 19018, 23130,
      27242, 31354, 35466, 39578, 43690, 47802, 51914, 56026, 60138, 64250] :=
    (List.mem_map_of_injective (fun _ _ => UInt16.toNat_inj.mp)).symm
  have hlt := v.toNat_lt
  rw [isGrease_iff_toNat, hvalues]
  simp only [List.mem_cons, List.not_mem_nil, or_false]
  omega

def withoutReserved (values : List UInt16) : List UInt16 :=
  values.filter (fun v => v ∉ greaseValues)

theorem withoutGrease_eq (values : List UInt16) :
    withoutGrease values = withoutReserved values := by
  refine List.filter_congr ?_
  intro v _
  rw [Bool.eq_iff_iff, Bool.not_eq_true', Bool.eq_false_iff, decide_eq_true_eq]
  exact not_congr (isGrease_iff v)

namespace Ja3Fingerprint

def joinFiltered (values : List UInt16) : Text :=
  ['-'].intercalate ((withoutGrease values).map (fun v => decimal v.toNat))

/-- The point formats are not captured; their field is empty. -/
def canonical (raw : RawCapture) : Option Text :=
  raw.tls.map (fun tls =>
    [','].intercalate [decimal tls.legacyVersion.toNat, joinFiltered tls.cipherSuites,
      joinFiltered tls.extensions, joinFiltered tls.supportedGroups, []])

def compute (md5 : List UInt8 -> List UInt8) (raw : RawCapture) : Option Text :=
  (canonical raw).map (fun text => hexEncode (md5 (utf8 text)))

theorem comma_not_mem_decimal (n : Nat) : ',' ∉ decimal n :=
  not_mem_decimal (by decide)

theorem comma_not_mem_joinFiltered (values : List UInt16) : ',' ∉ joinFiltered values := by
  refine not_mem_intercalate (by decide) (forall_mem_map ?_ _)
  exact fun v => comma_not_mem_decimal v.toNat

theorem joinFiltered_inj (values others : List UInt16) :
    joinFiltered values = joinFiltered others <->
      withoutReserved values = withoutReserved others := by
  rw [← withoutGrease_eq, ← withoutGrease_eq]
  refine intercalate_map_inj ?_ ?_
  · exact fun a b h => UInt16.toNat_inj.mp (decimal_injective h)
  · exact fun v => ⟨decimal_ne_nil v.toNat, not_mem_decimal (by decide)⟩

/-- The text shows the version and the three lists without GREASE, in their order. -/
theorem canonical_separates (tls tls' : ParsedClientHello) (h2 h2' : H2Capture) :
    canonical { tls := some tls, h2 := h2 } = canonical { tls := some tls', h2 := h2' } <->
      tls.legacyVersion = tls'.legacyVersion ∧
        withoutReserved tls.cipherSuites = withoutReserved tls'.cipherSuites ∧
        withoutReserved tls.extensions = withoutReserved tls'.extensions ∧
        withoutReserved tls.supportedGroups = withoutReserved tls'.supportedGroups := by
  have hfields : forall tls : ParsedClientHello, forall piece,
      piece ∈ [decimal tls.legacyVersion.toNat, joinFiltered tls.cipherSuites,
        joinFiltered tls.extensions, joinFiltered tls.supportedGroups, []] -> ',' ∉ piece := by
    intro tls
    simp [comma_not_mem_decimal, comma_not_mem_joinFiltered]
  unfold canonical
  rw [Option.map_some, Option.map_some, Option.some_inj, intercalate_inj (List.cons_ne_nil _ _)
    (List.cons_ne_nil _ _) (hfields tls) (hfields tls')]
  simp only [List.cons.injEq, and_true, joinFiltered_inj, decimal_injective.eq_iff,
    UInt16.toNat_inj]

end Ja3Fingerprint

end DeviceFp
end PrxWaf
