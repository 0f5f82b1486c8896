import Mathlib

/-!
# Numbers and blocks of bytes on a stream

A stream is the list of the bytes that are still to be read.  A number of fixed width
is written with its highest byte first, and keeps only as much of its value as fits
into the width.
-/

namespace PrxWaf
namespace Lib

def beBytes : Nat -> Nat -> List UInt8
  | 0, _ => []
  | width + 1, n => beBytes width (n / 256) ++ [UInt8.ofNat n]

def beValue (bytes : List UInt8) : Nat :=
  bytes.foldl (fun n b => 256 * n + b.toNat) 0

theorem beBytes_length (width n : Nat) : (beBytes width n).length = width := by
  induction width generalizing n with
  | zero => rfl
  | succ width ih =>
    rw [beBytes, List.length_append, ih, List.length_singleton]

theorem beValue_concat (bytes : List UInt8) (b : UInt8) :
    beValue (bytes ++ [b]) = 256 * beValue bytes + b.toNat := by
  unfold beValue
  rw [List.foldl_append]
  rfl

theorem beValue_beBytes (width n : Nat) :
    beValue (beBytes width n) = n % 256 ^ width := by
  induction width generalizing n with
  | zero =>
    rw [pow_zero, Nat.mod_one]
    rfl
  | succ width ih =>
    have hbyte : (UInt8.ofNat n).toNat = n % 256 := UInt8.toNat_ofNat
    rw [beBytes, beValue_concat, ih, hbyte, pow_succ', Nat.mod_mul, Nat.add_comm]

/-- The next bytes and what is behind them; none if the stream ends before. -/
def readExact (n : Nat) (stream : List UInt8) : Option (List UInt8 × List UInt8) :=
  if n ≤ stream.length then some (stream.take n, stream.drop n) else none

variable {n : Nat}

theorem readExact_append {block : List UInt8} (h : block.length = n)
    (rest : List UInt8) : readExact n (block ++ rest) = some (block, rest) := by
  unfold readExact
  rw [if_pos (by rw [List.length_append, h]; exact Nat.le_add_right n _),
    List.take_left' h, List.drop_left' h]

theorem readExact_of_short {stream : List UInt8}
    (h : stream.length < n) : readExact n stream = none :=
  if_neg (Nat.not_le_of_lt h)

theorem readExact_eq_some {stream block rest : List UInt8}
    (h : readExact n stream = some (block, rest)) :
    block.length = n ∧ stream = block ++ rest := by
  unfold readExact at h
  split at h
  · rename_i hle
    cases h
    exact ⟨List.length_take_of_le hle, (List.take_append_drop n stream).symm⟩
  · cases h

end Lib
end PrxWaf
