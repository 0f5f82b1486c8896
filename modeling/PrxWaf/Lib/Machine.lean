import Mathlib.Algebra.Order.Group.Unbundled.Int

/-!
# Machine integers

Values of the signed 64-bit type are integers in its range.  The operations that
stop at the ends of the range are those of the machine.  Times are counted in
nanoseconds where the code has a `Duration`.
-/

namespace PrxWaf
namespace Lib

def i64Min : Int := -9223372036854775808

def i64Max : Int := 9223372036854775807

def u32Max : Nat := 4294967295

def u64Max : Nat := 18446744073709551615

def nanosPerSec : Nat := 1000000000

def InI64 (n : Int) : Prop :=
  i64Min ≤ n ∧ n ≤ i64Max

instance (n : Int) : Decidable (InI64 n) :=
  inferInstanceAs (Decidable (_ ∧ _))

def clampI64 (n : Int) : Int :=
  max i64Min (min i64Max n)

def saturatingAdd (a b : Int) : Int :=
  clampI64 (a + b)

def saturatingSub (a b : Int) : Int :=
  clampI64 (a - b)

def clampU16 (n : Nat) : Nat :=
  min n 65535

theorem clampI64_cases (n : Int) :
    clampI64 n = n ∨ n < i64Min ∧ clampI64 n = i64Min ∨ i64Max < n ∧ clampI64 n = i64Max := by
  unfold clampI64 i64Min i64Max
  lia

/-- Below the upper end of the range a comparison does not see where a value was
clamped. -/
theorem lt_clampI64_iff {n bound : Int} (hmin : i64Min ≤ n) (hmax : n < i64Max) :
    n < clampI64 bound <-> n < bound := by
  have hcases := clampI64_cases bound
  lia

theorem clampI64_max (a b : Int) :
    clampI64 (max a b) = max (clampI64 a) (clampI64 b) := by
  unfold clampI64
  lia

end Lib
end PrxWaf
