import PrxWaf.Lib.Text

/-!
# Hexadecimal texts

Numbers and bytes written with a fixed number of digits.
-/

namespace PrxWaf
namespace Lib

/-- The lowest hexadecimal digits of a number, with leading zeros. -/
def paddedHex : Nat -> Nat -> Text
  | 0, _ => []
  | width + 1, n => paddedHex width (n / 16) ++ [Nat.digitChar (n % 16)]

def hexEncode (bytes : List UInt8) : Text :=
  bytes.flatMap (fun b => paddedHex 2 b.toNat)

theorem digitChar_injective : forall a b : Fin 16, Nat.digitChar a = Nat.digitChar b -> a = b := by
  decide

theorem paddedHex_injective {width m n : Nat} (hm : m < 16 ^ width)
    (hn : n < 16 ^ width) (h : paddedHex width m = paddedHex width n) :
    m = n := by
  induction width generalizing m n with
  | zero => lia
  | succ width ih =>
    unfold paddedHex at h
    obtain ⟨hfront, hlast⟩ := List.append_inj' h rfl
    have hdigit := digitChar_injective ⟨m % 16, by lia⟩ ⟨n % 16, by lia⟩ (List.cons.inj hlast).1
    have hmod : m % 16 = n % 16 := congrArg Fin.val hdigit
    have hdiv := ih (Nat.div_lt_of_lt_mul (by lia)) (Nat.div_lt_of_lt_mul (by lia)) hfront
    lia

end Lib
end PrxWaf
