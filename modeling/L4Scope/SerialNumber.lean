/-
# Serial numbers

A 32-bit serial number stands for an unbounded integer position (`Serial.wrap`).  Two
positions less than half the number space apart are compared by the sign of the 32-bit
difference of their serial numbers (`Serial.toInt_sub_wrap`), however often the numbers
have wrapped around.
-/
import Mathlib.Algebra.Group.Int.Defs
import Mathlib.Tactic.SplitIfs

namespace Serial

/-- The serial number of a position: the position modulo `2 ^ 32`. -/
def wrap (x : ℤ) : UInt32 := UInt32.ofNat (x % 2 ^ 32).toNat

/-- Wrapping is taking the rest. -/
theorem toNat_wrap (x : ℤ) : ((wrap x).toNat : ℤ) = x % 2 ^ 32 := by
  have hnonneg : 0 ≤ x % 2 ^ 32 := Int.emod_nonneg x (by decide)
  have hlt : x % 2 ^ 32 < 2 ^ 32 := Int.emod_lt_of_pos x (by decide)
  rw [wrap, UInt32.toNat_ofNat']
  omega

/-- Adding a length to a serial number. -/
theorem wrap_add (x : ℤ) (n : UInt32) : wrap x + n = wrap (x + n.toNat) := by
  apply UInt32.toNat_inj.1
  have hx := toNat_wrap x
  have hsum := toNat_wrap (x + n.toNat)
  rw [UInt32.toNat_add]
  omega

/-- The next number, wrapped. -/
theorem wrap_add_one (x : ℤ) : wrap x + 1 = wrap (x + 1) := wrap_add x 1

/-- The signed difference of two serial numbers is the distance of the positions. -/
theorem toInt_sub_wrap {x y : ℤ} (hle : y - 2 ^ 31 ≤ x) (hlt : x < y + 2 ^ 31) :
    (wrap x - wrap y).toInt32.toInt = x - y := by
  have hx := toNat_wrap x
  have hy := toNat_wrap y
  have hsub : ((wrap x - wrap y).toNat : ℤ) = (x - y) % 2 ^ 32 := by
    rw [UInt32.toNat_sub]
    omega
  have hsigned : (wrap x - wrap y).toInt32.toInt
      = if 2 * (wrap x - wrap y).toNat < 2 ^ 32 then ((wrap x - wrap y).toNat : ℤ)
        else (wrap x - wrap y).toNat - 2 ^ 32 := by
    rw [← Int32.toInt_toBitVec, UInt32.toBitVec_toInt32, BitVec.toInt_eq_toNat_cond]
    rfl
  rw [hsigned]
  split_ifs <;> omega

/-- Serial numbers are compared by the sign of their difference. -/
theorem sub_wrap_neg {x y : ℤ} (hle : y - 2 ^ 31 ≤ x) (hlt : x < y + 2 ^ 31) :
    (wrap x - wrap y).toInt32 < 0 ↔ x < y := by
  rw [Int32.lt_iff_toInt_lt, toInt_sub_wrap hle hlt]
  have hzero : (0 : Int32).toInt = 0 := rfl
  omega

/-- Near numbers compare as their serial numbers do. -/
theorem sub_wrap_pos {x y : ℤ} (hle : y - 2 ^ 31 ≤ x) (hlt : x < y + 2 ^ 31) :
    0 < (wrap x - wrap y).toInt32 ↔ y < x := by
  rw [Int32.lt_iff_toInt_lt, toInt_sub_wrap hle hlt]
  have hzero : (0 : Int32).toInt = 0 := rfl
  omega

end Serial
