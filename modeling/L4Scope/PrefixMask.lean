/-
# Prefix masks

A word under a mask of `p` leading ones is the word's first `p` bits: two words agree under the
mask exactly if they agree in these bits.  The mask is the word of ones shifted left by the rest
of the width; for no leading ones at all the shift leaves nothing, which is why code on machine
words, where that shift is undefined, treats it apart.
-/
import Mathlib.Data.Nat.Notation

namespace BitVec

variable {w p : ℕ}

/-- `p` leading ones. -/
def prefixMask (w p : ℕ) : BitVec w := allOnes w <<< (w - p)

/-- No bits. -/
theorem prefixMask_zero (w : ℕ) : prefixMask w 0 = 0 := by
  apply eq_of_getLsbD_eq
  intro i hi
  simp [prefixMask, hi]

/-- The mask keeps the first bits. -/
theorem getLsbD_and_prefixMask (x : BitVec w) {i : ℕ} (hi : i < w) :
    (x &&& prefixMask w p).getLsbD i = (x.getLsbD i && decide (w - p ≤ i)) := by
  have hsub : i - (w - p) < w := by omega
  rw [getLsbD_and, prefixMask, getLsbD_shiftLeft, getLsbD_allOnes]
  by_cases hlo : w - p ≤ i
  · simp [hi, hlo, hsub]
  · simp [hi, hlo, Nat.lt_of_not_le hlo]

/-- **Equal under the mask** is equal in the first `p` bits. -/
theorem and_prefixMask_eq_iff (hp : p ≤ w) (x y : BitVec w) :
    x &&& prefixMask w p = y &&& prefixMask w p ↔ ∀ i < p, x.getMsbD i = y.getMsbD i := by
  constructor
  · intro h i hi
    have hbit := congrArg (fun z => z.getLsbD (w - 1 - i)) h
    rw [getLsbD_and_prefixMask x (by omega), getLsbD_and_prefixMask y (by omega),
      decide_eq_true (show w - p ≤ w - 1 - i by omega), Bool.and_true, Bool.and_true] at hbit
    rw [getMsbD, getMsbD, hbit]
  · intro h
    apply eq_of_getLsbD_eq
    intro i hi
    rw [getLsbD_and_prefixMask x hi, getLsbD_and_prefixMask y hi]
    by_cases hlo : w - p ≤ i
    · have hbit := h (w - 1 - i) (by omega)
      rw [getMsbD, getMsbD, show w - 1 - (w - 1 - i) = i by omega,
        decide_eq_true (show w - 1 - i < w by omega), Bool.true_and, Bool.true_and] at hbit
      rw [hbit]
    · rw [decide_eq_false hlo, Bool.and_false, Bool.and_false]

end BitVec
