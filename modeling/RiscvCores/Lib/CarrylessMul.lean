import Mathlib
import RiscvCores.Lib.WordOps

/-!
# Carry-less products

A word is read as a polynomial over the field of two elements.  The loop that adds up
shifted copies of a word computes the low part of the product of two polynomials; on
reversed words it computes the high part, reversed.
-/

set_option autoImplicit false

namespace CarrylessMul

open Polynomial

variable {W : Nat}

/-- The coefficient a bit stands for. -/
def coeffOf (b : Bool) : ZMod 2 := if b then 1 else 0

/-- A word as a polynomial: bit `k` is the coefficient of `X ^ k`. -/
noncomputable def toPoly (x : BitVec W) : (ZMod 2)[X] :=
  ∑ k ∈ Finset.range W, C (coeffOf (x.getLsbD k)) * X ^ k

/-- The carry-less product. -/
noncomputable def product (x y : BitVec W) : (ZMod 2)[X] := toPoly x * toPoly y

/-- The word of the coefficients from `lo` on. -/
noncomputable def slice (lo : Nat) (p : (ZMod 2)[X]) : BitVec W :=
  BitField.pack fun k => decide (p.coeff (lo + k) = 1)

/-- The loop: for each bit of `y`, a copy of `x` shifted to it. -/
def loop (x y : BitVec W) : Nat → BitVec W
  | 0 => 0
  | n + 1 => if (y >>> n &&& 1) != 0 then loop x y n ^^^ (x <<< n) else loop x y n

theorem coeffOf_xor (a b : Bool) : coeffOf (a ^^ b) = coeffOf a + coeffOf b := by
  cases a <;> cases b <;> decide

theorem decide_coeffOf (b : Bool) : decide (coeffOf b = 1) = b := by
  cases b <;> decide

theorem coeff_toPoly (x : BitVec W) (k : Nat) : (toPoly x).coeff k = coeffOf (x.getLsbD k) := by
  rw [toPoly, finsetSum_coeff]
  simp only [coeff_C_mul, coeff_X_pow, mul_ite, mul_one, mul_zero]
  rw [Finset.sum_ite_eq]
  by_cases inside : k < W
  · rw [if_pos (Finset.mem_range.mpr inside)]
  · rw [if_neg (fun member => inside (Finset.mem_range.mp member)),
      BitVec.getLsbD_of_ge x k (by omega)]
    rfl

theorem natDegree_toPoly (x : BitVec W) : (toPoly x).natDegree ≤ W - 1 := by
  rw [natDegree_le_iff_coeff_eq_zero]
  intro k high
  rw [coeff_toPoly, BitVec.getLsbD_of_ge x k (by omega)]
  rfl

theorem toPoly_xor (x y : BitVec W) : toPoly (x ^^^ y) = toPoly x + toPoly y := by
  ext k
  rw [coeff_add, coeff_toPoly, coeff_toPoly, coeff_toPoly, BitVec.getLsbD_xor, coeffOf_xor]

theorem coeff_shift (x : BitVec W) (n k : Nat) (inside : k < W) :
    (toPoly (x <<< n)).coeff k = (X ^ n * toPoly x).coeff k := by
  rw [coeff_toPoly, coeff_X_pow_mul', BitVec.getLsbD_shiftLeft]
  by_cases low : n ≤ k
  · have notBelow : ¬ k < n := by omega
    simp [low, notBelow, inside, coeff_toPoly]
  · have below : k < n := by omega
    simp [low, below, inside, coeffOf]

/-- The part of `y` below bit `n`. -/
noncomputable def below (y : BitVec W) (n : Nat) : (ZMod 2)[X] :=
  ∑ k ∈ Finset.range n, C (coeffOf (y.getLsbD k)) * X ^ k

theorem low_bit (y : BitVec W) (n : Nat) : (y >>> n &&& 1 != 0) = y.getLsbD n := by
  have test := WordOps.test_bit (y >>> n) 0
  rwa [BitVec.twoPow_zero, BitVec.getLsbD_ushiftRight, Nat.add_zero] at test

theorem coeff_loop (x y : BitVec W) (n k : Nat) (inside : k < W) :
    (toPoly (loop x y n)).coeff k = (toPoly x * below y n).coeff k := by
  induction n with
  | zero => simp [loop, below, coeff_toPoly, coeffOf]
  | succ n ih =>
      rw [loop, low_bit, below, Finset.sum_range_succ, ← below, mul_add, coeff_add, ← ih]
      cases set : y.getLsbD n with
      | false => simp [coeffOf]
      | true =>
          rw [if_pos rfl, toPoly_xor, coeff_add, coeff_shift x n k inside]
          simp [coeffOf, mul_comm]

theorem below_all (y : BitVec W) : below y (W + 1) = toPoly y := by
  have top : y.getLsbD W = false := BitVec.getLsbD_of_ge y W (le_refl W)
  rw [below, Finset.sum_range_succ, top]
  simp [toPoly, coeffOf]

theorem getLsbD_slice (lo : Nat) (p : (ZMod 2)[X]) {k : Nat} (inside : k < W) :
    (slice lo p : BitVec W).getLsbD k = decide (p.coeff (lo + k) = 1) :=
  BitField.getLsbD_pack (fun k : Fin W => decide (p.coeff (lo + k) = 1)) ⟨k, inside⟩

/-- The loop computes the low part of the product. -/
theorem loop_eq_low (x y : BitVec W) : loop x y (W + 1) = slice 0 (product x y) := by
  apply BitVec.eq_of_getLsbD_eq
  intro k inside
  have coeff := coeff_loop x y (W + 1) k inside
  rw [below_all, coeff_toPoly] at coeff
  rw [getLsbD_slice 0 _ inside, Nat.zero_add, product, ← coeff, decide_coeffOf]

theorem toPoly_reverse (x : BitVec W) : toPoly x.reverse = reflect (W - 1) (toPoly x) := by
  ext k
  rw [coeff_toPoly, coeff_reflect, coeff_toPoly, BitVec.getLsbD_reverse,
    BitVec.getMsbD_eq_getLsbD]
  by_cases inside : k < W
  · rw [revAt_le (by omega)]
    simp [inside]
  · have high : W ≤ revAt (W - 1) k := by
      by_cases small : k ≤ W - 1
      · rw [revAt_le small]
        omega
      · rw [revAt_eq_self_of_lt (by omega)]
        omega
    simp [inside, BitVec.getLsbD_of_ge x _ high]

theorem product_reverse (x y : BitVec W) :
    product x.reverse y.reverse = reflect (W - 1 + (W - 1)) (product x y) := by
  rw [product, product, toPoly_reverse, toPoly_reverse,
    ← reflect_mul _ _ (natDegree_toPoly x) (natDegree_toPoly y)]

/-- On reversed words the loop computes the high part of the product, reversed. -/
theorem loop_reverse (x y : BitVec W) :
    (loop x.reverse y.reverse (W + 1)).reverse = slice (W - 1) (product x y) := by
  apply BitVec.eq_of_getLsbD_eq
  intro k inside
  have mirrored : W - 1 - k < W := by omega
  have position : W - 1 + (W - 1) - (W - 1 - k) = W - 1 + k := by omega
  rw [loop_eq_low, BitVec.getLsbD_reverse, BitVec.getMsbD_eq_getLsbD,
    getLsbD_slice 0 _ mirrored, getLsbD_slice (W - 1) _ inside, product_reverse, coeff_reflect,
    revAt_le (by omega), Nat.zero_add, position]
  simp [inside]

/-- The product has no coefficient at the top. -/
theorem coeff_product_top (x y : BitVec W) (k : Nat) (high : W - 1 + (W - 1) < k) :
    (product x y).coeff k = 0 := by
  apply coeff_eq_zero_of_natDegree_lt
  have degree : (product x y).natDegree ≤ W - 1 + (W - 1) :=
    natDegree_mul_le_of_le (natDegree_toPoly x) (natDegree_toPoly y)
  omega

/-- Shifted once more, the reversed product is the upper half. -/
theorem loop_reverse_shift (x y : BitVec W) :
    (loop x.reverse y.reverse (W + 1)).reverse >>> 1 = slice W (product x y) := by
  rw [loop_reverse]
  apply BitVec.eq_of_getLsbD_eq
  intro k inside
  rw [BitVec.getLsbD_ushiftRight, getLsbD_slice W _ inside]
  by_cases within : 1 + k < W
  · have position : W - 1 + (1 + k) = W + k := by omega
    rw [getLsbD_slice (W - 1) _ within, position]
  · rw [BitVec.getLsbD_of_ge _ _ (by omega), coeff_product_top x y (W + k) (by omega)]
    decide

end CarrylessMul
