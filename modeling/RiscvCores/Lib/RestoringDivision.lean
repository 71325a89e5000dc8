import Mathlib.Algebra.Order.Ring.Nat
import Mathlib.Tactic.Common
import Mathlib.Tactic.Ring

/-!
# Division by trial subtraction

The quotient is found from the top: the remainder is compared with the divisor shifted
left, then with the divisor shifted one less, and so on.  Signed words are divided
through their magnitudes.
-/

set_option autoImplicit false

namespace Restoring

/-- `a` is `q` multiples of the divisor shifted left by `k`, and a rest below one. -/
structure Partial (a d k q r : Nat) : Prop where
  split : a = q * (d * 2 ^ k) + r
  small : r < d * 2 ^ k

variable {a d k q r : Nat}

theorem Partial.start (small : a < d * 2 ^ k) : Partial a d k 0 a where
  split := by simp
  small := small

/-- One trial subtraction. -/
theorem Partial.step (before : Partial a d (k + 1) q r) :
    Partial a d k (2 * q + (decide (d * 2 ^ k ≤ r)).toNat)
      (if d * 2 ^ k ≤ r then r - d * 2 ^ k else r) := by
  have double : d * 2 ^ (k + 1) = 2 * (d * 2 ^ k) := by ring
  have split := before.split
  have small := before.small
  rw [double] at split small
  by_cases fits : d * 2 ^ k ≤ r
  · rw [if_pos fits, decide_eq_true fits]
    refine ⟨?_, by omega⟩
    calc a = q * (2 * (d * 2 ^ k)) + (d * 2 ^ k + (r - d * 2 ^ k)) := by
          rw [Nat.add_sub_cancel' fits, split]
      _ = (2 * q + 1) * (d * 2 ^ k) + (r - d * 2 ^ k) := by ring
  · rw [if_neg fits, decide_eq_false fits]
    refine ⟨?_, by omega⟩
    calc a = q * (2 * (d * 2 ^ k)) + r := split
      _ = (2 * q + 0) * (d * 2 ^ k) + r := by ring

/-- The unshifted divisor leaves quotient and remainder. -/
theorem Partial.done (last : Partial a d 0 q r) : q = a / d ∧ r = a % d := by
  have split := last.split
  have small := last.small
  rw [Nat.pow_zero, Nat.mul_one] at split small
  have positive : 0 < d := by omega
  have whole : d * q + r = a := by rw [split, Nat.mul_comm]
  have unique : a / d = q ∧ a % d = r :=
    (Nat.div_mod_unique positive).mpr ⟨by rw [Nat.add_comm]; exact whole, small⟩
  exact ⟨unique.1.symm, unique.2.symm⟩

theorem Partial.quotient_lt (part : Partial a d k q r) {w : Nat} (bound : a < 2 ^ w)
    (within : k ≤ w) : q < 2 ^ (w - k) := by
  have positive : 1 ≤ d := by
    rcases Nat.eq_zero_or_pos d with rfl | positive
    · have small := part.small
      omega
    · exact positive
  have most : q * 2 ^ k < 2 ^ w := by
    calc q * 2 ^ k = q * (1 * 2 ^ k) := by rw [Nat.one_mul]
      _ ≤ q * (d * 2 ^ k) := Nat.mul_le_mul_left _ (Nat.mul_le_mul_right _ positive)
      _ ≤ a := by rw [part.split]; exact Nat.le_add_right _ _
      _ < 2 ^ w := bound
  rw [← Nat.sub_add_cancel within, pow_add] at most
  exact Nat.lt_of_mul_lt_mul_right most

/-! ## Signed words -/

variable {w : Nat}

theorem toInt_eq_abs (x : BitVec w) :
    x.toInt = if x.msb then -(x.abs.toNat : Int) else x.abs.toNat := by
  rw [BitVec.toInt_eq_msb_cond, BitVec.toNat_abs]
  have bound := x.isLt
  cases x.msb with
  | false => rfl
  | true =>
      simp only [if_true]
      omega

theorem ofInt_tdiv (a b : BitVec w) :
    BitVec.ofInt w (a.toInt.tdiv b.toInt) =
      if a.msb ^^ b.msb then -BitVec.ofNat w (a.abs.toNat / b.abs.toNat)
      else BitVec.ofNat w (a.abs.toNat / b.abs.toNat) := by
  rw [toInt_eq_abs a, toInt_eq_abs b]
  generalize a.abs.toNat = m, b.abs.toNat = n
  have whole : (m : Int).tdiv n = ((m / n : Nat) : Int) := (Int.ofNat_tdiv _ _).symm
  cases a.msb <;> cases b.msb <;>
    simp [Int.neg_tdiv, Int.tdiv_neg, whole, BitVec.ofInt_neg, -Int.natCast_ediv]

theorem ofInt_tmod (a b : BitVec w) :
    BitVec.ofInt w (a.toInt.tmod b.toInt) =
      if a.msb then -BitVec.ofNat w (a.abs.toNat % b.abs.toNat)
      else BitVec.ofNat w (a.abs.toNat % b.abs.toNat) := by
  rw [toInt_eq_abs a, toInt_eq_abs b]
  generalize a.abs.toNat = m, b.abs.toNat = n
  have whole : (m : Int).tmod n = ((m % n : Nat) : Int) := (Int.ofNat_tmod _ _).symm
  cases a.msb <;> cases b.msb <;>
    simp only [if_true, if_false, Bool.false_eq_true, Int.neg_tmod, Int.tmod_neg, whole,
      BitVec.ofInt_neg, BitVec.ofInt_natCast]

end Restoring
