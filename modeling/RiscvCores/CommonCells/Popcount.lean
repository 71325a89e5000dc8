import Mathlib.Algebra.Order.Ring.Nat
import Mathlib.Tactic.Common
import Mathlib.Data.Nat.Log

/-!
# The population counter `popcount`

`popcount` adds up its input by a balanced tree of adders, each one bit wider than the
two below it.  The input is padded with zeros to the next power of two.
-/

set_option autoImplicit false

namespace CommonCells

/-- The `popcount` instance of `2 ^ d` inputs that starts at input `o`. -/
def popcountNode (dataI : Nat → Bool) : (d : Nat) → Nat → BitVec (d + 1)
  | 0, o => BitVec.ofBool (dataI o)
  | d + 1, o =>
      let leftChildResult := popcountNode dataI d (o + 2 ^ d)
      let rightChildResult := popcountNode dataI d o
      leftChildResult.setWidth _ + rightChildResult.setWidth _

/-- `popcount_o`. -/
def popcount {W : Nat} (dataI : BitVec W) : BitVec (Nat.clog 2 W + 1) :=
  popcountNode dataI.getLsbD (Nat.clog 2 W) 0

/-! ## The tree counts the inputs that are set -/

theorem popcountNode_counts (dataI : Nat → Bool) (d o : Nat) :
    (popcountNode dataI d o).toNat = (List.range' o (2 ^ d)).countP dataI := by
  induction d generalizing o with
  | zero => cases set : dataI o <;> simp [popcountNode, set]
  | succ d ih =>
      have halves : List.range' o (2 ^ (d + 1)) =
          List.range' o (2 ^ d) ++ List.range' (o + 2 ^ d) (2 ^ d) := by
        rw [List.range'_append_1, pow_succ]
        congr 1
        omega
      have left : (popcountNode dataI d (o + 2 ^ d)).toNat ≤ 2 ^ d := by
        rw [ih]
        exact List.countP_le_length.trans (by simp)
      have right : (popcountNode dataI d o).toNat ≤ 2 ^ d := by
        rw [ih]
        exact List.countP_le_length.trans (by simp)
      have room : 2 ^ d + 2 ^ d < 2 ^ (d + 1 + 1) := by
        have positive := Nat.two_pow_pos d
        rw [pow_succ, pow_succ]
        omega
      rw [popcountNode, halves, List.countP_append, ← ih o, ← ih (o + 2 ^ d), BitVec.toNat_add,
        BitVec.toNat_setWidth_of_le (by omega), BitVec.toNat_setWidth_of_le (by omega),
        Nat.mod_eq_of_lt (by omega), Nat.add_comm]

theorem cpopNatRec_counts {W : Nat} (x : BitVec W) (n : Nat) :
    x.cpopNatRec n 0 = (List.range' 0 n).countP x.getLsbD := by
  induction n with
  | zero => rfl
  | succ n ih =>
      rw [BitVec.cpopNatRec_succ, Nat.zero_add, BitVec.cpopNatRec_eq, ih, ← List.range_eq_range',
        ← List.range_eq_range', List.range_succ, List.countP_append]
      cases set : x.getLsbD n <;> simp [set]

theorem popcount_eq_cpop {W : Nat} (dataI : BitVec W) :
    (popcount dataI).toNat = dataI.cpop.toNat := by
  have padded : W ≤ 2 ^ Nat.clog 2 W := Nat.le_pow_clog Nat.one_lt_two W
  obtain ⟨rest, extent⟩ := Nat.exists_eq_add_of_le padded
  rw [popcount, popcountNode_counts, ← cpopNatRec_counts, BitVec.toNat_cpop, extent,
    BitVec.cpopNatRec_of_le rest W (le_refl W)]

end CommonCells
