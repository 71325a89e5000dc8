import Mathlib.Algebra.GroupWithZero.Nat
import Mathlib.Data.Nat.Log
import Mathlib.Tactic.Common

/-!
# Counters sized by their bound

A counter up to `most` in a register of `$clog2(most + 1)` bits.
-/

set_option autoImplicit false

namespace BoundedCount

/-- The bits of the register, at least one. -/
def width (most : Nat) : Nat :=
  if 0 < Nat.clog 2 (most + 1) then Nat.clog 2 (most + 1) else 1

/-- One more, in the width of the register. -/
def incr (most cnt : Nat) : Nat := (cnt + 1) % 2 ^ width most

/-- One less, in the width of the register. -/
def decr (most cnt : Nat) : Nat := (cnt + (2 ^ width most - 1)) % 2 ^ width most

variable {most cnt : Nat}

theorem lt_pow_width (small : cnt ≤ most) : cnt < 2 ^ width most := by
  have enough : most + 1 ≤ 2 ^ Nat.clog 2 (most + 1) := Nat.le_pow_clog (by omega) _
  have wide : 2 ^ Nat.clog 2 (most + 1) ≤ 2 ^ width most := by
    apply Nat.pow_le_pow_right (by omega)
    unfold width
    split <;> omega
  omega

theorem incr_eq (room : cnt < most) : incr most cnt = cnt + 1 :=
  Nat.mod_eq_of_lt (lt_pow_width room)

theorem decr_succ (small : cnt ≤ most) : decr most (cnt + 1) = cnt := by
  have bound := lt_pow_width small
  have wrap : cnt + 1 + (2 ^ width most - 1) = cnt + 2 ^ width most := by omega
  rw [decr, wrap, Nat.add_mod_right, Nat.mod_eq_of_lt bound]

theorem decr_eq (small : cnt ≤ most) (some : cnt ≠ 0) : decr most cnt = cnt - 1 := by
  obtain ⟨rest, rfl⟩ := Nat.exists_eq_succ_of_ne_zero some
  exact decr_succ (by omega)

end BoundedCount
