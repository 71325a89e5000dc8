import Mathlib.Tactic.Common

/-!
# A stream cut into blocks of one length

Each element of a list contributes `n` elements to the stream.
-/

set_option autoImplicit false

namespace Blocks

variable {α β : Type} {f : α → List β} {n : Nat} {l : List α}

theorem length_flatMap (sized : ∀ a ∈ l, (f a).length = n) :
    (l.flatMap f).length = n * l.length := by
  induction l with
  | nil => simp
  | cons a rest ih =>
      have first : (f a).length = n := sized a List.mem_cons_self
      have others := ih fun b member => sized b (List.mem_cons_of_mem a member)
      simp only [List.flatMap_cons, List.length_append, List.length_cons, first, others]
      rw [Nat.mul_add, Nat.mul_one, Nat.add_comm]

/-- Place `j` of block `i`. -/
theorem getElem?_flatMap (sized : ∀ a ∈ l, (f a).length = n) (i : Nat) {j : Nat}
    (inside : j < n) : (l.flatMap f)[n * i + j]? = l[i]?.bind fun a => (f a)[j]? := by
  induction l generalizing i with
  | nil => simp
  | cons a rest ih =>
      have first : (f a).length = n := sized a List.mem_cons_self
      have others := ih fun b member => sized b (List.mem_cons_of_mem a member)
      rw [List.flatMap_cons]
      cases i with
      | zero =>
          rw [Nat.mul_zero, Nat.zero_add, List.getElem?_append_left (by omega)]
          rfl
      | succ i =>
          have past : (f a).length ≤ n * (i + 1) + j := by
            rw [Nat.mul_add, Nat.mul_one]
            omega
          have place : n * (i + 1) + j - (f a).length = n * i + j := by
            rw [Nat.mul_add, Nat.mul_one]
            omega
          rw [List.getElem?_append_right past, place, others i]
          rfl

end Blocks
