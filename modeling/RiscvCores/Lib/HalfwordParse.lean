import Mathlib.Tactic.Common

/-!
# Items of one or two units

Items lie one behind the other; `long p` says that the item that starts at `p` takes two
units.  `starts long n p` are the starts of the items that end within `n` units from `p`,
and `stop long n p` is where the first item starts that does not.
-/

set_option autoImplicit false

namespace HalfwordParse

variable (long : Nat → Bool)

def size (p : Nat) : Nat := if long p then 2 else 1

def starts : Nat → Nat → List Nat
  | 0, _ => []
  | 1, p => if long p then [] else [p]
  | n + 2, p => if long p then p :: starts n (p + 2) else p :: starts (n + 1) (p + 1)

def stop : Nat → Nat → Nat
  | 0, p => p
  | 1, p => if long p then p else p + 1
  | n + 2, p => if long p then stop n (p + 2) else stop (n + 1) (p + 1)

variable {long}

/-- At most the first unit of a long item is left over. -/
theorem stop_spec (n p : Nat) :
    stop long n p = p + n ∨ stop long n p + 1 = p + n ∧ long (stop long n p) = true := by
  induction n, p using stop.induct (long) with
  | case1 p => exact .inl rfl
  | case2 p isLong =>
      right
      simp [stop, isLong]
  | case3 p isShort =>
      left
      simp [stop, isShort]
  | case4 n p isLong ih =>
      rw [stop, if_pos isLong]
      rcases ih with same | ⟨same, carried⟩
      · exact .inl (by omega)
      · exact .inr ⟨by omega, carried⟩
  | case5 n p isShort ih =>
      rw [stop, if_neg isShort]
      rcases ih with same | ⟨same, carried⟩
      · exact .inl (by omega)
      · exact .inr ⟨by omega, carried⟩

theorem le_stop (n p : Nat) : p ≤ stop long n p := by
  induction n, p using stop.induct (long) with
  | case1 p => exact Nat.le_refl p
  | case2 p isLong => simp [stop, isLong]
  | case3 p isShort => simp [stop, isShort]
  | case4 n p isLong ih =>
      rw [stop, if_pos isLong]
      omega
  | case5 n p isShort ih =>
      rw [stop, if_neg isShort]
      omega

theorem starts_succ_of_short {p : Nat} (isShort : ¬long p = true) (n : Nat) :
    starts long (n + 1) p = p :: starts long n (p + 1) := by
  cases n with
  | zero => simp [starts, isShort]
  | succ n => rw [starts, if_neg isShort]

theorem starts_succ_succ_of_long {p : Nat} (isLong : long p = true) (n : Nat) :
    starts long (n + 2) p = p :: starts long n (p + 2) := by
  rw [starts, if_pos isLong]

/-- Parsing goes on where it stopped. -/
theorem starts_add (m n p : Nat) :
    starts long (m + n) p =
      starts long m p ++ starts long (p + (m + n) - stop long m p) (stop long m p) := by
  induction m, p using stop.induct (long) generalizing n with
  | case1 p => simp [starts, stop]
  | case2 p isLong => simp [starts, stop, isLong]
  | case3 p isShort =>
      have left : p + (1 + n) - (p + 1) = n := by omega
      rw [Nat.add_comm 1 n, starts_succ_of_short isShort, Nat.add_comm n 1, stop, if_neg isShort,
        left]
      simp [starts, isShort]
  | case4 m p isLong ih =>
      rw [show m + 2 + n = m + n + 2 by omega, starts_succ_succ_of_long isLong,
        starts_succ_succ_of_long isLong, ih n, stop, if_pos isLong, List.cons_append,
        show p + (m + n + 2) = p + 2 + (m + n) by omega]
  | case5 m p isShort ih =>
      rw [show m + 2 + n = m + 1 + n + 1 by omega, starts_succ_of_short isShort,
        starts_succ_of_short isShort, ih n, stop, if_neg isShort, List.cons_append,
        show p + (m + 1 + n + 1) = p + 1 + (m + 1 + n) by omega]

theorem stop_succ_of_short {p : Nat} (isShort : ¬long p = true) (n : Nat) :
    stop long (n + 1) p = stop long n (p + 1) := by
  cases n with
  | zero => simp [stop, isShort]
  | succ n => rw [stop, if_neg isShort]

theorem stop_add (m n p : Nat) :
    stop long (m + n) p = stop long (p + (m + n) - stop long m p) (stop long m p) := by
  induction m, p using stop.induct (long) generalizing n with
  | case1 p => simp [stop]
  | case2 p isLong => simp [stop, isLong]
  | case3 p isShort =>
      rw [Nat.add_comm 1 n, stop_succ_of_short isShort, stop, if_neg isShort,
        show p + (n + 1) - (p + 1) = n by omega]
  | case4 m p isLong ih =>
      have ahead (k : Nat) : stop long (k + 2) p = stop long k (p + 2) := by
        rw [stop, if_pos isLong]
      rw [show m + 2 + n = m + n + 2 by omega, ahead, ahead, ih n,
        show p + (m + n + 2) = p + 2 + (m + n) by omega]
  | case5 m p isShort ih =>
      rw [show m + 2 + n = m + 1 + n + 1 by omega, stop_succ_of_short isShort,
        stop_succ_of_short isShort, ih n, show p + (m + 1 + n + 1) = p + 1 + (m + 1 + n) by omega]

/-- An item that is parsed lies within the units. -/
theorem mem_starts {n p q : Nat} (member : q ∈ starts long n p) :
    p ≤ q ∧ q + size long q ≤ p + n := by
  induction n, p using stop.induct (long) with
  | case1 p => simp [starts] at member
  | case2 p isLong => simp [starts, isLong] at member
  | case3 p isShort =>
      simp only [starts, isShort, Bool.false_eq_true, if_false, List.mem_singleton] at member
      subst member
      simp [size, isShort]
  | case4 n p isLong ih =>
      rw [starts, if_pos isLong] at member
      rcases List.mem_cons.mp member with rfl | later
      · simp [size, isLong]
      · have bounds := ih later
        omega
  | case5 n p isShort ih =>
      rw [starts, if_neg isShort] at member
      rcases List.mem_cons.mp member with rfl | later
      · simp [size, isShort]
      · have bounds := ih later
        omega

end HalfwordParse
