import RiscvCores.Lib.Ring
import Mathlib.Algebra.Group.Fin.Basic

/-!
# Numbers dealt out to banks in turn

Items are numbered as they come and dealt out to `ways` banks in turn, each of
which is a ring of `size` places.  A family of bank pointers is aligned with a
number when each points at the place of the next item of its bank; aligned
pointers move forward by dealing, and back by distances that depend on the
bank's turn only.
-/

set_option autoImplicit false

namespace Banked

variable {ways size : Nat} [NeZero ways] [NeZero size]

def wayOf (ways : Nat) [NeZero ways] (g : Nat) : Fin ways := Fin.ofNat ways g

def ptrOf (ways size : Nat) [NeZero size] (g : Nat) : Fin size := Fin.ofNat size (g / ways)

theorem wayOf_add (g k : Nat) : wayOf ways (g + k) = wayOf ways g + Fin.ofNat ways k := by
  apply Fin.ext
  simp [wayOf, Fin.val_add]

theorem wayOf_add_sub (g k : Nat) : wayOf ways (g + k) - wayOf ways g = Fin.ofNat ways k := by
  rw [wayOf_add, add_sub_cancel_left]

/-- Every bank has its turn once in `ways` numbers. -/
theorem exists_turn (g : Nat) (w : Fin ways) : ∃ r, r < ways ∧ wayOf ways (g + r) = w := by
  obtain ⟨r, inside, same⟩ := Ring.exists_slot (wayOf ways g) w
  exact ⟨r, inside, by rw [wayOf_add]; exact same⟩

theorem wayOf_turn (g q : Nat) : wayOf ways (g + ways * q) = wayOf ways g := by
  apply Fin.ext
  simp [wayOf]

theorem ptrOf_turn (g q : Nat) :
    ptrOf ways size (g + ways * q) = ptrOf ways size g + Fin.ofNat size q := by
  have some : 0 < ways := Nat.pos_of_neZero ways
  apply Fin.ext
  simp [ptrOf, Fin.val_add, Nat.add_mul_div_left _ _ some]

theorem ptrOf_next (g : Nat) :
    ptrOf ways size (g + ways) = ptrOf ways size g + Fin.ofNat size 1 := by
  have turn : ptrOf ways size (g + ways * 1) = ptrOf ways size g + Fin.ofNat size 1 :=
    ptrOf_turn g 1
  rwa [Nat.mul_one] at turn

/-- Numbers less than a full round apart have places of their own. -/
theorem place_inj {a b : Nat} (le : a ≤ b) (near : b < a + ways * size)
    (way : wayOf ways a = wayOf ways b) (ptr : ptrOf ways size a = ptrOf ways size b) : a = b := by
  have some : 0 < ways := Nat.pos_of_neZero ways
  have ways' : a % ways = b % ways := congrArg Fin.val way
  have ptrs : a / ways % size = b / ways % size := congrArg Fin.val ptr
  have low := Nat.div_add_mod a ways
  have high := Nat.div_add_mod b ways
  obtain ⟨k, rounds⟩ := Nat.exists_eq_add_of_le (Nat.div_le_div_right (c := ways) le)
  rw [rounds, Nat.mul_add] at high
  have few : k < size := by
    by_contra many
    have more := Nat.mul_le_mul_left ways (Nat.le_of_not_lt many)
    omega
  have same : Ring.slot (ptrOf ways size a) 0 = Ring.slot (ptrOf ways size a) k := by
    apply Fin.ext
    rw [Ring.slot_val, Ring.slot_val]
    simp only [ptrOf, Fin.val_ofNat, Nat.mod_add_mod, Nat.add_zero, Nat.mod_mod]
    rwa [← rounds]
  have none : k = 0 := (Ring.slot_inj (Nat.pos_of_neZero size) few same).symm
  rw [none] at high
  omega

/-! ## Aligned pointers -/

/-- The pointer of each bank is at the bank's first number from `g` on. -/
def Aligned (ptr : Fin ways → Fin size) (g : Nat) : Prop :=
  ∀ r, r < ways → ptr (wayOf ways (g + r)) = ptrOf ways size (g + r)

/-- Dealing `k` numbers moves the pointers of the banks that get one. -/
theorem Aligned.advance {ptr ptr' : Fin ways → Fin size} {g k : Nat} (aligned : Aligned ptr g)
    (small : k ≤ ways)
    (moves : ∀ r, r < ways → ptr' (wayOf ways (g + r)) =
      if r < k then ptr (wayOf ways (g + r)) + Fin.ofNat size 1
      else ptr (wayOf ways (g + r))) : Aligned ptr' (g + k) := by
  intro r inside
  rcases Nat.lt_or_ge (k + r) ways with straight | wrapped
  · have moved := moves (k + r) straight
    rw [if_neg (by omega), aligned (k + r) straight, ← Nat.add_assoc] at moved
    exact moved
  · obtain ⟨early, split⟩ : ∃ early, k + r = early + ways := ⟨k + r - ways, by omega⟩
    have moved := moves early (by omega)
    rw [if_pos (by omega), aligned early (by omega), ← ptrOf_next] at moved
    have number : g + k + r = g + early + ways := by omega
    have way : wayOf ways (g + early + ways) = wayOf ways (g + early) := by
      have turn : wayOf ways (g + early + ways * 1) = wayOf ways (g + early) :=
        wayOf_turn (g + early) 1
      rwa [Nat.mul_one] at turn
    rw [number, way]
    exact moved

/-- Going back to the number behind `k`, which is `v - dist * ways` before `g`: banks whose
turn comes after that of `k` go back by `dist` places, the others by one less. -/
theorem Aligned.rewind {ptr ptr' : Fin ways → Fin size} {g k v dist : Nat}
    (aligned : Aligned ptr g) (turn : v < ways) (some : 0 < dist)
    (number : k + dist * ways = g + v)
    (moves : ∀ r, r < ways → ptr' (wayOf ways (g + r)) +
      Fin.ofNat size (if v < r then dist else dist - 1) = ptr (wayOf ways (g + r))) :
    Aligned ptr' (k + 1) := by
  intro r inside
  obtain ⟨before, rfl⟩ : ∃ before, dist = before + 1 := ⟨dist - 1, by omega⟩
  rw [Nat.add_mul, Nat.one_mul, Nat.mul_comm before] at number
  have back : ∀ turn' rounds, turn' < ways → g + turn' = k + 1 + r + ways * rounds →
      (if v < turn' then before + 1 else before + 1 - 1) = rounds →
      ptr' (wayOf ways (k + 1 + r)) = ptrOf ways size (k + 1 + r) := by
    intro turn' rounds inside' same distance
    have moved := moves turn' inside'
    rw [distance, aligned turn' inside', same, wayOf_turn, ptrOf_turn] at moved
    exact add_right_cancel moved
  rcases Nat.lt_or_ge (v + 1 + r) ways with later | earlier
  · refine back (v + 1 + r) (before + 1) later ?_ (if_pos (by omega))
    rw [Nat.mul_add, Nat.mul_one]
    omega
  · exact back (v + 1 + r - ways) before (by omega) (by omega) (if_neg (by omega))

end Banked
