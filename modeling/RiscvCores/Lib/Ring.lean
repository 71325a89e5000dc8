import Mathlib.Algebra.GroupWithZero.Nat
import Mathlib.Data.Fin.Basic
import Mathlib.Data.Fintype.Card
import Mathlib.Data.List.FinRange
import Mathlib.Tactic.Common

/-!
# Circular buffers

A buffer of `n` slots with a read position holds a list when the slots from the
read position on contain its elements.  `Occupied` adds one live bit for each
slot and a write position.
-/

set_option autoImplicit false

namespace Ring

variable {n : Nat} [NeZero n] {α : Type}

/-! ## Positions -/

/-- The `k`-th slot from `read`. -/
def slot (read : Fin n) (k : Nat) : Fin n := read + Fin.ofNat n k

@[simp] theorem slot_zero (read : Fin n) : slot read 0 = read := by
  simp [slot]

theorem slot_val (read : Fin n) (k : Nat) : (slot read k).val = (read.val + k) % n := by
  simp [slot, Fin.val_add]

theorem slot_add (read : Fin n) (j k : Nat) : slot (slot read j) k = slot read (j + k) := by
  apply Fin.ext
  simp [slot_val, Nat.add_assoc]

@[simp] theorem slot_mod (read : Fin n) (k : Nat) : slot read (k % n) = slot read k := by
  apply Fin.ext
  simp [slot_val]

theorem slot_val_eq (read lane : Fin n) : slot read lane.val = read + lane := by
  simp [slot]

theorem add_one_eq_slot (read : Fin n) : read + 1 = slot read 1 := rfl

theorem slot_add_one (read : Fin n) (k : Nat) : slot read k + 1 = slot read (k + 1) := by
  rw [add_one_eq_slot, slot_add]

theorem slot_inj {read : Fin n} {j k : Nat} (jInside : j < n) (kInside : k < n)
    (same : slot read j = slot read k) : j = k := by
  have vals := congrArg Fin.val same
  simp only [slot_val] at vals
  have readInside := read.isLt
  rcases Nat.lt_or_ge (read.val + j) n with jLow | jHigh <;>
    rcases Nat.lt_or_ge (read.val + k) n with kLow | kHigh
  · rw [Nat.mod_eq_of_lt jLow, Nat.mod_eq_of_lt kLow] at vals
    omega
  · rw [Nat.mod_eq_of_lt jLow, Nat.mod_eq_sub_mod kHigh, Nat.mod_eq_of_lt (by omega)] at vals
    omega
  · rw [Nat.mod_eq_sub_mod jHigh, Nat.mod_eq_of_lt (by omega), Nat.mod_eq_of_lt kLow] at vals
    omega
  · rw [Nat.mod_eq_sub_mod jHigh, Nat.mod_eq_of_lt (by omega), Nat.mod_eq_sub_mod kHigh,
      Nat.mod_eq_of_lt (by omega)] at vals
    omega

/-- Every position is the `k`-th from `read` for one `k` below `n`. -/
theorem exists_slot (read p : Fin n) : ∃ k, k < n ∧ slot read k = p := by
  refine ⟨(p.val + (n - read.val)) % n, Nat.mod_lt _ read.pos, ?_⟩
  apply Fin.ext
  rw [slot_val, Nat.add_mod_mod]
  have readInside := read.isLt
  rw [show read.val + (p.val + (n - read.val)) = p.val + n by omega, Nat.add_mod_right]
  exact Nat.mod_eq_of_lt p.isLt

/-- `p` is one of the `count` slots from `read` on. -/
def InWindow (read : Fin n) (count : Nat) (p : Fin n) : Prop :=
  ∃ k, k < count ∧ slot read k = p

theorem inWindow_succ {read p : Fin n} {count : Nat} :
    InWindow read (count + 1) p ↔ InWindow read count p ∨ p = slot read count := by
  constructor
  · rintro ⟨k, below, rfl⟩
    rcases Nat.lt_succ_iff_lt_or_eq.mp below with earlier | rfl
    · exact .inl ⟨k, earlier, rfl⟩
    · exact .inr rfl
  · rintro (⟨k, below, rfl⟩ | rfl)
    · exact ⟨k, by omega, rfl⟩
    · exact ⟨count, by omega, rfl⟩

theorem not_inWindow_slot {read : Fin n} {count : Nat} (room : count < n) :
    ¬ InWindow read count (slot read count) := by
  rintro ⟨k, below, same⟩
  exact absurd (slot_inj (by omega) room same) (by omega)

theorem inWindow_pop {read p : Fin n} {count : Nat} (bound : count + 1 ≤ n) :
    InWindow (read + 1) count p ↔ InWindow read (count + 1) p ∧ p ≠ read := by
  constructor
  · rintro ⟨k, below, rfl⟩
    rw [add_one_eq_slot, slot_add, Nat.add_comm 1 k]
    refine ⟨⟨k + 1, by omega, rfl⟩, fun same => ?_⟩
    have zero : slot read (k + 1) = slot read 0 := by rw [same, slot_zero]
    have collapsed := slot_inj (by omega) (by omega) zero
    omega
  · rintro ⟨⟨k, below, rfl⟩, other⟩
    cases k with
    | zero => exact absurd (slot_zero read) other
    | succ k =>
        refine ⟨k, by omega, ?_⟩
        rw [add_one_eq_slot, slot_add, Nat.add_comm 1 k]

theorem inWindow_add {read p : Fin n} {count more : Nat} :
    InWindow read (count + more) p ↔ InWindow read count p ∨ InWindow (slot read count) more p := by
  constructor
  · rintro ⟨k, below, rfl⟩
    rcases Nat.lt_or_ge k count with earlier | later
    · exact .inl ⟨k, earlier, rfl⟩
    · refine .inr ⟨k - count, by omega, ?_⟩
      rw [slot_add, Nat.add_sub_cancel' later]
  · rintro (⟨k, below, rfl⟩ | ⟨k, below, rfl⟩)
    · exact ⟨k, by omega, rfl⟩
    · exact ⟨count + k, by omega, (slot_add read count k).symm⟩

/-- Two successive windows have no slot in common. -/
theorem not_inWindow_both {read p : Fin n} {count more : Nat} (bound : count + more ≤ n)
    (early : InWindow read count p) (late : InWindow (slot read count) more p) : False := by
  obtain ⟨j, jBelow, rfl⟩ := early
  obtain ⟨k, kBelow, same⟩ := late
  rw [slot_add] at same
  have collapsed := slot_inj (by omega) (by omega) same
  omega

theorem inWindow_full (read p : Fin n) : InWindow read n p := exists_slot read p

/-! ## Contents -/

/-- The slots from `read` on contain the elements of `xs`. -/
def Holds (mem : Fin n → α) (read : Fin n) (xs : List α) : Prop :=
  xs.length ≤ n ∧ ∀ k (inside : k < xs.length), mem (slot read k) = xs[k]

section Holds

variable {mem : Fin n → α} {read : Fin n} {xs : List α}

theorem Holds.nil (mem : Fin n → α) (read : Fin n) : Holds mem read [] :=
  ⟨Nat.zero_le n, fun k inside => absurd inside (Nat.not_lt_zero k)⟩

theorem Holds.push (holds : Holds mem read xs) (room : xs.length < n) (x : α) :
    Holds (Function.update mem (slot read xs.length) x) read (xs ++ [x]) := by
  refine ⟨by simp; omega, fun k inside => ?_⟩
  rcases Nat.lt_or_ge k xs.length with old | new
  · have other : slot read k ≠ slot read xs.length :=
      fun same => absurd (slot_inj (by omega) room same) (by omega)
    rw [Function.update_of_ne other, List.getElem_append_left old]
    exact holds.2 k old
  · have last : k = xs.length := by
      rw [List.length_append, List.length_singleton] at inside
      omega
    subst last
    simp

theorem Holds.pop {x : α} (holds : Holds mem read (x :: xs)) :
    Holds mem (read + 1) xs := by
  refine ⟨Nat.le_of_succ_le holds.1, fun k inside => ?_⟩
  rw [add_one_eq_slot, slot_add, Nat.add_comm 1 k]
  exact holds.2 (k + 1) (Nat.succ_lt_succ inside)

theorem Holds.drop (holds : Holds mem read xs) (gone : Nat) (inside : gone ≤ xs.length) :
    Holds mem (slot read gone) (xs.drop gone) := by
  refine ⟨?_, fun k below => ?_⟩
  · rw [List.length_drop]
    exact Nat.le_trans (Nat.sub_le _ _) holds.1
  · rw [List.length_drop] at below
    rw [slot_add, List.getElem_drop]
    exact holds.2 (gone + k) (by omega)

/-- The window and new contents behind it. -/
theorem Holds.append {ys : List α} (holds : Holds mem read xs)
    (room : xs.length + ys.length ≤ n) (behind : Holds mem (slot read xs.length) ys) :
    Holds mem read (xs ++ ys) := by
  refine ⟨by rwa [List.length_append], fun k inside => ?_⟩
  rw [List.length_append] at inside
  rcases Nat.lt_or_ge k xs.length with old | new
  · rw [List.getElem_append_left old]
    exact holds.2 k old
  · rw [List.getElem_append_right new, ← behind.2 (k - xs.length) (by omega), slot_add,
      Nat.add_sub_cancel' new]

theorem Holds.head {x : α} (holds : Holds mem read (x :: xs)) : mem read = x := by
  have first := holds.2 0 (Nat.succ_pos _)
  rwa [slot_zero] at first

/-- Writes outside the window do not matter. -/
theorem Holds.congr {mem' : Fin n → α} (holds : Holds mem read xs)
    (agree : ∀ p, InWindow read xs.length p → mem' p = mem p) : Holds mem' read xs :=
  ⟨holds.1, fun k inside => (agree _ ⟨k, inside, rfl⟩).trans (holds.2 k inside)⟩

end Holds

/-! ## Live bits -/

/-- The live slots are the `count` slots from `read` to before `write`. -/
structure Occupied (live : Fin n → Bool) (read write : Fin n) (count : Nat) : Prop where
  bound : count ≤ n
  write_eq : write = slot read count
  live_iff : ∀ p, live p = true ↔ InWindow read count p

section Occupied

variable {live : Fin n → Bool} {read write : Fin n} {count : Nat}

theorem Occupied.empty (read : Fin n) : Occupied (fun _ => false) read read 0 where
  bound := Nat.zero_le n
  write_eq := (slot_zero read).symm
  live_iff p := by
    constructor
    · intro no
      cases no
    · rintro ⟨k, below, _⟩
      exact absurd below (Nat.not_lt_zero k)

theorem Occupied.push (occupied : Occupied live read write count) (room : count < n) :
    Occupied (Function.update live write true) read (write + 1) (count + 1) where
  bound := room
  write_eq := by rw [occupied.write_eq, slot_add_one]
  live_iff p := by
    rw [inWindow_succ, ← occupied.live_iff p, ← occupied.write_eq]
    by_cases same : p = write
    · simp [same]
    · simp [same]

theorem Occupied.pop (occupied : Occupied live read write (count + 1)) :
    Occupied (Function.update live read false) (read + 1) write count where
  bound := Nat.le_of_succ_le occupied.bound
  write_eq := by
    rw [occupied.write_eq, add_one_eq_slot, slot_add, Nat.add_comm 1 count]
  live_iff p := by
    rw [inWindow_pop occupied.bound, ← occupied.live_iff p]
    by_cases same : p = read
    · simp [same]
    · simp [same]

theorem Occupied.pushMany {live' : Fin n → Bool} {more : Nat}
    (occupied : Occupied live read write count) (room : count + more ≤ n)
    (changes : ∀ p, live' p = true ↔ live p = true ∨ InWindow write more p) :
    Occupied live' read (slot write more) (count + more) where
  bound := room
  write_eq := by rw [occupied.write_eq, slot_add]
  live_iff p := by rw [changes, occupied.live_iff, inWindow_add, occupied.write_eq]

theorem Occupied.popMany {live' : Fin n → Bool} {gone : Nat}
    (occupied : Occupied live read write count) (inside : gone ≤ count)
    (changes : ∀ p, live' p = true ↔ live p = true ∧ ¬ InWindow read gone p) :
    Occupied live' (slot read gone) write (count - gone) where
  bound := Nat.le_trans (Nat.sub_le _ _) occupied.bound
  write_eq := by rw [occupied.write_eq, slot_add, Nat.add_sub_cancel' inside]
  live_iff p := by
    have split : InWindow read count p ↔
        InWindow read gone p ∨ InWindow (slot read gone) (count - gone) p := by
      rw [← inWindow_add, Nat.add_sub_cancel' inside]
    have apart (late : InWindow (slot read gone) (count - gone) p) : ¬ InWindow read gone p := by
      intro early
      have bound := occupied.bound
      exact not_inWindow_both (by omega) early late
    rw [changes, occupied.live_iff, split]
    constructor
    · rintro ⟨early | late, outside⟩
      · exact absurd early outside
      · exact late
    · intro late
      exact ⟨.inr late, apart late⟩

/-- The slots that are not live are those from the write position on. -/
theorem Occupied.dead_iff (occupied : Occupied live read write count) (p : Fin n) :
    live p = false ↔ InWindow write (n - count) p := by
  have bound := occupied.bound
  have somewhere : InWindow read count p ∨ InWindow write (n - count) p := by
    rw [occupied.write_eq, ← inWindow_add, Nat.add_sub_cancel' bound]
    exact inWindow_full read p
  rw [← Bool.not_eq_true, occupied.live_iff]
  constructor
  · intro outside
    exact somewhere.resolve_left outside
  · intro late early
    rw [occupied.write_eq] at late
    exact not_inWindow_both (by omega) early late

/-- The slot in front of the window is live exactly when the buffer is not empty. -/
theorem Occupied.live_read (occupied : Occupied live read write count) :
    live read = true ↔ 0 < count := by
  rw [occupied.live_iff read]
  constructor
  · rintro ⟨k, below, _⟩
    omega
  · intro nonempty
    exact ⟨0, nonempty, slot_zero read⟩

/-- The count is the number of live slots. -/
theorem Occupied.card (occupied : Occupied live read write count) :
    (Finset.univ.filter fun p => live p = true).card = count := by
  have image : (Finset.univ.filter fun p => live p = true) =
      (Finset.range count).image (slot read) := by
    ext p
    simp [occupied.live_iff p, InWindow]
  rw [image, Finset.card_image_of_injOn, Finset.card_range]
  intro j jInside k kInside same
  have bound := occupied.bound
  simp only [Finset.coe_range, Set.mem_Iio] at jInside kInside
  exact slot_inj (by omega) (by omega) same

end Occupied

end Ring
