import Mathlib.Algebra.GroupWithZero.Nat
import Mathlib.Algebra.Group.Fin.Basic
import Mathlib.Data.List.FinRange
import Mathlib.Data.Fintype.Perm
import Mathlib.Tactic.Common

/-!
# A list spread over queues in turn

The elements of a list go to `n` queues in turn.  A queue holds every `n`-th element
from its first one on.
-/

set_option autoImplicit false

namespace Interleave

variable {α : Type} {n : Nat}

/-- The queue `xs` holds every `n`-th element of `all` from position `k` on. -/
def Spread (n : Nat) (all : List α) (k : Nat) (xs : List α) : Prop :=
  ∀ m, xs[m]? = all[k + m * n]?

theorem Spread.nil (n k : Nat) : Spread n ([] : List α) k [] := fun m => by simp

variable {all new xs : List α} {k : Nat}

theorem Spread.below_length (spread : Spread n all k xs) (m : Nat) :
    m < xs.length ↔ k + m * n < all.length := by
  have same := congrArg Option.isSome (spread m)
  rw [Bool.eq_iff_iff] at same
  simpa using same

theorem Spread.eq_nil_iff (spread : Spread n all k xs) : xs = [] ↔ all.length ≤ k := by
  have first := spread.below_length 0
  rw [Nat.zero_mul, Nat.add_zero] at first
  rw [← List.length_eq_zero_iff]
  omega

/-- The first element of the queue. -/
theorem Spread.eq_cons (spread : Spread n all k xs) (inside : k < all.length) :
    ∃ rest, xs = all[k] :: rest := by
  cases xs with
  | nil => exact absurd (spread.eq_nil_iff.mp rfl) (by omega)
  | cons x rest =>
      have first := spread 0
      rw [Nat.zero_mul, Nat.add_zero, List.getElem?_eq_getElem inside] at first
      exact ⟨rest, by rw [List.getElem?_cons_zero] at first; rw [Option.some.inj first]⟩

/-- The next element of the queue is the `j`-th one behind the list. -/
theorem Spread.next (spread : Spread n all k xs) (turn : k < n) :
    ∃ j, j < n ∧ k + xs.length * n = all.length + j := by
  have last := spread.below_length xs.length
  have notInside : all.length ≤ k + xs.length * n := by omega
  refine ⟨k + xs.length * n - all.length, ?_, by omega⟩
  rcases Nat.eq_zero_or_pos xs.length with empty | nonempty
  · rw [empty, Nat.zero_mul, Nat.add_zero]
    omega
  · have before := (spread.below_length (xs.length - 1)).mp (by omega)
    have step : xs.length * n = (xs.length - 1) * n + n := by
      rw [← Nat.succ_mul]
      congr 1
      omega
    omega

/-- Every queue gets at most one of `n` new elements. -/
theorem Spread.append {j : Nat} (spread : Spread n all k xs)
    (next : k + xs.length * n = all.length + j) (few : new.length ≤ n) :
    Spread n (all ++ new) k (xs ++ new[j]?.toList) := by
  intro m
  rcases Nat.lt_trichotomy m xs.length with old | rfl | later
  · rw [List.getElem?_append_left old, spread m,
      List.getElem?_append_left ((spread.below_length m).mp old)]
  · rw [List.getElem?_append_right (Nat.le_refl _), next,
      List.getElem?_append_right (Nat.le_add_right _ _), Nat.sub_self, Nat.add_sub_cancel_left]
    cases new[j]? <;> rfl
  · have step : (xs.length + 1) * n ≤ m * n := Nat.mul_le_mul_right n later
    rw [Nat.succ_mul] at step
    rw [List.getElem?_eq_none, List.getElem?_eq_none]
    · rw [List.length_append]
      omega
    · have short : new[j]?.toList.length ≤ 1 := by cases new[j]? <;> simp
      rw [List.length_append]
      omega

theorem Spread.drop {t : Nat} (spread : Spread n all (k + t) xs) :
    Spread n (all.drop t) k xs := by
  intro m
  rw [spread m, List.getElem?_drop]
  congr 1
  omega

theorem Spread.tail (spread : Spread n all k xs) : Spread n all (k + n) xs.tail := by
  intro m
  rw [List.getElem?_tail, spread (m + 1), Nat.succ_mul]
  congr 1
  omega

/-! ## Initial segments of the indices -/

/-- A property that holds of an initial segment selects that segment. -/
theorem filter_eq_take {β : Type} [Preorder β] {ys : List β} {p : β → Bool}
    (sorted : ys.Pairwise (· ≤ ·)) (closed : ∀ y, p y = true → ∀ x ≤ y, p x = true) :
    ys.filter p = ys.take (ys.countP p) := by
  induction ys with
  | nil => rfl
  | cons y rest ih =>
      rw [List.pairwise_cons] at sorted
      cases holds : p y with
      | true =>
          rw [List.filter_cons_of_pos holds, List.countP_cons_of_pos holds, List.take_succ_cons,
            ih sorted.2]
      | false =>
          have none : ∀ x ∈ rest, ¬p x = true := by
            intro x member later
            have impossible := closed x later y (sorted.1 x member)
            rw [holds] at impossible
            cases impossible
          have notHolds : ¬p y = true := by simp [holds]
          rw [List.filter_cons_of_neg notHolds, List.countP_cons_of_neg notHolds,
            List.countP_eq_zero.mpr none, List.filter_eq_nil_iff.mpr none, List.take_zero]

theorem filter_finRange_eq_take {p : Fin n → Bool}
    (closed : ∀ y, p y = true → ∀ x ≤ y, p x = true) :
    (List.finRange n).filter p = (List.finRange n).take ((List.finRange n).countP p) :=
  filter_eq_take ((List.pairwise_lt_finRange n).imp le_of_lt) closed

/-- A property that holds of an initial segment holds below its count. -/
theorem iff_lt_countP {p : Fin n → Bool} (closed : ∀ y, p y = true → ∀ x ≤ y, p x = true)
    (x : Fin n) : p x = true ↔ x.val < (List.finRange n).countP p := by
  have member : p x = true ↔ x ∈ (List.finRange n).filter p := by simp
  rw [member, filter_finRange_eq_take closed, List.mem_take_iff_getElem]
  constructor
  · rintro ⟨j, inside, rfl⟩
    have below : j < (List.finRange n).countP p := by omega
    simpa using below
  · intro below
    exact ⟨x.val, by simp [below], by simp⟩

theorem getElem?_filterMap_of_isSome {β γ : Type} {f : β → Option γ} {ys : List β}
    (some : ∀ y ∈ ys, (f y).isSome = true) (j : Nat) :
    (ys.filterMap f)[j]? = ys[j]?.bind f := by
  induction ys generalizing j with
  | nil => rfl
  | cons y rest ih =>
      obtain ⟨z, here⟩ := Option.isSome_iff_exists.mp (some y List.mem_cons_self)
      rw [List.filterMap_cons_some here]
      cases j with
      | zero => exact here.symm
      | succ j => exact ih (fun x later => some x (List.mem_cons_of_mem y later)) j

/-- The values on an initial segment, in order. -/
theorem getElem?_filterMap_finRange {γ : Type} {f : Fin n → Option γ}
    (closed : ∀ y, (f y).isSome = true → ∀ x ≤ y, (f x).isSome = true) (j : Nat) :
    ((List.finRange n).filterMap f)[j]? = if inside : j < n then f ⟨j, inside⟩ else none := by
  have segment := filter_finRange_eq_take closed
  have values : (List.finRange n).filterMap f =
      ((List.finRange n).filter fun x => (f x).isSome).filterMap f := by
    rw [List.filterMap_filter]
    apply List.filterMap_congr
    intro x _
    cases f x <;> rfl
  rw [values, getElem?_filterMap_of_isSome fun y member => (List.mem_filter.mp member).2, segment,
    List.getElem?_take]
  by_cases inside : j < n
  · have count := iff_lt_countP closed ⟨j, inside⟩
    rw [dif_pos inside, List.getElem?_eq_getElem (by simpa using inside), List.getElem_finRange]
    by_cases below : j < (List.finRange n).countP fun x => (f x).isSome
    · rw [if_pos below]
      rfl
    · rw [if_neg below, Option.bind_none]
      have absent := mt count.mp below
      rw [Option.not_isSome_iff_eq_none] at absent
      exact absent.symm
  · rw [dif_neg inside, List.getElem?_eq_none (by simpa using inside), ite_self, Option.bind_none]

theorem filter_finRange_eq_singleton {p : Fin n → Bool} {x : Fin n}
    (only : ∀ y, p y = true ↔ y = x) : (List.finRange n).filter p = [x] := by
  have same : p = fun y => y == x := by
    funext y
    rw [Bool.eq_iff_iff, only, beq_iff_eq]
  rw [same, List.filter_beq,
    List.count_eq_one_of_mem (List.nodup_finRange n) (List.mem_finRange x)]
  rfl

/-- Rotating the indices does not change a count. -/
theorem countP_rotate [NeZero n] (p : Fin n → Bool) (turn : Fin n) :
    (List.finRange n).countP (fun x => p (x + turn)) = (List.finRange n).countP p := by
  have perm := Equiv.Perm.map_finRange_perm (Equiv.addRight turn)
  rw [← perm.countP_eq p, List.countP_map]
  rfl

end Interleave
