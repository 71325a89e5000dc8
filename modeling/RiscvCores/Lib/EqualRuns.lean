import Mathlib.Tactic.Common
import Mathlib.Data.List.Basic
import Mathlib.Data.Nat.Init

/-!
# Runs of equal neighbours

A list read in order falls into stretches of equal neighbours.  `stretch l n` is the
number of the stretch of position `n`, and `stretches l` how many there are.
-/

set_option autoImplicit false

namespace EqualRuns

variable {α : Type} [DecidableEq α]

/-- The number of changes of value up to position `n`. -/
def stretch (l : List α) : Nat → Nat
  | 0 => 0
  | n + 1 => stretch l n + if l[n + 1]? = l[n]? then 0 else 1

def stretches (l : List α) : Nat :=
  match l.length with
  | 0 => 0
  | n + 1 => stretch l n + 1

@[simp] theorem stretches_nil : stretches ([] : List α) = 0 := rfl

theorem stretch_append (l more : List α) {n : Nat} (inside : n < l.length) :
    stretch (l ++ more) n = stretch l n := by
  induction n with
  | zero => rfl
  | succ n ih =>
      rw [stretch, stretch, ih (by omega), List.getElem?_append_left inside,
        List.getElem?_append_left (by omega : n < l.length)]

theorem stretch_mono (l : List α) {m n : Nat} (order : m ≤ n) : stretch l m ≤ stretch l n := by
  induction n, order using Nat.le_induction with
  | base => exact Nat.le_refl _
  | succ n _ ih =>
      rw [stretch]
      omega

theorem stretch_lt_stretches (l : List α) {n : Nat} (inside : n < l.length) :
    stretch l n < stretches l := by
  unfold stretches
  cases size : l.length with
  | zero => omega
  | succ last =>
      have order := stretch_mono l (show n ≤ last by omega)
      simp only
      omega

/-- Positions of one stretch have one value. -/
theorem getElem?_eq_of_stretch_eq (l : List α) {m n : Nat} (order : m ≤ n)
    (same : stretch l m = stretch l n) : l[m]? = l[n]? := by
  induction n, order using Nat.le_induction with
  | base => rfl
  | succ n order ih =>
      have before := stretch_mono l order
      rw [stretch] at same
      by_cases equal : l[n + 1]? = l[n]?
      · rw [equal]
        exact ih (by rw [if_pos equal] at same; omega)
      · rw [if_neg equal] at same
        omega

/-- A position and all after it of one value are one stretch, the last. -/
theorem stretches_eq_of_constant {l : List α} {n : Nat} (inside : n < l.length)
    (constant : ∀ m, n < m → m < l.length → l[m]? = l[n]?) :
    stretches l = stretch l n + 1 := by
  have level : ∀ m, n ≤ m → m < l.length → stretch l m = stretch l n := by
    intro m order
    induction m, order using Nat.le_induction with
    | base =>
        intro _
        rfl
    | succ m order ih =>
        intro below
        have here : l[m]? = l[n]? := by
          rcases Nat.eq_or_lt_of_le order with rfl | later
          · rfl
          · exact constant m later (by omega)
        have next : l[m + 1]? = l[m]? := by rw [constant (m + 1) (by omega) below, here]
        rw [stretch, ih (by omega), if_pos next, Nat.add_zero]
  unfold stretches
  cases size : l.length with
  | zero => omega
  | succ last =>
      simp only
      rw [level last (by omega) (by omega)]

theorem stretch_length_concat (l : List α) (x : α) :
    stretches (l ++ [x]) = stretch (l ++ [x]) l.length + 1 := by
  unfold stretches
  rw [List.length_append, List.length_singleton]

/-- One more element opens a stretch unless it repeats the last one. -/
theorem stretches_concat (l : List α) (x : α) :
    stretches (l ++ [x]) =
      if l.getLast? = some x then stretches l else stretches l + 1 := by
  rw [stretch_length_concat]
  unfold stretches
  rw [List.getLast?_eq_getElem?]
  cases size : l.length with
  | zero =>
      have empty : l = [] := List.eq_nil_of_length_eq_zero size
      subst empty
      rfl
  | succ last =>
      have newest : (l ++ [x])[last + 1]? = some x := by
        rw [← size, List.getElem?_concat_length]
      have previous : (l ++ [x])[last]? = l[last]? :=
        List.getElem?_append_left (by omega)
      rw [stretch, newest, previous, stretch_append l [x] (by omega)]
      simp only [Nat.add_sub_cancel, eq_comm (a := some x)]
      split <;> rfl

end EqualRuns
