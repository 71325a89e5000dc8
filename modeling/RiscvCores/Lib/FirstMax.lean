import Mathlib.Tactic.Common
import Mathlib.Data.List.Induction

/-!
# Scanning for the first largest element

The scan keeps an element with its key and replaces them by an admitted element whose
key is strictly larger, so of several largest ones it ends with the first.
-/

set_option autoImplicit false

namespace FirstMax

universe u v

variable {α : Type u} {β : Type v} [LE β] [LT β]

def scan [DecidableLT β] (admitted : α → Bool) (key : α → β) (best : β × α) (x : α) : β × α :=
  if admitted x && decide (best.1 < key x) then (key x, x) else best

/-- `x` is the first of the admitted elements of `l` with the largest key. -/
def IsFirst (admitted : α → Bool) (key : α → β) (l : List α) (x : α) : Prop :=
  admitted x = true ∧ ∃ before after, l = before ++ x :: after ∧
    (∀ y ∈ before, admitted y = true → key y < key x) ∧
    ∀ y ∈ after, admitted y = true → key y ≤ key x

variable {admitted : α → Bool} {key : α → β} {l : List α} {x : α}

theorem IsFirst.largest [Std.IsLinearPreorder β] [Std.LawfulOrderLT β]
    (isFirst : IsFirst admitted key l x) {y : α} (member : y ∈ l)
    (admits : admitted y = true) : key y ≤ key x := by
  obtain ⟨-, before, after, rfl, smaller, bounded⟩ := isFirst
  rcases List.mem_append.mp member with early | here
  · exact Std.le_of_lt (smaller y early admits)
  · rcases List.mem_cons.mp here with rfl | late
    · exact Std.le_refl _
    · exact bounded y late admits

/-- In an ordered list, an admitted element with as large a key does not come before. -/
theorem IsFirst.ties {order : α → α → Prop} (ordered : l.Pairwise order)
    (isFirst : IsFirst admitted key l x) {y : α} (member : y ∈ l)
    (admits : admitted y = true) : key y < key x ∨ y = x ∨ order x y := by
  obtain ⟨-, before, after, rfl, smaller, -⟩ := isFirst
  rcases List.mem_append.mp member with early | here
  · exact .inl (smaller y early admits)
  · rcases List.mem_cons.mp here with rfl | late
    · exact .inr (.inl rfl)
    · exact .inr (.inr (List.rel_of_pairwise_cons (List.pairwise_append.mp ordered).2.1 late))

theorem foldl_scan [DecidableLT β] [Std.IsLinearPreorder β] [Std.LawfulOrderLT β]
    (l : List α) (start : β × α) :
    (l.foldl (scan admitted key) start = start ∧
        ∀ y ∈ l, admitted y = true → key y ≤ start.1) ∨
      ∃ x, l.foldl (scan admitted key) start = (key x, x) ∧ IsFirst admitted key l x ∧
        start.1 < key x := by
  induction l using List.reverseRecOn with
  | nil => exact .inl ⟨rfl, fun y member => absurd member List.not_mem_nil⟩
  | append_singleton l x ih =>
      rw [List.foldl_append, List.foldl_cons, List.foldl_nil]
      rcases ih with ⟨same, bounded⟩ | ⟨m, found, isFirst, larger⟩
      · rw [same, scan]
        by_cases better : admitted x = true ∧ start.1 < key x
        · obtain ⟨admits, larger⟩ := better
          rw [if_pos (by simp [admits, larger])]
          refine .inr ⟨x, rfl, ⟨admits, l, [], rfl, ?_, by simp⟩, larger⟩
          intro y member admits'
          exact Std.lt_of_le_of_lt (bounded y member admits') larger
        · rw [if_neg (by simpa using better)]
          refine .inl ⟨rfl, ?_⟩
          intro y member admits
          rcases List.mem_append.mp member with early | last
          · exact bounded y early admits
          · obtain rfl := List.mem_singleton.mp last
            exact Std.not_lt.mp fun larger => better ⟨admits, larger⟩
      · rw [found, scan]
        by_cases better : admitted x = true ∧ key m < key x
        · obtain ⟨admits, larger'⟩ := better
          rw [if_pos (by simp [admits, larger'])]
          refine .inr ⟨x, rfl, ⟨admits, l, [], rfl, ?_, by simp⟩,
            Std.lt_of_lt_of_le larger (Std.le_of_lt larger')⟩
          intro y member admits'
          exact Std.lt_of_le_of_lt (isFirst.largest member admits') larger'
        · rw [if_neg (by simpa using better)]
          obtain ⟨admits, before, after, rfl, smaller, bounded⟩ := isFirst
          refine .inr ⟨m, rfl, ⟨admits, before, after ++ [x], by simp, smaller, ?_⟩, larger⟩
          intro y member admits'
          rcases List.mem_append.mp member with late | last
          · exact bounded y late admits'
          · obtain rfl := List.mem_singleton.mp last
            exact Std.not_lt.mp fun larger' => better ⟨admits', larger'⟩

end FirstMax
