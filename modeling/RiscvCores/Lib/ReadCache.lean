import Mathlib.Tactic.Common
import Mathlib.Data.List.FinRange
import Mathlib.Logic.Function.Basic

/-!
# Small read-only caches

A cache of facts that hold for good: a lookup takes the first entry that matches, an
insertion overwrites any entry unless one like it is there.  Whatever holds of all entries
goes on to hold, however places are chosen.
-/

set_option autoImplicit false

namespace ReadCache

universe u

variable {n : Nat} {E : Type u}

/-- The first entry that matches. -/
def lookup (hit : E → Bool) (c : Fin n → Option E) : Option E :=
  (List.finRange n).findSome? fun i => (c i).filter hit

/-- The first place without an entry. -/
def firstEmpty (c : Fin n → Option E) : Option (Fin n) :=
  (List.finRange n).find? fun i => (c i).isNone

/-- Is there an entry like the one to insert? -/
def present (same : E → Bool) (c : Fin n → Option E) : Bool :=
  (List.finRange n).any fun i => (c i).any same

/-- `e` is put in its place, if it has one. -/
def put (place : Option (Fin n)) (e : E) (c : Fin n → Option E) : Fin n → Option E :=
  match place with
  | some i => Function.update c i (some e)
  | none => c

/-- `e` is put in its place, unless an entry like it is there. -/
def insert (same : E → Bool) (place : Option (Fin n)) (e : E) (c : Fin n → Option E) :
    Fin n → Option E :=
  if present same c then c else put place e c

/-- All entries satisfy `p`. -/
def Holds (p : E → Prop) (c : Fin n → Option E) : Prop := ∀ i, ∀ e ∈ c i, p e

variable {p : E → Prop} {c : Fin n → Option E}

theorem Holds.lookup {hit : E → Bool} (holds : Holds p c) {e : E}
    (found : lookup hit c = some e) : p e ∧ hit e = true := by
  obtain ⟨i, -, here⟩ := List.exists_of_findSome?_eq_some found
  obtain ⟨entry, matched⟩ := Option.filter_eq_some_iff.mp here
  exact ⟨holds i e entry, matched⟩

theorem Holds.put {place : Option (Fin n)} {e : E} (holds : Holds p c) (added : p e) :
    Holds p (put place e c) := by
  cases place with
  | none => exact holds
  | some place =>
      intro i e' member
      by_cases here : i = place
      · subst here
        rw [ReadCache.put, Function.update_self] at member
        cases member
        exact added
      · rw [ReadCache.put, Function.update_of_ne here] at member
        exact holds i e' member

theorem Holds.insert {same : E → Bool} {place : Option (Fin n)} {e : E} (holds : Holds p c)
    (added : p e) : Holds p (insert same place e c) := by
  unfold ReadCache.insert
  split
  · exact holds
  · exact holds.put added

theorem Holds.empty : Holds p fun _ : Fin n => none := by
  intro i e member
  cases member

end ReadCache
