import Mathlib.Data.Fintype.Basic
import Mathlib.Data.List.Count
import Mathlib.Logic.Function.Basic
import Mathlib.Tactic.Common

/-!
# Tickets in slots

Requests take tickets numbered in order.  A ticket is held in a slot until the
slot is returned, which redeems it unless it was made void in between; a ticket
can also be issued and redeemed at once.  In the end every ticket was redeemed
exactly once, except those that are void or still held.
-/

set_option autoImplicit false

namespace Tickets

universe u

structure Office (ι : Type u) where
  issued : Nat
  held : ι → Option Nat
  void : Nat → Bool
  redeemed : List Nat

namespace Office

variable {ι : Type u}

def opened : Office ι where
  issued := 0
  held _ := none
  void _ := false
  redeemed := []

/-- The ticket that the return of a slot redeems. -/
def redeems (o : Office ι) (r : ι) : Option Nat := (o.held r).filter fun n => !o.void n

theorem mem_redeems {o : Office ι} {r : ι} {n : Nat} :
    n ∈ o.redeems r ↔ o.held r = some n ∧ o.void n = false := by
  rw [redeems, Option.mem_def, Option.filter_eq_some_iff, Bool.not_eq_true']

def holds (o : Office ι) (n : Nat) : Prop := ∃ r, o.held r = some n

/-- A ticket that is issued and redeemed at once. -/
def pass (o : Office ι) : Office ι :=
  { o with issued := o.issued + 1, redeemed := o.redeemed ++ [o.issued] }

section Slots

variable [DecidableEq ι]

def returned (o : Office ι) (r : ι) : Office ι :=
  { o with
    held := Function.update o.held r none
    redeemed := o.redeemed ++ (o.redeems r).toList }

def hand (o : Office ι) (r : ι) : Office ι :=
  { o with issued := o.issued + 1, held := Function.update o.held r (some o.issued) }

end Slots

def voidHeld [Fintype ι] (o : Office ι) : Office ι :=
  { o with void := fun n => o.void n || decide (∃ r, o.held r = some n) }

/-- Issued, not void and in no slot: then the ticket was redeemed. -/
def settled (o : Office ι) (n : Nat) : Prop := n < o.issued ∧ o.void n = false ∧ ¬ o.holds n

structure Exact (o : Office ι) : Prop where
  held_lt : ∀ r n, o.held r = some n → n < o.issued
  held_inj : ∀ r r' n, o.held r = some n → o.held r' = some n → r = r'
  void_lt : ∀ n, o.void n = true → n < o.issued
  once : ∀ n, o.settled n → o.redeemed.count n = 1
  never : ∀ n, ¬ o.settled n → o.redeemed.count n = 0

namespace Exact

variable {o : Office ι}

theorem opened : Exact (opened : Office ι) where
  held_lt _ _ impossible := nomatch impossible
  held_inj _ _ _ impossible := nomatch impossible
  void_lt _ impossible := nomatch impossible
  once _ settled := absurd settled.1 (Nat.not_lt_zero _)
  never _ _ := rfl

/-- A change of the office redeems at most one ticket, the one that it settles. -/
theorem of_settles (o' : Office ι) (exact : Exact o) (ticket : Option Nat)
    (redeemed : o'.redeemed = o.redeemed ++ ticket.toList)
    (unsettled : ∀ n ∈ ticket, ¬ o.settled n)
    (settles : ∀ n, o'.settled n ↔ o.settled n ∨ n ∈ ticket) :
    (∀ n, o'.settled n → o'.redeemed.count n = 1) ∧
      ∀ n, ¬ o'.settled n → o'.redeemed.count n = 0 := by
  have counts : ∀ n, o'.redeemed.count n = o.redeemed.count n + ticket.toList.count n := by
    intro n
    rw [redeemed, List.count_append]
  have single : ∀ n ∈ ticket, ticket.toList.count n = 1 := by
    rintro n ⟨⟩
    simp
  have none' : ∀ n, n ∉ ticket → ticket.toList.count n = 0 := by
    intro n other
    rw [List.count_eq_zero, Option.mem_toList]
    exact other
  constructor
  · intro n settled
    rw [counts]
    rcases (settles n).mp settled with before | now
    · rw [exact.once n before, none' n fun now => unsettled n now before]
    · rw [exact.never n (unsettled n now), single n now]
  · intro n settled
    rw [counts, exact.never n fun before => settled ((settles n).mpr (.inl before)),
      none' n fun now => settled ((settles n).mpr (.inr now))]

theorem pass (exact : Exact o) : Exact o.pass := by
  have fresh : ¬ o.settled o.issued := fun settled => absurd settled.1 (Nat.lt_irrefl _)
  have settles : ∀ n, o.pass.settled n ↔ o.settled n ∨ n ∈ some o.issued := by
    intro n
    simp only [settled, Office.pass, holds, Option.mem_some_iff]
    constructor
    · rintro ⟨bound, valid, free⟩
      rcases Nat.lt_succ_iff_lt_or_eq.mp bound with below | rfl
      · exact .inl ⟨below, valid, free⟩
      · exact .inr rfl
    · rintro (⟨bound, valid, free⟩ | rfl)
      · exact ⟨Nat.lt_succ_of_lt bound, valid, free⟩
      · refine ⟨Nat.lt_succ_self _, ?_, ?_⟩
        · by_contra isVoid
          exact absurd (exact.void_lt _ (Bool.eq_true_of_not_eq_false isVoid)) (Nat.lt_irrefl _)
        · rintro ⟨r, held⟩
          exact absurd (exact.held_lt r _ held) (Nat.lt_irrefl _)
  obtain ⟨once, never⟩ := exact.of_settles o.pass (some o.issued) rfl
    (by rintro n ⟨⟩; exact fresh) settles
  exact ⟨fun r n held => Nat.lt_succ_of_lt (exact.held_lt r n held), exact.held_inj,
    fun n isVoid => Nat.lt_succ_of_lt (exact.void_lt n isVoid), once, never⟩

section Slots

variable [DecidableEq ι]

theorem returned (exact : Exact o) (r : ι) : Exact (o.returned r) := by
  have kept : ∀ r' n, (o.returned r).held r' = some n → r' ≠ r ∧ o.held r' = some n := by
    intro r' n held
    simp only [Office.returned, Function.update_apply] at held
    split at held
    · contradiction
    · exact ⟨‹_›, held⟩
  have settles : ∀ n, (o.returned r).settled n ↔ o.settled n ∨ n ∈ o.redeems r := by
    intro n
    rw [mem_redeems]
    constructor
    · rintro ⟨bound, valid, free⟩
      by_cases held : o.held r = some n
      · exact .inr ⟨held, valid⟩
      · refine .inl ⟨bound, valid, ?_⟩
        rintro ⟨r', held'⟩
        refine free ⟨r', ?_⟩
        have other : r' ≠ r := by
          rintro rfl
          exact held held'
        simpa only [Office.returned, Function.update_of_ne other] using held'
    · rintro (⟨bound, valid, free⟩ | ⟨held, valid⟩)
      · exact ⟨bound, valid, fun ⟨r', held'⟩ => free ⟨r', (kept r' n held').2⟩⟩
      · refine ⟨exact.held_lt r n held, valid, ?_⟩
        rintro ⟨r', held'⟩
        obtain ⟨other, before⟩ := kept r' n held'
        exact other (exact.held_inj r' r n before held)
  have unsettled : ∀ n ∈ o.redeems r, ¬ o.settled n := by
    intro n now settled
    exact settled.2.2 ⟨r, (mem_redeems.mp now).1⟩
  obtain ⟨once, never⟩ := exact.of_settles (o.returned r) (o.redeems r) rfl unsettled settles
  refine ⟨fun r' n held => exact.held_lt r' n (kept r' n held).2, ?_, exact.void_lt, once, never⟩
  intro r' r'' n held' held''
  exact exact.held_inj r' r'' n (kept r' n held').2 (kept r'' n held'').2

theorem hand (exact : Exact o) {r : ι} (free : o.held r = none) : Exact (o.hand r) := by
  have cases' : ∀ r' n, (o.hand r).held r' = some n →
      (r' = r ∧ n = o.issued) ∨ (r' ≠ r ∧ o.held r' = some n) := by
    intro r' n held
    simp only [Office.hand, Function.update_apply] at held
    split at held
    · exact .inl ⟨‹_›, (Option.some.inj held).symm⟩
    · exact .inr ⟨‹_›, held⟩
  have settles : ∀ n, (o.hand r).settled n ↔ o.settled n ∨ n ∈ (none : Option Nat) := by
    intro n
    simp only [Option.not_mem_none, or_false]
    constructor
    · rintro ⟨bound, valid, out⟩
      rcases Nat.lt_succ_iff_lt_or_eq.mp bound with below | rfl
      · refine ⟨below, valid, ?_⟩
        rintro ⟨r', held⟩
        have other : r' ≠ r := by
          rintro rfl
          rw [free] at held
          contradiction
        refine out ⟨r', ?_⟩
        simpa only [Office.hand, Function.update_of_ne other] using held
      · refine absurd ⟨r, ?_⟩ out
        simp only [Office.hand, Function.update_self]
    · rintro ⟨bound, valid, out⟩
      refine ⟨Nat.lt_succ_of_lt bound, valid, ?_⟩
      rintro ⟨r', held⟩
      rcases cases' r' n held with ⟨-, rfl⟩ | ⟨-, before⟩
      · exact Nat.lt_irrefl _ bound
      · exact out ⟨r', before⟩
  obtain ⟨once, never⟩ := exact.of_settles (o.hand r) none (List.append_nil _).symm
    (fun _ impossible => nomatch impossible) settles
  refine ⟨?_, ?_, fun n isVoid => Nat.lt_succ_of_lt (exact.void_lt n isVoid), once, never⟩
  · intro r' n held
    rcases cases' r' n held with ⟨-, rfl⟩ | ⟨-, before⟩
    · exact Nat.lt_succ_self _
    · exact Nat.lt_succ_of_lt (exact.held_lt r' n before)
  · intro r' r'' n held' held''
    rcases cases' r' n held' with ⟨rfl, rfl⟩ | ⟨-, before'⟩
    · rcases cases' r'' _ held'' with ⟨rfl, -⟩ | ⟨-, before''⟩
      · rfl
      · exact absurd (exact.held_lt r'' _ before'') (Nat.lt_irrefl _)
    · rcases cases' r'' n held'' with ⟨rfl, rfl⟩ | ⟨-, before''⟩
      · exact absurd (exact.held_lt r' _ before') (Nat.lt_irrefl _)
      · exact exact.held_inj r' r'' n before' before''

end Slots

theorem voidHeld [Fintype ι] (exact : Exact o) : Exact o.voidHeld := by
  have settles : ∀ n, o.voidHeld.settled n ↔ o.settled n ∨ n ∈ (none : Option Nat) := by
    intro n
    simp only [settled, Office.voidHeld, holds, Option.not_mem_none, or_false,
      Bool.or_eq_false_iff, decide_eq_false_iff_not]
    constructor
    · rintro ⟨bound, ⟨valid, -⟩, out⟩
      exact ⟨bound, valid, out⟩
    · rintro ⟨bound, valid, out⟩
      exact ⟨bound, ⟨valid, out⟩, out⟩
  obtain ⟨once, never⟩ := exact.of_settles o.voidHeld none (List.append_nil _).symm
    (fun _ impossible => nomatch impossible) settles
  refine ⟨exact.held_lt, exact.held_inj, ?_, once, never⟩
  intro n isVoid
  rcases Bool.or_eq_true_iff.mp isVoid with before | held
  · exact exact.void_lt n before
  · obtain ⟨r, held⟩ := of_decide_eq_true held
    exact exact.held_lt r n held

end Exact

end Office

end Tickets
