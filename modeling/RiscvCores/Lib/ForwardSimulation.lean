import RiscvCores.Lib.Clocked

/-!
# Forward simulation of a clocked machine

A cycle of a clocked machine emits events.  The abstract machine answers with one
labelled step for each of them, in their order.
-/

set_option autoImplicit false

namespace ForwardSimulation

universe u v w x

variable {A : Type u} {E : Type v} {step : A → E → A → Prop}

/-- Through the steps for a list of events. -/
inductive Steps (step : A → E → A → Prop) : A → List E → A → Prop
  | nil (a : A) : Steps step a [] a
  | cons {a a' a'' : A} {event : E} {events : List E} (first : step a event a')
      (rest : Steps step a' events a'') : Steps step a (event :: events) a''

theorem Steps.one {a a' : A} {event : E} (taken : step a event a') : Steps step a [event] a' :=
  .cons taken (.nil a')

theorem Steps.append {a a' a'' : A} {events later : List E} (before : Steps step a events a')
    (after : Steps step a' later a'') : Steps step a (events ++ later) a'' := by
  induction before with
  | nil => exact after
  | cons first _ ih => exact .cons first (ih after)

section Machine

open Clocked

variable {S : Type w} {I : Type x} {m : Machine S I} {emits : S → I → List E}

/-- What the cycles of a run emit. -/
def log (emits : S → I → List E) (cycles : List (S × I)) : List E :=
  cycles.flatMap fun c => emits c.1 c.2

/-- Every cycle is matched, so every run is. -/
theorem Steps.of_run (sim : S → A → Prop) {start : A} (initial : sim m.reset start)
    (cycle : ∀ cycles s i a, m.allowed cycles s i → sim s a →
      ∃ a', Steps step a (emits s i) a' ∧ sim (m.next s i) a')
    {cycles : List (S × I)} {s : S} (run : m.Run cycles s) :
    ∃ a, Steps step start (log emits cycles) a ∧ sim s a := by
  induction run with
  | reset => exact ⟨start, .nil start, initial⟩
  | cycle run allowed ih =>
      obtain ⟨a, steps, related⟩ := ih
      obtain ⟨a', more, related'⟩ := cycle _ _ _ a allowed related
      refine ⟨a', ?_, related'⟩
      rw [log, List.flatMap_append]
      exact steps.append (by simpa using more)

end Machine

end ForwardSimulation
