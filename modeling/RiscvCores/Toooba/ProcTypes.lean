import Mathlib.Algebra.GroupWithZero.Nat
import Mathlib.Data.List.FinRange
import Mathlib.Tactic.Common

/-!
# Types and widths of the Toooba core

Widths of the type level, register numbers, and loops in which the ports of
the superscalar interfaces act from port 0 on.
-/

set_option autoImplicit false

namespace Toooba

/-- `TLog#(n)`, the bits that tell `n` values apart. -/
def tLog (n : Nat) : Nat := if n ≤ 1 then 0 else (n - 1).log2 + 1

theorem le_pow_tLog (n : Nat) : n ≤ 2 ^ tLog n := by
  unfold tLog
  split
  next small => simpa using small
  next =>
    have bound := Nat.lt_log2_self (n := n - 1)
    omega

theorem pow_tLog_le {size : Nat} (some : 0 < size) : 2 ^ tLog (size + 1) ≤ size + size := by
  have below := Nat.log2_self_le (n := size) (by omega)
  rw [tLog, if_neg (by omega), Nat.add_sub_cancel, Nat.pow_succ]
  omega

inductive ArchRIndx
  | gpr (r : Fin 32)
  | fpu (r : Fin 32)
deriving DecidableEq

/-! ## Ports -/

section Ports

variable {n : Nat}

/-- The number of ports from port 0 on before the first one without `en`. -/
def firstIdle (en : Fin n → Bool) : Nat :=
  match (List.finRange n).find? fun port => !en port with
  | some port => port.val
  | none => n

theorem firstIdle_le (en : Fin n → Bool) : firstIdle en ≤ n := by
  unfold firstIdle
  split
  next port _ => exact Nat.le_of_lt port.isLt
  next => exact Nat.le_refl _

/-- The ports in use are the lowest ones. -/
def Consecutive (en : Fin n → Bool) : Prop := ∀ port, en port = true ↔ port.val < firstIdle en

instance (en : Fin n → Bool) : Decidable (Consecutive en) :=
  inferInstanceAs (Decidable (∀ _, _))

/-- A loop over the ports whose ports from `stop` on do nothing. -/
theorem foldl_ports {σ : Type} (f : σ → Fin n → σ) (start : σ)
    (holds : Nat → σ → Prop) {stop : Nat} (within : stop ≤ n) (first : holds 0 start)
    (step : ∀ j (below : j < stop) now, holds j now →
      holds (j + 1) (f now ⟨j, Nat.lt_of_lt_of_le below within⟩))
    (idle : ∀ now port, stop ≤ port.val → f now port = now) :
    holds stop ((List.finRange n).foldl f start) := by
  have upTo : ∀ j, j ≤ stop → holds j (((List.finRange n).take j).foldl f start) := by
    intro j
    induction j with
    | zero => exact fun _ => first
    | succ j ih =>
        intro inside
        have next : (List.finRange n).take (j + 1) =
            (List.finRange n).take j ++ [⟨j, by omega⟩] := by
          rw [List.take_add_one]
          simp [show j < n by omega]
        rw [next, List.foldl_append]
        exact step j inside _ (ih (by omega))
  have rest : ∀ ports : List (Fin n), (∀ port ∈ ports, stop ≤ port.val) → ∀ now,
      ports.foldl f now = now := by
    intro ports late
    induction ports with
    | nil => exact fun _ => rfl
    | cons port ports ih =>
        intro now
        rw [List.foldl_cons, idle now port (late port (by simp))]
        exact ih (fun other inside => late other (by simp [inside])) now
  have late : ∀ port ∈ (List.finRange n).drop stop, stop ≤ port.val := by
    intro port inside
    obtain ⟨k, below, rfl⟩ := List.getElem_of_mem inside
    simp
  have done := upTo stop (Nat.le_refl stop)
  rw [← List.take_append_drop stop (List.finRange n), List.foldl_append, rest _ late]
  exact done

/-- Collecting over ports of which those below `stop` are in use. -/
theorem filterMap_ports {α : Type} {f : Fin n → Option α} {g : Nat → α} {stop : Nat}
    (within : stop ≤ n) (used : ∀ port : Fin n, port.val < stop → f port = some (g port.val))
    (idle : ∀ port : Fin n, stop ≤ port.val → f port = none) :
    (List.finRange n).filterMap f = (List.range stop).map g := by
  have upTo : ∀ j, j ≤ stop → ((List.finRange n).take j).filterMap f = (List.range j).map g := by
    intro j
    induction j with
    | zero => exact fun _ => rfl
    | succ j ih =>
        intro inside
        have next : (List.finRange n).take (j + 1) =
            (List.finRange n).take j ++ [⟨j, by omega⟩] := by
          rw [List.take_add_one]
          simp [show j < n by omega]
        have here := used ⟨j, by omega⟩ inside
        rw [next, List.filterMap_append, ih (by omega), List.range_succ, List.map_append]
        simp [here]
  have rest : ((List.finRange n).drop stop).filterMap f = [] := by
    rw [List.filterMap_eq_nil_iff]
    intro port inside
    obtain ⟨k, below, rfl⟩ := List.getElem_of_mem inside
    exact idle _ (by simp)
  rw [← List.take_append_drop stop (List.finRange n), List.filterMap_append,
    upTo stop (Nat.le_refl stop), rest, List.append_nil]

end Ports

end Toooba
