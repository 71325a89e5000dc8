import RiscvCores.Lib.SmallFin
import Mathlib.Tactic.Common
import Mathlib.Data.List.Induction

/-!
# Runs of a clocked machine

A clocked machine has registers and reads one input per cycle.  A run is the
list of its cycles, each with the registers at the start of the cycle and the
input of that cycle; what the environment may drive can depend on the cycles
before.  Logs of events are read off the list of cycles.
-/

set_option autoImplicit false

namespace Clocked

universe u v w

/-- Registers after reset, next registers, and the inputs the environment may
drive after a given history. -/
structure Machine (S : Type u) (I : Type v) where
  reset : S
  next : S → I → S
  allowed : List (S × I) → S → I → Prop

variable {S : Type u} {I : Type v} {E : Type w}

/-- `Run cycles s`: from reset through `cycles` to the registers `s`. -/
inductive Machine.Run (m : Machine S I) : List (S × I) → S → Prop
  | reset : Run m [] m.reset
  | cycle {cycles : List (S × I)} {s : S} {i : I} (run : Run m cycles s)
      (allowed : m.allowed cycles s i) : Run m (cycles ++ [(s, i)]) (m.next s i)

/-- A property of the history and the registers that every cycle keeps. -/
theorem Machine.Run.invariant {m : Machine S I} (inv : List (S × I) → S → Prop)
    (start : inv [] m.reset)
    (keep : ∀ cycles s i, m.Run cycles s → inv cycles s → m.allowed cycles s i →
      inv (cycles ++ [(s, i)]) (m.next s i))
    {cycles : List (S × I)} {s : S} (run : m.Run cycles s) : inv cycles s := by
  induction run with
  | reset => exact start
  | cycle run allowed ih => exact keep _ _ _ run ih allowed

theorem Machine.Run.of_append_singleton {m : Machine S I} {cycles : List (S × I)}
    {now : S × I} {s : S} (run : m.Run (cycles ++ [now]) s) :
    m.Run cycles now.1 ∧ m.allowed cycles now.1 now.2 ∧ s = m.next now.1 now.2 := by
  generalize whole : cycles ++ [now] = all at run
  cases run with
  | reset => simp at whole
  | cycle run allowed =>
      obtain ⟨rfl, rfl⟩ := List.append_inj' whole rfl |>.imp id List.singleton_inj.mp
      exact ⟨run, allowed, rfl⟩

/-- A cycle of a run starts where the one before it led. -/
theorem Machine.Run.adjacent {m : Machine S I} {before after : List (S × I)} {now later : S × I}
    {s : S} (run : m.Run (before ++ now :: later :: after) s) :
    later.1 = m.next now.1 now.2 := by
  induction after using List.reverseRecOn generalizing s with
  | nil =>
      have cycles : before ++ [now, later] = (before ++ [now]) ++ [later] := by simp
      rw [cycles] at run
      exact run.of_append_singleton.1.of_append_singleton.2.2
  | append_singleton rest last ih =>
      have cycles : before ++ now :: later :: (rest ++ [last]) =
          (before ++ now :: later :: rest) ++ [last] := by simp
      rw [cycles] at run
      exact ih run.of_append_singleton.1

/-- The run up to one of its cycles. -/
theorem Machine.Run.at_cycle {m : Machine S I} {before after : List (S × I)} {now : S × I}
    {s : S} (run : m.Run (before ++ now :: after) s) :
    m.Run before now.1 ∧ m.allowed before now.1 now.2 := by
  induction after using List.reverseRecOn generalizing s with
  | nil => exact ⟨run.of_append_singleton.1, run.of_append_singleton.2.1⟩
  | append_singleton rest last ih =>
      have cycles : before ++ now :: (rest ++ [last]) = (before ++ now :: rest) ++ [last] := by
        simp
      rw [cycles] at run
      exact ih run.of_append_singleton.1

/-- What a cycle establishes lasts through later cycles that do not end it. -/
theorem Machine.Run.lasts {m : Machine S I} (p : S → Prop) (ends : S × I → Prop)
    (keep : ∀ cycles c, m.Run cycles c.1 → m.allowed cycles c.1 c.2 → p c.1 → ¬ ends c →
      p (m.next c.1 c.2))
    {before during : List (S × I)} {first : S × I} {s : S}
    (run : m.Run (before ++ first :: during) s) (start : p (m.next first.1 first.2))
    (quiet : ∀ c ∈ during, ¬ ends c) : p s := by
  induction during using List.reverseRecOn generalizing s with
  | nil =>
      rw [run.of_append_singleton.2.2]
      exact start
  | append_singleton rest last ih =>
      have cycles : before ++ first :: (rest ++ [last]) = (before ++ first :: rest) ++ [last] := by
        simp
      rw [cycles] at run
      obtain ⟨earlier, allowed, rfl⟩ := run.of_append_singleton
      have held : p last.1 :=
        ih earlier fun c member => quiet c (List.mem_append_left _ member)
      exact keep _ last earlier allowed held (quiet last (by simp))

/-- The machine whose environment also respects `also`. -/
def Machine.restrict (m : Machine S I) (also : List (S × I) → S → I → Prop) :
    Machine S I where
  reset := m.reset
  next := m.next
  allowed cycles s i := m.allowed cycles s i ∧ also cycles s i

theorem Machine.Run.of_restrict {m : Machine S I} {also : List (S × I) → S → I → Prop}
    {cycles : List (S × I)} {s : S} (run : (m.restrict also).Run cycles s) :
    m.Run cycles s := by
  induction run with
  | reset => exact .reset
  | cycle _ allowed ih => exact .cycle ih allowed.1

theorem Machine.Run.restrict {m : Machine S I} (also : List (S × I) → S → I → Prop)
    (always : ∀ cycles s i, also cycles s i) {cycles : List (S × I)} {s : S}
    (run : m.Run cycles s) : (m.restrict also).Run cycles s := by
  induction run with
  | reset => exact .reset
  | cycle _ allowed ih => exact ih.cycle ⟨allowed, always _ _ _⟩

/-- The registers after a list of inputs. -/
def Machine.after (m : Machine S I) (s : S) : List I → S
  | [] => s
  | i :: rest => m.after (m.next s i) rest

theorem Machine.after_concat (m : Machine S I) (s : S) (inputs : List I) (last : I) :
    m.after s (inputs ++ [last]) = m.next (m.after s inputs) last := by
  induction inputs generalizing s with
  | nil => rfl
  | cons first rest ih => exact ih (m.next s first)

/-- The cycles a list of inputs makes. -/
def Machine.cyclesOf (m : Machine S I) (s : S) : List I → List (S × I)
  | [] => []
  | i :: rest => (s, i) :: m.cyclesOf (m.next s i) rest

/-- The environment may drive the inputs one after the other. -/
def Machine.Accepts (m : Machine S I) (cycles : List (S × I)) (s : S) : List I → Prop
  | [] => True
  | i :: rest => m.allowed cycles s i ∧ m.Accepts (cycles ++ [(s, i)]) (m.next s i) rest

instance Machine.decidableAccepts (m : Machine S I)
    [∀ cycles s i, Decidable (m.allowed cycles s i)] (cycles : List (S × I)) (s : S)
    (inputs : List I) : Decidable (m.Accepts cycles s inputs) :=
  match inputs with
  | [] => .isTrue trivial
  | i :: rest =>
      let _ := m.decidableAccepts (cycles ++ [(s, i)]) (m.next s i) rest
      inferInstanceAs (Decidable (_ ∧ _))

/-- Accepted inputs extend a run. -/
theorem Machine.Run.extend {m : Machine S I} {cycles : List (S × I)} {s : S}
    (run : m.Run cycles s) (inputs : List I) (accepts : m.Accepts cycles s inputs) :
    m.Run (cycles ++ m.cyclesOf s inputs) (m.after s inputs) := by
  induction inputs generalizing cycles s with
  | nil => simpa [Machine.cyclesOf, Machine.after] using run
  | cons i rest ih =>
      have step := ih (run.cycle accepts.1) accepts.2
      rwa [List.append_assoc] at step

/-- Inputs accepted from reset make a run. -/
theorem Machine.run_of_accepts {m : Machine S I} (inputs : List I)
    (accepts : m.Accepts [] m.reset inputs) :
    m.Run (m.cyclesOf m.reset inputs) (m.after m.reset inputs) :=
  Machine.Run.reset.extend inputs accepts

/-! ## Segments of an endless run -/

/-- Under the endless inputs `feed`, the machine goes from `s` in cycle `t` to `s'` in
cycle `t'` and emits `events` on the way. -/
inductive Machine.Segment (m : Machine S I) (out : S → I → List E) (feed : Nat → I)
    (t : Nat) (s : S) : List E → Nat → S → Prop
  | here : Segment m out feed t s [] t s
  | cycle {events : List E} {t' : Nat} {s' : S} (before : Segment m out feed t s events t' s') :
      Segment m out feed t s (events ++ out s' (feed t')) (t' + 1) (m.next s' (feed t'))

section Segments

variable {m : Machine S I} {out : S → I → List E} {feed : Nat → I}

/-- One cycle whose registers and events are known. -/
theorem Machine.Segment.one {t : Nat} {s s' : S} {events : List E}
    (emits : out s (feed t) = events) (moves : m.next s (feed t) = s') :
    m.Segment out feed t s events (t + 1) s' := by
  subst emits moves
  have start : m.Segment out feed t s [] t s := .here
  simpa using start.cycle

theorem Machine.Segment.trans {t t₁ t₂ : Nat} {s s₁ s₂ : S} {first second : List E}
    (before : m.Segment out feed t s first t₁ s₁)
    (after : m.Segment out feed t₁ s₁ second t₂ s₂) :
    m.Segment out feed t s (first ++ second) t₂ s₂ := by
  induction after with
  | here => simpa using before
  | cycle _ ih =>
      rw [← List.append_assoc]
      exact ih.cycle

theorem Machine.Segment.le {t t' : Nat} {s s' : S} {events : List E}
    (segment : m.Segment out feed t s events t' s') : t ≤ t' := by
  induction segment with
  | here => exact Nat.le_refl t
  | cycle _ ih => exact Nat.le_succ_of_le ih

/-- The registers `k` cycles on. -/
def Machine.trace (m : Machine S I) (s : S) (feed : Nat → I) : Nat → S
  | 0 => s
  | k + 1 => m.next (m.trace s feed k) (feed k)

/-- What the first `k` cycles emit. -/
def Machine.log (m : Machine S I) (out : S → I → List E) (s : S) (feed : Nat → I) :
    Nat → List E
  | 0 => []
  | k + 1 => m.log out s feed k ++ out (m.trace s feed k) (feed k)

theorem Machine.Segment.trace_log {s s' : S} {events : List E} {t : Nat}
    (segment : m.Segment out feed 0 s events t s') :
    m.trace s feed t = s' ∧ m.log out s feed t = events := by
  induction segment with
  | here => exact ⟨rfl, rfl⟩
  | cycle _ ih =>
      obtain ⟨state, events⟩ := ih
      simp only [Machine.trace, Machine.log, state, events, and_self]

/-- Waiting for the first cycle in which `p` holds, in a state that stays put. -/
theorem Machine.Segment.wait (out : S → I → List E) (stay : S → Prop) (p : I → Prop)
    (keep : ∀ t s, stay s → ¬ p (feed t) →
      stay (m.next s (feed t)) ∧ out s (feed t) = [])
    {t : Nat} {s : S} (now : stay s) (eventually : ∃ k, p (feed (t + k))) :
    ∃ t' s', m.Segment out feed t s [] t' s' ∧ stay s' ∧ p (feed t') := by
  obtain ⟨k, fires⟩ := eventually
  induction k generalizing t s with
  | zero => exact ⟨t, s, .here, now, fires⟩
  | succ k ih =>
      by_cases fired : p (feed t)
      · exact ⟨t, s, .here, now, fired⟩
      · obtain ⟨stays, quiet⟩ := keep t s now fired
        have later : p (feed (t + 1 + k)) := by
          rwa [Nat.add_assoc, Nat.add_comm 1 k]
        obtain ⟨t', s', rest, holds, fires'⟩ := ih stays later
        exact ⟨t', s', (Machine.Segment.one quiet rfl).trans rest, holds, fires'⟩

end Segments

end Clocked
