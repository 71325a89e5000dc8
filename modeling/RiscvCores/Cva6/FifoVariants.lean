import RiscvCores.Cva6.FifoV3
import RiscvCores.Lib.Clocked

/-!
# One bounded queue

The queue `cva6_fifo_v3` from reset, for every depth, with or without falling through
and with each of its memories.  The queue it should be is read off the pushes, the pops
and the flushes alone; the flags and `data_o` are compared with it in every cycle.
-/

set_option autoImplicit false

namespace Cva6

variable {α : Type}

/-- The words that can be popped in a cycle, the oldest one in front. -/
def FifoIn.offered (cfg : FifoCfg) (i : FifoIn α) (xs : List α) : List α :=
  xs ++ if cfg.fallThrough && i.push then [i.data] else []

/-- The words after a cycle, a flush included. -/
def FifoIn.kept (i : FifoIn α) (xs : List α) : List α :=
  if i.flush then [] else if i.pop then (i.shown xs).tail else i.shown xs

namespace Fifo

variable {depth : Nat} [NeZero depth]

/-- The queue under pushes that do not find it full and pops that do not find it empty. -/
def machine (cfg : FifoCfg) (depth : Nat) [NeZero depth] (zero : α) :
    Clocked.Machine (Fifo depth α) (FifoIn α) where
  reset := Fifo.reset zero
  next f i := f.cycle cfg i zero
  allowed _ f i :=
    (i.push = true → f.full = false) ∧ (i.pop = true → f.empty cfg i.push = false)

instance (cfg : FifoCfg) (zero : α) (cycles : List (Fifo depth α × FifoIn α))
    (f : Fifo depth α) (i : FifoIn α) :
    Decidable ((machine cfg depth zero).allowed cycles f i) :=
  inferInstanceAs (Decidable (_ ∧ _))

section Ledger

variable (cfg : FifoCfg) (cycles : List (Fifo depth α × FifoIn α))

/-- The words pushed and neither popped nor flushed. -/
def queued : List α := cycles.foldl (fun xs now => now.2.kept xs) []

/-- The words pushed since the last flush. -/
def pushed : List α :=
  cycles.foldl (fun xs now =>
    if now.2.flush then [] else xs ++ if now.2.push then [now.2.data] else []) []

/-- What `data_o` showed to the pops since the last flush. -/
def popped : List α :=
  cycles.foldl (fun xs now =>
    if now.2.flush then [] else xs ++ if now.2.pop then [now.1.dataO cfg now.2] else []) []

/-- The flags are exact, `data_o` shows the oldest word, and what was popped is what was
pushed up to what is still queued. -/
structure Exact (f : Fifo depth α) : Prop where
  bounded : (queued cycles).length ≤ depth
  full : f.full = true ↔ (queued cycles).length = depth
  empty : ∀ i : FifoIn α, f.empty cfg i.push = true ↔ i.offered cfg (queued cycles) = []
  front : ∀ (i : FifoIn α) x rest, i.offered cfg (queued cycles) = x :: rest → f.dataO cfg i = x
  ledger : pushed cycles = popped cfg cycles ++ queued cycles

end Ledger

/-- A push and a pop meet while the only word lies in the RAM with the registered read,
which then returns what the slot held before. -/
def Misread (cfg : FifoCfg) (f : Fifo depth α) (i : FifoIn α) : Prop :=
  f.Stale cfg i ∧ i.flush = false ∧ f.mem (f.readPointer + 1) ≠ i.data

instance [DecidableEq α] (cfg : FifoCfg) (f : Fifo depth α) (i : FifoIn α) :
    Decidable (f.Misread cfg i) :=
  inferInstanceAs (Decidable ((_ ∧ _) ∧ _ ∧ _))

variable {cfg : FifoCfg} {cycles : List (Fifo depth α × FifoIn α)} {f : Fifo depth α}
  {i : FifoIn α} {xs : List α} {zero : α}

/-! ## The registers hold the queue -/

theorem Holds.empty_exact (holds : f.Holds cfg xs) (i : FifoIn α) :
    f.empty cfg i.push = true ↔ i.offered cfg xs = [] := by
  rw [Fifo.empty, holds.count, FifoIn.offered]
  cases cfg.fallThrough <;> cases i.push <;> cases xs <;> simp

theorem Holds.front_exact (holds : f.Holds cfg xs) (i : FifoIn α) (x : α) (rest : List α)
    (offered : i.offered cfg xs = x :: rest) : f.dataO cfg i = x := by
  cases xs with
  | nil =>
      unfold FifoIn.offered at offered
      cases falls : cfg.fallThrough && i.push with
      | false => simp [falls] at offered
      | true =>
          obtain ⟨rfl, _⟩ : i.data = x ∧ [] = rest := by simpa [falls] using offered
          obtain ⟨fall, push⟩ := Bool.and_eq_true_iff.mp falls
          simp [Fifo.dataO, holds.count, fall, push]
  | cons front more =>
      obtain ⟨rfl, _⟩ : front = x ∧ _ = rest := by simpa [FifoIn.offered] using offered
      simpa [Fifo.dataO, holds.count] using holds.stored

/-- What is popped is offered. -/
theorem Holds.offered_of_pop (holds : f.Holds cfg xs)
    (allowed : (machine cfg depth zero).allowed cycles f i) (pop : i.pop = true) :
    i.offered cfg xs ≠ [] := by
  intro nothing
  have empty := (holds.empty_exact i).mpr nothing
  rw [allowed.2 pop] at empty
  cases empty

/-- The word offered in front is the oldest of those queued and pushed. -/
theorem shown_of_offered {x : α} {rest : List α} (offered : i.offered cfg xs = x :: rest) :
    i.shown xs = x :: (i.shown xs).tail := by
  cases xs with
  | nil =>
      unfold FifoIn.offered at offered
      cases falls : cfg.fallThrough && i.push with
      | false => simp [falls] at offered
      | true =>
          obtain ⟨rfl, _⟩ : i.data = x ∧ [] = rest := by simpa [falls] using offered
          obtain ⟨_, push⟩ := Bool.and_eq_true_iff.mp falls
          simp [FifoIn.shown, push]
  | cons front more =>
      obtain ⟨rfl, _⟩ : front = x ∧ _ = rest := by simpa [FifoIn.offered] using offered
      simp [FifoIn.shown]

/-- A cycle that keeps to the flags leaves what it should in the queue. -/
theorem Holds.cycle_kept (holds : f.Holds cfg xs)
    (allowed : (machine cfg depth zero).allowed cycles f i) (read : ¬f.Misread cfg i) :
    (f.cycle cfg i zero).Holds cfg (i.kept xs) := by
  unfold FifoIn.kept
  cases flush : i.flush with
  | true => simpa using Holds.cycle_flush flush zero
  | false =>
      have inside : i.push = true → xs.length < depth := fun push => holds.room (allowed.1 push)
      have fresh : f.Stale cfg i → f.mem (f.readPointer + 1) = i.data := by
        intro stale
        by_contra old
        exact read ⟨stale, flush, old⟩
      have offered : i.pop = true → i.offered cfg xs ≠ [] := holds.offered_of_pop allowed
      simp only [Bool.false_eq_true, if_false]
      cases fall : cfg.fallThrough with
      | true =>
          have shown : i.pop = true → i.shown xs ≠ [] := by
            simpa [FifoIn.offered, FifoIn.shown, fall] using offered
          exact holds.cycle_shown fall inside shown fresh flush zero
      | false =>
          have nonempty : i.pop = true → xs ≠ [] := by
            simpa [FifoIn.offered, fall] using offered
          rw [FifoIn.shown_tail nonempty]
          exact holds.cycle_plain ⟨inside, nonempty⟩ fresh flush zero

omit [NeZero depth] in
theorem queued_append (now : Fifo depth α × FifoIn α) :
    queued (cycles ++ [now]) = now.2.kept (queued cycles) := by
  simp [queued]

/-- The words popped and the words queued are the words pushed. -/
theorem Holds.ledger_cycle (holds : f.Holds cfg (queued cycles))
    (allowed : (machine cfg depth zero).allowed cycles f i)
    (ledger : pushed cycles = popped cfg cycles ++ queued cycles) :
    pushed (cycles ++ [(f, i)]) = popped cfg (cycles ++ [(f, i)]) ++
      queued (cycles ++ [(f, i)]) := by
  rw [queued_append]
  simp only [pushed, popped, List.foldl_append, List.foldl_cons, List.foldl_nil, FifoIn.kept]
  change (if i.flush then [] else pushed cycles ++ _) =
    (if i.flush then [] else popped cfg cycles ++ _) ++ _
  cases flush : i.flush with
  | true => rfl
  | false =>
      simp only [Bool.false_eq_true, if_false]
      rw [ledger]
      cases pop : i.pop with
      | false => simp [FifoIn.shown]
      | true =>
          obtain ⟨x, rest, front⟩ :=
            List.exists_cons_of_ne_nil (holds.offered_of_pop allowed pop)
          have shows := holds.front_exact i x rest front
          have head := shown_of_offered front
          simp only [if_true, shows]
          rw [List.append_assoc, List.append_assoc, List.singleton_append, ← head, FifoIn.shown]

/-- In a run that misreads nothing the registers hold the queue. -/
theorem holds_of_run (run : (machine cfg depth zero).Run cycles f)
    (read : ∀ now ∈ cycles, ¬now.1.Misread cfg now.2) :
    f.Holds cfg (queued cycles) ∧ pushed cycles = popped cfg cycles ++ queued cycles := by
  induction run with
  | reset => exact ⟨Fifo.reset_holds zero, rfl⟩
  | @cycle cycles s i run allowed ih =>
      obtain ⟨holds, ledger⟩ := ih fun now member => read now (List.mem_append_left _ member)
      refine ⟨?_, holds.ledger_cycle allowed ledger⟩
      rw [queued_append]
      exact holds.cycle_kept allowed (read (s, i) (by simp))

theorem Holds.exact (holds : f.Holds cfg (queued cycles))
    (ledger : pushed cycles = popped cfg cycles ++ queued cycles) : Exact cfg cycles f where
  bounded := holds.array.1
  full := holds.full_iff
  empty := holds.empty_exact
  front := holds.front_exact
  ledger := ledger

/-! ## The misread word -/

/-- After a misread the only word is not the one on `data_o`. -/
theorem Holds.not_exact_of_misread (holds : f.Holds cfg (queued cycles))
    (misread : f.Misread cfg i) : ¬Exact cfg (cycles ++ [(f, i)]) (f.cycle cfg i zero) := by
  obtain ⟨⟨altera, one, noFirst, push, pop⟩, flush, old⟩ := misread
  intro exact
  have single : (queued cycles).length = 1 := by rw [← holds.count, one]
  obtain ⟨x, words⟩ := List.length_eq_one_iff.mp single
  have left : queued (cycles ++ [(f, i)]) = [i.data] := by
    simp [queued_append, FifoIn.kept, FifoIn.shown, flush, pop, push, words]
  have idle : ({ i with push := false } : FifoIn α).offered cfg (queued (cycles ++ [(f, i)])) =
      [i.data] := by
    simp [FifoIn.offered, left]
  have passes : f.passes cfg i = false := by simp [Fifo.passes, one]
  have pops : f.pops cfg i = true := by simp [Fifo.pops, Fifo.empty, pop, one]
  have shows := exact.front _ i.data [] idle
  apply old
  simpa [Fifo.dataO, Fifo.stored, Fifo.cycle, Fifo.firstWordN, Fifo.readPointerN, altera, noFirst,
    passes, pops, flush] using shows

/-- The queue is exact all along a run if and only if the run misreads nothing. -/
theorem exact_iff_no_misread (run : (machine cfg depth zero).Run cycles f) :
    (∀ before s, before <+: cycles → (machine cfg depth zero).Run before s →
      Exact cfg before s) ↔ ∀ now ∈ cycles, ¬now.1.Misread cfg now.2 := by
  constructor
  · intro exact
    induction run with
    | reset => intro now member; cases member
    | @cycle cycles s i run allowed ih =>
        have clean := ih fun before s' earlier =>
          exact before s' (earlier.trans (List.prefix_append _ _))
        intro now member
        rcases List.mem_append.mp member with early | last
        · exact clean now early
        · obtain rfl := List.mem_singleton.mp last
          intro misread
          exact (holds_of_run run clean).1.not_exact_of_misread misread
            (exact _ _ (List.prefix_refl _) (run.cycle allowed))
  · rintro read before s earlier reached
    obtain ⟨holds, ledger⟩ := holds_of_run reached fun now member =>
      read now (earlier.subset member)
    exact holds.exact ledger

/-- A cycle that pushes, pops or does both. -/
private def pushAndPop (push : Option Nat) (pop : Bool) : FifoIn Nat where
  flush := false
  push := push.isSome
  data := push.getD 0
  pop := pop

theorem exact_iff_no_misread_inOrder :
    (machine ⟨false, true, true⟩ 2 0).Accepts [] (Fifo.reset 0)
        [pushAndPop (some 1) false, pushAndPop (some 2) false, pushAndPop none true] ∧
      ∀ before s,
        before <+: (machine ⟨false, true, true⟩ 2 0).cyclesOf (Fifo.reset 0)
          [pushAndPop (some 1) false, pushAndPop (some 2) false, pushAndPop none true] →
        (machine ⟨false, true, true⟩ 2 0).Run before s → Exact ⟨false, true, true⟩ before s :=
  ⟨by decide, (exact_iff_no_misread (Clocked.Machine.run_of_accepts _ (by decide))).mpr (by decide)⟩

/-- The third word is pushed while the second leaves; then the first shows up again. -/
theorem third_word_misread :
    (machine ⟨false, true, true⟩ 2 0).Accepts [] (Fifo.reset 0)
        [pushAndPop (some 1) false, pushAndPop (some 2) false, pushAndPop none true,
          pushAndPop (some 3) true] ∧
      ¬Exact ⟨false, true, true⟩
        ((machine ⟨false, true, true⟩ 2 0).cyclesOf (Fifo.reset 0)
          [pushAndPop (some 1) false, pushAndPop (some 2) false, pushAndPop none true,
            pushAndPop (some 3) true])
        ((machine ⟨false, true, true⟩ 2 0).after (Fifo.reset 0)
          [pushAndPop (some 1) false, pushAndPop (some 2) false, pushAndPop none true,
            pushAndPop (some 3) true]) := by
  refine ⟨by decide, fun exact => ?_⟩
  have shows := exact.front (pushAndPop none true) 3 [] (by decide)
  revert shows
  decide

end Fifo

end Cva6
