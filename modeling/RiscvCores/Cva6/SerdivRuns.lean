import RiscvCores.Cva6.Serdiv

/-!
# Runs of the serial divider

Requests, answers and flushes over a run of `serdiv`.  The ledger restarts at a flush; what
was taken since is answered in order, once each, and the last one may be under way.
-/

set_option autoImplicit false

namespace Cva6.Serdiv

variable {W : Nat} {ι : Type} {s : Regs W ι} {r : Request W ι} {i : Input W ι} {stable : Bool}

/-- `out_vld_o`, which depends on the registers alone. -/
def Regs.outVld (s : Regs W ι) : Bool := s.state == .finish || s.state == .divide && s.known

theorem fsm_outVld : (fsm stable s i).outVld = s.outVld := by
  unfold fsm serve Regs.outVld
  cases s.state with
  | idle => cases i.flush <;> cases i.inVld <;> rfl
  | divide => cases i.flush <;> cases s.known <;> rfl
  | finish => cases i.flush <;> rfl

theorem fsm_inRdy : (fsm stable s i).inRdy = (s.state == .idle && (!i.inVld || stable)) := by
  unfold fsm serve
  cases s.state with
  | idle => cases i.flush <;> cases i.inVld <;> rfl
  | divide => cases i.flush <;> cases s.known <;> rfl
  | finish => cases i.flush <;> rfl

/-- The registers serve a request: its result waits, or the division goes on. -/
structure Serving (s : Regs W ι) (r : Request W ι) : Prop where
  holds : s.Holds r
  answer : s.outVld = true → s.resO = r.result
  work : s.outVld = false → s.state = .divide ∧ s.known = false ∧ s.Dividing r

/-- The cycles until the result is there. -/
def Regs.wait (s : Regs W ι) : Nat := if s.outVld then 0 else s.cnt.toNat + 1

theorem Serving.busy (serving : Serving s r) : s.state ≠ .idle := by
  intro idle
  have working := (serving.work (by simp [Regs.outVld, idle])).1
  rw [idle] at working
  cases working

theorem outVld_iff :
    s.outVld = true ↔ s.state = .finish ∨ s.state = .divide ∧ s.known = true := by
  simp [Regs.outVld]

variable (stable) in
/-- A request that is taken is served, and its result is at most `WIDTH` cycles away. -/
theorem serving_of_accepts (wide : 2 ≤ W) (takes : accepts s i = true) :
    Serving (next stable s i) i.request ∧ (next stable s i).wait ≤ W := by
  obtain ⟨load, state⟩ := next_of_accepts stable takes
  have waiting : (next stable s i).outVld = (next stable s i).known := by
    simp [Regs.outVld, state]
  refine ⟨⟨load.toHolds, ?_, ?_⟩, ?_⟩
  · intro valid
    exact load.resO_of_known wide (waiting ▸ valid)
  · intro open'
    rw [waiting] at open'
    exact ⟨state, open', load.dividing wide open'⟩
  · unfold Regs.wait
    split
    · exact Nat.zero_le _
    · next notYet =>
        rw [waiting, Bool.not_eq_true] at notYet
        exact (load.dividing wide notYet).cnt_lt

variable (stable) in
/-- The request is served until it is answered. -/
theorem Serving.next (wide : 2 ≤ W) (serving : Serving s r) (noFlush : i.flush = false)
    (kept : (s.outVld && i.outRdy) = false) :
    Serving (next stable s i) r ∧ (Serdiv.next stable s i).wait ≤ s.wait - 1 := by
  have holds := serving.holds.next stable serving.busy noFlush
  obtain ⟨id, remSel, compInv, resInv, opBZero, opBNegOne, divResZero⟩ :=
    next_of_busy stable serving.busy noFlush
  cases valid : s.outVld with
  | true =>
      have notReady : i.outRdy = false := by simpa [valid] using kept
      obtain ⟨state, opA, res⟩ := next_of_waiting stable (outVld_iff.mp valid) noFlush
      rw [notReady, if_neg (by simp)] at state
      have there : (Serdiv.next stable s i).outVld = true := outVld_iff.mpr (Or.inl state)
      refine ⟨⟨holds, fun _ => ?_, fun notYet => ?_⟩, by simp [Regs.wait, there]⟩
      · rw [Regs.resO, Regs.outMux, resInv, remSel, opBNegOne, opBZero, opA, res]
        exact serving.answer valid
      · rw [there] at notYet
        cases notYet
  | false =>
      obtain ⟨state, known, part⟩ := serving.work valid
      have advance := next_of_dividing stable state known noFlush
      have finer := part.step stable wide serving.holds state known noFlush
      by_cases last : s.cnt = 0
      · have finish := advance.1
        rw [if_pos last] at finish
        have there : (Serdiv.next stable s i).outVld = true := outVld_iff.mpr (Or.inl finish)
        refine ⟨⟨holds, fun _ => ?_, fun notYet => ?_⟩, by simp [Regs.wait, there]⟩
        · rw [last] at finer
          obtain ⟨quotient, remainder⟩ := finer.done
          exact Regs.resO_of_divided wide holds part.notZero part.notOne quotient remainder
        · rw [there] at notYet
          cases notYet
      · obtain ⟨more, fewer⟩ := part.next stable wide serving.holds state known
          noFlush last
        have going := advance.1
        rw [if_neg last] at going
        have still : (Serdiv.next stable s i).known = false := by
          rw [Regs.known, divResZero, opBZero, opBNegOne]
          exact known
        have notYet : (Serdiv.next stable s i).outVld = false := by
          simp [Regs.outVld, going, still]
        refine ⟨⟨holds, fun there => ?_, fun _ => ⟨going, still, more⟩⟩, ?_⟩
        · rw [notYet] at there
          cases there
        · simp only [Regs.wait, notYet, valid, Bool.false_eq_true, if_false]
          omega

/-- An answered request leaves the divider idle. -/
theorem next_of_answer (valid : s.outVld = true) (ready : i.outRdy = true) :
    (next stable s i).state = .idle := by
  cases flush : i.flush with
  | true => exact next_of_flush flush
  | false =>
      have state := (next_of_waiting stable (outVld_iff.mp valid) flush).1
      rwa [ready, if_pos rfl] at state

theorem next_of_nothing (idle : s.state = .idle) (nothing : accepts s i = false) :
    (next stable s i).state = .idle := by
  have control : (fsm stable s i).state = .idle := by
    unfold fsm serve
    rw [idle]
    unfold accepts at nothing
    cases flush : i.flush with
    | true => rfl
    | false =>
        have silent : i.inVld = false := by simpa [idle, flush] using nothing
        simp [silent]
  exact control

/-! ## The ledger -/

section Ledger

variable (cycles : List (Regs W ι × Input W ι))

/-- A result is handed over. -/
def answers (now : Regs W ι × Input W ι) : Bool := now.1.outVld && now.2.outRdy

/-- The request taken and neither answered nor flushed. -/
def underWay : Option (Request W ι) :=
  cycles.foldl (fun open' now =>
    if now.2.flush then none
    else if accepts now.1 now.2 then some now.2.request
    else if answers now then none
    else open') none

/-- The requests taken since the last flush. -/
def accepted : List (Request W ι) :=
  cycles.foldl (fun taken now =>
    if now.2.flush then []
    else taken ++ if accepts now.1 now.2 then [now.2.request] else []) []

/-- `id_o` and `res_o` as they were handed over since the last flush. -/
def answered : List (ι × BitVec W) :=
  cycles.foldl (fun given now =>
    if now.2.flush then []
    else given ++ if answers now then [(now.1.id, now.1.resO)] else []) []

end Ledger

/-- The answer a request has to get. -/
def Request.outcome (r : Request W ι) : ι × BitVec W := (r.id, r.result)

/-- What holds in every reachable state: the registers serve the request under way, and
every one before it was answered. -/
structure Inv (cycles : List (Regs W ι × Input W ι)) (s : Regs W ι) : Prop where
  idle : s.state = .idle ↔ underWay cycles = none
  serving : ∀ r, underWay cycles = some r → Serving s r
  ledger : (accepted cycles).map Request.outcome =
    answered cycles ++ (underWay cycles).toList.map Request.outcome

theorem Inv.next {cycles : List (Regs W ι × Input W ι)} (wide : 2 ≤ W) (inv : Inv cycles s)
    (i : Input W ι) : Inv (cycles ++ [(s, i)]) (next stable s i) := by
  have open' : underWay (cycles ++ [(s, i)]) = if i.flush then none
      else if accepts s i then some i.request
      else if answers (s, i) then none else underWay cycles := by
    simp [underWay]
  have taken : accepted (cycles ++ [(s, i)]) = if i.flush then []
      else accepted cycles ++ if accepts s i then [i.request] else [] := by
    simp [accepted]
  have given : answered (cycles ++ [(s, i)]) = if i.flush then []
      else answered cycles ++ if answers (s, i) then [(s.id, s.resO)] else [] := by
    simp [answered]
  cases flush : i.flush with
  | true =>
      rw [flush, if_pos rfl] at open' taken given
      refine ⟨by simp [next_of_flush flush, open'], by simp [open'], ?_⟩
      rw [taken, given, open']
      rfl
  | false =>
      rw [flush, if_neg (by simp)] at open' taken given
      cases takes : accepts s i with
      | true =>
          have idle : s.state = .idle := by
            simp only [accepts, Bool.and_eq_true, beq_iff_eq] at takes
            exact takes.1.1
          have nothing := inv.idle.mp idle
          have silent : answers (s, i) = false := by simp [answers, Regs.outVld, idle]
          obtain ⟨serving, -⟩ := serving_of_accepts stable wide takes
          rw [takes, if_pos rfl] at open' taken
          rw [silent, if_neg (by simp), List.append_nil] at given
          refine ⟨?_, ?_, ?_⟩
          · rw [open']
            exact iff_of_false serving.busy (by simp)
          · intro r same
            rw [open'] at same
            cases same
            exact serving
          · have ledger := inv.ledger
            rw [nothing] at ledger
            rw [taken, given, open', List.map_append, ledger]
            simp
      | false =>
          rw [takes, if_neg (by simp)] at open'
          rw [takes, if_neg (by simp), List.append_nil] at taken
          cases request : underWay cycles with
          | none =>
              have idle := inv.idle.mpr request
              have silent : answers (s, i) = false := by simp [answers, Regs.outVld, idle]
              rw [silent, if_neg (by simp), request] at open'
              rw [silent, if_neg (by simp), List.append_nil] at given
              refine ⟨by simp [open', next_of_nothing idle takes], by simp [open'], ?_⟩
              rw [taken, given, open', inv.ledger, request]
          | some r =>
              have serving := inv.serving r request
              cases answer : answers (s, i) with
              | true =>
                  obtain ⟨valid, ready⟩ := Bool.and_eq_true_iff.mp answer
                  rw [answer, if_pos rfl] at open' given
                  refine ⟨by simp [open', next_of_answer valid ready], by simp [open'], ?_⟩
                  rw [taken, given, open', inv.ledger, request, serving.holds.id,
                    serving.answer valid]
                  simp [Request.outcome]
              | false =>
                  rw [answer, if_neg (by simp), request] at open'
                  rw [answer, if_neg (by simp), List.append_nil] at given
                  obtain ⟨still, -⟩ := serving.next stable wide flush answer
                  refine ⟨?_, ?_, ?_⟩
                  · rw [open']
                    exact iff_of_false still.busy (by simp)
                  · intro r' same
                    rw [open'] at same
                    cases same
                    exact still
                  · rw [taken, given, open', inv.ledger, request]

theorem inv_of_run {zeroId : ι} {cycles : List (Regs W ι × Input W ι)} (wide : 2 ≤ W)
    (run : (machine W stable zeroId).Run cycles s) : Inv cycles s := by
  apply run.invariant Inv
  · refine ⟨iff_of_true rfl rfl, fun r none => ?_, rfl⟩
    cases none
  · intro cycles s i _ inv _
    exact inv.next wide i

/-- After so many cycles without flush or answer the result is there. -/
theorem Serving.lasts {zeroId : ι} {before during : List (Regs W ι × Input W ι)}
    {first : Regs W ι × Input W ι} (wide : 2 ≤ W)
    (run : (machine W stable zeroId).Run (before ++ first :: during) s)
    (takes : accepts first.1 first.2 = true)
    (quiet : ∀ now ∈ during, now.2.flush = false ∧ answers now = false) :
    Serving s first.2.request ∧ s.wait ≤ W - during.length := by
  induction during using List.reverseRecOn generalizing s with
  | nil =>
      rw [run.of_append_singleton.2.2]
      exact serving_of_accepts _ wide takes
  | append_singleton rest last ih =>
      have cycles : before ++ first :: (rest ++ [last]) = (before ++ first :: rest) ++ [last] := by
        simp
      rw [cycles] at run
      obtain ⟨earlier, -, rfl⟩ := run.of_append_singleton
      obtain ⟨noFlush, kept⟩ := quiet last (by simp)
      obtain ⟨serving, wait⟩ := ih earlier fun now member =>
        quiet now (List.mem_append_left _ member)
      obtain ⟨still, less⟩ := serving.next stable wide noFlush kept
      refine ⟨still, Nat.le_trans less ?_⟩
      rw [List.length_append, List.length_singleton]
      omega

/-- What the divider did with the requests up to a state, and what it does there. -/
structure Serves (stable : Bool) (cycles : List (Regs W ι × Input W ι)) (s : Regs W ι) :
    Prop where
  /-- Since the last flush every request was answered once, in order, with its id and its
  result; the last one may be under way. -/
  ledger : (accepted cycles).map Request.outcome =
    answered cycles ++ (underWay cycles).toList.map Request.outcome
  idle : s.state = .idle ↔ underWay cycles = none
  /-- `out_vld_o` shows the result of the request under way. -/
  output : s.outVld = true → ∃ r, underWay cycles = some r ∧ (s.id, s.resO) = r.outcome
  /-- A result stays until it is taken. -/
  stays : s.outVld = true → ∀ i : Input W ι, i.flush = false → i.outRdy = false →
    (next stable s i).outVld = true
  /-- The result is there `WIDTH` cycles after the one that took the request. -/
  prompt : ∀ before first during, cycles = before ++ first :: during →
    accepts first.1 first.2 = true →
    (∀ now ∈ during, now.2.flush = false ∧ answers now = false) →
    W ≤ during.length → s.outVld = true
  /-- The divider is ready only when it serves nothing. -/
  ready : ∀ i : Input W ι, (fsm stable s i).inRdy = true → underWay cycles = none
  /-- With the stable handshake, valid and ready together are what takes a request. -/
  handshake : stable = true → ∀ i : Input W ι,
    accepts s i = ((fsm stable s i).inRdy && i.inVld && !i.flush)
  /-- Without it, a request in the cycle after the divider was ready is taken. -/
  delayed : stable = false → ∀ before now, cycles = before ++ [now] →
    (fsm stable now.1 now.2).inRdy = true →
    ∀ i : Input W ι, i.inVld = true → i.flush = false → accepts s i = true
  /-- A flush leaves nothing under way. -/
  flushed : ∀ i : Input W ι, i.flush = true →
    (next stable s i).state = .idle ∧ underWay (cycles ++ [(s, i)]) = none

theorem Regs.outVld_of_wait (wait : s.wait = 0) : s.outVld = true := by
  unfold Regs.wait at wait
  cases valid : s.outVld with
  | true => rfl
  | false => simp [valid] at wait

theorem serves_requests {zeroId : ι} {cycles : List (Regs W ι × Input W ι)} (wide : 2 ≤ W)
    (run : (machine W stable zeroId).Run cycles s) : Serves stable cycles s := by
  have inv := inv_of_run wide run
  exact
    { ledger := inv.ledger
      idle := inv.idle
      output := by
        intro valid
        cases request : underWay cycles with
        | none =>
            have idle := inv.idle.mpr request
            simp [Regs.outVld, idle] at valid
        | some r =>
            have serving := inv.serving r request
            refine ⟨r, rfl, ?_⟩
            rw [serving.holds.id, serving.answer valid]
            rfl
      stays := by
        intro valid i noFlush notReady
        have state := (next_of_waiting stable (outVld_iff.mp valid) noFlush).1
        rw [notReady, if_neg (by simp)] at state
        exact outVld_iff.mpr (Or.inl state)
      prompt := by
        rintro before first during rfl takes quiet long
        have wait := (Serving.lasts wide run takes quiet).2
        exact Regs.outVld_of_wait (by omega)
      ready := by
        intro i ready
        rw [fsm_inRdy, Bool.and_eq_true, beq_iff_eq] at ready
        exact inv.idle.mp ready.1
      handshake := by
        rintro rfl i
        rw [fsm_inRdy, accepts]
        simp
      delayed := by
        rintro rfl before now rfl ready i valid noFlush
        obtain ⟨-, -, rfl⟩ := run.of_append_singleton
        simp only [fsm_inRdy, Bool.or_false, Bool.and_eq_true, beq_iff_eq,
          Bool.not_eq_true'] at ready
        have nothing : accepts now.1 now.2 = false := by simp [accepts, ready.2]
        have idle : ((machine W false zeroId).next now.1 now.2).state = .idle :=
          next_of_nothing ready.1 nothing
        simp [accepts, idle, valid, noFlush]
      flushed := fun i flush => ⟨next_of_flush flush, by simp [underWay, flush]⟩ }

instance (W : Nat) (stable : Bool) (zeroId : ι) (cycles : List (Regs W ι × Input W ι))
    (s : Regs W ι) (i : Input W ι) : Decidable ((machine W stable zeroId).allowed cycles s i) :=
  instDecidableTrue

/-- A request with id 5, and cycles without one. -/
private def divideOnce (opcode : BitVec 2) (a b : BitVec 8) (rest : Nat) : List (Input 8 Nat) :=
  ⟨⟨5, a, b, opcode⟩, true, false, true⟩ ::
    List.replicate rest ⟨⟨0, 0, 0, 0⟩, false, false, true⟩

theorem serves_requests_once :
    let m : Clocked.Machine (Regs 8 Nat) (Input 8 Nat) := machine 8 false 0
    Serves false (m.cyclesOf m.reset (divideOnce 1 (-100) 7 8))
        (m.after m.reset (divideOnce 1 (-100) 7 8)) ∧
      answered (m.cyclesOf m.reset (divideOnce 1 (-100) 7 8)) = [(5, -14)] := by
  intro m
  exact ⟨serves_requests (by decide) (Clocked.Machine.run_of_accepts _ (by decide)),
    by decide +kernel⟩

/-- A flush in the cycle that shows the result does not hold it back. -/
theorem flush_hands_over :
    ¬ ∀ (cycles : List (Regs 64 Nat × Input 64 Nat)) (s : Regs 64 Nat) (i : Input 64 Nat),
      (machine 64 false 0).Run cycles s → i.flush = true → answers (s, i) = false := by
  intro silent
  have run := Clocked.Machine.run_of_accepts (m := machine 64 false (0 : Nat))
    [⟨⟨5, 1, 0, 0⟩, true, false, true⟩] (by decide)
  have shown := silent _ _ ⟨⟨0, 0, 0, 0⟩, false, true, true⟩ run rfl
  revert shown
  decide +kernel

end Cva6.Serdiv
