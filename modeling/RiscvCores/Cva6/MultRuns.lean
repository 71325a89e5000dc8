import RiscvCores.Cva6.Mult

/-!
# Runs of the multiplication unit

A multiplication is answered in the cycle after it was put to the unit, a division when the
divider is through and no multiplication wants the port.  A division may be put to the unit
only in the cycle after the unit said that it is ready; multiplications come at any time.
-/

set_option autoImplicit false

namespace Cva6.Mult

variable {cfg : MultCfg} {ι : Type} {s : State cfg ι} {i : Input cfg ι}
  {cycles : List (State cfg ι × Input cfg ι)}

/-- What the issue stage keeps to. -/
def Issued (cycles : List (State cfg ι × Input cfg ι)) (i : Input cfg ι) : Prop :=
  i.multValid = true → offers cfg i.data.operation ∧
    (i.data.operation ∈ divOps → ∀ now ∈ cycles.getLast?, multReadyO now.1 now.2 = true)

instance (cycles : List (State cfg ι × Input cfg ι)) (i : Input cfg ι) :
    Decidable (Issued cycles i) :=
  inferInstanceAs (Decidable (_ → _ ∧ _))

def machine (cfg : MultCfg) (zeroId : ι) : Clocked.Machine (State cfg ι) (Input cfg ι) where
  reset := reset zeroId
  next := next
  allowed cycles _ i := Issued cycles i

/-! ## The ledger -/

section Ledger

variable (cycles : List (State cfg ι × Input cfg ι))

/-- The answer an instruction has to get. -/
noncomputable def outcome (data : FuData cfg ι) : ι × BitVec cfg.xlen :=
  (data.transId, meaning data.operation data.operandA data.operandB)

/-- The instructions put to the unit since the last flush. -/
def accepted : List (FuData cfg ι) :=
  cycles.foldl (fun taken now =>
    if now.2.flush then [] else taken ++ if now.2.multValid then [now.2.data] else []) []

/-- What `mult_trans_id_o` and `result_o` showed under `mult_valid_o` since the last flush. -/
def answered : List (ι × BitVec cfg.xlen) :=
  cycles.foldl (fun given now =>
    if now.2.flush then []
    else given ++
      if multValidO now.1 now.2 then [(multTransIdO now.1, resultO now.1)] else []) []

/-- The multiplication in the pipeline register. -/
def inPipe : Option (FuData cfg ι) :=
  cycles.foldl (fun _ now => if mulValidOp now.2 then some now.2.data else none) none

/-- The division under way. -/
def dividing : Option (FuData cfg ι) :=
  cycles.foldl (fun open' now =>
    if now.2.flush then none
    else if divValidOp now.2 then some now.2.data
    else if now.1.div.outVld && !now.1.multiplier.multValid then none
    else open') none

/-- What is under way. -/
def pending : List (FuData cfg ι) := (inPipe cycles).toList ++ (dividing cycles).toList

/-- The divider in the cycles of the unit. -/
def dividerCycles : List (Serdiv.Regs cfg.xlen ι × Serdiv.Input cfg.xlen ι) :=
  cycles.map fun now => (now.1.div, divIn now.1 now.2)

end Ledger

theorem run_divider {zeroId : ι} (run : (machine cfg zeroId).Run cycles s) :
    (Serdiv.machine cfg.xlen false zeroId).Run (dividerCycles cycles) s.div := by
  induction run with
  | reset => exact .reset
  | @cycle cycles s i _ _ ih =>
      have last : dividerCycles (cycles ++ [(s, i)]) =
          dividerCycles cycles ++ [(s.div, divIn s i)] := by simp [dividerCycles]
      rw [last]
      exact ih.cycle trivial

theorem divCtrl_outVld : (divCtrl s i).outVld = s.div.outVld := Serdiv.fsm_outVld

/-- After a cycle in which the unit is ready the divider is idle. -/
theorem idle_of_ready (ready : multReadyO s i = true) : (next s i).div.state = .idle := by
  rw [multReadyO, divCtrl, Serdiv.fsm_inRdy, Bool.or_false, Bool.and_eq_true, beq_iff_eq,
    Bool.not_eq_true'] at ready
  have nothing : Serdiv.accepts s.div (divIn s i) = false := by
    simp [Serdiv.accepts, ready.2]
  exact Serdiv.next_of_nothing ready.1 nothing

/-- A division is put to the unit only while the divider is idle. -/
theorem idle_of_issued {zeroId : ι} (run : (machine cfg zeroId).Run cycles s)
    (issued : Issued cycles i) (valid : i.multValid = true)
    (divides : i.data.operation ∈ divOps) : s.div.state = .idle := by
  cases run with
  | reset => rfl
  | @cycle before s i' _ _ => exact idle_of_ready ((issued valid).2 divides (s, i') (by simp))

theorem kind_of_offers {op : FuOp} (offered : offers cfg op) : op ∈ mulOps ∨ op ∈ divOps := by
  simp only [offers, divWordOps, List.mem_cons, List.not_mem_nil, or_false] at offered
  simp only [mulOps, divOps, List.mem_cons, List.not_mem_nil, or_false]
  grind

theorem not_div_of_mul {op : FuOp} (multiplies : op ∈ mulOps) : op ∉ divOps := by
  simp only [mulOps, List.mem_cons, List.not_mem_nil, or_false] at multiplies
  rcases multiplies with rfl | rfl | rfl | rfl | rfl | rfl | rfl | rfl <;> simp [divOps]

/-- What holds in every reachable state. -/
structure Inv (cycles : List (State cfg ι × Input cfg ι)) (s : State cfg ι) : Prop where
  pipe : s.multiplier.multValid = (inPipe cycles).isSome
  product : ∀ data, inPipe cycles = some data →
    (s.multiplier.transId, s.multiplier.resultO) = outcome data
  underWay : Serdiv.underWay (dividerCycles cycles) =
    (dividing cycles).map fun data => request ⟨false, true, data⟩
  division : ∀ data, dividing cycles = some data →
    data.operation ∈ divOps ∧ offers cfg data.operation ∧
      s.wordOp = isWordOp ⟨false, true, data⟩
  ledger : (answered cycles ++ (pending cycles).map outcome).Perm
    ((accepted cycles).map outcome)

theorem two_le (cfg : MultCfg) : 2 ≤ cfg.xlen := le_trans (by omega) cfg.wide

/-- The divider shows the value of the division under way. -/
theorem Inv.quotient {zeroId : ι} (inv : Inv cycles s) (run : (machine cfg zeroId).Run cycles s)
    (shown : s.div.outVld = true) :
    ∃ data, dividing cycles = some data ∧ (s.div.id, divResult s) = outcome data := by
  have serves := Serdiv.serves_requests (two_le cfg) (run_divider run)
  obtain ⟨r, open', answer⟩ := serves.output shown
  rw [inv.underWay, Option.map_eq_some_iff] at open'
  obtain ⟨data, division, rfl⟩ := open'
  obtain ⟨divides, offered, word⟩ := inv.division data division
  have value := result_request (ι := ι) ⟨false, true, data⟩ rfl offered divides
  obtain ⟨id, result⟩ := Prod.mk.inj answer
  refine ⟨data, division, ?_⟩
  rw [outcome, ← value, divResult, word, id, result]
  rfl

section Step

variable (cycles s i)

theorem accepted_concat : accepted (cycles ++ [(s, i)]) =
    if i.flush then [] else accepted cycles ++ if i.multValid then [i.data] else [] := by
  simp [accepted]

theorem answered_concat : answered (cycles ++ [(s, i)]) =
    if i.flush then []
    else answered cycles ++ if multValidO s i then [(multTransIdO s, resultO s)] else [] := by
  simp [answered]

theorem inPipe_concat : inPipe (cycles ++ [(s, i)]) =
    if mulValidOp i then some i.data else none := by
  simp [inPipe]

theorem dividing_concat : dividing (cycles ++ [(s, i)]) =
    if i.flush then none
    else if divValidOp i then some i.data
    else if s.div.outVld && !s.multiplier.multValid then none
    else dividing cycles := by
  simp [dividing]

theorem underWay_concat : Serdiv.underWay (dividerCycles (cycles ++ [(s, i)])) =
    if i.flush then none
    else if Serdiv.accepts s.div (divIn s i) then some (request i)
    else if s.div.outVld && !s.multiplier.multValid then none
    else Serdiv.underWay (dividerCycles cycles) := by
  simp [Serdiv.underWay, dividerCycles, Serdiv.answers, divIn]

end Step

/-- What `mult_valid_o` shows: the multiplication in the pipeline register, or the division if
its result is there. -/
theorem Inv.shows {zeroId : ι} (inv : Inv cycles s) (run : (machine cfg zeroId).Run cycles s)
    (i : Input cfg ι) :
    (if multValidO s i then [(multTransIdO s, resultO s)] else []) =
      (match inPipe cycles with
        | some data => [data]
        | none => if s.div.outVld then (dividing cycles).toList else []).map outcome := by
  have pipe := inv.pipe
  rw [multValidO, divCtrl_outVld, multTransIdO, resultO]
  cases product : inPipe cycles with
  | some data =>
      rw [product, Option.isSome_some] at pipe
      simp [pipe, inv.product data product]
  | none =>
      rw [product, Option.isSome_none] at pipe
      cases shown : s.div.outVld with
      | false => simp [pipe]
      | true =>
          obtain ⟨data, division, answer⟩ := inv.quotient run shown
          simp [pipe, division, answer]

theorem Inv.idle {zeroId : ι} (inv : Inv cycles s) (run : (machine cfg zeroId).Run cycles s)
    (issued : Issued cycles i) (valid : i.multValid = true)
    (divides : i.data.operation ∈ divOps) :
    dividing cycles = none ∧ s.div.outVld = false ∧ s.div.state = .idle := by
  have idle := idle_of_issued run issued valid divides
  have serves := Serdiv.serves_requests (two_le cfg) (run_divider run)
  have nothing := serves.idle.mp idle
  rw [inv.underWay, Option.map_eq_none_iff] at nothing
  exact ⟨nothing, by simp [Serdiv.Regs.outVld, idle], idle⟩

/-- What leaves the unit and what stays in it is what was in it and what came. -/
theorem Inv.handover {zeroId : ι} (inv : Inv cycles s) (run : (machine cfg zeroId).Run cycles s)
    (issued : Issued cycles i) (noFlush : i.flush = false) :
    ((if multValidO s i then [(multTransIdO s, resultO s)] else []) ++
        (pending (cycles ++ [(s, i)])).map outcome).Perm
      ((pending cycles).map outcome ++ (if i.multValid then [i.data] else []).map outcome) := by
  have pipe := inv.pipe
  rw [inv.shows run i, ← List.map_append, ← List.map_append]
  apply List.Perm.map
  simp only [pending, inPipe_concat, dividing_concat, noFlush, Bool.false_eq_true, if_false,
    mulValidOp, divValidOp, Bool.not_false, Bool.true_and, pipe]
  cases valid : i.multValid with
  | false =>
      cases inPipe cycles <;> cases s.div.outVld <;> simp
  | true =>
      rcases kind_of_offers (issued valid).1 with multiplies | divides
      · have notDiv := not_div_of_mul multiplies
        cases inPipe cycles <;> cases s.div.outVld <;> simp [multiplies, notDiv]
        all_goals exact (List.perm_append_singleton _ _).symm
      · obtain ⟨nothing, silent, -⟩ := inv.idle run issued valid divides
        have notMul : i.data.operation ∉ mulOps := fun other => not_div_of_mul other divides
        cases inPipe cycles <;> simp [divides, notMul, nothing, silent]

theorem divValidOp_parts (takes : divValidOp i = true) :
    i.multValid = true ∧ i.data.operation ∈ divOps := by
  simp only [divValidOp, Bool.and_eq_true, decide_eq_true_eq] at takes
  exact ⟨takes.1.2, takes.2⟩

theorem request_of_valid (valid : i.multValid = true) :
    request i = request ⟨false, true, i.data⟩ := by
  simp [request, divOperand, isWordOp, divSigned, rem, valid]

/-- A division that is put to the unit is taken by the divider. -/
theorem Inv.accepts_eq {zeroId : ι} (inv : Inv cycles s)
    (run : (machine cfg zeroId).Run cycles s) (issued : Issued cycles i) :
    Serdiv.accepts s.div (divIn s i) = divValidOp i := by
  cases takes : divValidOp i with
  | false => simp [Serdiv.accepts, divIn, takes]
  | true =>
      obtain ⟨valid, divides⟩ := divValidOp_parts takes
      have noFlush : i.flush = false := by
        simp only [divValidOp, Bool.and_eq_true, Bool.not_eq_true'] at takes
        exact takes.1.1
      obtain ⟨-, -, idle⟩ := inv.idle run issued valid divides
      simp [Serdiv.accepts, divIn, takes, idle, noFlush]

theorem Inv.next {zeroId : ι} (inv : Inv cycles s) (run : (machine cfg zeroId).Run cycles s)
    (issued : Issued cycles i) : Inv (cycles ++ [(s, i)]) (next s i) := by
  refine ⟨?_, ?_, ?_, ?_, ?_⟩
  · rw [inPipe_concat]
    by_cases takes : mulValidOp i = true
    · have multiplies : i.data.operation ∈ mulOps := by
        simp only [mulValidOp, Bool.and_eq_true, decide_eq_true_eq] at takes
        exact takes.2
      simp [Mult.next, Multiplier.next, takes, multiplies]
    · rw [Bool.not_eq_true] at takes
      simp [Mult.next, Multiplier.next, takes]
  · intro data product
    rw [inPipe_concat, Option.ite_none_right_eq_some, Option.some_inj] at product
    obtain ⟨takes, rfl⟩ := product
    simp only [mulValidOp, Bool.and_eq_true, decide_eq_true_eq] at takes
    have value := Multiplier.resultO_next (mulValidOp i) i.data (issued takes.1.2).1 takes.2
    rw [outcome, ← value]
    rfl
  · rw [underWay_concat, dividing_concat, inv.underWay]
    cases flush : i.flush with
    | true => rfl
    | false =>
        rw [inv.accepts_eq run issued]
        cases takes : divValidOp i with
        | true =>
            simp [request_of_valid (divValidOp_parts takes).1]
        | false => cases s.div.outVld && !s.multiplier.multValid <;> rfl
  · intro data division
    rw [dividing_concat] at division
    cases flush : i.flush with
    | true => simp [flush] at division
    | false =>
        rw [flush, if_neg Bool.false_ne_true] at division
        by_cases takes : divValidOp i = true
        · rw [if_pos takes, Option.some_inj] at division
          subst division
          obtain ⟨valid, divides⟩ := divValidOp_parts takes
          refine ⟨divides, (issued valid).1, ?_⟩
          simp [Mult.next, wordOpD, valid, divides, isWordOp]
        · rw [if_neg takes, Option.ite_none_left_eq_some] at division
          obtain ⟨divides, offered, word⟩ := inv.division data division.2
          have kept : wordOpD s i = s.wordOp := by
            simp only [divValidOp, flush, Bool.not_false, Bool.true_and] at takes
            rw [wordOpD, if_neg takes]
          exact ⟨divides, offered, kept.trans word⟩
  · rw [answered_concat, accepted_concat]
    cases flush : i.flush with
    | true => simp [pending, inPipe_concat, dividing_concat, flush, mulValidOp]
    | false =>
        have handover := inv.handover run issued flush
        rw [if_neg Bool.false_ne_true, if_neg Bool.false_ne_true, List.append_assoc,
          List.map_append]
        refine (List.Perm.append_left _ handover).trans ?_
        rw [← List.append_assoc]
        exact inv.ledger.append_right _

theorem inv_of_run {zeroId : ι} (run : (machine cfg zeroId).Run cycles s) : Inv cycles s := by
  apply run.invariant Inv
  · refine ⟨rfl, ?_, rfl, ?_, List.Perm.refl _⟩
    · intro data none
      cases none
    · intro data none
      cases none
  · intro cycles s i run inv issued
    exact inv.next run issued

/-- What the unit did with its instructions up to a state, and what it shows there. -/
structure Serves (cycles : List (State cfg ι × Input cfg ι)) (s : State cfg ι) : Prop where
  /-- Since the last flush every instruction was answered once, with its transaction id and
  its value, or is under way. -/
  ledger : (answered cycles ++ (pending cycles).map outcome).Perm
    ((accepted cycles).map outcome)
  /-- The port shows the answer of an instruction under way. -/
  shows : ∀ i : Input cfg ι, multValidO s i = true →
    ∃ data ∈ pending cycles, (multTransIdO s, resultO s) = outcome data
  /-- A multiplication is answered in the next cycle. -/
  nextCycle : ∀ before now, cycles = before ++ [now] → mulValidOp now.2 = true →
    ∀ i : Input cfg ι, multValidO s i = true ∧ (multTransIdO s, resultO s) = outcome now.2.data
  /-- `XLEN` cycles after a division was put to the unit its result is there, unless it was
  handed over before. -/
  prompt : ∀ before first during, cycles = before ++ first :: during →
    divValidOp first.2 = true →
    (∀ now ∈ during, now.2.flush = false ∧
      (now.1.div.outVld && !now.1.multiplier.multValid) = false) →
    cfg.xlen ≤ during.length → ∀ i : Input cfg ι, multValidO s i = true
  /-- The unit is ready only while no division is under way. -/
  ready : ∀ i : Input cfg ι, multReadyO s i = true → dividing cycles = none

/-- In every run each instruction is answered once, with its own id and its own value. -/
theorem answers_each {zeroId : ι} (run : (machine cfg zeroId).Run cycles s) :
    Serves cycles s := by
  have inv := inv_of_run run
  have divider := Serdiv.serves_requests (two_le cfg) (run_divider run)
  refine ⟨inv.ledger, ?_, ?_, ?_, ?_⟩
  · intro i shown
    have shows := inv.shows run i
    rw [if_pos shown] at shows
    cases product : inPipe cycles with
    | some data => exact ⟨data, by simp [pending, product], by simpa [product] using shows⟩
    | none =>
        rw [product] at shows
        cases result : s.div.outVld with
        | false => simp [result] at shows
        | true =>
            cases division : dividing cycles with
            | none => simp [result, division] at shows
            | some data =>
                refine ⟨data, by simp [pending, division], ?_⟩
                simpa [result, division] using shows
  · rintro before now rfl takes i
    have product : inPipe (before ++ [now]) = some now.2.data := by
      rw [inPipe_concat, if_pos takes]
    have shown : multValidO s i = true := by
      rw [multValidO, inv.pipe, product]
      simp
    have shows := inv.shows run i
    rw [if_pos shown, product] at shows
    exact ⟨shown, by simpa using shows⟩
  · rintro before first during rfl takes quiet long i
    obtain ⟨earlier, issued⟩ := run.at_cycle
    have accepts := (inv_of_run earlier).accepts_eq earlier issued
    have result := divider.prompt (dividerCycles before) (first.1.div, divIn first.1 first.2)
      (dividerCycles during) (by simp [dividerCycles]) (accepts.trans takes) (by
        intro now member
        simp only [dividerCycles, List.mem_map] at member
        obtain ⟨cycle, member, rfl⟩ := member
        exact quiet cycle member) (by simpa [dividerCycles] using long)
    simp [multValidO, divCtrl_outVld, result]
  · intro i ready
    have nothing := divider.ready (divIn s i) ready
    rwa [inv.underWay, Option.map_eq_none_iff] at nothing

instance (cfg : MultCfg) (zeroId : ι) (cycles : List (State cfg ι × Input cfg ι))
    (s : State cfg ι) (i : Input cfg ι) :
    Decidable ((machine cfg zeroId).allowed cycles s i) :=
  inferInstanceAs (Decidable (Issued cycles i))

/-- 7 / 2 under id 1, and 6 * 7 under id 2 just in time to go first. -/
private def divideThenMultiply : List (Input ⟨32, .inl rfl, false⟩ Nat) :=
  [⟨false, true, ⟨.divu, 7, 2, 1⟩⟩, ⟨false, false, ⟨.mul, 0, 0, 0⟩⟩,
    ⟨false, true, ⟨.mul, 6, 7, 2⟩⟩, ⟨false, false, ⟨.mul, 0, 0, 0⟩⟩,
    ⟨false, false, ⟨.mul, 0, 0, 0⟩⟩]

theorem answers_each_stalled :
    let m := machine ⟨32, .inl rfl, false⟩ (0 : Nat)
    Serves (m.cyclesOf m.reset divideThenMultiply) (m.after m.reset divideThenMultiply) ∧
      answered (m.cyclesOf m.reset divideThenMultiply) = [(2, 42), (1, 3)] := by
  intro m
  exact ⟨answers_each (Clocked.Machine.run_of_accepts _ (by decide +kernel)), by decide +kernel⟩

end Cva6.Mult
