import RiscvCores.Toooba.MMIOAtomics

/-!
# Instruction fetches from memory-mapped I/O

The service of a fetch from `selectReq` to the next `selectReq`: one read of the fabric for each
half-word, until one fails or all are there.
-/

set_option autoImplicit false

namespace Toooba.MMIOPlatform

open Toooba.Amo

variable {c : PlatformCfg}

/-- The half-word of the memory at an address. -/
def halfword (mem : DataAlignedAddr → Data) (a : Addr) : BitVec 16 :=
  (mem (getDataAlignedAddr a)).extractLsb' (16 * (a.extractLsb 2 1).toNat) 16

/-- The adapter answers a read with the memory or with an error, each as it likes. -/
def ReadsOrFails (mem : DataAlignedAddr → Data) (cycles : History c) (rule : Rule c) : Prop :=
  ∀ dprs req, rule.fabricRsp = some dprs → (fabricReqs cycles).getLast? = some req →
    dprs.valid = true → dprs.data = mem (getDataAlignedAddr req.addr)

/-- The platform from any state on, over a memory that is only read. -/
def fetchMachine (mem : DataAlignedAddr → Data) (start : Platform c) :
    Clocked.Machine (Platform c) (Rule c) where
  reset := start
  next s rule := (s.exec rule).1
  allowed cycles s rule := s.guard rule = true ∧ ReadsOrFails mem cycles rule

/-- Whether the reads for a fetch were answered without an error. -/
def readResults (cycles : History c) : List Bool :=
  cycles.filterMap fun cycle =>
    match cycle.2 with
    | .fromFabricIFetchRsp dprs => some dprs.valid
    | _ => none

/-- How many half-words there are before the first failing read. -/
def readBefore (results : List Bool) : Nat := (results.takeWhile id).length

/-- The steps that serve the request. -/
def serviceSteps (cycles : History c) : Nat := (cycles.filter fun cycle => !cycle.2.quiet).length

/-- The answer with the first `n` half-words. -/
def fetchAnswer (c : PlatformCfg) (mem : DataAlignedAddr → Data) (addr : Addr) (n : Nat) :
    MMIOPRs :=
  .instFetch <| (List.range c.supSizeX2).map fun j =>
    if j < n then some (halfword mem (addr + 2 * BitVec.ofNat 64 j)) else none

section Service

variable (mem : DataAlignedAddr → Data) (addr : Addr) (maxWay : Nat) (i : CoreId c)

/-- The registers when `n` half-words were fetched. -/
structure Fetching (n : Nat) (s : Platform c) : Prop where
  curReq : s.curReq = .mmioFabricAdapter (addr + 2 * BitVec.ofNat 64 n)
  reqCore : s.reqCore = i
  reqFunc : s.reqFunc = .inst maxWay
  instSel : s.instSel = (addr + 2 * BitVec.ofNat 64 n).extractLsb 2 1
  fetchingWay : s.fetchingWay = n
  fetchedInsts : s.fetchedInsts.take n =
    (List.range n).map fun j => halfword mem (addr + 2 * BitVec.ofNat 64 j)
  inside : n ≤ maxWay

/-- Where the service stands: the results of the reads, the responses, the steps so far, the
last request to the fabric and the registers. -/
inductive FetchPhase : List Bool → List (CoreId c × MMIOPRs) → Nat → Option MMIOCRq →
    Platform c → Prop
  | device {last : Option MMIOCRq} {s : Platform c} (away : Platform.isFabric s.curReq = false)
      (timer : s.curReq ≠ .timerInterrupt) (valid : s.curReq ≠ .invalid) (reqCore : s.reqCore = i)
      (reqFunc : s.reqFunc = .inst maxWay) (state : s.state = .processReq) :
      FetchPhase [] [] 0 last s
  | request {n : Nat} {last : Option MMIOCRq} {s : Platform c}
      (fetching : Fetching mem addr maxWay i n s) (state : s.state = .processReq) :
      FetchPhase (List.replicate n true) [] (2 * n) last s
  | wait {n : Nat} {s : Platform c} (fetching : Fetching mem addr maxWay i n s)
      (state : s.state = .waitResp) :
      FetchPhase (List.replicate n true) [] (2 * n + 1)
        (some (Platform.fabricLoad
          (getDataAlignedAddr (addr + 2 * BitVec.ofNat 64 n) ++ 0#3))) s
  | idle {results : List Bool} {steps : Nat} {last : Option MMIOCRq} {s : Platform c}
      (bound : steps ≤ 2 * (maxWay + 1)) (atMost : readBefore results ≤ maxWay + 1)
      (state : s.state = .selectReq) :
      FetchPhase results [(i, fetchAnswer c mem addr (readBefore results))] steps last s

end Service

/-! ### Steps -/

section Steps

variable {mem : DataAlignedAddr → Data} {addr : Addr} {maxWay : Nat} {i : CoreId c}
  {s : Platform c} {rule : Rule c}

theorem readResults_concat (cycles : History c) (s : Platform c) (rule : Rule c) :
    readResults (cycles ++ [(s, rule)]) = readResults cycles ++
      match rule with
      | .fromFabricIFetchRsp dprs => [dprs.valid]
      | _ => [] := by
  unfold readResults
  rw [List.filterMap_append]
  cases rule <;> rfl

theorem serviceSteps_concat (cycles : History c) (s : Platform c) (rule : Rule c) :
    serviceSteps (cycles ++ [(s, rule)]) =
      serviceSteps cycles + if rule.quiet then 0 else 1 := by
  unfold serviceSteps
  rw [List.filter_append, List.length_append]
  cases quiet : rule.quiet with
  | false => simp [quiet]
  | true => simp [quiet]

theorem Fetching.quiet {n : Nat} (fetching : Fetching mem addr maxWay i n s)
    (quiet : rule.quiet = true) : Fetching mem addr maxWay i n (s.exec rule).1 := by
  obtain ⟨curReq, reqCore, reqFunc, instSel, fetchingWay, fetchedInsts, inside⟩ := fetching
  cases rule <;>
    first
    | exact ⟨curReq, reqCore, reqFunc, instSel, fetchingWay, fetchedInsts, inside⟩
    | cases quiet

/-- A quiet rule keeps the registers of the service. -/
theorem exec_quiet_registers (quiet : rule.quiet = true) :
    (s.exec rule).1.state = s.state ∧ (s.exec rule).1.curReq = s.curReq ∧
      (s.exec rule).1.reqCore = s.reqCore ∧ (s.exec rule).1.reqFunc = s.reqFunc := by
  cases rule <;> first | exact ⟨rfl, rfl, rfl, rfl⟩ | cases quiet

theorem FetchPhase.quiet {results : List Bool} {rs : List (CoreId c × MMIOPRs)} {steps : Nat}
    {last : Option MMIOCRq} (phase : FetchPhase mem addr maxWay i results rs steps last s)
    (quiet : rule.quiet = true) :
    FetchPhase mem addr maxWay i results rs steps last (s.exec rule).1 := by
  obtain ⟨state', curReq', reqCore', reqFunc'⟩ := exec_quiet_registers (s := s) quiet
  cases phase with
  | device away timer valid reqCore reqFunc state =>
      refine .device ?_ ?_ ?_ ?_ ?_ ?_
      · rwa [curReq']
      · rwa [curReq']
      · rwa [curReq']
      · rwa [reqCore']
      · rwa [reqFunc']
      · rwa [state']
  | request fetching state => exact .request (fetching.quiet quiet) (state'.trans state)
  | wait fetching state => exact .wait (fetching.quiet quiet) (state'.trans state)
  | idle bound atMost state => exact .idle bound atMost (state'.trans state)

/-- The rule that sends a read. -/
theorem rule_of_request {n : Nat} (fetching : Fetching mem addr maxWay i n s)
    (state : s.state = .processReq) (enabled : s.guard rule = true) :
    rule.quiet = true ∨ rule = .toFabricIFetchReq := by
  have cur := fetching.curReq
  have func := fetching.reqFunc
  cases rule <;>
    simp_all [Platform.guard, Platform.fabricIn, Rule.quiet, Platform.isMSIP,
      Platform.isMTimeCmp, Platform.isFabric, Platform.isLdSt, MMIOFunc.isAmo]

theorem rule_of_wait_fetch {n : Nat} (fetching : Fetching mem addr maxWay i n s)
    (state : s.state = .waitResp) (enabled : s.guard rule = true) :
    rule.quiet = true ∨ ∃ dprs, rule = .fromFabricIFetchRsp dprs := by
  have cur := fetching.curReq
  have func := fetching.reqFunc
  cases rule <;>
    simp_all [Platform.guard, Platform.fabricIn, Rule.quiet, Platform.isMSIP,
      Platform.isMTimeCmp, Platform.isFabric, Platform.isLdSt, MMIOFunc.isAmo]

/-- No device but the fabric can be fetched from. -/
theorem exec_device (away : Platform.isFabric s.curReq = false)
    (reqFunc : s.reqFunc = .inst maxWay) (state : s.state = .processReq)
    (enabled : s.guard rule = true) :
    rule.quiet = true ∨
      s.exec rule = s.noInstFetch ∧ rule.quiet = false ∧ rule.fabricRsp = none := by
  have fetch : s.reqFunc.isInstFetch = true := by
    rw [reqFunc]
    rfl
  cases rule with
  | processMSIP =>
      right
      cases cur : s.curReq with
      | msip offset =>
          simp only [Platform.exec, cur, Platform.processMSIP, fetch, if_true]
          exact ⟨trivial, rfl, rfl⟩
      | _ => simp [Platform.guard, Platform.isMSIP, cur] at enabled
  | processMTimeCmp =>
      right
      cases cur : s.curReq with
      | mTimeCmp offset =>
          simp only [Platform.exec, cur, Platform.processMTimeCmp, fetch, if_true]
          exact ⟨trivial, rfl, rfl⟩
      | _ => simp [Platform.guard, Platform.isMTimeCmp, cur] at enabled
  | processMTime =>
      right
      simp only [Platform.exec, Platform.processMTime, fetch, if_true]
      exact ⟨trivial, rfl, rfl⟩
  | processToHost =>
      right
      simp only [Platform.exec, Platform.processToHost, fetch, if_true]
      exact ⟨trivial, rfl, rfl⟩
  | processFromHost =>
      right
      simp only [Platform.exec, Platform.processFromHost, fetch, if_true]
      exact ⟨trivial, rfl, rfl⟩
  | toHost | fromHost | incCycle => exact .inl rfl
  | start | incTime | selectReq | waitTimerInterruptDone | waitMSIPDone | waitMTimeCmpDone
  | waitMTimeDone | toFabricReq | fromFabricRsp | toFabricAmoReq | fromFabricAmoRsp
  | toFabricIFetchReq | fromFabricIFetchRsp =>
      simp [Platform.guard, Platform.fabricIn, away, state] at enabled

/-- The select index wraps with the address. -/
theorem instSel_add_two (a : Addr) : a.extractLsb 2 1 + 1 = (a + 2).extractLsb 2 1 := by
  apply BitVec.eq_of_toNat_eq
  have small := a.isLt
  have one : (1 : BitVec (2 - 1 + 1)).toNat = 1 := rfl
  have two : (2 : Addr).toNat = 2 := rfl
  rw [BitVec.toNat_add, BitVec.extractLsb_toNat, BitVec.extractLsb_toNat, BitVec.toNat_add,
    one, two, Nat.shiftRight_eq_div_pow, Nat.shiftRight_eq_div_pow]
  omega

theorem next_address (addr : Addr) (n : Nat) :
    addr + 2 * BitVec.ofNat 64 n + 2 = addr + 2 * BitVec.ofNat 64 (n + 1) := by
  have next : BitVec.ofNat 64 (n + 1) = BitVec.ofNat 64 n + 1 := BitVec.ofNat_add n 1
  rw [next]
  bv_omega

/-- The registers after a half-word that is not the last one. -/
theorem Fetching.next {n : Nat} (fetching : Fetching mem addr maxWay i n s) (more : n < maxWay)
    {dprs : MMIODataPRs} (valid : dprs.valid = true)
    (read : dprs.data = mem (getDataAlignedAddr (addr + 2 * BitVec.ofNat 64 n))) :
    (s.exec (.fromFabricIFetchRsp dprs)).2 = {} ∧
      (s.exec (.fromFabricIFetchRsp dprs)).1.state = .processReq ∧
      Fetching mem addr maxWay i (n + 1) (s.exec (.fromFabricIFetchRsp dprs)).1 := by
  have going : ¬ s.fetchingWay ≥ maxWay := by
    rw [fetching.fetchingWay]
    omega
  have word : dprs.data.extractLsb' (16 * s.instSel.toNat) 16 =
      halfword mem (addr + 2 * BitVec.ofNat 64 n) := by
    rw [read, fetching.instSel]
    rfl
  have step := next_address addr n
  have exec : s.exec (.fromFabricIFetchRsp dprs) =
      ({ s with
          fetchedInsts := s.fetchedInsts.take s.fetchingWay ++
            [halfword mem (addr + 2 * BitVec.ofNat 64 n)]
          fetchingWay := s.fetchingWay + 1
          instSel := s.instSel + 1
          curReq := .mmioFabricAdapter (addr + 2 * BitVec.ofNat 64 (n + 1))
          state := .processReq }, {}) := by
    simp only [Platform.exec, fetching.curReq, Platform.fromFabricIFetchRsp, valid,
      fetching.reqFunc, Bool.not_true, Bool.false_eq_true, if_false, if_neg going, word, step]
  rw [exec]
  refine ⟨rfl, rfl, rfl, fetching.reqCore, fetching.reqFunc, ?_, ?_, ?_, more⟩
  · change s.instSel + 1 = _
    rw [fetching.instSel, ← step]
    exact instSel_add_two _
  · change s.fetchingWay + 1 = n + 1
    rw [fetching.fetchingWay]
  · change (s.fetchedInsts.take s.fetchingWay ++ _).take (n + 1) = _
    rw [fetching.fetchingWay, fetching.fetchedInsts, List.range_succ, List.map_append]
    apply List.take_of_length_le
    simp

/-- The answer when `n` half-words were fetched. -/
theorem Fetching.fetched {n : Nat} (fetching : Fetching mem addr maxWay i n s)
    (last : Option (BitVec 16)) {m : Nat}
    (good : last = some (halfword mem (addr + 2 * BitVec.ofNat 64 n)) ∧ m = n + 1 ∨
      last = none ∧ m = n) :
    s.fetched last = fetchAnswer c mem addr m := by
  unfold Platform.fetched fetchAnswer
  rw [fetching.fetchingWay]
  congr 1
  apply List.map_congr_left
  intro j member
  have earlier : ∀ j, j < n →
      s.fetchedInsts[j]? = some (halfword mem (addr + 2 * BitVec.ofNat 64 j)) := by
    intro j below
    have taken := congrArg (fun xs => xs[j]?) fetching.fetchedInsts
    simpa [List.getElem?_take, below] using taken
  rcases Nat.lt_trichotomy j n with below | same | above
  · have inside : j < m := by omega
    rw [if_pos below, if_pos inside, earlier j below]
  · subst same
    rw [if_neg (Nat.lt_irrefl _), if_pos rfl]
    rcases good with ⟨rfl, rfl⟩ | ⟨rfl, rfl⟩
    · rw [if_pos (Nat.lt_succ_self _)]
    · rw [if_neg (Nat.lt_irrefl _)]
  · rw [if_neg (Nat.not_lt_of_gt above), if_neg (Nat.ne_of_gt above), if_neg (by omega)]

theorem getDataAlignedAddr_append (a : DataAlignedAddr) :
    getDataAlignedAddr (a ++ 0#3) = a := by
  apply BitVec.eq_of_getLsbD_eq
  intro k below
  have bit := BitVec.getLsbD_append (x := a) (y := 0#3) (i := 3 + k)
  rw [if_neg (by omega), Nat.add_sub_cancel_left] at bit
  unfold getDataAlignedAddr
  rw [BitVec.getLsbD_extractLsb, decide_eq_true below, Bool.true_and]
  exact bit

theorem readBefore_replicate (n : Nat) (last : List Bool) (ends : last = [] ∨ last = [false]) :
    readBefore (List.replicate n true ++ last) = n := by
  unfold readBefore
  induction n with
  | zero => rcases ends with rfl | rfl <;> rfl
  | succ n ih =>
      rw [List.replicate_succ, List.cons_append, List.takeWhile_cons_of_pos rfl,
        List.length_cons, ih]

variable {cycles service : History c}

/-- The phase behind some cycles. -/
abbrev FetchPhaseAt (mem : DataAlignedAddr → Data) (addr : Addr) (maxWay : Nat) (i : CoreId c)
    (cycles service : History c) (s : Platform c) : Prop :=
  FetchPhase mem addr maxWay i (readResults service) (responses service) (serviceSteps service)
    (fabricReqs cycles).getLast? s

theorem FetchPhaseAt.quiet (phase : FetchPhaseAt mem addr maxWay i cycles service s)
    (quiet : rule.quiet = true) :
    FetchPhaseAt mem addr maxWay i (cycles ++ [(s, rule)]) (service ++ [(s, rule)])
      (s.exec rule).1 := by
  have effects := (exec_quiet (s := s) quiet).1
  have results : readResults (service ++ [(s, rule)]) = readResults service := by
    rw [readResults_concat]
    cases rule <;> first | exact List.append_nil _ | cases quiet
  unfold FetchPhaseAt
  rw [results, responses_concat, serviceSteps_concat, fabricReqs_concat, effects, quiet]
  simpa using FetchPhase.quiet phase quiet

/-- An answer ends the service. -/
theorem FetchPhaseAt.answer {results : List Bool} {n : Nat}
    (exec : s.exec rule = s.respond (fetchAnswer c mem addr n)) (reqCore : s.reqCore = i)
    (before : responses service = []) (after : readResults (service ++ [(s, rule)]) = results)
    (count : readBefore results = n) (atMost : n ≤ maxWay + 1)
    (steps : serviceSteps service + 1 ≤ 2 * (maxWay + 1)) :
    FetchPhaseAt mem addr maxWay i (cycles ++ [(s, rule)]) (service ++ [(s, rule)])
      (s.exec rule).1 := by
  have bound : serviceSteps (service ++ [(s, rule)]) ≤ 2 * (maxWay + 1) := by
    rw [serviceSteps_concat]
    split
    · omega
    · exact steps
  have response : responses (service ++ [(s, rule)]) =
      [(i, fetchAnswer c mem addr (readBefore results))] := by
    rw [responses_concat, before, exec, count, ← reqCore]
    rfl
  unfold FetchPhaseAt
  rw [response, after]
  refine .idle bound ?_ ?_
  · rwa [count]
  · rw [exec]
    rfl

theorem FetchPhaseAt.step (phase : FetchPhaseAt mem addr maxWay i cycles service s)
    (busy : s.state ≠ .selectReq) (enabled : s.guard rule = true)
    (reads : ReadsOrFails mem cycles rule) :
    FetchPhaseAt mem addr maxWay i (cycles ++ [(s, rule)]) (service ++ [(s, rule)])
      (s.exec rule).1 := by
  by_cases quiet : rule.quiet = true
  · exact phase.quiet quiet
  have whole := phase
  unfold FetchPhaseAt at phase
  generalize results_eq : readResults service = results at phase
  generalize responses_eq : responses service = rs at phase
  generalize steps_eq : serviceSteps service = steps at phase
  generalize last_eq : (fabricReqs cycles).getLast? = last at phase
  cases phase with
  | device away timer valid reqCore reqFunc state =>
      obtain ⟨exec, -, silent⟩ := (exec_device away reqFunc state enabled).resolve_left quiet
      have none : s.noInstFetch = s.respond (fetchAnswer c mem addr 0) := by
        unfold Platform.noInstFetch fetchAnswer
        congr 2
        simp
      have results : readResults (service ++ [(s, rule)]) = [] := by
        rw [readResults_concat, results_eq]
        cases rule <;> first | rfl | cases silent
      exact FetchPhaseAt.answer (exec.trans none) reqCore responses_eq results rfl
        (Nat.zero_le _) (by omega)
  | @request n last s fetching state =>
      obtain rfl := (rule_of_request fetching state enabled).resolve_left quiet
      have exec : s.exec .toFabricIFetchReq =
          ({ s with state := .waitResp },
            { fabric := some (Platform.fabricLoad
                (getDataAlignedAddr (addr + 2 * BitVec.ofNat 64 n) ++ 0#3)) }) := by
        simp only [Platform.exec, fetching.curReq, Platform.toFabricIFetchReq]
      have results : readResults (service ++ [(s, .toFabricIFetchReq)]) =
          List.replicate n true := by
        rw [readResults_concat, results_eq]
        exact List.append_nil _
      have steps : serviceSteps (service ++ [(s, .toFabricIFetchReq)]) = 2 * n + 1 := by
        rw [serviceSteps_concat, steps_eq]
        rfl
      have response : responses (service ++ [(s, .toFabricIFetchReq)]) = [] := by
        rw [responses_concat, responses_eq, exec]
        rfl
      unfold FetchPhaseAt
      rw [results, steps, response, fabricReqs_concat, exec]
      dsimp only
      rw [Option.toList_some, List.getLast?_concat]
      refine .wait ?_ rfl
      exact ⟨fetching.curReq, fetching.reqCore, fetching.reqFunc, fetching.instSel,
        fetching.fetchingWay, fetching.fetchedInsts, fetching.inside⟩
  | @wait n s fetching state =>
      obtain ⟨dprs, rfl⟩ := (rule_of_wait_fetch fetching state enabled).resolve_left quiet
      have results : readResults (service ++ [(s, .fromFabricIFetchRsp dprs)]) =
          List.replicate n true ++ [dprs.valid] := by
        rw [readResults_concat, results_eq]
      have atMost := fetching.inside
      cases valid : dprs.valid with
      | false =>
          have exec : s.exec (.fromFabricIFetchRsp dprs) = s.respond (s.fetched none) := by
            simp only [Platform.exec, fetching.curReq, Platform.fromFabricIFetchRsp, valid,
              Bool.not_false, if_true]
          rw [fetching.fetched none (.inr ⟨rfl, rfl⟩)] at exec
          rw [valid] at results
          exact FetchPhaseAt.answer exec fetching.reqCore responses_eq results
            (readBefore_replicate n _ (.inr rfl)) (by omega) (by omega)
      | true =>
          have read : dprs.data = mem (getDataAlignedAddr (addr + 2 * BitVec.ofNat 64 n)) := by
            rw [reads dprs _ rfl last_eq valid]
            exact congrArg mem (getDataAlignedAddr_append _)
          rw [valid] at results
          rcases Nat.lt_or_ge n maxWay with more | all
          · obtain ⟨effects, state', next⟩ := fetching.next more valid read
            have steps : serviceSteps (service ++ [(s, .fromFabricIFetchRsp dprs)]) =
                2 * (n + 1) := by
              rw [serviceSteps_concat, steps_eq]
              rfl
            have response : responses (service ++ [(s, .fromFabricIFetchRsp dprs)]) = [] := by
              rw [responses_concat, responses_eq, effects]
              rfl
            unfold FetchPhaseAt
            rw [results, steps, response, ← List.replicate_succ']
            exact .request next state'
          · have done : s.fetchingWay ≥ maxWay := by rwa [fetching.fetchingWay]
            have word : dprs.data.extractLsb' (16 * s.instSel.toNat) 16 =
                halfword mem (addr + 2 * BitVec.ofNat 64 n) := by
              rw [read, fetching.instSel]
              rfl
            have exec : s.exec (.fromFabricIFetchRsp dprs) =
                s.respond (s.fetched (some (halfword mem (addr + 2 * BitVec.ofNat 64 n)))) := by
              simp only [Platform.exec, fetching.curReq, Platform.fromFabricIFetchRsp, valid,
                fetching.reqFunc, Bool.not_true, Bool.false_eq_true, if_false, if_pos done, word]
            rw [fetching.fetched _ (.inl ⟨rfl, rfl⟩)] at exec
            rw [← List.replicate_succ'] at results
            have count := readBefore_replicate (n + 1) [] (.inl rfl)
            rw [List.append_nil] at count
            exact FetchPhaseAt.answer exec fetching.reqCore responses_eq results count
              (by omega) (by omega)
  | idle bound atMost state => exact absurd state busy

end Steps

/-! ## Runs -/

section Runs

variable {mem : DataAlignedAddr → Data} {maxWay : Nat} {i : CoreId c} {s₀ s : Platform c}
  {during : History c} {cRq : CoreId c → Option MMIOCRq} {req : MMIOCRq}

theorem classify_fabric (s : Platform c) (addr : Addr) :
    s.classify addr = .mmioFabricAdapter addr ∨
      Platform.isFabric (s.classify addr) = false := by
  simp only [Platform.classify]
  repeat' split
  all_goals first | exact .inl rfl | exact .inr rfl

theorem classify_device (s : Platform c) (addr : Addr) :
    s.classify addr ≠ .timerInterrupt ∧ s.classify addr ≠ .invalid := by
  simp only [Platform.classify]
  repeat' split
  all_goals exact ⟨by rintro ⟨⟩, by rintro ⟨⟩⟩

theorem FetchPhaseAt.start (cycles : History c) (func : req.func = .inst maxWay) :
    FetchPhaseAt mem req.addr maxWay i cycles [] (s₀.record i req) := by
  have device : (s₀.record i req).curReq = s₀.classify req.addr := rfl
  rcases classify_fabric s₀ req.addr with target | away
  · have zero : req.addr + 2 * BitVec.ofNat 64 0 = req.addr := by
      rw [BitVec.mul_zero, BitVec.add_zero]
    refine FetchPhase.request (n := 0) ⟨?_, rfl, func, ?_, rfl, rfl, Nat.zero_le _⟩ rfl
    · rw [device, target, zero]
    · rw [zero]
      rfl
  · obtain ⟨timer, valid⟩ := classify_device s₀ req.addr
    exact .device away timer valid rfl func rfl

theorem fetch_phase_of_run (selects : Selects s₀ cRq i req) (func : req.func = .inst maxWay)
    (run : (fetchMachine mem s₀).Run ((s₀, .selectReq cRq) :: during) s)
    (busy : ∀ cycle ∈ during, cycle.1.state ≠ .selectReq) :
    FetchPhaseAt mem req.addr maxWay i ((s₀, .selectReq cRq) :: during) during s := by
  induction during using List.reverseRecOn generalizing s with
  | nil =>
      rw [← List.nil_append [(s₀, Rule.selectReq cRq)]] at run
      obtain ⟨-, -, rfl⟩ := run.of_append_singleton
      have moved : ((fetchMachine mem s₀).next s₀ (.selectReq cRq)) = s₀.record i req :=
        congrArg Prod.fst selects.exec
      rw [moved]
      exact .start _ func
  | append_singleton rest last ih =>
      rw [← List.cons_append] at run ⊢
      obtain ⟨before, allowed, rfl⟩ := run.of_append_singleton
      have phase := ih before fun cycle member => busy cycle (List.mem_append_left _ member)
      exact phase.step (busy last (by simp)) allowed.1 allowed.2

/-- The service goes on until it is answered. -/
theorem FetchPhaseAt.enabled {addr : Addr} {cycles service : History c}
    (phase : FetchPhaseAt mem addr maxWay i cycles service s) (busy : s.state ≠ .selectReq) :
    ∃ rule : Rule c, rule.quiet = false ∧ s.guard rule = true ∧
      ReadsOrFails mem cycles rule := by
  unfold FetchPhaseAt at phase
  generalize (fabricReqs cycles).getLast? = last at phase
  generalize readResults service = results at phase
  generalize responses service = rs at phase
  generalize serviceSteps service = steps at phase
  cases phase with
  | device away timer valid reqCore reqFunc state =>
      cases cur : s.curReq with
      | invalid => exact absurd cur valid
      | timerInterrupt => exact absurd cur timer
      | mmioFabricAdapter addr =>
          rw [cur] at away
          cases away
      | msip offset =>
          exact ⟨.processMSIP, rfl,
            by simp [Platform.guard, Platform.isMSIP, cur, state], by rintro _ _ ⟨⟩⟩
      | mTimeCmp offset =>
          exact ⟨.processMTimeCmp, rfl,
            by simp [Platform.guard, Platform.isMTimeCmp, cur, state], by rintro _ _ ⟨⟩⟩
      | mTime => exact ⟨.processMTime, rfl, by simp [Platform.guard, cur, state], by rintro _ _ ⟨⟩⟩
      | toHost =>
          exact ⟨.processToHost, rfl, by simp [Platform.guard, cur, state], by rintro _ _ ⟨⟩⟩
      | fromHost =>
          exact ⟨.processFromHost, rfl, by simp [Platform.guard, cur, state], by rintro _ _ ⟨⟩⟩
  | request fetching state =>
      refine ⟨.toFabricIFetchReq, rfl, ?_, by rintro _ _ ⟨⟩⟩
      simp [Platform.guard, Platform.fabricIn, Platform.isFabric, MMIOFunc.isInstFetch,
        fetching.curReq, fetching.reqFunc, state]
  | wait fetching state =>
      refine ⟨.fromFabricIFetchRsp ⟨false, 0⟩, rfl, ?_, ?_⟩
      · simp [Platform.guard, Platform.fabricIn, Platform.isFabric, MMIOFunc.isInstFetch,
          fetching.curReq, fetching.reqFunc, state]
      · intro dprs req rsp _ valid
        obtain rfl := Option.some.inj rsp
        cases valid
  | idle bound atMost state => exact absurd state busy

theorem FetchPhaseAt.bound {addr : Addr} {cycles service : History c}
    (phase : FetchPhaseAt mem addr maxWay i cycles service s) :
    serviceSteps service ≤ 2 * (maxWay + 1) := by
  unfold FetchPhaseAt at phase
  generalize (fabricReqs cycles).getLast? = last at phase
  generalize readResults service = results at phase
  generalize responses service = rs at phase
  generalize serviceSteps service = steps at phase
  cases phase with
  | device away timer valid reqCore reqFunc state => exact Nat.zero_le _
  | request fetching state =>
      have inside := fetching.inside
      omega
  | wait fetching state =>
      have inside := fetching.inside
      omega
  | idle bound atMost state => exact bound

/-- The answer holds the half-words before the first failing read. -/
theorem FetchPhaseAt.answered {addr : Addr} {cycles service : History c}
    (phase : FetchPhaseAt mem addr maxWay i cycles service s) (idle : s.state = .selectReq) :
    responses service = [(i, fetchAnswer c mem addr (readBefore (readResults service)))] ∧
      readBefore (readResults service) ≤ maxWay + 1 := by
  unfold FetchPhaseAt at phase
  generalize (fabricReqs cycles).getLast? = last at phase
  generalize readResults service = results at phase
  generalize responses service = rs at phase
  generalize serviceSteps service = steps at phase
  cases phase with
  | device away timer valid reqCore reqFunc state =>
      rw [state] at idle
      exact nomatch idle
  | request fetching state =>
      rw [state] at idle
      exact nomatch idle
  | wait fetching state =>
      rw [state] at idle
      exact nomatch idle
  | idle bound atMost state => exact ⟨rfl, atMost⟩

end Runs

end Toooba.MMIOPlatform
