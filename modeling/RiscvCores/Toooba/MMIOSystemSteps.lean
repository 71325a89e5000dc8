import RiscvCores.Toooba.MMIOSystem

/-!
# The cases of a platform step

What a rule of the platform can do to the request it serves, in eleven cases.
-/

set_option autoImplicit false

namespace Toooba.MMIOSystem

open Toooba.Amo Toooba.MMIOPlatform

variable {c : PlatformCfg}

/-- The registers of the service are as before. -/
structure Keeps (p p' : Platform c) : Prop where
  state : p'.state = p.state
  curReq : p'.curReq = p.curReq
  reqCore : p'.reqCore = p.reqCore
  reqFunc : p'.reqFunc = p.reqFunc
  amoWaitWriteResp : p'.amoWaitWriteResp = p.amoWaitWriteResp
  fetchingWay : p'.fetchingWay = p.fetchingWay
  waitMTIPCRs : p'.waitMTIPCRs = p.waitMTIPCRs
  waitLowerMSIPCRs : p'.waitLowerMSIPCRs = p.waitLowerMSIPCRs
  waitUpperMSIPCRs : p'.waitUpperMSIPCRs = p.waitUpperMSIPCRs

theorem Keeps.awaits {p p' : Platform c} (keeps : Keeps p p') (i : CoreId c) :
    awaits p' i = awaits p i := by
  rw [MMIOSystem.awaits, MMIOSystem.awaits, keeps.curReq, keeps.waitMTIPCRs,
    keeps.waitLowerMSIPCRs, keeps.waitUpperMSIPCRs]

theorem Keeps.quiet {p : Platform c} {rule : Rule c} (quiet : rule.quiet = true) :
    Keeps p (p.exec rule).1 := by
  cases rule <;> first | exact ⟨rfl, rfl, rfl, rfl, rfl, rfl, rfl, rfl, rfl⟩ | cases quiet

/-- What the platform waits for is the answer of cores. -/
def waitsForCores : MMIOPlatformReq → Bool
  | .timerInterrupt => true
  | .msip _ => true
  | .mTimeCmp _ => true
  | .mTime => true
  | _ => false

/-- A request of a core. -/
def isRequest : MMIOPlatformReq → Bool
  | .invalid => false
  | .timerInterrupt => false
  | _ => true

/-- A core that is waited for gets one message. -/
def OnePost (p : Platform c) (posts : List (CoreId c × MMIOPRq)) : Prop :=
  ∀ i, (postsTo posts i).length = if awaits p i then 1 else 0

/-- No FIFO is read. -/
def readsNothing (p : Platform c) (rule : Rule c) : Bool :=
  !collects rule && rule.fabricRsp.isNone && (takesFrom p rule).isNone

inductive Moves (p : Platform c) : Rule c → Platform c × Effects c → Prop
  | pause {rule : Rule c} {p' : Platform c} (reads : readsNothing p rule = true)
      (rests : rule.quiet = true ∨ p.state = .selectReq) (keeps : Keeps p p') :
      Moves p rule (p', {})
  | start {rule : Rule c} {p' : Platform c} (reads : readsNothing p rule = true)
      (init : p.state = .init) (idle : p'.state = .selectReq) : Moves p rule (p', {})
  | interrupt {rule : Rule c} {p' : Platform c} {posts : List (CoreId c × MMIOPRq)}
      (reads : readsNothing p rule = true) (idle : p.state = .selectReq)
      (wait : p'.state = .waitResp) (timer : p'.curReq = .timerInterrupt)
      (one : OnePost p' posts) : Moves p rule (p', { posts := posts })
  | take {cRq : CoreId c → Option MMIOCRq} {i : CoreId c} {req : MMIOCRq}
      (selects : Selects p cRq i req) (idle : p.state = .selectReq) :
      Moves p (.selectReq cRq) (p.record i req, {})
  | answer {rule : Rule c} {p' : Platform c} {rs : MMIOPRs} (reads : readsNothing p rule = true)
      (busy : p.state = .processReq) (idle : p'.state = .selectReq) :
      Moves p rule (p', { response := some (p.reqCore, rs) })
  | post {rule : Rule c} {p' : Platform c} {posts : List (CoreId c × MMIOPRq)}
      (reads : readsNothing p rule = true) (busy : p.state = .processReq)
      (wait : p'.state = .waitResp) (curReq : p'.curReq = p.curReq)
      (waits : waitsForCores p.curReq = true) (reqCore : p'.reqCore = p.reqCore)
      (one : OnePost p' posts) : Moves p rule (p', { posts := posts })
  | collect {rule : Rule c} {p' : Platform c} (takes : collects rule = true)
      (fabric : rule.fabricRsp = none) (wait : p.state = .waitResp)
      (device : Platform.isFabric p.curReq = false) (idle : p'.state = .selectReq)
      {response : Option (CoreId c × MMIOPRs)}
      (core : response.map Prod.fst = if p.curReq = .timerInterrupt then none else some p.reqCore) :
      Moves p rule (p', { response := response })
  | toFabric {rule : Rule c} {p' : Platform c} {req : MMIOCRq}
      (reads : readsNothing p rule = true) (busy : p.state = .processReq)
      (fabric : Platform.isFabric p.curReq = true) (wait : p'.state = .waitResp)
      (curReq : p'.curReq = p.curReq) (reqCore : p'.reqCore = p.reqCore)
      (reqFunc : p'.reqFunc = p.reqFunc) (fetchingWay : p'.fetchingWay = p.fetchingWay)
      (first : p.reqFunc.isAmo = true → p'.amoWaitWriteResp = false) :
      Moves p rule (p', { fabric := some req })
  | fromFabric {rule : Rule c} {p' : Platform c} {response : Option (CoreId c × MMIOPRs)}
      (takes : rule.fabricRsp.isSome = true) (wait : p.state = .waitResp)
      (fabric : Platform.isFabric p.curReq = true) (idle : p'.state = .selectReq)
      (core : response.map Prod.fst =
        if p.reqFunc.isAmo && p.amoWaitWriteResp then none else some p.reqCore) :
      Moves p rule (p', { response := response })
  | amoStore {rule : Rule c} {p' : Platform c} {rs : MMIOPRs} {req : MMIOCRq}
      (takes : rule.fabricRsp.isSome = true) (wait : p.state = .waitResp)
      (fabric : Platform.isFabric p.curReq = true) (amo : p.reqFunc.isAmo = true)
      (first : p.amoWaitWriteResp = false) (state : p'.state = .waitResp)
      (curReq : p'.curReq = p.curReq) (reqFunc : p'.reqFunc = p.reqFunc)
      (second : p'.amoWaitWriteResp = true) :
      Moves p rule (p', { response := some (p.reqCore, rs), fabric := some req })
  | nextWay {rule : Rule c} {p' : Platform c} {maxWay : Nat}
      (takes : rule.fabricRsp.isSome = true) (wait : p.state = .waitResp)
      (fabric : Platform.isFabric p.curReq = true) (func : p.reqFunc = .inst maxWay)
      (more : p.fetchingWay < maxWay) (state : p'.state = .processReq)
      (curReq : Platform.isFabric p'.curReq = true) (reqCore : p'.reqCore = p.reqCore)
      (reqFunc : p'.reqFunc = p.reqFunc) (fetchingWay : p'.fetchingWay = p.fetchingWay + 1) :
      Moves p rule (p', {})

/-! ## Messages of a step -/

theorem postsTo_append (posts more : List (CoreId c × MMIOPRq)) (i : CoreId c) :
    postsTo (posts ++ more) i = postsTo posts i ++ postsTo more i := by
  simp only [postsTo, List.filter_append, List.map_append]

theorem postsTo_single (i j : CoreId c) (req : MMIOPRq) :
    postsTo [(i, req)] j = if i = j then [req] else [] := by
  by_cases same : i = j <;> simp [postsTo, same]

/-- One message to each of some cores. -/
theorem postsTo_cores (chosen : CoreId c → Bool) (message : CoreId c → MMIOPRq) (i : CoreId c) :
    postsTo (((List.finRange c.coreNum).filter chosen).map fun j => (j, message j)) i =
      if chosen i then [message i] else [] := by
  have once : (List.finRange c.coreNum).filter (fun j => decide (j = i)) = [i] := by
    rw [List.filter_eq, List.count_eq_one_of_mem (List.nodup_finRange _) (List.mem_finRange i)]
    rfl
  have here : ((fun post : CoreId c × MMIOPRq => decide (post.1 = i)) ∘
      fun j => (j, message j)) = fun j => decide (j = i) := rfl
  have swap : ((List.finRange c.coreNum).filter chosen).filter (fun j => decide (j = i)) =
      ((List.finRange c.coreNum).filter fun j => decide (j = i)).filter chosen := by
    simp only [List.filter_filter, Bool.and_comm]
  rw [postsTo, List.filter_map, here, swap, once]
  cases sent : chosen i <;> simp [sent]

/-! ## Rules -/

section Rules

variable {p : Platform c}

theorem moves_selectReq (idle : p.state = .selectReq) (cRq : CoreId c → Option MMIOCRq) :
    Moves p (.selectReq cRq) (p.exec (.selectReq cRq)) := by
  change Moves p (.selectReq cRq) (p.selectReq cRq)
  rw [Platform.selectReq]
  cases timer : (List.finRange c.coreNum).any p.needTimerInt with
  | true =>
      have reads : readsNothing p (.selectReq cRq) = true := by
        simp [readsNothing, collects, Rule.fabricRsp, takesFrom, timer]
      refine .interrupt reads idle rfl rfl fun i => ?_
      rw [postsTo_cores p.needTimerInt fun _ => postMTIP true]
      change _ = if p.needTimerInt i then 1 else 0
      cases p.needTimerInt i <;> rfl
  | false =>
      rw [if_neg Bool.false_ne_true]
      cases first : (List.finRange c.coreNum).find? fun i => (cRq i).isSome with
      | none =>
          have reads : readsNothing p (.selectReq cRq) = true := by
            simp [readsNothing, collects, Rule.fabricRsp, takesFrom, timer, first]
          exact .pause reads (.inr idle) ⟨rfl, rfl, rfl, rfl, rfl, rfl, rfl, rfl, rfl⟩
      | some i =>
          obtain ⟨req, found⟩ := Option.isSome_iff_exists.mp
            (List.find?_some (p := fun i => (cRq i).isSome) first)
          dsimp only
          rw [found]
          exact .take ⟨timer, first, found⟩ idle

theorem core_ne {offset : Nat} (inside : 2 * offset + 1 ≤ c.coreNum - 1) :
    core c (2 * offset) ≠ core c (2 * offset + 1) := by
  have some := c.someCore
  intro same
  have value := congrArg Fin.val same
  change 2 * offset % c.coreNum = (2 * offset + 1) % c.coreNum at value
  rw [Nat.mod_eq_of_lt (by omega), Nat.mod_eq_of_lt (by omega)] at value
  omega

theorem moves_processMSIP {offset : Nat} (cur : p.curReq = .msip offset)
    (busy : p.state = .processReq) : Moves p .processMSIP (p.exec .processMSIP) := by
  have waits : waitsForCores p.curReq = true := by rw [cur]; rfl
  simp only [Platform.exec, cur]
  rw [Platform.processMSIP]
  split
  · exact .answer rfl busy rfl
  split
  · exact .answer rfl busy rfl
  rename_i notFetch present
  split
  · split
    · exact .answer rfl busy rfl
    split
    · refine .post rfl busy rfl rfl waits rfl fun i => ?_
      rw [Platform.postMSIP, postsTo_single]
      simp only [awaits, cur, Option.some.injEq, reduceCtorEq, decide_false, Bool.or_false,
        decide_eq_true_eq]
      split <;> rfl
    split
    · refine .post rfl busy rfl rfl waits rfl fun i => ?_
      rw [Platform.postMSIP, postsTo_single]
      simp only [awaits, cur, Option.some.injEq, reduceCtorEq, decide_false, Bool.or_false,
        decide_eq_true_eq]
      split <;> rfl
    · exact .answer rfl busy rfl
  · refine .post rfl busy rfl rfl waits rfl fun i => ?_
    have apart : p.reqBE.getLsbD 4 = true → core c (2 * offset) ≠ core c (2 * offset + 1) := by
      intro high
      refine core_ne (by_contra fun beyond => present ?_)
      rw [high, decide_eq_false beyond]
      rfl
    rw [postsTo_append]
    simp only [awaits, cur]
    cases low : p.reqBE.getLsbD 0 <;> cases high : p.reqBE.getLsbD 4 <;>
      simp only [reduceIte, Bool.false_eq_true, Platform.postMSIP, postsTo_single]
    · rfl
    · by_cases mine : core c (2 * offset + 1) = i <;> simp [postsTo, mine]
    · by_cases mine : core c (2 * offset) = i <;> simp [postsTo, mine]
    · have apart := apart high
      by_cases lower : core c (2 * offset) = i
      · have other : core c (2 * offset + 1) ≠ i := fun upper => apart (lower.trans upper.symm)
        simp [lower, other]
      · by_cases upper : core c (2 * offset + 1) = i <;> simp [lower, upper]

theorem moves_processMTimeCmp {offset : Nat} (cur : p.curReq = .mTimeCmp offset)
    (busy : p.state = .processReq) : Moves p .processMTimeCmp (p.exec .processMTimeCmp) := by
  have waits : waitsForCores p.curReq = true := by rw [cur]; rfl
  have one : ∀ (p' : Platform c) (value : Bool), p'.curReq = p.curReq →
      OnePost p' [(core c offset, postMTIP value)] := by
    intro p' value same i
    rw [postsTo_single]
    simp only [awaits, same, cur, decide_eq_true_eq]
    by_cases mine : core c offset = i
    · rw [if_pos mine, if_pos mine.symm]
      rfl
    · rw [if_neg mine, if_neg (Ne.symm mine)]
      rfl
  simp only [Platform.exec, cur]
  rw [Platform.processMTimeCmp]
  split
  · exact .answer rfl busy rfl
  split
  · exact .answer rfl busy rfl
  dsimp only
  split
  · exact .answer rfl busy rfl
  split
  · exact .post rfl busy rfl rfl waits rfl (one _ _ rfl)
  split
  · exact .post rfl busy rfl rfl waits rfl (one _ _ rfl)
  · exact .answer rfl busy rfl

theorem moves_processMTime (cur : p.curReq = .mTime) (busy : p.state = .processReq) :
    Moves p .processMTime (p.exec .processMTime) := by
  have waits : waitsForCores p.curReq = true := by rw [cur]; rfl
  change Moves p .processMTime p.processMTime
  rw [Platform.processMTime]
  split
  · exact .answer rfl busy rfl
  split
  · exact .answer rfl busy rfl
  dsimp only
  split
  · refine .post rfl busy rfl rfl waits rfl fun i => ?_
    rw [postsTo_cores (p.changeMTIP (p.getWriteData p.mtime)) fun i => postMTIP !p.mtip i]
    simp only [awaits, cur]
    split <;> rfl
  · exact .answer rfl busy rfl

theorem moves_processToHost (busy : p.state = .processReq) :
    Moves p .processToHost (p.exec .processToHost) := by
  change Moves p .processToHost p.processToHost
  rw [Platform.processToHost]
  split
  · exact .answer rfl busy rfl
  split
  · split
    · exact .answer rfl busy rfl
    · exact .answer rfl busy rfl
  · exact .answer rfl busy rfl
  · exact .answer rfl busy rfl

theorem moves_processFromHost (busy : p.state = .processReq) :
    Moves p .processFromHost (p.exec .processFromHost) := by
  change Moves p .processFromHost p.processFromHost
  rw [Platform.processFromHost]
  split
  · exact .answer rfl busy rfl
  split
  · split
    · exact .answer rfl busy rfl
    · exact .answer rfl busy rfl
  · exact .answer rfl busy rfl
  · exact .answer rfl busy rfl

theorem moves_fromFabricAmoRsp {addr : Addr} (cur : p.curReq = .mmioFabricAdapter addr)
    (wait : p.state = .waitResp) (amo : p.reqFunc.isAmo = true) (dprs : MMIODataPRs) :
    Moves p (.fromFabricAmoRsp dprs) (p.exec (.fromFabricAmoRsp dprs)) := by
  have fabric : Platform.isFabric p.curReq = true := by rw [cur]; rfl
  simp only [Platform.exec, cur]
  rw [Platform.fromFabricAmoRsp]
  cases second : p.amoWaitWriteResp with
  | true => exact .fromFabric rfl wait fabric rfl (by rw [amo, second]; rfl)
  | false =>
      rw [if_neg Bool.false_ne_true]
      cases valid : dprs.valid with
      | false => exact .fromFabric rfl wait fabric rfl (by rw [second, Bool.and_false]; rfl)
      | true => exact .amoStore rfl wait fabric amo second wait rfl rfl rfl

theorem moves_fromFabricIFetchRsp {addr : Addr} (cur : p.curReq = .mmioFabricAdapter addr)
    (wait : p.state = .waitResp) {maxWay : Nat} (func : p.reqFunc = .inst maxWay)
    (dprs : MMIODataPRs) :
    Moves p (.fromFabricIFetchRsp dprs) (p.exec (.fromFabricIFetchRsp dprs)) := by
  have fabric : Platform.isFabric p.curReq = true := by rw [cur]; rfl
  have response : ∀ rs : MMIOPRs, (some (p.reqCore, rs)).map Prod.fst =
      if p.reqFunc.isAmo && p.amoWaitWriteResp then none else some p.reqCore := by
    intro rs
    rw [func]
    rfl
  simp only [Platform.exec, cur]
  rw [Platform.fromFabricIFetchRsp]
  split
  · exact .fromFabric rfl wait fabric rfl (response _)
  simp only [func]
  split
  · exact .fromFabric rfl wait fabric rfl (response _)
  · rename_i more
    exact .nextWay rfl wait fabric func (Nat.lt_of_not_le more) rfl rfl rfl func.symm rfl

theorem curReq_of_isFabric (fabric : Platform.isFabric p.curReq = true) :
    ∃ addr, p.curReq = .mmioFabricAdapter addr := by
  cases cur : p.curReq <;> rw [cur] at fabric <;> try cases fabric
  exact ⟨_, rfl⟩

theorem curReq_of_isMSIP (msip : Platform.isMSIP p.curReq = true) :
    ∃ offset, p.curReq = .msip offset := by
  cases cur : p.curReq <;> rw [cur] at msip <;> try cases msip
  exact ⟨_, rfl⟩

theorem curReq_of_isMTimeCmp (timer : Platform.isMTimeCmp p.curReq = true) :
    ∃ offset, p.curReq = .mTimeCmp offset := by
  cases cur : p.curReq <;> rw [cur] at timer <;> try cases timer
  exact ⟨_, rfl⟩

theorem fabricIn_iff {state : MMIOPlatformState} {kind : MMIOFunc → Bool} :
    p.fabricIn state kind = true ↔
      Platform.isFabric p.curReq = true ∧ p.state = state ∧ kind p.reqFunc = true := by
  simp only [Platform.fabricIn, Bool.and_eq_true, decide_eq_true_eq, and_assoc]

theorem isAmo_of_isLdSt {func : MMIOFunc} (kind : Platform.isLdSt func = true) :
    func.isAmo = false := by
  cases func <;> simp_all [Platform.isLdSt, MMIOFunc.isAmo]

/-- What a rule does whose guard holds. -/
theorem moves {rule : Rule c} (enabled : p.guard rule = true) : Moves p rule (p.exec rule) := by
  cases rule with
  | start toHost fromHost => exact .start rfl (of_decide_eq_true enabled) rfl
  | toHost => exact .pause rfl (.inl rfl) ⟨rfl, rfl, rfl, rfl, rfl, rfl, rfl, rfl, rfl⟩
  | fromHost x => exact .pause rfl (.inl rfl) ⟨rfl, rfl, rfl, rfl, rfl, rfl, rfl, rfl, rfl⟩
  | incCycle => exact .pause rfl (.inl rfl) ⟨rfl, rfl, rfl, rfl, rfl, rfl, rfl, rfl, rfl⟩
  | incTime =>
      simp only [Platform.guard, Bool.and_eq_true, decide_eq_true_eq] at enabled
      exact .pause rfl (.inr enabled.1) ⟨rfl, rfl, rfl, rfl, rfl, rfl, rfl, rfl, rfl⟩
  | selectReq cRq => exact moves_selectReq (of_decide_eq_true enabled) cRq
  | waitTimerInterruptDone =>
      simp only [Platform.guard, Bool.and_eq_true, decide_eq_true_eq] at enabled
      obtain ⟨wait, cur⟩ := enabled
      exact .collect rfl rfl wait (by rw [cur]; rfl) rfl (by rw [if_pos cur]; rfl)
  | processMSIP =>
      simp only [Platform.guard, Bool.and_eq_true, decide_eq_true_eq] at enabled
      obtain ⟨offset, cur⟩ := curReq_of_isMSIP enabled.1
      exact moves_processMSIP cur enabled.2
  | waitMSIPDone cRs =>
      simp only [Platform.guard, Bool.and_eq_true, decide_eq_true_eq] at enabled
      obtain ⟨offset, cur⟩ := curReq_of_isMSIP enabled.1
      refine .collect rfl rfl enabled.2 (by rw [cur]; rfl) rfl ?_
      rw [cur]
      rfl
  | processMTimeCmp =>
      simp only [Platform.guard, Bool.and_eq_true, decide_eq_true_eq] at enabled
      obtain ⟨offset, cur⟩ := curReq_of_isMTimeCmp enabled.1
      exact moves_processMTimeCmp cur enabled.2
  | waitMTimeCmpDone =>
      simp only [Platform.guard, Bool.and_eq_true, decide_eq_true_eq] at enabled
      obtain ⟨offset, cur⟩ := curReq_of_isMTimeCmp enabled.1
      refine .collect rfl rfl enabled.2 (by rw [cur]; rfl) rfl ?_
      rw [cur]
      rfl
  | processMTime =>
      simp only [Platform.guard, Bool.and_eq_true, decide_eq_true_eq] at enabled
      exact moves_processMTime enabled.2 enabled.1
  | waitMTimeDone =>
      simp only [Platform.guard, Bool.and_eq_true, decide_eq_true_eq] at enabled
      obtain ⟨wait, cur⟩ := enabled
      refine .collect rfl rfl wait (by rw [cur]; rfl) rfl ?_
      rw [cur]
      rfl
  | processToHost =>
      simp only [Platform.guard, Bool.and_eq_true, decide_eq_true_eq] at enabled
      exact moves_processToHost enabled.1
  | processFromHost =>
      simp only [Platform.guard, Bool.and_eq_true, decide_eq_true_eq] at enabled
      exact moves_processFromHost enabled.1
  | toFabricReq =>
      obtain ⟨fabric, busy, kind⟩ := fabricIn_iff.mp enabled
      obtain ⟨addr, cur⟩ := curReq_of_isFabric fabric
      simp only [Platform.exec, cur]
      refine .toFabric rfl busy fabric rfl rfl rfl rfl rfl ?_
      intro amo
      rw [isAmo_of_isLdSt kind] at amo
      cases amo
  | fromFabricRsp dprs =>
      obtain ⟨fabric, wait, kind⟩ := fabricIn_iff.mp enabled
      refine .fromFabric rfl wait fabric rfl ?_
      rw [isAmo_of_isLdSt kind]
      rfl
  | toFabricAmoReq =>
      obtain ⟨fabric, busy, kind⟩ := fabricIn_iff.mp enabled
      obtain ⟨addr, cur⟩ := curReq_of_isFabric fabric
      simp only [Platform.exec, cur]
      exact .toFabric rfl busy fabric rfl rfl rfl rfl rfl fun _ => rfl
  | fromFabricAmoRsp dprs =>
      obtain ⟨fabric, wait, kind⟩ := fabricIn_iff.mp enabled
      obtain ⟨addr, cur⟩ := curReq_of_isFabric fabric
      exact moves_fromFabricAmoRsp cur wait kind dprs
  | toFabricIFetchReq =>
      obtain ⟨fabric, busy, kind⟩ := fabricIn_iff.mp enabled
      obtain ⟨addr, cur⟩ := curReq_of_isFabric fabric
      simp only [Platform.exec, cur]
      refine .toFabric rfl busy fabric rfl rfl rfl rfl rfl ?_
      intro amo
      cases func : p.reqFunc <;> rw [func] at kind amo <;>
        simp_all [MMIOFunc.isInstFetch, MMIOFunc.isAmo]
  | fromFabricIFetchRsp dprs =>
      obtain ⟨fabric, wait, kind⟩ := fabricIn_iff.mp enabled
      obtain ⟨addr, cur⟩ := curReq_of_isFabric fabric
      cases func : p.reqFunc with
      | inst maxWay => exact moves_fromFabricIFetchRsp cur wait func dprs
      | _ =>
          rw [func] at kind
          cases kind

end Rules

end Toooba.MMIOSystem
