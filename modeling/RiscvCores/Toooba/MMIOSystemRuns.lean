import RiscvCores.Toooba.MMIOSystemSteps

/-!
# Requests, messages and answers of the platform

In `selectReq` no core and no adapter owes an answer, and each request that was taken has had
one response or is being served.
-/

set_option autoImplicit false

namespace Toooba.MMIOSystem

open Toooba.Amo Toooba.MMIOPlatform

variable {c : PlatformCfg}

/-! ## What is owed -/

/-- The platform waits for the answer of a core. -/
def waitsFor (p : Platform c) (i : CoreId c) : Bool :=
  decide (p.state = .waitResp) && awaits p i

def waitsForFabric (p : Platform c) : Bool :=
  decide (p.state = .waitResp) && Platform.isFabric p.curReq

/-- A core or adapter that is waited for has one message or one answer under way, the
others have none. -/
structure Owed (s : System c) : Prop where
  cores : ∀ i, (s.pRqQ i).length + (s.cRsQ i).length = if waitsFor s.platform i then 1 else 0
  fabric : s.fabricReqQ.length + s.fabricRspQ.length = if waitsForFabric s.platform then 1 else 0
  process : s.platform.state = .processReq → isRequest s.platform.curReq = true
  wait : s.platform.state = .waitResp →
    waitsForCores s.platform.curReq = true ∨ Platform.isFabric s.platform.curReq = true

theorem awaits_fabric {p : Platform c} (fabric : Platform.isFabric p.curReq = true)
    (i : CoreId c) : awaits p i = false := by
  obtain ⟨addr, cur⟩ := curReq_of_isFabric fabric
  rw [awaits, cur]

theorem isFabric_of_waits {req : MMIOPlatformReq} (waits : waitsForCores req = true) :
    Platform.isFabric req = false := by
  cases req <;> first | rfl | cases waits

theorem ne_timer_of_isFabric {req : MMIOPlatformReq} (fabric : Platform.isFabric req = true) :
    req ≠ .timerInterrupt := by
  intro timer
  rw [timer] at fabric
  cases fabric

theorem isRequest_of_isFabric {req : MMIOPlatformReq} (fabric : Platform.isFabric req = true) :
    isRequest req = true := by
  cases req <;> first | rfl | cases fabric

theorem isRequest_classify (p : Platform c) (addr : Addr) :
    isRequest (p.classify addr) = true := by
  simp only [Platform.classify]
  repeat' split
  all_goals rfl

theorem waitsFor_busy {p : Platform c} (away : p.state ≠ .waitResp) (i : CoreId c) :
    waitsFor p i = false := by
  rw [waitsFor, decide_eq_false away, Bool.false_and]

theorem waitsFor_wait {p : Platform c} (wait : p.state = .waitResp) (i : CoreId c) :
    waitsFor p i = awaits p i := by
  rw [waitsFor, decide_eq_true wait, Bool.true_and]

theorem waitsForFabric_busy {p : Platform c} (away : p.state ≠ .waitResp) :
    waitsForFabric p = false := by
  rw [waitsForFabric, decide_eq_false away, Bool.false_and]

theorem waitsForFabric_wait {p : Platform c} (wait : p.state = .waitResp) :
    waitsForFabric p = Platform.isFabric p.curReq := by
  rw [waitsForFabric, decide_eq_true wait, Bool.true_and]

section Owed

variable {s : System c}

theorem Owed.cores_idle (owed : Owed s) (away : s.platform.state ≠ .waitResp) (i : CoreId c) :
    s.pRqQ i = [] ∧ s.cRsQ i = [] := by
  have none := owed.cores i
  rw [waitsFor_busy away, if_neg Bool.false_ne_true, Nat.add_eq_zero_iff] at none
  exact ⟨List.length_eq_zero_iff.mp none.1, List.length_eq_zero_iff.mp none.2⟩

theorem Owed.fabric_idle (owed : Owed s) (away : waitsForFabric s.platform = false) :
    s.fabricReqQ = [] ∧ s.fabricRspQ = [] := by
  have none := owed.fabric
  rw [away, if_neg Bool.false_ne_true, Nat.add_eq_zero_iff] at none
  exact ⟨List.length_eq_zero_iff.mp none.1, List.length_eq_zero_iff.mp none.2⟩

theorem Owed.reset (u : Platform c) (msip mtip : CoreId c → BitVec 1) :
    Owed (resetSystem u msip mtip) := by
  refine ⟨fun i => ?_, rfl, ?_, ?_⟩
  · rfl
  · intro busy
    cases busy
  · intro wait
    cases wait

theorem Owed.handle (owed : Owed s) {i : CoreId c} {req : MMIOPRq}
    (first : (s.pRqQ i).head? = some req) (undef : BitVec 1) : Owed (s.handle i req undef) := by
  refine ⟨fun j => ?_, owed.fabric, owed.process, owed.wait⟩
  have before := owed.cores j
  obtain ⟨rest, queue⟩ := List.head?_eq_some_iff.mp first
  change _ = if waitsFor s.platform j then 1 else 0
  by_cases same : j = i
  · subst same
    simp only [System.handle, Function.update_self, List.length_append, List.length_singleton]
    rw [queue, List.length_cons] at before
    rw [queue, List.tail_cons]
    omega
  · simp only [System.handle, Function.update_of_ne same]
    exact before

/-- A rule that reads no FIFO adds what it sends to them. -/
theorem platformStep_queues {rule : Rule c} (reads : readsNothing s.platform rule = true) :
    s.platformStep rule =
      { s with
        platform := (s.platform.exec rule).1
        pRqQ := fun i => s.pRqQ i ++ postsTo (s.platform.exec rule).2.posts i
        fabricReqQ := s.fabricReqQ ++ (s.platform.exec rule).2.fabric.toList } := by
  simp only [readsNothing, Bool.and_eq_true, Bool.not_eq_true', Option.isNone_iff_eq_none] at reads
  obtain ⟨⟨quiet, fabric⟩, taken⟩ := reads
  simp only [System.platformStep, quiet, fabric, taken, Bool.false_and, Bool.false_eq_true,
    if_false, reduceCtorEq, Option.isSome_none]

theorem Supplies.answers {rule : Rule c} (supplies : s.Supplies rule)
    (takes : collects rule = true) (i : CoreId c) (awaited : awaits s.platform i = true) :
    s.cRsQ i ≠ [] := by
  cases rule <;> try cases takes
  case waitMSIPDone cRs =>
      intro empty
      have first := supplies i awaited
      rw [empty] at first
      cases first
  all_goals exact supplies i awaited

theorem Supplies.fabric {rule : Rule c} (supplies : s.Supplies rule)
    (takes : rule.fabricRsp.isSome = true) : s.fabricRspQ.head? = rule.fabricRsp := by
  cases rule <;> first | exact supplies | cases takes

theorem collects_of_fabricRsp {rule : Rule c} (takes : rule.fabricRsp.isSome = true) :
    collects rule = false ∧ takesFrom s.platform rule = none := by
  cases rule <;> first | exact ⟨rfl, rfl⟩ | cases takes

/-- A rule that takes the answer of the adapter. -/
theorem platformStep_fabric {rule : Rule c} (takes : rule.fabricRsp.isSome = true) :
    s.platformStep rule =
      { s with
        platform := (s.platform.exec rule).1
        pRqQ := fun i => s.pRqQ i ++ postsTo (s.platform.exec rule).2.posts i
        fabricReqQ := s.fabricReqQ ++ (s.platform.exec rule).2.fabric.toList
        fabricRspQ := s.fabricRspQ.tail } := by
  obtain ⟨quiet, taken⟩ := collects_of_fabricRsp (s := s) takes
  simp only [System.platformStep, quiet, takes, taken, Bool.false_and, Bool.false_eq_true,
    if_false, reduceCtorEq, if_true]

theorem Owed.reads {rule : Rule c} (owed : Owed s)
    (reads : readsNothing s.platform rule = true)
    (cores : ∀ i, (postsTo (s.platform.exec rule).2.posts i).length +
      (if waitsFor s.platform i then 1 else 0) =
        if waitsFor (s.platform.exec rule).1 i then 1 else 0)
    (fabric : (s.platform.exec rule).2.fabric.toList.length +
      (if waitsForFabric s.platform then 1 else 0) =
        if waitsForFabric (s.platform.exec rule).1 then 1 else 0)
    (process : (s.platform.exec rule).1.state = .processReq →
      isRequest (s.platform.exec rule).1.curReq = true)
    (wait : (s.platform.exec rule).1.state = .waitResp →
      waitsForCores (s.platform.exec rule).1.curReq = true ∨
        Platform.isFabric (s.platform.exec rule).1.curReq = true) :
    Owed (s.platformStep rule) := by
  rw [platformStep_queues reads]
  refine ⟨fun i => ?_, ?_, process, wait⟩
  · have before := owed.cores i
    have sent := cores i
    simp only [List.length_append]
    omega
  · have before := owed.fabric
    simp only [List.length_append]
    omega

theorem Owed.fabricAnswer {rule : Rule c} (owed : Owed s)
    (takes : rule.fabricRsp.isSome = true) (supplies : s.Supplies rule)
    (waited : s.platform.state = .waitResp) (fabric : Platform.isFabric s.platform.curReq = true)
    (silent : (s.platform.exec rule).2.posts = [])
    (cores : ∀ i, waitsFor (s.platform.exec rule).1 i = false)
    (asks : (s.platform.exec rule).2.fabric.toList.length =
      if waitsForFabric (s.platform.exec rule).1 then 1 else 0)
    (process : (s.platform.exec rule).1.state = .processReq →
      isRequest (s.platform.exec rule).1.curReq = true)
    (wait : (s.platform.exec rule).1.state = .waitResp →
      waitsForCores (s.platform.exec rule).1.curReq = true ∨
        Platform.isFabric (s.platform.exec rule).1.curReq = true) :
    Owed (s.platformStep rule) := by
  rw [platformStep_fabric takes]
  refine ⟨fun i => ?_, ?_, process, wait⟩
  · have before := owed.cores i
    rw [waitsFor_wait waited, awaits_fabric fabric] at before
    change (s.pRqQ i ++ postsTo _ i).length + _ =
      if waitsFor (s.platform.exec rule).1 i then 1 else 0
    rw [silent, cores i]
    simpa [postsTo] using before
  · have before := owed.fabric
    have first := Supplies.fabric supplies takes
    obtain ⟨dprs, given⟩ := Option.isSome_iff_exists.mp takes
    rw [given] at first
    obtain ⟨rest, queue⟩ := List.head?_eq_some_iff.mp first
    rw [waitsForFabric_wait waited, fabric, if_pos rfl, queue, List.length_cons] at before
    simp only [List.length_append, queue, List.tail_cons]
    omega

theorem Owed.platformStep {rule : Rule c} (owed : Owed s)
    (enabled : s.platform.guard rule = true) (supplies : s.Supplies rule) :
    Owed (s.platformStep rule) := by
  have step := moves enabled
  generalize result : s.platform.exec rule = r at step
  cases step with
  | pause reads rests keeps =>
      refine owed.reads reads ?_ ?_ ?_ ?_ <;> rw [result]
      · intro i
        simp [postsTo, waitsFor, keeps.state, keeps.awaits i]
      · simp [waitsForFabric, keeps.state, keeps.curReq]
      · rw [keeps.state, keeps.curReq]
        exact owed.process
      · rw [keeps.state, keeps.curReq]
        exact owed.wait
  | start reads init idle =>
      refine owed.reads reads ?_ ?_ ?_ ?_ <;> rw [result]
      · intro i
        simp [postsTo, waitsFor, init, idle]
      · simp [waitsForFabric, init, idle]
      · simp [idle]
      · simp [idle]
  | interrupt reads idle wait timer one =>
      refine owed.reads reads ?_ ?_ ?_ ?_ <;> rw [result]
      · intro i
        rw [waitsFor_wait wait, one i, waitsFor_busy (by simp [idle])]
        simp
      · simp [waitsForFabric, idle, wait, timer, Platform.isFabric]
      · simp [wait]
      · intro _
        rw [timer]
        exact .inl rfl
  | take selects idle =>
      have empty := owed.cores_idle (by simp [idle])
      have fabric := owed.fabric_idle (waitsForFabric_busy (by simp [idle]))
      refine ⟨fun i => ?_, ?_, fun _ => ?_, ?_⟩
      · simp [System.platformStep, result, empty, collects, postsTo, waitsFor, Platform.record]
      · simp [System.platformStep, result, fabric, Rule.fabricRsp, waitsForFabric,
          Platform.record]
      · simp only [System.platformStep, result]
        exact isRequest_classify _ _
      · simp [System.platformStep, result, Platform.record]
  | answer reads busy idle =>
      refine owed.reads reads ?_ ?_ ?_ ?_ <;> rw [result]
      · intro i
        simp [postsTo, waitsFor, busy, idle]
      · simp [waitsForFabric, busy, idle]
      · simp [idle]
      · simp [idle]
  | post reads busy wait curReq waits reqCore one =>
      refine owed.reads reads ?_ ?_ ?_ ?_ <;> rw [result]
      · intro i
        rw [waitsFor_wait wait, one i, waitsFor_busy (by simp [busy])]
        simp
      · simp [waitsForFabric, busy, wait, curReq, isFabric_of_waits waits]
      · simp [wait]
      · intro _
        rw [curReq]
        exact .inl waits
  | collect takes fabric wait device idle core =>
      have none := owed.fabric_idle (by rw [waitsForFabric_wait wait, device])
      refine ⟨fun i => ?_, ?_, ?_, ?_⟩
      · have before := owed.cores i
        rw [waitsFor_wait wait] at before
        simp only [System.platformStep, result, takes, Bool.true_and]
        rw [waitsFor_busy (by simp [idle])]
        cases awaited : awaits s.platform i with
        | false =>
            rw [awaited] at before
            simpa [postsTo] using before
        | true =>
            rw [awaited, if_pos rfl] at before
            have there := List.length_pos_iff.mpr (Supplies.answers supplies takes i awaited)
            simp only [postsTo, List.filter_nil, List.map_nil, List.append_nil, if_true,
              List.length_tail, Bool.false_eq_true, if_false]
            omega
      · simp [System.platformStep, result, fabric, none, waitsForFabric, idle]
      · simp [System.platformStep, result, idle]
      · simp [System.platformStep, result, idle]
  | toFabric reads busy fabric wait curReq reqCore reqFunc fetchingWay first =>
      refine owed.reads reads ?_ ?_ ?_ ?_ <;> rw [result]
      · intro i
        have other : awaits _ i = false := awaits_fabric (by rw [curReq]; exact fabric) i
        rw [waitsFor_wait wait, other, waitsFor_busy (by simp [busy])]
        rfl
      · rw [waitsForFabric_wait wait, curReq, fabric, waitsForFabric_busy (by simp [busy])]
        rfl
      · simp [wait]
      · intro _
        rw [curReq]
        exact .inr fabric
  | fromFabric takes wait fabric idle core =>
      refine owed.fabricAnswer takes supplies wait fabric ?_ ?_ ?_ ?_ ?_ <;> rw [result]
      · exact fun i => waitsFor_busy (by simp [idle]) i
      · rw [waitsForFabric_busy (by simp [idle])]
        rfl
      · simp [idle]
      · simp [idle]
  | amoStore takes wait fabric amo first state curReq reqFunc second =>
      refine owed.fabricAnswer takes supplies wait fabric ?_ ?_ ?_ ?_ ?_ <;> rw [result]
      · intro i
        rw [waitsFor_wait state]
        exact awaits_fabric (by rw [curReq]; exact fabric) i
      · rw [waitsForFabric_wait state, curReq, fabric]
        rfl
      · simp [state]
      · intro _
        rw [curReq]
        exact .inr fabric
  | nextWay takes wait fabric func more state curReq reqCore reqFunc fetchingWay =>
      refine owed.fabricAnswer takes supplies wait fabric ?_ ?_ ?_ ?_ ?_ <;> rw [result]
      · exact fun i => waitsFor_busy (by simp [state]) i
      · rw [waitsForFabric_busy (by simp [state])]
        rfl
      · intro _
        exact isRequest_of_isFabric curReq
      · simp [state]

theorem Owed.next {e : Event c} (owed : Owed s) (allowed : s.Allowed e) : Owed (s.next e) := by
  cases e with
  | sendReq i req => exact ⟨owed.cores, owed.fabric, owed.process, owed.wait⟩
  | handlePRq i undef =>
      obtain ⟨req, first⟩ := Option.isSome_iff_exists.mp (List.isSome_head?.mpr allowed)
      simp only [System.next, first, Option.elim_some]
      exact owed.handle first undef
  | adapter dprs =>
      refine ⟨owed.cores, ?_, owed.process, owed.wait⟩
      have before := owed.fabric
      obtain ⟨first, rest, queue⟩ := List.exists_cons_of_ne_nil allowed
      rw [queue, List.length_cons] at before
      simp only [System.next, queue, List.tail_cons, List.length_append, List.length_singleton]
      omega
  | platform rule => exact owed.platformStep allowed.1 allowed.2

end Owed

/-! ## Requests and responses -/

abbrev Log (c : PlatformCfg) : Type := List (System c × Event c)

def sentBy (log : Log c) (i : CoreId c) : List MMIOCRq :=
  log.filterMap fun cycle =>
    match cycle.2 with
    | .sendReq j req => if j = i then some req else none
    | _ => none

def takenIn (s : System c) : Event c → Option (CoreId c × MMIOCRq)
  | .platform rule =>
      (takesFrom s.platform rule).bind fun i => (s.cRqQ i).head?.map fun req => (i, req)
  | _ => none

def takenOf (log : Log c) : List (CoreId c × MMIOCRq) :=
  log.filterMap fun cycle => takenIn cycle.1 cycle.2

def responseIn (s : System c) : Event c → Option (CoreId c × MMIOPRs)
  | .platform rule => (s.platform.exec rule).2.response
  | _ => none

def responsesOf (log : Log c) : List (CoreId c × MMIOPRs) :=
  log.filterMap fun cycle => responseIn cycle.1 cycle.2

/-- The core whose request is served and has no response yet. -/
def unanswered (p : Platform c) : Option (CoreId c) :=
  match p.state with
  | .processReq => some p.reqCore
  | .waitResp =>
      if p.curReq = .timerInterrupt then none
      else if Platform.isFabric p.curReq && (p.reqFunc.isAmo && p.amoWaitWriteResp) then none
      else some p.reqCore
  | _ => none

/-- The requests of a core are taken in order, and each one taken has one response, which
goes to its core, or is served. -/
structure Accounted (log : Log c) (s : System c) : Prop where
  queued : ∀ i, sentBy log i =
    ((takenOf log).filter fun taken => decide (taken.1 = i)).map Prod.snd ++ s.cRqQ i
  answered : (takenOf log).map Prod.fst =
    (responsesOf log).map Prod.fst ++ (unanswered s.platform).toList

section Accounted

variable {s : System c} {log : Log c}

theorem sentBy_concat (log : Log c) (s : System c) (e : Event c) (i : CoreId c) :
    sentBy (log ++ [(s, e)]) i = sentBy log i ++ sentBy [(s, e)] i := by
  rw [sentBy, List.filterMap_append]
  rfl

theorem takenOf_concat (log : Log c) (s : System c) (e : Event c) :
    takenOf (log ++ [(s, e)]) = takenOf log ++ (takenIn s e).toList := by
  rw [takenOf, List.filterMap_append]
  cases taken : takenIn s e <;> simp [takenOf, taken]

theorem responsesOf_concat (log : Log c) (s : System c) (e : Event c) :
    responsesOf (log ++ [(s, e)]) = responsesOf log ++ (responseIn s e).toList := by
  rw [responsesOf, List.filterMap_append]
  cases sent : responseIn s e <;> simp [responsesOf, sent]

/-- A step takes a request when none is unanswered, or answers the one that is. -/
theorem unanswered_step {p : Platform c} {rule : Rule c} (enabled : p.guard rule = true)
    (process : p.state = .processReq → isRequest p.curReq = true) :
    (unanswered p).toList ++ (takesFrom p rule).toList =
      ((p.exec rule).2.response.map Prod.fst).toList ++
        (unanswered (p.exec rule).1).toList := by
  have step := moves enabled
  generalize result : p.exec rule = r at step
  have away : readsNothing p rule = true → takesFrom p rule = none := by
    intro reads
    simp only [readsNothing, Bool.and_eq_true, Option.isNone_iff_eq_none] at reads
    exact reads.2
  have silent : rule.fabricRsp.isSome = true → takesFrom p rule = none := by
    intro takes
    cases rule <;> first | rfl | cases takes
  cases step with
  | pause reads rests keeps =>
      rw [away reads]
      simp only [unanswered, keeps.state, keeps.curReq, keeps.reqCore, keeps.reqFunc,
        keeps.amoWaitWriteResp]
      simp
  | start reads init idle =>
      rw [away reads]
      simp [unanswered, init, idle]
  | interrupt reads idle wait timer one =>
      rw [away reads]
      simp [unanswered, idle, wait, timer]
  | take selects idle =>
      simp only [takesFrom, selects.noTimer, Bool.false_eq_true, if_false, selects.first]
      simp [unanswered, idle, Platform.record]
  | answer reads busy idle =>
      rw [away reads]
      simp [unanswered, busy, idle]
  | post reads busy wait curReq waits reqCore one =>
      have notTimer : p.curReq ≠ .timerInterrupt := by
        intro timer
        have request := process busy
        rw [timer] at request
        cases request
      rw [away reads]
      simp [unanswered, busy, wait, curReq, notTimer, isFabric_of_waits waits, reqCore]
  | collect takes fabric wait device idle core =>
      have none : takesFrom p rule = none := by
        cases rule <;> first | rfl | cases takes
      rw [none, core]
      simp only [unanswered, wait, idle, device, Bool.false_and]
      split <;> simp
  | toFabric reads busy fabric wait curReq reqCore reqFunc fetchingWay first =>
      have notTimer := ne_timer_of_isFabric fabric
      rw [away reads]
      cases amo : p.reqFunc.isAmo with
      | false => simp [unanswered, busy, wait, curReq, notTimer, reqFunc, amo, reqCore]
      | true =>
          simp [unanswered, busy, wait, curReq, notTimer, reqFunc, amo, first amo, reqCore]
  | fromFabric takes wait fabric idle core =>
      have notTimer := ne_timer_of_isFabric fabric
      rw [silent takes, core]
      simp only [unanswered, wait, notTimer, if_false, fabric, Bool.true_and, idle]
  | amoStore takes wait fabric amo first state curReq reqFunc second =>
      have notTimer := ne_timer_of_isFabric fabric
      rw [silent takes]
      simp [unanswered, wait, notTimer, first, state, curReq, fabric, reqFunc, amo, second]
  | nextWay takes wait fabric func more state curReq reqCore reqFunc fetchingWay =>
      have notTimer := ne_timer_of_isFabric fabric
      rw [silent takes]
      simp [unanswered, wait, notTimer, func, MMIOFunc.isAmo, state, reqCore]

theorem takesFrom_head {rule : Rule c} {i : CoreId c} (supplies : s.Supplies rule)
    (taken : takesFrom s.platform rule = some i) :
    ∃ req rest, s.cRqQ i = req :: rest := by
  cases rule <;> try cases taken
  case selectReq cRq =>
      rw [takesFrom] at taken
      split at taken
      · cases taken
      · have there := List.find?_some (p := fun i => (cRq i).isSome) taken
        rw [supplies i, List.isSome_head?] at there
        exact List.exists_cons_of_ne_nil there

theorem Accounted.platform {rule : Rule c} (accounted : Accounted log s)
    (owed : Owed s) (enabled : s.platform.guard rule = true) (supplies : s.Supplies rule) :
    Accounted (log ++ [(s, .platform rule)]) (s.platformStep rule) := by
  have step := unanswered_step enabled owed.process
  have before := accounted.answered
  cases taken : takesFrom s.platform rule with
  | none =>
      have none : takenIn s (.platform rule) = none := by
        simp only [takenIn, taken, Option.bind_none]
      refine ⟨fun i => ?_, ?_⟩
      · rw [sentBy_concat, takenOf_concat, none, accounted.queued i]
        simp [sentBy, System.platformStep, taken]
      · rw [takenOf_concat, responsesOf_concat, none]
        rw [taken] at step
        simp only [Option.toList_none, List.append_nil] at step
        simp only [Option.toList_none, List.append_nil, List.map_append]
        rw [before, step, List.append_assoc]
        simp [responseIn, System.platformStep, Option.toList_map]
  | some i =>
      obtain ⟨req, rest, queue⟩ := takesFrom_head supplies taken
      have some : takenIn s (.platform rule) = some (i, req) := by
        simp only [takenIn, taken, Option.bind_some, queue, List.head?_cons, Option.map_some]
      refine ⟨fun j => ?_, ?_⟩
      · rw [sentBy_concat, takenOf_concat, some, accounted.queued j]
        by_cases same : i = j
        · subst same
          simp [sentBy, System.platformStep, taken, queue]
        · simp [sentBy, System.platformStep, taken, same]
      · rw [takenOf_concat, responsesOf_concat, some, List.map_append, List.map_append, before]
        rw [taken] at step
        have step := congrArg (fun l => (responsesOf log).map Prod.fst ++ l) step
        simpa [responseIn, System.platformStep, Option.toList_map] using step

/-- Events that are not of the platform. -/
theorem Accounted.silent {e : Event c} {s' : System c} (accounted : Accounted log s)
    (taken : takenIn s e = none) (sent : responseIn s e = none)
    (platform : s'.platform = s.platform)
    (queued : ∀ j, s'.cRqQ j = s.cRqQ j ++ sentBy [(s, e)] j) :
    Accounted (log ++ [(s, e)]) s' := by
  refine ⟨fun j => ?_, ?_⟩
  · rw [sentBy_concat, takenOf_concat, taken, accounted.queued j, queued j, Option.toList_none,
      List.append_nil, List.append_assoc]
  · rw [takenOf_concat, responsesOf_concat, taken, sent, platform, Option.toList_none,
      List.append_nil, Option.toList_none, List.append_nil]
    exact accounted.answered

theorem Accounted.next {e : Event c} (accounted : Accounted log s) (owed : Owed s)
    (allowed : s.Allowed e) : Accounted (log ++ [(s, e)]) (s.next e) := by
  cases e with
  | sendReq i req =>
      refine accounted.silent rfl rfl rfl fun j => ?_
      by_cases same : i = j
      · subst same
        simp [sentBy, System.next]
      · simp [sentBy, System.next, same, Function.update_of_ne (Ne.symm same)]
  | handlePRq i undef =>
      obtain ⟨req, first⟩ := Option.isSome_iff_exists.mp (List.isSome_head?.mpr allowed)
      simp only [System.next, first, Option.elim_some]
      exact accounted.silent rfl rfl rfl fun j => (List.append_nil _).symm
  | adapter dprs => exact accounted.silent rfl rfl rfl fun j => (List.append_nil _).symm
  | platform rule => exact accounted.platform owed allowed.1 allowed.2

end Accounted

/-! ## Messages and answers -/

def postedIn (s : System c) (e : Event c) (i : CoreId c) : List MMIOPRq :=
  match e with
  | .platform rule => postsTo (s.platform.exec rule).2.posts i
  | _ => []

def postedTo (log : Log c) (i : CoreId c) : List MMIOPRq :=
  log.flatMap fun cycle => postedIn cycle.1 cycle.2 i

def handledBy (log : Log c) (i : CoreId c) : List MMIOPRq :=
  log.filterMap fun cycle =>
    match cycle.2 with
    | .handlePRq j _ => if j = i then (cycle.1.pRqQ j).head? else none
    | _ => none

theorem postedTo_concat (log : Log c) (s : System c) (e : Event c) (i : CoreId c) :
    postedTo (log ++ [(s, e)]) i = postedTo log i ++ postedIn s e i := by
  rw [postedTo, List.flatMap_append, List.flatMap_singleton]
  rfl

theorem handledBy_concat (log : Log c) (s : System c) (e : Event c) (i : CoreId c) :
    handledBy (log ++ [(s, e)]) i = handledBy log i ++ handledBy [(s, e)] i := by
  rw [handledBy, List.filterMap_append]
  rfl

/-- A core answers the messages in the order in which they are posted. -/
theorem posted_next {log : Log c} {s : System c} {e : Event c} {i : CoreId c}
    (allowed : s.Allowed e) (posted : postedTo log i = handledBy log i ++ s.pRqQ i) :
    postedTo (log ++ [(s, e)]) i = handledBy (log ++ [(s, e)]) i ++ (s.next e).pRqQ i := by
  rw [postedTo_concat, handledBy_concat, posted]
  cases e with
  | sendReq j req => simp [postedIn, handledBy, System.next]
  | handlePRq j undef =>
      obtain ⟨req, rest, queue⟩ := List.exists_cons_of_ne_nil allowed
      simp only [System.next, queue, List.head?_cons, Option.elim_some]
      by_cases same : j = i
      · subst same
        simp [postedIn, handledBy, System.handle, queue]
      · simp [postedIn, handledBy, System.handle, same, Function.update_of_ne (Ne.symm same)]
  | adapter dprs => simp [postedIn, handledBy, System.next]
  | platform rule => simp [postedIn, handledBy, System.next, System.platformStep]

/-! ## Runs -/

section Runs

variable {u : Platform c} {msip mtip : CoreId c → BitVec 1} {log : Log c} {s : System c}

theorem owed_of_run (run : (system u msip mtip).Run log s) : Owed s :=
  run.invariant (fun _ s => Owed s) (Owed.reset u msip mtip)
    fun _ _ _ _ owed allowed => owed.next allowed

theorem requests_accounted (run : (system u msip mtip).Run log s) : Accounted log s :=
  run.invariant Accounted ⟨fun _ => rfl, rfl⟩
    fun _ _ _ before accounted allowed => accounted.next (owed_of_run before) allowed

theorem posted_of_run (run : (system u msip mtip).Run log s) (i : CoreId c) :
    postedTo log i = handledBy log i ++ s.pRqQ i :=
  run.invariant (fun log s => postedTo log i = handledBy log i ++ s.pRqQ i) rfl
    fun _ _ _ _ posted allowed => posted_next allowed posted

end Runs

end Toooba.MMIOSystem
