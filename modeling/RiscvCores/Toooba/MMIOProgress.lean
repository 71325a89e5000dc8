import Mathlib.Algebra.BigOperators.Fin
import Mathlib.Algebra.Order.BigOperators.Group.Finset
import RiscvCores.Toooba.MMIOSystemRuns

/-!
# Progress of the platform

A service never gets stuck and each of its steps brings its end nearer.  So every run goes on,
without new requests, to a state in which all requests are answered.
-/

set_option autoImplicit false

namespace Toooba.MMIOSystem

open Toooba.Amo Toooba.MMIOPlatform

variable {c : PlatformCfg}

/-! ## The end of a service -/

/-- Everything but new requests, the host and the cycle counter. -/
def serves : Event c → Bool
  | .sendReq _ _ => false
  | .platform rule => !rule.quiet
  | _ => true

/-- Requests to the fabric after the present one. -/
def moreReads (p : Platform c) : Nat :=
  match p.reqFunc with
  | .inst maxWay => maxWay - p.fetchingWay
  | .amo _ => if p.state = .waitResp ∧ p.amoWaitWriteResp = true then 0 else 1
  | _ => 0

/-- A bound on the events up to `selectReq`. -/
def remaining (s : System c) : Nat :=
  match s.platform.state with
  | .processReq =>
      if Platform.isFabric s.platform.curReq then 3 * moreReads s.platform + 3
      else c.coreNum + 2
  | .waitResp =>
      if Platform.isFabric s.platform.curReq then
        3 * moreReads s.platform + 1 + s.fabricReqQ.length
      else 1 + ∑ i, (s.pRqQ i).length
  | _ => 0

def Busy (s : System c) : Prop := s.platform.state = .processReq ∨ s.platform.state = .waitResp

section Progress

variable {s : System c}

theorem remaining_idle (idle : s.platform.state = .selectReq) : remaining s = 0 := by
  rw [remaining, idle]

theorem remaining_process (busy : s.platform.state = .processReq) : remaining s =
    if Platform.isFabric s.platform.curReq then 3 * moreReads s.platform + 3
    else c.coreNum + 2 := by
  rw [remaining, busy]

theorem remaining_wait (wait : s.platform.state = .waitResp) : remaining s =
    if Platform.isFabric s.platform.curReq then
      3 * moreReads s.platform + 1 + s.fabricReqQ.length
    else 1 + ∑ i, (s.pRqQ i).length := by
  rw [remaining, wait]

/-- At most one message for each core. -/
theorem Owed.messages_le (owed : Owed s) : ∑ i, (s.pRqQ i).length ≤ c.coreNum := by
  have each : ∀ i ∈ Finset.univ, (s.pRqQ i).length ≤ 1 := by
    intro i _
    have one := owed.cores i
    split at one <;> omega
  have total := Finset.sum_le_card_nsmul Finset.univ (fun i => (s.pRqQ i).length) 1 each
  simpa using total

/-- A message is under way: the platform waits for cores. -/
theorem Owed.waits_of_message (owed : Owed s) {i : CoreId c} (pending : s.pRqQ i ≠ []) :
    s.platform.state = .waitResp ∧ Platform.isFabric s.platform.curReq = false := by
  have one := owed.cores i
  have there := List.length_pos_iff.mpr pending
  have waits : waitsFor s.platform i = true := by
    by_contra none
    rw [if_neg none] at one
    omega
  simp only [waitsFor, Bool.and_eq_true, decide_eq_true_eq] at waits
  refine ⟨waits.1, ?_⟩
  cases fabric : Platform.isFabric s.platform.curReq with
  | false => rfl
  | true =>
      rw [awaits_fabric fabric] at waits
      cases waits.2

theorem Owed.waits_of_fabric (owed : Owed s) (pending : s.fabricReqQ ≠ []) :
    s.platform.state = .waitResp ∧ Platform.isFabric s.platform.curReq = true := by
  have one := owed.fabric
  have there := List.length_pos_iff.mpr pending
  have waits : waitsForFabric s.platform = true := by
    by_contra none
    rw [if_neg none] at one
    omega
  simpa only [waitsForFabric, Bool.and_eq_true, decide_eq_true_eq] using waits

theorem remaining_handle (owed : Owed s) {i : CoreId c} {req : MMIOPRq}
    (first : (s.pRqQ i).head? = some req) (undef : BitVec 1) :
    remaining (s.handle i req undef) < remaining s := by
  obtain ⟨rest, queue⟩ := List.head?_eq_some_iff.mp first
  obtain ⟨wait, device⟩ := owed.waits_of_message (i := i) (by simp [queue])
  rw [remaining_wait wait, remaining_wait (s := s.handle i req undef) wait]
  change (if Platform.isFabric s.platform.curReq then _ else _) < _
  rw [device, if_neg Bool.false_ne_true, if_neg Bool.false_ne_true]
  have fewer : ∑ j, ((s.handle i req undef).pRqQ j).length < ∑ j, (s.pRqQ j).length := by
    refine Finset.sum_lt_sum (fun j _ => ?_) ⟨i, Finset.mem_univ i, ?_⟩
    · by_cases same : j = i
      · subst same
        simp [System.handle]
      · simp [System.handle, Function.update_of_ne same]
    · simp [System.handle, queue]
  omega

theorem remaining_adapter (owed : Owed s) (pending : s.fabricReqQ ≠ []) (dprs : MMIODataPRs) :
    remaining (s.next (.adapter dprs)) < remaining s := by
  obtain ⟨wait, fabric⟩ := owed.waits_of_fabric pending
  have there := List.length_pos_iff.mpr pending
  rw [remaining_wait wait, remaining_wait (s := s.next (.adapter dprs)) wait]
  change (if Platform.isFabric s.platform.curReq then _ else _) < _
  rw [fabric, if_pos rfl, if_pos rfl]
  simp only [System.next, List.length_tail]
  omega

theorem postsTo_nil (i : CoreId c) : postsTo ([] : List (CoreId c × MMIOPRq)) i = [] := rfl

theorem remaining_platform {rule : Rule c} (owed : Owed s) (busy : Busy s)
    (enabled : s.platform.guard rule = true) (supplies : s.Supplies rule)
    (loud : rule.quiet = false) : remaining (s.platformStep rule) < remaining s := by
  have after := owed.platformStep enabled supplies
  have step := moves enabled
  generalize result : s.platform.exec rule = r at step
  have platform : (s.platformStep rule).platform = r.1 := by rw [← result]; rfl
  have positive : 0 < remaining s := by
    rcases busy with busy | wait
    · rw [remaining_process busy]
      split <;> omega
    · rw [remaining_wait wait]
      split <;> omega
  have ends : r.1.state = .selectReq → remaining (s.platformStep rule) < remaining s := by
    intro idle
    rw [remaining_idle (by rw [platform, idle])]
    exact positive
  cases step with
  | pause reads rests keeps =>
      rcases rests with quiet | idle
      · rw [loud] at quiet
        cases quiet
      · rcases busy with busy | wait
        · rw [idle] at busy
          cases busy
        · rw [idle] at wait
          cases wait
  | start reads init idle => exact ends idle
  | interrupt reads idle wait timer one =>
      rcases busy with busy | wait
      · rw [idle] at busy
        cases busy
      · rw [idle] at wait
        cases wait
  | take selects idle =>
      rcases busy with busy | wait
      · rw [idle] at busy
        cases busy
      · rw [idle] at wait
        cases wait
  | answer reads process idle => exact ends idle
  | post reads process wait curReq waits reqCore one =>
      have few := after.messages_le
      rw [remaining_wait (by rw [platform, wait]), platform, curReq, isFabric_of_waits waits,
        remaining_process process, isFabric_of_waits waits, if_neg Bool.false_ne_true,
        if_neg Bool.false_ne_true]
      omega
  | collect takes fabric wait device idle core => exact ends idle
  | toFabric reads process fabric wait curReq reqCore reqFunc fetchingWay first =>
      have one := after.fabric
      rw [waitsForFabric_wait (by rw [platform, wait]), platform, curReq, fabric, if_pos rfl] at one
      have more : moreReads (s.platformStep rule).platform ≤ moreReads s.platform := by
        rw [platform]
        simp only [moreReads, reqFunc, fetchingWay]
        split
        · exact Nat.le_refl _
        · simp only [process, reduceCtorEq, false_and, if_false]
          split <;> omega
        · exact Nat.le_refl _
      rw [remaining_wait (by rw [platform, wait]), platform, curReq, fabric,
        remaining_process process, fabric, if_pos rfl, if_pos rfl]
      rw [platform] at more
      omega
  | fromFabric takes wait fabric idle core => exact ends idle
  | amoStore takes wait fabric amo first state curReq reqFunc second =>
      have one := after.fabric
      rw [waitsForFabric_wait (by rw [platform, state]), platform, curReq, fabric,
        if_pos rfl] at one
      rw [remaining_wait (by rw [platform, state]), platform, curReq, fabric,
        remaining_wait wait, fabric, if_pos rfl, if_pos rfl]
      obtain ⟨func, isAmo⟩ : ∃ func, s.platform.reqFunc = .amo func := by
        cases func : s.platform.reqFunc <;> rw [func] at amo <;> try cases amo
        exact ⟨_, rfl⟩
      simp only [moreReads, reqFunc, isAmo, state, second, wait, first, and_self, if_true,
        Bool.false_eq_true, and_false, if_false]
      omega
  | nextWay takes wait fabric func more state curReq reqCore reqFunc fetchingWay =>
      rw [remaining_process (by rw [platform, state]), platform, curReq,
        remaining_wait wait, fabric, if_pos rfl, if_pos rfl]
      simp only [moreReads, reqFunc, func, fetchingWay]
      omega

/-- Methods and the cycle counter touch no FIFO. -/
theorem platformStep_quiet {rule : Rule c} (quiet : rule.quiet = true) :
    s.platformStep rule = { s with platform := (s.platform.exec rule).1 } := by
  have reads : readsNothing s.platform rule = true := by
    cases rule <;> first | rfl | cases quiet
  have silent := (exec_quiet (s := s.platform) quiet).1
  simp only [platformStep_queues reads, silent, postsTo_nil, List.append_nil, Option.toList_none]

theorem remaining_quiet {rule : Rule c} (quiet : rule.quiet = true) :
    remaining (s.platformStep rule) = remaining s := by
  have keeps : Keeps s.platform (s.platform.exec rule).1 := Keeps.quiet quiet
  rw [platformStep_quiet quiet]
  simp only [remaining, moreReads, keeps.state, keeps.curReq, keeps.reqFunc, keeps.fetchingWay,
    keeps.amoWaitWriteResp]

/-- A step of a service brings its end nearer, any other event leaves it where it is. -/
theorem remaining_next {e : Event c} (owed : Owed s) (busy : Busy s) (allowed : s.Allowed e) :
    if serves e then remaining (s.next e) < remaining s
    else remaining (s.next e) = remaining s := by
  cases e with
  | sendReq i req => rfl
  | handlePRq i undef =>
      obtain ⟨req, first⟩ := Option.isSome_iff_exists.mp (List.isSome_head?.mpr allowed)
      simp only [System.next, first, Option.elim_some]
      exact remaining_handle owed first undef
  | adapter dprs => exact remaining_adapter owed allowed dprs
  | platform rule =>
      cases quiet : rule.quiet with
      | true =>
          simp only [serves, quiet]
          exact remaining_quiet quiet
      | false =>
          simp only [serves, quiet]
          exact remaining_platform owed busy allowed.1 allowed.2 quiet

/-- A recorded request can be taken up. -/
theorem Owed.enabled_process (owed : Owed s) (busy : s.platform.state = .processReq) :
    ∃ rule, s.Allowed (.platform rule) ∧ rule.quiet = false := by
  have request := owed.process busy
  cases cur : s.platform.curReq with
  | invalid =>
      rw [cur] at request
      cases request
  | timerInterrupt =>
      rw [cur] at request
      cases request
  | msip offset =>
      refine ⟨.processMSIP, ⟨?_, trivial⟩, rfl⟩
      simp [Platform.guard, cur, busy, Platform.isMSIP]
  | mTimeCmp offset =>
      refine ⟨.processMTimeCmp, ⟨?_, trivial⟩, rfl⟩
      simp [Platform.guard, cur, busy, Platform.isMTimeCmp]
  | mTime => exact ⟨.processMTime, ⟨by simp [Platform.guard, cur, busy], trivial⟩, rfl⟩
  | toHost => exact ⟨.processToHost, ⟨by simp [Platform.guard, cur, busy], trivial⟩, rfl⟩
  | fromHost =>
      exact ⟨.processFromHost, ⟨by simp [Platform.guard, cur, busy], trivial⟩, rfl⟩
  | mmioFabricAdapter addr =>
      have fabric : Platform.isFabric s.platform.curReq = true := by rw [cur]; rfl
      have sends : ∀ kind : MMIOFunc → Bool, kind s.platform.reqFunc = true →
          s.platform.fabricIn .processReq kind = true :=
        fun kind known => fabricIn_iff.mpr ⟨fabric, busy, known⟩
      cases func : s.platform.reqFunc with
      | inst maxWay =>
          exact ⟨.toFabricIFetchReq, ⟨sends _ (by rw [func]; rfl), trivial⟩, rfl⟩
      | ld => exact ⟨.toFabricReq, ⟨sends _ (by rw [func]; rfl), trivial⟩, rfl⟩
      | st => exact ⟨.toFabricReq, ⟨sends _ (by rw [func]; rfl), trivial⟩, rfl⟩
      | amo f => exact ⟨.toFabricAmoReq, ⟨sends _ (by rw [func]; rfl), trivial⟩, rfl⟩

/-- With the answers of all cores there, the wait ends. -/
theorem Owed.enabled_collect (wait : s.platform.state = .waitResp)
    (waits : waitsForCores s.platform.curReq = true)
    (answered : ∀ i, awaits s.platform i = true → s.cRsQ i ≠ []) :
    ∃ rule, s.Allowed (.platform rule) ∧ rule.quiet = false := by
  cases cur : s.platform.curReq with
  | timerInterrupt =>
      exact ⟨.waitTimerInterruptDone, ⟨by simp [Platform.guard, cur, wait], answered⟩, rfl⟩
  | msip offset =>
      refine ⟨.waitMSIPDone fun i => (s.cRsQ i).headD 0,
        ⟨by simp [Platform.guard, cur, wait, Platform.isMSIP], fun i awaited => ?_⟩, rfl⟩
      obtain ⟨first, rest, queue⟩ := List.exists_cons_of_ne_nil (answered i awaited)
      simp [queue]
  | mTimeCmp offset =>
      refine ⟨.waitMTimeCmpDone, ⟨?_, answered⟩, rfl⟩
      simp [Platform.guard, cur, wait, Platform.isMTimeCmp]
  | mTime => exact ⟨.waitMTimeDone, ⟨by simp [Platform.guard, cur, wait], answered⟩, rfl⟩
  | _ =>
      rw [cur] at waits
      cases waits

theorem Owed.enabled_fabric (wait : s.platform.state = .waitResp)
    (fabric : Platform.isFabric s.platform.curReq = true) {dprs : MMIODataPRs}
    (answered : s.fabricRspQ.head? = some dprs) :
    ∃ rule, s.Allowed (.platform rule) ∧ rule.quiet = false := by
  have receives : ∀ kind : MMIOFunc → Bool, kind s.platform.reqFunc = true →
      s.platform.fabricIn .waitResp kind = true :=
    fun kind known => fabricIn_iff.mpr ⟨fabric, wait, known⟩
  cases func : s.platform.reqFunc with
  | inst maxWay =>
      exact ⟨.fromFabricIFetchRsp dprs, ⟨receives _ (by rw [func]; rfl), answered⟩, rfl⟩
  | ld => exact ⟨.fromFabricRsp dprs, ⟨receives _ (by rw [func]; rfl), answered⟩, rfl⟩
  | st => exact ⟨.fromFabricRsp dprs, ⟨receives _ (by rw [func]; rfl), answered⟩, rfl⟩
  | amo f => exact ⟨.fromFabricAmoRsp dprs, ⟨receives _ (by rw [func]; rfl), answered⟩, rfl⟩

/-- A service never gets stuck. -/
theorem Owed.enabled (owed : Owed s) (busy : Busy s) : ∃ e, s.Allowed e ∧ serves e = true := by
  have ofRule : (∃ rule, s.Allowed (.platform rule) ∧ rule.quiet = false) →
      ∃ e, s.Allowed e ∧ serves e = true := by
    rintro ⟨rule, allowed, loud⟩
    exact ⟨.platform rule, allowed, by simp [serves, loud]⟩
  rcases busy with busy | wait
  · exact ofRule (owed.enabled_process busy)
  rcases owed.wait wait with waits | fabric
  · by_cases pending : ∃ i, s.pRqQ i ≠ []
    · obtain ⟨i, pending⟩ := pending
      exact ⟨.handlePRq i 0, pending, rfl⟩
    · refine ofRule (Owed.enabled_collect wait waits fun i awaited empty => ?_)
      have one := owed.cores i
      have none : s.pRqQ i = [] := not_not.mp (not_exists.mp pending i)
      rw [waitsFor_wait wait, awaited, if_pos rfl, empty, none] at one
      cases one
  · have one := owed.fabric
    rw [waitsForFabric_wait wait, fabric, if_pos rfl] at one
    cases asked : s.fabricReqQ with
    | cons first rest => exact ⟨.adapter ⟨false, 0⟩, by simp [System.Allowed, asked], rfl⟩
    | nil =>
        cases answered : s.fabricRspQ with
        | nil =>
            rw [asked, answered] at one
            cases one
        | cons dprs rest =>
            exact ofRule (@Owed.enabled_fabric _ _ wait fabric dprs (by rw [answered]; rfl))

end Progress

/-! ## All requests are answered -/

def isNewRequest : Event c → Bool
  | .sendReq _ _ => true
  | _ => false

section Reaches

variable {u : Platform c} {msip mtip : CoreId c → BitVec 1} {log : Log c} {s : System c}

/-- The run goes on, without new requests, to a state with a property. -/
def Reaches (u : Platform c) (msip mtip : CoreId c → BitVec 1) (log : Log c)
    (goal : System c → Prop) : Prop :=
  ∃ rest s', (system u msip mtip).Run (log ++ rest) s' ∧
    (∀ cycle ∈ rest, isNewRequest cycle.2 = false) ∧ goal s'

theorem Reaches.here {goal : System c → Prop} (run : (system u msip mtip).Run log s)
    (holds : goal s) : Reaches u msip mtip log goal :=
  ⟨[], s, by rwa [List.append_nil], by simp, holds⟩

theorem Reaches.step {goal : System c → Prop} {e : Event c} (quiet : isNewRequest e = false)
    (rest : Reaches u msip mtip (log ++ [(s, e)]) goal) : Reaches u msip mtip log goal := by
  obtain ⟨rest, s', run, none, holds⟩ := rest
  rw [List.append_assoc] at run
  refine ⟨[(s, e)] ++ rest, s', run, fun cycle member => ?_, holds⟩
  rcases List.mem_append.mp member with first | later
  · rw [List.mem_singleton.mp first]
    exact quiet
  · exact none cycle later

theorem Reaches.trans {goal more : System c → Prop} (first : Reaches u msip mtip log goal)
    (then_ : ∀ log' s', (system u msip mtip).Run log' s' → goal s' →
      Reaches u msip mtip log' more) : Reaches u msip mtip log more := by
  obtain ⟨rest, s', run, none, holds⟩ := first
  obtain ⟨rest', s'', run', none', holds'⟩ := then_ _ s' run holds
  rw [List.append_assoc] at run'
  refine ⟨rest ++ rest', s'', run', fun cycle member => ?_, holds'⟩
  rcases List.mem_append.mp member with first | later
  · exact none cycle first
  · exact none' cycle later

/-- A service stays busy until it is over. -/
theorem busy_next {e : Event c} (busy : Busy s) (allowed : s.Allowed e) :
    Busy (s.next e) ∨ (s.next e).platform.state = .selectReq := by
  cases e with
  | sendReq i req => exact .inl busy
  | handlePRq i undef =>
      obtain ⟨req, first⟩ := Option.isSome_iff_exists.mp (List.isSome_head?.mpr allowed)
      simp only [System.next, first, Option.elim_some]
      exact .inl busy
  | adapter dprs => exact .inl busy
  | platform rule =>
      have step := moves allowed.1
      simp only [Busy, System.next, System.platformStep]
      generalize s.platform.exec rule = r at step
      cases step with
      | pause reads rests keeps =>
          rw [keeps.state]
          exact .inl busy
      | start reads init idle => exact .inr idle
      | interrupt reads idle wait timer one => exact .inl (.inr wait)
      | take selects idle => exact .inl (.inl rfl)
      | answer reads process idle => exact .inr idle
      | post reads process wait curReq waits reqCore one => exact .inl (.inr wait)
      | collect takes fabric wait device idle core => exact .inr idle
      | toFabric reads process fabric wait curReq reqCore reqFunc fetchingWay first =>
          exact .inl (.inr wait)
      | fromFabric takes wait fabric idle core => exact .inr idle
      | amoStore takes wait fabric amo first state curReq reqFunc second =>
          exact .inl (.inr state)
      | nextWay takes wait fabric func more state curReq reqCore reqFunc fetchingWay =>
          exact .inl (.inl state)

/-- A service ends, with whatever its steps keep. -/
theorem service_ends (keep : System c → Prop)
    (keeps : ∀ s e, Busy s → s.Allowed e → serves e = true → keep s → keep (s.next e))
    (run : (system u msip mtip).Run log s) (busy : Busy s) (holds : keep s) :
    Reaches u msip mtip log fun s' => s'.platform.state = .selectReq ∧ keep s' := by
  induction left : remaining s using Nat.strongRecOn generalizing log s with
  | ind n ih =>
      have owed := owed_of_run run
      obtain ⟨e, allowed, serving⟩ := owed.enabled busy
      have quiet : isNewRequest e = false := by
        cases e <;> first | rfl | cases serving
      have nearer := remaining_next owed busy allowed
      rw [serving, if_pos rfl, left] at nearer
      have after := run.cycle allowed
      have kept := keeps s e busy allowed serving holds
      refine .step (s := s) quiet ?_
      rcases busy_next busy allowed with busy | idle
      · exact ih _ nearer after busy kept rfl
      · exact .here after ⟨idle, kept⟩

theorem takesFrom_busy {rule : Rule c} (busy : Busy s) (enabled : s.platform.guard rule = true) :
    takesFrom s.platform rule = none := by
  cases rule <;> try rfl
  have idle : s.platform.state = .selectReq := of_decide_eq_true enabled
  rcases busy with busy | wait
  · rw [idle] at busy
    cases busy
  · rw [idle] at wait
    cases wait

/-- The steps of a service take no request. -/
theorem cRqQ_next {e : Event c} (busy : Busy s) (allowed : s.Allowed e)
    (serving : serves e = true) : (s.next e).cRqQ = s.cRqQ := by
  cases e with
  | sendReq i req => cases serving
  | handlePRq i undef =>
      obtain ⟨req, first⟩ := Option.isSome_iff_exists.mp (List.isSome_head?.mpr allowed)
      simp only [System.next, first, Option.elim_some]
      rfl
  | adapter dprs => rfl
  | platform rule =>
      simp only [System.next, System.platformStep, takesFrom_busy busy allowed.1, reduceCtorEq,
        if_false]

/-- The posts of a timer interrupt are answered. -/
structure Interrupting (q : CoreId c → List MMIOCRq) (s : System c) : Prop where
  queued : s.cRqQ = q
  timer : s.platform.state = .waitResp → s.platform.curReq = .timerInterrupt
  away : s.platform.state ≠ .processReq
  done : ∀ i, s.platform.needTimerInt i = false

theorem Interrupting.next {q : CoreId c → List MMIOCRq} {e : Event c} (busy : Busy s)
    (allowed : s.Allowed e) (serving : serves e = true) (holds : Interrupting q s) :
    Interrupting q (s.next e) := by
  have queued := (cRqQ_next busy allowed serving).trans holds.queued
  have wait : s.platform.state = .waitResp := busy.resolve_left holds.away
  have timer := holds.timer wait
  cases e with
  | sendReq i req => cases serving
  | handlePRq i undef =>
      obtain ⟨req, first⟩ := Option.isSome_iff_exists.mp (List.isSome_head?.mpr allowed)
      simp only [System.next, first, Option.elim_some] at queued ⊢
      exact ⟨queued, holds.timer, holds.away, holds.done⟩
  | adapter dprs => exact ⟨queued, holds.timer, holds.away, holds.done⟩
  | platform rule =>
      have only : rule = .waitTimerInterruptDone := by
        have enabled := allowed.1
        cases rule <;>
          simp_all [Platform.guard, Platform.fabricIn, serves, Rule.quiet, Platform.isMSIP,
            Platform.isMTimeCmp, Platform.isFabric]
      subst only
      refine ⟨queued, ?_, ?_, holds.done⟩
      · intro wait
        cases wait
      · intro process
        cases process

def selectEvent (s : System c) : Event c := .platform (.selectReq fun i => (s.cRqQ i).head?)

theorem selectEvent_allowed (idle : s.platform.state = .selectReq) : s.Allowed (selectEvent s) :=
  ⟨decide_eq_true idle, fun _ => rfl⟩

/-- Interrupts that are due are posted before a request is taken. -/
theorem interrupts_posted (run : (system u msip mtip).Run log s)
    (idle : s.platform.state = .selectReq) :
    Reaches u msip mtip log fun s' => s'.platform.state = .selectReq ∧ s'.cRqQ = s.cRqQ ∧
      ∀ i, s'.platform.needTimerInt i = false := by
  cases due : (List.finRange c.coreNum).any s.platform.needTimerInt with
  | false =>
      refine .here run ⟨idle, rfl, fun i => ?_⟩
      simpa using List.any_eq_false.mp due i (List.mem_finRange i)
  | true =>
      have after := run.cycle (i := selectEvent s) (selectEvent_allowed idle)
      have moved : s.next (selectEvent s) = s.platformStep (.selectReq fun i => (s.cRqQ i).head?) :=
        rfl
      have taken : takesFrom s.platform (.selectReq fun i => (s.cRqQ i).head?) = none := by
        simp only [takesFrom, due, if_true]
      have posted : (s.next (selectEvent s)).platform =
          { s.platform with
            mtip := fun i => s.platform.mtip i || s.platform.needTimerInt i
            state := .waitResp
            curReq := .timerInterrupt
            waitMTIPCRs := s.platform.needTimerInt } := by
        change (s.platform.selectReq _).1 = _
        simp only [Platform.selectReq, due, if_true]
      have interrupting : Interrupting s.cRqQ (s.next (selectEvent s)) := by
        refine ⟨?_, ?_, ?_, fun i => ?_⟩
        · rw [moved]
          simp only [System.platformStep, taken, reduceCtorEq, if_false]
        · rw [posted]
          exact fun _ => rfl
        · rw [posted]
          rintro ⟨⟩
        · rw [posted]
          change (!(s.platform.mtip i || (!s.platform.mtip i &&
            decide (s.platform.mtimecmp i ≤ s.platform.mtime))) &&
            decide (s.platform.mtimecmp i ≤ s.platform.mtime)) = false
          cases s.platform.mtip i <;>
            cases decide (s.platform.mtimecmp i ≤ s.platform.mtime) <;> rfl
      have busy : Busy (s.next (selectEvent s)) := .inr (by rw [posted])
      have ends := service_ends (Interrupting s.cRqQ)
        (fun _ _ busy allowed serving holds => holds.next busy allowed serving) after busy
        interrupting
      obtain ⟨rest, s', run', none, idle', holds⟩ := ends
      exact .step (s := s) (e := selectEvent s) rfl
        ⟨rest, s', run', none, idle', holds.queued, holds.done⟩

/-- Requests that wait to be taken. -/
def waiting (s : System c) : Nat := ∑ i, (s.cRqQ i).length

/-- The first core with a request is served. -/
theorem request_served (run : (system u msip mtip).Run log s)
    (idle : s.platform.state = .selectReq) (quiet : ∀ i, s.platform.needTimerInt i = false)
    (pending : ∃ i, s.cRqQ i ≠ []) :
    Reaches u msip mtip log fun s' =>
      s'.platform.state = .selectReq ∧ waiting s' < waiting s := by
  have noTimer : (List.finRange c.coreNum).any s.platform.needTimerInt = false := by
    simp [quiet]
  obtain ⟨j, pending⟩ := pending
  obtain ⟨i, first⟩ : ∃ i, (List.finRange c.coreNum).find?
      (fun i => ((s.cRqQ i).head?).isSome) = some i := by
    refine Option.isSome_iff_exists.mp (List.find?_isSome.mpr ⟨j, List.mem_finRange j, ?_⟩)
    simpa using pending
  obtain ⟨req, found⟩ := Option.isSome_iff_exists.mp
    (List.find?_some (p := fun i => ((s.cRqQ i).head?).isSome) first)
  have selects : Selects s.platform (fun i => (s.cRqQ i).head?) i req := ⟨noTimer, first, found⟩
  have taken : takesFrom s.platform (.selectReq fun i => (s.cRqQ i).head?) = some i := by
    simp only [takesFrom, noTimer, Bool.false_eq_true, if_false, first]
  have after := run.cycle (i := selectEvent s) (selectEvent_allowed idle)
  have busy : Busy (s.next (selectEvent s)) := by
    left
    change (s.platform.exec _).1.state = _
    rw [selects.exec]
    rfl
  have fewer : waiting (s.next (selectEvent s)) < waiting s := by
    obtain ⟨rest, queue⟩ := List.head?_eq_some_iff.mp found
    refine Finset.sum_lt_sum (fun k _ => ?_) ⟨i, Finset.mem_univ i, ?_⟩
    · change (if takesFrom _ _ = some k then (s.cRqQ k).tail else s.cRqQ k).length ≤ _
      split
      · simp
      · exact Nat.le_refl _
    · change (if takesFrom _ _ = some i then (s.cRqQ i).tail else s.cRqQ i).length < _
      rw [if_pos taken, queue]
      simp
  have ends := service_ends (fun s' => s'.cRqQ = (s.next (selectEvent s)).cRqQ)
    (fun _ _ busy allowed serving same => (cRqQ_next busy allowed serving).trans same) after
    busy rfl
  obtain ⟨rest, s', run', none, idle', same⟩ := ends
  refine .step (s := s) (e := selectEvent s) rfl ⟨rest, s', run', none, idle', ?_⟩
  rw [waiting, same]
  exact fewer

theorem drained (run : (system u msip mtip).Run log s) (idle : s.platform.state = .selectReq) :
    Reaches u msip mtip log fun s' => s'.platform.state = .selectReq ∧ ∀ i, s'.cRqQ i = [] := by
  induction left : waiting s using Nat.strongRecOn generalizing log s with
  | ind n ih =>
      refine (interrupts_posted run idle).trans fun log' s' run' ⟨idle', same, quiet⟩ => ?_
      by_cases pending : ∃ i, s'.cRqQ i ≠ []
      · refine (request_served run' idle' quiet pending).trans
          fun log'' s'' run'' ⟨idle'', fewer⟩ => ih _ ?_ run'' idle'' rfl
        have count : waiting s' = waiting s := by rw [waiting, waiting, same]
        rw [← left, ← count]
        exact fewer
      · exact .here run' ⟨idle', fun i => not_not.mp (not_exists.mp pending i)⟩

/-- Every run can be continued until no request waits or is served. -/
theorem all_answered (run : (system u msip mtip).Run log s) :
    Reaches u msip mtip log fun s' => s'.platform.state = .selectReq ∧ ∀ i, s'.cRqQ i = [] := by
  cases state : s.platform.state with
  | init =>
      have allowed : s.Allowed (.platform (.start 0 0)) := ⟨decide_eq_true state, trivial⟩
      have after := run.cycle (i := Event.platform (Rule.start 0 0)) allowed
      exact .step rfl (drained after rfl)
  | selectReq => exact drained run state
  | processReq =>
      refine (service_ends (fun _ => True) (fun _ _ _ _ _ _ => trivial) run (.inl state)
        trivial).trans fun _ _ run' ⟨idle, _⟩ => drained run' idle
  | waitResp =>
      refine (service_ends (fun _ => True) (fun _ _ _ _ _ _ => trivial) run (.inr state)
        trivial).trans fun _ _ run' ⟨idle, _⟩ => drained run' idle

end Reaches

end Toooba.MMIOSystem
