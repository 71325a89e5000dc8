import RiscvCores.Toooba.MMIOProgress

/-!
# Timer interrupts

The registers `mtip` follow what is sent to the cores, except that `processMTime` does not
write them.  They start set, so a core to which nothing was sent counts as interrupted.
-/

set_option autoImplicit false

namespace Toooba.MMIOSystem

open Toooba.Amo Toooba.MMIOPlatform

variable {c : PlatformCfg}

/-! ## Values of MTIP on the way to a core -/

def isMTimeWrite : Rule c → Bool
  | .processMTime => true
  | _ => false

def mtipValues (posts : List MMIOPRq) : List (BitVec 32) :=
  (posts.filter fun post => decide (post.target = .mtip)).map MMIOPRq.data

/-- The values of MTIP that a step sends to a core, and whether it processes `mtime`. -/
def mtipSentIn (s : System c) (e : Event c) (i : CoreId c) : List (Bool × BitVec 32) :=
  match e with
  | .platform rule =>
      (mtipValues (postsTo (s.platform.exec rule).2.posts i)).map fun v => (isMTimeWrite rule, v)
  | _ => []

def mtipSent (log : Log c) (i : CoreId c) : List (Bool × BitVec 32) :=
  log.flatMap fun cycle => mtipSentIn cycle.1 cycle.2 i

def lastMTIP (log : Log c) (i : CoreId c) : Option (Bool × BitVec 32) := (mtipSent log i).getLast?

theorem lastMTIP_concat (log : Log c) (s : System c) (e : Event c) (i : CoreId c) :
    lastMTIP (log ++ [(s, e)]) i = (mtipSentIn s e i).getLast?.or (lastMTIP log i) := by
  rw [lastMTIP, mtipSent, List.flatMap_append, List.flatMap_singleton, List.getLast?_append]
  rfl

/-! ## Steps -/

/-- What a step does to the registers of one core, and the values of MTIP it sends. -/
inductive TimerStep (i : CoreId c) (p p' : Platform c) (rule : Rule c) : List (BitVec 32) → Prop
  | same (cmp : p'.mtimecmp i = p.mtimecmp i) (time : p'.mtime = p.mtime)
      (shadow : p'.mtip i = p.mtip i) : TimerStep i p p' rule []
  | tick (inc : rule = .incTime) (cmp : p'.mtimecmp i = p.mtimecmp i)
      (time : p'.mtime = p.mtime + c.ticksPerTimeInc) (shadow : p'.mtip i = p.mtip i) :
      TimerStep i p p' rule []
  | interrupt (need : p.needTimerInt i = true) (cmp : p'.mtimecmp i = p.mtimecmp i)
      (time : p'.mtime = p.mtime) (shadow : p'.mtip i = true) : TimerStep i p p' rule [1]
  | raise (due : p'.mtimecmp i ≤ p'.mtime) : TimerStep i p p' rule [1]
  | clear (early : p'.mtime < p'.mtimecmp i)
      (shadow : isMTimeWrite rule = false → p'.mtip i = false) : TimerStep i p p' rule [0]
  | write (busy : p.state = .processReq) (agrees : p.mtip i = true ↔ p'.mtimecmp i ≤ p'.mtime)
      (shadow : p'.mtip i = p.mtip i) : TimerStep i p p' rule []

theorem mtipValues_postMTIP (value : Bool) :
    mtipValues [postMTIP value] = [if value then 1 else 0] := rfl

section Steps

variable {p : Platform c}

theorem timerStep_selectReq (cRq : CoreId c → Option MMIOCRq) (i : CoreId c) :
    TimerStep i p (p.exec (.selectReq cRq)).1 (.selectReq cRq)
      (mtipValues (postsTo (p.exec (.selectReq cRq)).2.posts i)) := by
  change TimerStep i p (p.selectReq cRq).1 (.selectReq cRq)
    (mtipValues (postsTo (p.selectReq cRq).2.posts i))
  rw [Platform.selectReq]
  cases timer : (List.finRange c.coreNum).any p.needTimerInt with
  | true =>
      rw [if_pos rfl, postsTo_cores p.needTimerInt fun _ => postMTIP true]
      cases need : p.needTimerInt i with
      | true =>
          rw [if_pos rfl, mtipValues_postMTIP]
          exact .interrupt need rfl rfl (by simp [need])
      | false => exact .same rfl rfl (by simp [need])
  | false =>
      rw [if_neg Bool.false_ne_true]
      split
      · rename_i j _
        cases cRq j <;> exact .same rfl rfl rfl
      · exact .same rfl rfl rfl

theorem mtipValues_postMSIP (s : Platform c) (j i : CoreId c) (data : BitVec 32) :
    mtipValues (postsTo [s.postMSIP j data] i) = [] := by
  rw [Platform.postMSIP, postsTo_single]
  split <;> rfl

theorem mtipValues_append (posts more : List MMIOPRq) :
    mtipValues (posts ++ more) = mtipValues posts ++ mtipValues more := by
  simp only [mtipValues, List.filter_append, List.map_append]

theorem timerStep_processMSIP (offset : Nat) (i : CoreId c) :
    TimerStep i p (p.processMSIP offset).1 .processMSIP
      (mtipValues (postsTo (p.processMSIP offset).2.posts i)) := by
  rw [Platform.processMSIP]
  split
  · exact .same rfl rfl rfl
  split
  · exact .same rfl rfl rfl
  split
  · split
    · exact .same rfl rfl rfl
    split
    · rw [mtipValues_postMSIP]
      exact .same rfl rfl rfl
    split
    · rw [mtipValues_postMSIP]
      exact .same rfl rfl rfl
    · exact .same rfl rfl rfl
  · have silent : ∀ (sent : Bool) (j : CoreId c) (data : BitVec 32),
        mtipValues (postsTo (if sent then [p.postMSIP j data] else []) i) = [] := by
      intro sent j data
      cases sent with
      | true => exact mtipValues_postMSIP p j i data
      | false => rfl
    rw [postsTo_append, mtipValues_append, silent, silent]
    exact .same rfl rfl rfl

theorem timerStep_processMTimeCmp (busy : p.state = .processReq) (offset : Nat) (i : CoreId c) :
    TimerStep i p (p.processMTimeCmp offset).1 .processMTimeCmp
      (mtipValues (postsTo (p.processMTimeCmp offset).2.posts i)) := by
  rw [Platform.processMTimeCmp]
  split
  · exact .same rfl rfl rfl
  split
  · exact .same rfl rfl rfl
  dsimp only
  split
  · exact .same rfl rfl rfl
  by_cases mine : core c offset = i
  · subst mine
    split
    · rename_i due
      rw [postsTo_single, if_pos rfl, mtipValues_postMTIP]
      exact .raise (by simpa using due.1)
    split
    · rename_i early
      rw [postsTo_single, if_pos rfl, mtipValues_postMTIP]
      exact .clear (by simpa using early.1) fun _ => by simp
    · rename_i stays goes
      refine .write busy ?_ rfl
      simp only [Platform.respondData, Platform.respond, Function.update_self]
      grind
  · have other : ∀ value, mtipValues (postsTo [(core c offset, postMTIP value)] i) = [] := by
      intro value
      rw [postsTo_single, if_neg mine]
      rfl
    have elsewhere : i ≠ core c offset := Ne.symm mine
    split
    · rw [other]
      exact .same (by simp [elsewhere]) rfl (by simp [elsewhere])
    split
    · rw [other]
      exact .same (by simp [elsewhere]) rfl (by simp [elsewhere])
    · exact .same (by simp [elsewhere, Platform.respondData, Platform.respond]) rfl rfl

theorem timerStep_processMTime (busy : p.state = .processReq) (i : CoreId c) :
    TimerStep i p p.processMTime.1 .processMTime
      (mtipValues (postsTo p.processMTime.2.posts i)) := by
  rw [Platform.processMTime]
  split
  · exact .same rfl rfl rfl
  split
  · exact .same rfl rfl rfl
  dsimp only
  have agrees : p.changeMTIP (p.getWriteData p.mtime) i = false →
      (p.mtip i = true ↔ p.mtimecmp i ≤ p.getWriteData p.mtime) := by
    intro stays
    rw [Platform.changeMTIP] at stays
    grind
  split
  · rw [postsTo_cores (p.changeMTIP (p.getWriteData p.mtime)) fun i => postMTIP !p.mtip i]
    cases change : p.changeMTIP (p.getWriteData p.mtime) i with
    | false => exact .write busy (agrees change) rfl
    | true =>
        rw [if_pos rfl, mtipValues_postMTIP]
        rw [Platform.changeMTIP] at change
        cases shadow : p.mtip i with
        | false => exact .raise (by simpa [shadow] using change)
        | true => exact .clear (by simpa [shadow] using change) fun other => by cases other
  · rename_i none
    refine .write busy (agrees ?_) rfl
    simpa using List.any_eq_false.mp (Bool.not_eq_true _ ▸ none) i (List.mem_finRange i)

theorem timerStep {rule : Rule c} (enabled : p.guard rule = true) (i : CoreId c) :
    TimerStep i p (p.exec rule).1 rule (mtipValues (postsTo (p.exec rule).2.posts i)) := by
  cases rule with
  | incTime => exact .tick rfl rfl rfl rfl
  | selectReq cRq => exact timerStep_selectReq cRq i
  | processMSIP =>
      simp only [Platform.guard, Bool.and_eq_true, decide_eq_true_eq] at enabled
      obtain ⟨offset, cur⟩ := curReq_of_isMSIP enabled.1
      simp only [Platform.exec, cur]
      exact timerStep_processMSIP offset i
  | processMTimeCmp =>
      simp only [Platform.guard, Bool.and_eq_true, decide_eq_true_eq] at enabled
      obtain ⟨offset, cur⟩ := curReq_of_isMTimeCmp enabled.1
      simp only [Platform.exec, cur]
      exact timerStep_processMTimeCmp enabled.2 offset i
  | processMTime =>
      simp only [Platform.guard, Bool.and_eq_true, decide_eq_true_eq] at enabled
      exact timerStep_processMTime enabled.1 i
  | processToHost =>
      simp only [Platform.exec, Platform.processToHost]
      repeat' split
      all_goals exact .same rfl rfl rfl
  | processFromHost =>
      simp only [Platform.exec, Platform.processFromHost]
      repeat' split
      all_goals exact .same rfl rfl rfl
  | toFabricReq =>
      simp only [Platform.exec]
      split <;> exact .same rfl rfl rfl
  | toFabricAmoReq =>
      simp only [Platform.exec]
      split <;> exact .same rfl rfl rfl
  | toFabricIFetchReq =>
      simp only [Platform.exec]
      split <;> exact .same rfl rfl rfl
  | fromFabricAmoRsp dprs =>
      simp only [Platform.exec, Platform.fromFabricAmoRsp]
      repeat' split
      all_goals exact .same rfl rfl rfl
  | fromFabricIFetchRsp dprs =>
      simp only [Platform.exec, Platform.fromFabricIFetchRsp]
      repeat' split
      all_goals exact .same rfl rfl rfl
  | _ => exact .same rfl rfl rfl

/-- A request is served for which the cores need not be interrupted any more. -/
def engaged (p : Platform c) : Bool := decide (p.state = .processReq) || waitsForFabric p

theorem engaged_idle (idle : p.state = .selectReq) : engaged p = false := by
  rw [engaged, idle, waitsForFabric, idle]
  rfl

/-- A rule that does not take a request leaves the platform engaged only if it was. -/
theorem engaged_before {rule : Rule c} (enabled : p.guard rule = true)
    (engages : engaged (p.exec rule).1 = true) :
    engaged p = true ∨ ∃ cRq i req, rule = .selectReq cRq ∧ Selects p cRq i req ∧
      p.state = .selectReq := by
  have step := moves enabled
  generalize result : p.exec rule = r at step engages
  have ends : r.1.state = .selectReq → engaged p = true := by
    intro idle
    rw [engaged_idle idle] at engages
    cases engages
  cases step with
  | pause reads rests keeps =>
      left
      simpa only [engaged, waitsForFabric, keeps.state, keeps.curReq] using engages
  | start reads init idle => exact .inl (ends idle)
  | interrupt reads idle wait timer one =>
      simp [engaged, waitsForFabric, wait, timer, Platform.isFabric] at engages
  | take selects idle => exact .inr ⟨_, _, _, rfl, selects, idle⟩
  | answer reads busy idle => exact .inl (ends idle)
  | post reads busy wait curReq waits reqCore one =>
      simp [engaged, waitsForFabric, wait, curReq, isFabric_of_waits waits] at engages
  | collect takes fabric wait device idle core => exact .inl (ends idle)
  | toFabric reads busy fabric wait curReq reqCore reqFunc fetchingWay first =>
      exact .inl (by simp [engaged, busy])
  | fromFabric takes wait fabric idle core => exact .inl (ends idle)
  | amoStore takes wait fabric amo first state curReq reqFunc second =>
      exact .inl (by simp [engaged, waitsForFabric, wait, fabric])
  | nextWay takes wait fabric func more state curReq reqCore reqFunc fetchingWay =>
      exact .inl (by simp [engaged, waitsForFabric, wait, fabric])

theorem processMTimeCmp_disengages (offset : Nat) (cur : p.curReq = .mTimeCmp offset) :
    engaged (p.processMTimeCmp offset).1 = false := by
  simp only [Platform.processMTimeCmp]
  repeat' split
  all_goals simp [engaged, waitsForFabric, Platform.noInstFetch, Platform.respondData,
    Platform.respond, cur, Platform.isFabric]

theorem processMTime_disengages (cur : p.curReq = .mTime) : engaged p.processMTime.1 = false := by
  simp only [Platform.processMTime]
  repeat' split
  all_goals simp [engaged, waitsForFabric, Platform.noInstFetch, Platform.respondData,
    Platform.respond, cur, Platform.isFabric]

/-- The rules that write time or a timer register do not leave the platform engaged. -/
theorem timers_kept {rule : Rule c} (enabled : p.guard rule = true)
    (engages : engaged (p.exec rule).1 = true) (before : engaged p = true) :
    (p.exec rule).1.mtimecmp = p.mtimecmp ∧ (p.exec rule).1.mtime = p.mtime ∧
      (p.exec rule).1.mtip = p.mtip := by
  cases rule with
  | incTime =>
      simp only [Platform.guard, Bool.and_eq_true, decide_eq_true_eq] at enabled
      rw [engaged_idle enabled.1] at before
      cases before
  | selectReq cRq =>
      rw [engaged_idle (of_decide_eq_true enabled)] at before
      cases before
  | processMTimeCmp =>
      simp only [Platform.guard, Bool.and_eq_true, decide_eq_true_eq] at enabled
      obtain ⟨offset, cur⟩ := curReq_of_isMTimeCmp enabled.1
      simp only [Platform.exec, cur] at engages
      rw [processMTimeCmp_disengages offset cur] at engages
      cases engages
  | processMTime =>
      simp only [Platform.guard, Bool.and_eq_true, decide_eq_true_eq] at enabled
      simp only [Platform.exec, processMTime_disengages enabled.2] at engages
      cases engages
  | processMSIP =>
      simp only [Platform.exec, Platform.processMSIP]
      repeat' split
      all_goals exact ⟨rfl, rfl, rfl⟩
  | processToHost =>
      simp only [Platform.exec, Platform.processToHost]
      repeat' split
      all_goals exact ⟨rfl, rfl, rfl⟩
  | processFromHost =>
      simp only [Platform.exec, Platform.processFromHost]
      repeat' split
      all_goals exact ⟨rfl, rfl, rfl⟩
  | toFabricReq =>
      simp only [Platform.exec]
      split <;> exact ⟨rfl, rfl, rfl⟩
  | toFabricAmoReq =>
      simp only [Platform.exec]
      split <;> exact ⟨rfl, rfl, rfl⟩
  | toFabricIFetchReq =>
      simp only [Platform.exec]
      split <;> exact ⟨rfl, rfl, rfl⟩
  | fromFabricAmoRsp dprs =>
      simp only [Platform.exec, Platform.fromFabricAmoRsp]
      repeat' split
      all_goals exact ⟨rfl, rfl, rfl⟩
  | fromFabricIFetchRsp dprs =>
      simp only [Platform.exec, Platform.fromFabricIFetchRsp]
      repeat' split
      all_goals exact ⟨rfl, rfl, rfl⟩
  | _ => exact ⟨rfl, rfl, rfl⟩

/-- A request is served with no timer interrupt to post. -/
theorem engaged_step {rule : Rule c} (enabled : p.guard rule = true) (i : CoreId c)
    (before : engaged p = true → p.needTimerInt i = false)
    (engages : engaged (p.exec rule).1 = true) : (p.exec rule).1.needTimerInt i = false := by
  rcases engaged_before enabled engages with engaged | ⟨cRq, j, req, rfl, selects, -⟩
  · obtain ⟨cmp, time, shadow⟩ := timers_kept enabled engages engaged
    rw [Platform.needTimerInt, cmp, time, shadow]
    exact before engaged
  · rw [selects.exec]
    change p.needTimerInt i = false
    simpa using List.any_eq_false.mp selects.noTimer i (List.mem_finRange i)

end Steps

/-! ## Runs -/

/-- No increment passes the largest time. -/
def NoWrap (log : Log c) : Prop :=
  ∀ cycle ∈ log, cycle.2 = .platform .incTime →
    cycle.1.platform.mtime.toNat + c.ticksPerTimeInc.toNat < 2 ^ 64

/-- The value of MTIP that a core got last; the registers `mtip` start set. -/
def sentMTIP (log : Log c) (i : CoreId c) : BitVec 32 := (lastMTIP log i).elim 1 Prod.snd

structure Shadowed (log : Log c) (p : Platform c) (i : CoreId c) : Prop where
  value : sentMTIP log i = 0 ∨ sentMTIP log i = 1
  cleared : lastMTIP log i = some (false, 0) → p.mtip i = false
  raised : NoWrap log → sentMTIP log i = 1 → p.mtimecmp i ≤ p.mtime
  served : engaged p = true → p.needTimerInt i = false

section Runs

variable {log : Log c} {s : System c} {i : CoreId c}

theorem NoWrap.before {cycle : System c × Event c} (fits : NoWrap (log ++ [cycle])) : NoWrap log :=
  fun earlier member => fits earlier (List.mem_append_left _ member)

theorem le_add_ticks {a t ticks : Data} (le : a ≤ t) (fits : t.toNat + ticks.toNat < 2 ^ 64) :
    a ≤ t + ticks := by
  rw [BitVec.le_def] at le ⊢
  rw [BitVec.toNat_add, Nat.mod_eq_of_lt fits]
  omega

/-- Events that send nothing and keep the platform. -/
theorem Shadowed.silent {e : Event c} (shadowed : Shadowed log s.platform i)
    (silent : mtipSentIn s e i = []) : Shadowed (log ++ [(s, e)]) s.platform i := by
  have last : lastMTIP (log ++ [(s, e)]) i = lastMTIP log i := by
    rw [lastMTIP_concat, silent]
    rfl
  refine ⟨?_, ?_, fun fits => ?_, shadowed.served⟩
  · rw [sentMTIP, last]
    exact shadowed.value
  · rw [last]
    exact shadowed.cleared
  · rw [sentMTIP, last]
    exact shadowed.raised fits.before

theorem Shadowed.platform {rule : Rule c} (shadowed : Shadowed log s.platform i)
    (enabled : s.platform.guard rule = true) :
    Shadowed (log ++ [(s, .platform rule)]) (s.platform.exec rule).1 i := by
  have last := lastMTIP_concat log s (.platform rule) i
  rw [mtipSentIn] at last
  have served := engaged_step enabled i shadowed.served
  have step := timerStep enabled i
  generalize mtipValues (postsTo (s.platform.exec rule).2.posts i) = values at last step
  generalize (s.platform.exec rule).1 = p' at step served
  cases step with
  | same cmp time shadow =>
      simp only [List.map_nil, List.getLast?_nil, Option.none_or] at last
      refine ⟨?_, ?_, fun fits => ?_, served⟩
      · rw [sentMTIP, last]
        exact shadowed.value
      · rw [last, shadow]
        exact shadowed.cleared
      · rw [sentMTIP, last, cmp, time]
        exact shadowed.raised fits.before
  | tick inc cmp time shadow =>
      simp only [List.map_nil, List.getLast?_nil, Option.none_or] at last
      refine ⟨?_, ?_, fun fits => ?_, served⟩
      · rw [sentMTIP, last]
        exact shadowed.value
      · rw [last, shadow]
        exact shadowed.cleared
      · rw [sentMTIP, last, cmp, time]
        intro one
        exact le_add_ticks (shadowed.raised fits.before one)
          (fits _ (List.mem_append_right _ (List.mem_singleton_self _)) (by rw [inc]))
  | interrupt need cmp time shadow =>
      simp only [List.map_singleton, List.getLast?_singleton, Option.some_or] at last
      rw [Platform.needTimerInt, Bool.and_eq_true, decide_eq_true_eq] at need
      refine ⟨?_, ?_, fun _ _ => ?_, served⟩
      · rw [sentMTIP, last]
        exact .inr rfl
      · rw [last]
        simp
      · rw [cmp, time]
        exact need.2
  | raise due =>
      simp only [List.map_singleton, List.getLast?_singleton, Option.some_or] at last
      refine ⟨?_, ?_, fun _ _ => due, served⟩
      · rw [sentMTIP, last]
        exact .inr rfl
      · rw [last]
        simp
  | clear early shadow =>
      simp only [List.map_singleton, List.getLast?_singleton, Option.some_or] at last
      refine ⟨?_, ?_, fun _ => ?_, served⟩
      · rw [sentMTIP, last]
        exact .inl rfl
      · rw [last]
        intro same
        exact shadow (congrArg Prod.fst (Option.some.inj same))
      · rw [sentMTIP, last]
        intro one
        cases one
  | write busy agrees shadow =>
      simp only [List.map_nil, List.getLast?_nil, Option.none_or] at last
      refine ⟨?_, ?_, fun fits => ?_, served⟩
      · rw [sentMTIP, last]
        exact shadowed.value
      · rw [last, shadow]
        exact shadowed.cleared
      · rw [sentMTIP, last]
        intro one
        have due := shadowed.raised fits.before one
        have quiet := shadowed.served (by rw [engaged, busy]; rfl)
        rw [Platform.needTimerInt, decide_eq_true due, Bool.and_true, Bool.not_eq_false'] at quiet
        exact agrees.mp quiet

theorem Shadowed.next {e : Event c} (shadowed : Shadowed log s.platform i)
    (allowed : s.Allowed e) : Shadowed (log ++ [(s, e)]) (s.next e).platform i := by
  cases e with
  | sendReq j req => exact shadowed.silent rfl
  | handlePRq j undef =>
      obtain ⟨req, first⟩ := Option.isSome_iff_exists.mp (List.isSome_head?.mpr allowed)
      simp only [System.next, first, Option.elim_some]
      exact shadowed.silent rfl
  | adapter dprs => exact shadowed.silent rfl
  | platform rule => exact shadowed.platform allowed.1

theorem shadowed_of_run {u : Platform c} {msip mtip : CoreId c → BitVec 1}
    (run : (system u msip mtip).Run log s) (i : CoreId c) : Shadowed log s.platform i := by
  refine run.invariant (fun log s => Shadowed log s.platform i) ?_
    fun _ _ _ _ shadowed allowed => shadowed.next allowed
  refine ⟨.inr rfl, ?_, fun _ _ => ?_, ?_⟩
  · intro sent
    cases sent
  · exact BitVec.le_def.mpr (Nat.zero_le _)
  · intro engages
    cases engages

/-- The values of MTIP that writes of `mtimecmp` and due times send follow the comparison. -/
theorem Shadowed.follows (shadowed : Shadowed log s.platform i)
    (quiet : s.platform.needTimerInt i = false) (other : lastMTIP log i ≠ some (true, 0)) :
    (s.platform.mtime < s.platform.mtimecmp i ∨ sentMTIP log i = 1) ∧
      (NoWrap log → (sentMTIP log i = 1 ↔ s.platform.mtimecmp i ≤ s.platform.mtime)) := by
  have late : sentMTIP log i = 0 → s.platform.mtime < s.platform.mtimecmp i := by
    intro zero
    have last : lastMTIP log i = some (false, 0) := by
      rw [sentMTIP] at zero
      cases sent : lastMTIP log i with
      | none =>
          rw [sent] at zero
          cases zero
      | some value =>
          obtain ⟨byTime, bit⟩ := value
          rw [sent] at zero
          change bit = 0 at zero
          subst zero
          cases byTime with
          | true => exact absurd sent other
          | false => rfl
    rw [Platform.needTimerInt, shadowed.cleared last] at quiet
    simpa using quiet
  refine ⟨?_, fun fits => ⟨shadowed.raised fits, fun due => ?_⟩⟩
  · rcases shadowed.value with zero | one
    · exact .inl (late zero)
    · exact .inr one
  · rcases shadowed.value with zero | one
    · exact absurd due (by simpa using late zero)
    · exact one

end Runs

end Toooba.MMIOSystem
