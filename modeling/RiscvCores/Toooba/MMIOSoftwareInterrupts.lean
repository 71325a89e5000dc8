import RiscvCores.Toooba.MMIOTimers

/-!
# Software interrupts

A load or store of MSIP from the `selectReq` that takes it to the next `selectReq`.  Each
half of the double word is the bit of one core; only the first byte enable of a half counts.
-/

set_option autoImplicit false

namespace Toooba.MMIOSystem

open Toooba.Amo Toooba.MMIOPlatform

variable {c : PlatformCfg}

/-- A half of a double word of MSIP. -/
inductive Half where
  | lower | upper
  deriving DecidableEq

def Half.enabled (be : ByteEn) : Half → Bool
  | .lower => be.getLsbD 0
  | .upper => be.getLsbD 4

/-- The number of the core that a half belongs to. -/
def Half.owner (offset : Nat) : Half → Nat
  | .lower => 2 * offset
  | .upper => 2 * offset + 1

def Half.bit (data : Data) : Half → BitVec 1
  | .lower => data.extractLsb' 0 1
  | .upper => data.extractLsb' 32 1

/-- An enabled half belongs to no core. -/
def NoOwner (c : PlatformCfg) (offset : Nat) (req : MMIOCRq) : Prop :=
  ∃ half : Half, half.enabled req.byteEn = true ∧ c.coreNum ≤ half.owner offset

/-- What a load returns for a half. -/
def Half.read (m : CoreId c → BitVec 1) (offset : Nat) (be : ByteEn) (half : Half) : BitVec 32 :=
  if half.enabled be then (m (core c (half.owner offset))).setWidth 32 else 0

def msipLoad (m : CoreId c → BitVec 1) (offset : Nat) (be : ByteEn) : Data :=
  Half.read m offset be .upper ++ Half.read m offset be .lower

/-- What a load or store of MSIP does: the answer and the bits before and after. -/
structure MSIPServed (offset : Nat) (req : MMIOCRq) (before after : CoreId c → BitVec 1)
    (answer : MMIOPRs) : Prop where
  fault : answer = accessFault ↔ NoOwner c offset req
  kept : NoOwner c offset req ∨ req.func = .ld → after = before
  load : ¬ NoOwner c offset req → req.func = .ld →
    answer = .dataAccess ⟨true, msipLoad before offset req.byteEn⟩
  store : ¬ NoOwner c offset req → req.func = .st →
    (∃ data, answer = .dataAccess ⟨true, data⟩) ∧
      (∀ half : Half, half.enabled req.byteEn = true →
        after (core c (half.owner offset)) = half.bit req.data) ∧
      ∀ j : CoreId c, (∀ half : Half, half.enabled req.byteEn = true →
        j.val ≠ half.owner offset) → after j = before j

/-- The double words of MSIP begin with the half of a core. -/
theorem classify_msip {p : Platform c} {addr : Addr} {offset : Nat}
    (device : p.classify addr = .msip offset) : 2 * offset < c.coreNum := by
  simp only [Platform.classify] at device
  split at device
  · rename_i between
    obtain ⟨above, below⟩ := between
    obtain rfl := MMIOPlatformReq.msip.inj device
    generalize getDataAlignedAddr addr = a at above below ⊢
    rw [PlatformCfg.msipBoundAddr, BitVec.lt_def, BitVec.toNat_add, BitVec.toNat_ofNat] at below
    rw [BitVec.le_def] at above
    rw [BitVec.toNat_sub]
    have small := a.isLt
    omega
  · repeat (split at device; · cases device)
    cases device

theorem noOwner_iff {offset : Nat} {req : MMIOCRq} (inside : 2 * offset < c.coreNum) :
    NoOwner c offset req ↔
      (req.byteEn.getLsbD 4 && !decide (2 * offset + 1 ≤ c.coreNum - 1)) = true := by
  have positive := c.someCore
  simp only [Bool.and_eq_true, Bool.not_eq_true', decide_eq_false_iff_not]
  constructor
  · rintro ⟨half, enabled, beyond⟩
    cases half with
    | lower =>
        change c.coreNum ≤ 2 * offset at beyond
        omega
    | upper =>
        change c.coreNum ≤ 2 * offset + 1 at beyond
        exact ⟨enabled, by omega⟩
  · rintro ⟨enabled, beyond⟩
    refine ⟨.upper, enabled, ?_⟩
    change c.coreNum ≤ 2 * offset + 1
    omega

/-! ## Phases -/

section Phases

variable (offset : Nat) (req : MMIOCRq) (i : CoreId c) (m₀ : CoreId c → BitVec 1)

/-- The half that is a core's. -/
def halfOf (j : CoreId c) : Option Half :=
  if req.byteEn.getLsbD 0 = true ∧ core c (2 * offset) = j then some .lower
  else if req.byteEn.getLsbD 4 = true ∧ core c (2 * offset + 1) = j then some .upper
  else none

def msipMessage (half : Half) : MMIOPRq :=
  { target := .msip, func := req.func, data := (half.bit req.data).setWidth 32 }

/-- MSIP of a core once it has answered. -/
def msipAfter (j : CoreId c) : BitVec 1 :=
  match halfOf (c := c) offset req j with
  | some half => if req.func = .st then half.bit req.data else m₀ j
  | none => m₀ j

/-- A core has its message, or has answered it. -/
def Serving (s : System c) (j : CoreId c) : Prop :=
  match halfOf (c := c) offset req j with
  | some half =>
      (s.pRqQ j = [msipMessage req half] ∧ s.cRsQ j = [] ∧ s.msip j = m₀ j) ∨
        (s.pRqQ j = [] ∧ s.msip j = msipAfter offset req m₀ j ∧
          ∃ resp, s.cRsQ j = [resp] ∧ (req.func = .ld → resp = m₀ j))
  | none => s.pRqQ j = [] ∧ s.cRsQ j = [] ∧ s.msip j = m₀ j

inductive MSIPPhase : List (CoreId c × MMIOPRs) → System c → Prop
  | process {s : System c} (state : s.platform.state = .processReq)
      (cur : s.platform.curReq = .msip offset) (reqCore : s.platform.reqCore = i)
      (reqFunc : s.platform.reqFunc = req.func) (reqBE : s.platform.reqBE = req.byteEn)
      (reqData : s.platform.reqData = req.data)
      (idle : ∀ j, s.pRqQ j = [] ∧ s.cRsQ j = []) (bits : s.msip = m₀) : MSIPPhase [] s
  | wait {s : System c} (state : s.platform.state = .waitResp)
      (cur : s.platform.curReq = .msip offset) (reqCore : s.platform.reqCore = i)
      (lower : s.platform.waitLowerMSIPCRs =
        if req.byteEn.getLsbD 0 then some (core c (2 * offset)) else none)
      (upper : s.platform.waitUpperMSIPCRs =
        if req.byteEn.getLsbD 4 then some (core c (2 * offset + 1)) else none)
      (owned : ¬ NoOwner c offset req) (serving : ∀ j, Serving offset req m₀ s j) :
      MSIPPhase [] s
  | done {s : System c} {answer : MMIOPRs} (state : s.platform.state = .selectReq)
      (served : MSIPServed offset req m₀ s.msip answer) : MSIPPhase [(i, answer)] s

end Phases

/-! ## Steps -/

section Steps

variable {offset : Nat} {req : MMIOCRq} {i : CoreId c} {m₀ : CoreId c → BitVec 1} {s : System c}
  {rs : List (CoreId c × MMIOPRs)}

theorem MSIPPhase.quiet {rule : Rule c} (phase : MSIPPhase offset req i m₀ rs s)
    (quiet : rule.quiet = true) : MSIPPhase offset req i m₀ rs (s.platformStep rule) := by
  rw [platformStep_quiet quiet]
  cases phase with
  | process state cur reqCore reqFunc reqBE reqData idle bits =>
      cases rule <;>
        first
        | exact .process state cur reqCore reqFunc reqBE reqData idle bits
        | cases quiet
  | wait state cur reqCore lower upper owned serving =>
      cases rule <;>
        first
        | exact .wait state cur reqCore lower upper owned serving
        | cases quiet
  | done state served =>
      cases rule <;> first | exact .done state served | cases quiet

theorem rule_of_processMSIP {p : Platform c} {rule : Rule c} (state : p.state = .processReq)
    (cur : p.curReq = .msip offset) (enabled : p.guard rule = true) :
    rule.quiet = true ∨ rule = .processMSIP := by
  cases rule <;>
    simp_all [Platform.guard, Platform.fabricIn, Rule.quiet, Platform.isMTimeCmp,
      Platform.isFabric]

theorem rule_of_waitMSIP {p : Platform c} {rule : Rule c} (state : p.state = .waitResp)
    (cur : p.curReq = .msip offset) (enabled : p.guard rule = true) :
    rule.quiet = true ∨ ∃ cRs, rule = .waitMSIPDone cRs := by
  cases rule <;>
    simp_all [Platform.guard, Platform.fabricIn, Rule.quiet, Platform.isMTimeCmp,
      Platform.isFabric]

theorem bit_setWidth (data : Data) (k : Nat) :
    (data.extractLsb' k 1).setWidth 32 = if data.getLsbD k then 1#32 else 0#32 := by
  apply BitVec.eq_of_getLsbD_eq
  intro j below
  rw [BitVec.getLsbD_setWidth, BitVec.getLsbD_extractLsb']
  rcases Nat.eq_zero_or_pos j with rfl | later
  · cases data.getLsbD k <;> simp
  · have high : ¬ j < 1 := by omega
    cases data.getLsbD k <;> simp [high, BitVec.getLsbD_one]
    omega

/-- The load or store is refused, or the messages are sent. -/
theorem MSIPPhase.processMSIP (inside : 2 * offset < c.coreNum)
    (func : req.func = .ld ∨ req.func = .st)
    (cur : s.platform.curReq = .msip offset) (reqCore : s.platform.reqCore = i)
    (reqFunc : s.platform.reqFunc = req.func) (reqBE : s.platform.reqBE = req.byteEn)
    (reqData : s.platform.reqData = req.data) (idle : ∀ j, s.pRqQ j = [] ∧ s.cRsQ j = [])
    (bits : s.msip = m₀) :
    MSIPPhase offset req i m₀ (s.platform.exec .processMSIP).2.response.toList
      (s.platformStep .processMSIP) := by
  have notFetch : s.platform.reqFunc.isInstFetch = false := by
    rcases func with ld | st <;> simp [*, MMIOFunc.isInstFetch]
  have notAmo : s.platform.reqFunc.isAmo = false := by
    rcases func with ld | st <;> simp [*, MMIOFunc.isAmo]
  have exec : s.platform.exec .processMSIP = s.platform.processMSIP offset := by
    simp only [Platform.exec, cur]
  rw [platformStep_queues rfl, exec, Platform.processMSIP, notFetch, notAmo, reqBE]
  by_cases absent : NoOwner c offset req
  · rw [(noOwner_iff inside).mp absent]
    have response : (s.platform.respond accessFault).2.response.toList = [(i, accessFault)] := by
      rw [← reqCore]
      rfl
    simp only [Bool.false_eq_true, if_false, if_true]
    rw [response]
    refine .done rfl ⟨by simp [absent], fun _ => bits, ?_, ?_⟩
    · exact fun owned => absurd absent owned
    · exact fun owned => absurd absent owned
  · have owned := absent
    rw [noOwner_iff inside, Bool.not_eq_true] at absent
    simp only [Bool.false_eq_true, if_false, absent]
    refine .wait rfl cur reqCore rfl rfl owned fun j => ?_
    have apart : req.byteEn.getLsbD 4 = true →
        core c (2 * offset) ≠ core c (2 * offset + 1) := by
      intro high
      rw [high] at absent
      exact core_ne (by simpa using absent)
    have lowBit : (if s.platform.reqData.getLsbD 0 then 1 else 0) =
        (Half.bit req.data .lower).setWidth 32 := by
      rw [reqData]
      exact (bit_setWidth _ _).symm
    have highBit : (if s.platform.reqData.getLsbD 32 then 1 else 0) =
        (Half.bit req.data .upper).setWidth 32 := by
      rw [reqData]
      exact (bit_setWidth _ _).symm
    simp only [Serving, halfOf, postsTo_append, (idle j).1, (idle j).2, List.nil_append, bits,
      lowBit, highBit, Platform.postMSIP, reqFunc]
    cases low : req.byteEn.getLsbD 0 <;> cases high : req.byteEn.getLsbD 4 <;>
      simp only [Bool.false_eq_true, if_false, if_true, false_and, true_and, postsTo_single,
        postsTo_nil, List.append_nil, List.nil_append]
    · by_cases mine : core c (2 * offset + 1) = j <;> simp [mine, msipMessage]
    · by_cases mine : core c (2 * offset) = j <;> simp [mine, msipMessage]
    · by_cases lower : core c (2 * offset) = j
      · have other : core c (2 * offset + 1) ≠ j := fun upper =>
          apart high (lower.trans upper.symm)
        simp [lower, other, msipMessage]
      · by_cases upper : core c (2 * offset + 1) = j <;> simp [lower, upper, msipMessage]

theorem MSIPPhase.handle {j : CoreId c} {message : MMIOPRq} {undef : BitVec 1}
    (func : req.func = .ld ∨ req.func = .st)
    (phase : MSIPPhase offset req i m₀ rs s) (first : (s.pRqQ j).head? = some message)
    (busy : s.platform.state ≠ .selectReq) :
    MSIPPhase offset req i m₀ rs (s.handle j message undef) := by
  cases phase with
  | process state cur reqCore reqFunc reqBE reqData idle bits =>
      rw [(idle j).1] at first
      cases first
  | done state served => exact absurd state busy
  | wait state cur reqCore lower upper owned serving =>
      refine .wait state cur reqCore lower upper owned fun k => ?_
      have before := serving k
      by_cases same : k = j
      · subst same
        simp only [Serving] at before ⊢
        cases half : halfOf offset req k with
        | none =>
            rw [half] at before
            rw [before.1] at first
            cases first
        | some half' =>
            rw [half] at before
            rcases before with ⟨pending, none, bit⟩ | ⟨empty, -⟩
            · rw [pending, List.head?_cons] at first
              obtain rfl := Option.some.inj first
              have written : ((half'.bit req.data).setWidth 32).setWidth 1 = half'.bit req.data :=
                BitVec.setWidth_setWidth_of_le _ (by decide)
              refine .inr ⟨by simp [System.handle, pending], ?_, ?_⟩
              · simp only [System.handle, Function.update_self, msipAfter, half, msipMessage]
                rcases func with ld | st
                · simp [handlePRq, ld, bit]
                · simp [handlePRq, st, written]
              · simp only [System.handle, Function.update_self, none, List.nil_append, msipMessage]
                refine ⟨_, rfl, fun ld => ?_⟩
                simp [handlePRq, ld, bit]
            · rw [empty] at first
              cases first
      · simp only [Serving, System.handle, Function.update_of_ne same] at before ⊢
        exact before


/-- The answers of the cores are put together. -/
theorem MSIPPhase.waitDone {cRs : CoreId c → BitVec 1} (inside : 2 * offset < c.coreNum)
    (cur : s.platform.curReq = .msip offset) (reqCore : s.platform.reqCore = i)
    (lower : s.platform.waitLowerMSIPCRs =
      if req.byteEn.getLsbD 0 then some (core c (2 * offset)) else none)
    (upper : s.platform.waitUpperMSIPCRs =
      if req.byteEn.getLsbD 4 then some (core c (2 * offset + 1)) else none)
    (owned : ¬ NoOwner c offset req) (serving : ∀ j, Serving offset req m₀ s j)
    (supplies : s.Supplies (.waitMSIPDone cRs)) :
    MSIPPhase offset req i m₀ (s.platform.exec (.waitMSIPDone cRs)).2.response.toList
      (s.platformStep (.waitMSIPDone cRs)) := by
  have present := owned
  rw [noOwner_iff inside, Bool.not_eq_true] at present
  have apart : req.byteEn.getLsbD 4 = true → core c (2 * offset) ≠ core c (2 * offset + 1) := by
    intro high
    rw [high] at present
    exact core_ne (by simpa using present)
  have awaited : ∀ j half, halfOf offset req j = some half → awaits s.platform j = true := by
    intro j half mine
    simp only [awaits, cur, lower, upper, Bool.or_eq_true, decide_eq_true_eq]
    rw [halfOf] at mine
    grind
  have answered : ∀ j half, halfOf offset req j = some half →
      s.msip j = msipAfter offset req m₀ j ∧ (req.func = .ld → cRs j = m₀ j) := by
    intro j half mine
    have first := supplies j (awaited j half mine)
    have before := serving j
    simp only [Serving, mine] at before
    rcases before with ⟨-, none, -⟩ | ⟨-, bit, resp, queue, loaded⟩
    · rw [none] at first
      cases first
    · rw [queue, List.head?_cons] at first
      obtain rfl := Option.some.inj first
      exact ⟨bit, loaded⟩
  have bits : s.msip = msipAfter offset req m₀ := by
    funext j
    cases mine : halfOf offset req j with
    | some half => exact (answered j half mine).1
    | none =>
        have before := serving j
        simp only [Serving, mine] at before
        rw [before.2.2, msipAfter, mine]
  have lowerHalf : req.byteEn.getLsbD 0 = true →
      halfOf offset req (core c (2 * offset)) = some .lower := by
    intro low
    rw [halfOf, if_pos ⟨low, rfl⟩]
  have upperHalf : req.byteEn.getLsbD 4 = true →
      halfOf offset req (core c (2 * offset + 1)) = some .upper := by
    intro high
    rw [halfOf, if_neg fun both => apart high both.2, if_pos ⟨high, rfl⟩]
  have halves : ∀ half : Half, half.enabled req.byteEn = true →
      halfOf offset req (core c (half.owner offset)) = some half := by
    intro half enabled
    cases half with
    | lower => exact lowerHalf enabled
    | upper => exact upperHalf enabled
  have response : (s.platform.exec (.waitMSIPDone cRs)).2.response.toList =
      [(i, .dataAccess ⟨true,
        (if req.byteEn.getLsbD 4 then (cRs (core c (2 * offset + 1))).setWidth 32 else 0) ++
          (if req.byteEn.getLsbD 0 then (cRs (core c (2 * offset))).setWidth 32 else 0)⟩)] := by
    simp only [Platform.exec, Platform.waitMSIPDone, lower, upper, Platform.respondData,
      Platform.respond, reqCore]
    cases low : req.byteEn.getLsbD 0 <;> cases high : req.byteEn.getLsbD 4 <;>
      simp [apart, high]
  rw [response]
  refine .done rfl ⟨?_, ?_, ?_, ?_⟩
  · simp [accessFault, owned]
  · rintro (absent | ld)
    · exact absurd absent owned
    · change s.msip = m₀
      rw [bits]
      funext j
      rw [msipAfter]
      cases halfOf offset req j <;> simp [ld]
  · intro _ ld
    have read : ∀ half : Half, (if half.enabled req.byteEn then
        (cRs (core c (half.owner offset))).setWidth 32 else 0) =
          Half.read m₀ offset req.byteEn half := by
      intro half
      rw [Half.read]
      cases enabled : half.enabled req.byteEn with
      | false => rfl
      | true => rw [(answered _ half (halves half enabled)).2 ld]
    rw [msipLoad, ← read .upper, ← read .lower]
    rfl
  · intro _ st
    refine ⟨⟨_, rfl⟩, fun half enabled => ?_, fun j others => ?_⟩
    · change s.msip (core c (half.owner offset)) = _
      rw [bits, msipAfter, halves half enabled]
      exact if_pos st
    · change s.msip j = m₀ j
      have none : halfOf offset req j = none := by
        rw [halfOf, if_neg, if_neg]
        · rintro ⟨high, rfl⟩
          rw [high] at present
          have below : 2 * offset + 1 ≤ c.coreNum - 1 := by simpa using present
          exact others .upper high (Nat.mod_eq_of_lt (by omega))
        · rintro ⟨low, rfl⟩
          exact others .lower low (Nat.mod_eq_of_lt inside)
      rw [bits, msipAfter, none]

end Steps

/-! ## Runs -/

section Runs

variable {u : Platform c} {msip mtip : CoreId c → BitVec 1} {before during : Log c}
  {s₀ s : System c} {cRq : CoreId c → Option MMIOCRq} {i : CoreId c} {req : MMIOCRq}
  {offset : Nat}

theorem MSIPPhase.next {e : Event c} (inside : 2 * offset < c.coreNum)
    (func : req.func = .ld ∨ req.func = .st) {m₀ : CoreId c → BitVec 1} {log : Log c}
    (phase : MSIPPhase offset req i m₀ (responsesOf log) s)
    (busy : s.platform.state ≠ .selectReq) (allowed : s.Allowed e) :
    MSIPPhase offset req i m₀ (responsesOf (log ++ [(s, e)])) (s.next e) := by
  rw [responsesOf_concat]
  generalize responsesOf log = rs at phase
  cases e with
  | sendReq j sent =>
      simp only [responseIn, Option.toList_none, List.append_nil]
      cases phase with
      | process state cur reqCore reqFunc reqBE reqData idle bits =>
          exact .process state cur reqCore reqFunc reqBE reqData idle bits
      | wait state cur reqCore lower upper owned serving =>
          exact .wait state cur reqCore lower upper owned serving
      | done state served => exact .done state served
  | handlePRq j undef =>
      obtain ⟨message, first⟩ := Option.isSome_iff_exists.mp (List.isSome_head?.mpr allowed)
      simp only [responseIn, Option.toList_none, List.append_nil, System.next, first,
        Option.elim_some]
      exact phase.handle func first busy
  | adapter dprs =>
      simp only [responseIn, Option.toList_none, List.append_nil]
      cases phase with
      | process state cur reqCore reqFunc reqBE reqData idle bits =>
          exact .process state cur reqCore reqFunc reqBE reqData idle bits
      | wait state cur reqCore lower upper owned serving =>
          exact .wait state cur reqCore lower upper owned serving
      | done state served => exact .done state served
  | platform rule =>
      have ofQuiet : rule.quiet = true → MSIPPhase offset req i m₀
          (rs ++ (responseIn s (.platform rule)).toList) (s.platformStep rule) := by
        intro quiet
        simp only [responseIn, (exec_quiet (s := s.platform) quiet).1, Option.toList_none,
          List.append_nil]
        exact phase.quiet quiet
      cases phase with
      | process state cur reqCore reqFunc reqBE reqData idle bits =>
          rcases rule_of_processMSIP state cur allowed.1 with quiet | rfl
          · exact ofQuiet quiet
          · exact .processMSIP inside func cur reqCore reqFunc reqBE reqData idle bits
      | wait state cur reqCore lower upper owned serving =>
          rcases rule_of_waitMSIP state cur allowed.1 with quiet | ⟨cRs, rfl⟩
          · exact ofQuiet quiet
          · exact .waitDone inside cur reqCore lower upper owned serving allowed.2
      | done state served => exact absurd state busy

theorem msip_phase_of_run (selects : Selects s₀.platform cRq i req)
    (func : req.func = .ld ∨ req.func = .st)
    (device : s₀.platform.classify req.addr = .msip offset)
    (run : (system u msip mtip).Run (before ++ (s₀, .platform (.selectReq cRq)) :: during) s)
    (busy : ∀ cycle ∈ during, cycle.1.platform.state ≠ .selectReq) :
    MSIPPhase offset req i s₀.msip (responsesOf during) s := by
  induction during using List.reverseRecOn generalizing s with
  | nil =>
      obtain ⟨earlier, allowed, rfl⟩ := run.of_append_singleton
      have idle : s₀.platform.state = .selectReq := of_decide_eq_true allowed.1
      have empty := (owed_of_run earlier).cores_idle (by simp [idle])
      have moved : s₀.platform.exec (.selectReq cRq) = (s₀.platform.record i req, {}) :=
        selects.exec
      change MSIPPhase offset req i s₀.msip [] (s₀.platformStep (.selectReq cRq))
      rw [System.platformStep, moved]
      refine .process rfl device rfl rfl rfl rfl (fun j => ?_) rfl
      simp only [postsTo, List.filter_nil, List.map_nil, List.append_nil, collects,
        Bool.false_and, Bool.false_eq_true, if_false]
      exact empty j
  | append_singleton rest last ih =>
      rw [← List.cons_append, ← List.append_assoc] at run
      obtain ⟨earlier, allowed, rfl⟩ := run.of_append_singleton
      have phase := ih earlier fun cycle member => busy cycle (List.mem_append_left _ member)
      exact phase.next (classify_msip device) func (busy last (by simp)) allowed

/-- Requests, messages, timer interrupts and MSIP in every run.  Requests of a core are taken
in order and each has one response, to that core; every run goes on to one in which all have
it.  When nothing is served, all messages are answered.  The last MTIP is 1 just when time
has come, unless `processMTime` cleared it or time wrapped. -/
theorem platform_serves_cores {log : Log c} (run : (system u msip mtip).Run log s) :
    (∀ i, sentBy log i =
      ((takenOf log).filter fun taken => decide (taken.1 = i)).map Prod.snd ++ s.cRqQ i) ∧
    (takenOf log).map Prod.fst =
      (responsesOf log).map Prod.fst ++ (unanswered s.platform).toList ∧
    (Busy s → (∃ e, s.Allowed e ∧ serves e = true) ∧ ∀ e, s.Allowed e →
      if serves e then remaining (s.next e) < remaining s
      else remaining (s.next e) = remaining s) ∧
    (Reaches u msip mtip log fun s' => s'.platform.state = .selectReq ∧ ∀ i, s'.cRqQ i = []) ∧
    (s.platform.state = .selectReq →
      ∀ i, postedTo log i = handledBy log i ∧ s.cRsQ i = []) ∧
    (s.platform.state = .selectReq → (∀ i, s.platform.needTimerInt i = false) →
      ∀ i, lastMTIP log i ≠ some (true, 0) →
        (s.platform.mtime < s.platform.mtimecmp i ∨ sentMTIP log i = 1) ∧
        (NoWrap log → (sentMTIP log i = 1 ↔ s.platform.mtimecmp i ≤ s.platform.mtime))) ∧
    ∀ (before during : Log c) (s₀ : System c) (cRq : CoreId c → Option MMIOCRq) (i : CoreId c)
      (req : MMIOCRq) (offset : Nat),
      log = before ++ (s₀, .platform (.selectReq cRq)) :: during →
      Selects s₀.platform cRq i req → req.func = .ld ∨ req.func = .st →
      s₀.platform.classify req.addr = .msip offset →
      (∀ cycle ∈ during, cycle.1.platform.state ≠ .selectReq) →
      s.platform.state = .selectReq →
      ∃ answer, responsesOf during = [(i, answer)] ∧
        MSIPServed offset req s₀.msip s.msip answer := by
  have owed := owed_of_run run
  have accounted := requests_accounted run
  refine ⟨accounted.queued, accounted.answered, fun busy => ⟨owed.enabled busy, ?_⟩,
    all_answered run, fun idle i => ?_, fun _ quiet i other => ?_, ?_⟩
  · exact fun e allowed => remaining_next owed busy allowed
  · obtain ⟨messages, answers⟩ := owed.cores_idle (by simp [idle]) i
    have posted := posted_of_run run i
    rw [messages, List.append_nil] at posted
    exact ⟨posted, answers⟩
  · exact (shadowed_of_run run i).follows (quiet i) other
  · rintro before during s₀ cRq i req offset rfl selects func device busy idle
    have phase := msip_phase_of_run selects func device run busy
    generalize responsesOf during = rs at phase ⊢
    cases phase with
    | process state cur reqCore reqFunc reqBE reqData empty bits =>
        rw [idle] at state
        cases state
    | wait state cur reqCore lower upper owned serving =>
        rw [idle] at state
        cases state
    | done state served => exact ⟨_, rfl, served⟩

end Runs

/-! ## Runs of one core -/

section OneCore

instance System.decidableAllowed (s : System c) (e : Event c) : Decidable (s.Allowed e) := by
  cases e with
  | sendReq i req => exact .isTrue trivial
  | handlePRq i undef => exact inferInstanceAs (Decidable (s.pRqQ i ≠ []))
  | adapter dprs => exact inferInstanceAs (Decidable (s.fabricReqQ ≠ []))
  | platform rule =>
      have supplies : Decidable (s.Supplies rule) := by
        cases rule <;> simp only [System.Supplies] <;> infer_instance
      exact inferInstanceAs (Decidable (_ ∧ _))

private def timerPlatform : PlatformCfg where
  coreNum := 1
  someCore := Nat.one_pos
  supSizeX2 := 4
  cyclesPerTimeInc := 10
  ticksPerTimeInc := 1
  msipBaseAddr := 0x2000000 >>> 3
  mtimecmpBaseAddr := 0x2004000 >>> 3
  mtimeBaseAddr := 0x200BFF8 >>> 3

private def coreZero : CoreId timerPlatform := ⟨0, Nat.one_pos⟩

private def atPowerUp : Platform timerPlatform where
  mtimecmp := fun _ => 0
  mtime := 0
  toHostQ := none
  fromHostQ := none
  toHostAddr := 0
  fromHostAddr := 0
  state := .init
  curReq := .invalid
  reqCore := coreZero
  reqFunc := .ld
  reqAmofunc := .none
  reqBE := 0
  reqSz := 0
  reqData := 0
  instSel := 0
  fetchingWay := 0
  fetchedInsts := []
  waitMTIPCRs := fun _ => false
  waitLowerMSIPCRs := none
  waitUpperMSIPCRs := none
  amoResp := 0
  amoWaitWriteResp := false
  cycle := 0
  mtip := fun _ => true

private def storeTimeCmp (v : Data) : MMIOCRq := ⟨0x2004000, .st, 0xFF, v⟩

private def setMSIP : MMIOCRq := ⟨0x2000000, .st, 0x0F, 1⟩

private def selectFor (req : MMIOCRq) : Event timerPlatform :=
  .platform (.selectReq fun _ => some req)

private def timerEvents (v : Data) : List (Event timerPlatform) :=
  [.platform (.start 0x1000 0x1008), .sendReq coreZero (storeTimeCmp v),
    selectFor (storeTimeCmp v), .platform .processMTimeCmp]

private def beforeMSIP : List (Event timerPlatform) :=
  timerEvents 5 ++ [.handlePRq coreZero 0, .platform .waitMTimeCmpDone, .sendReq coreZero setMSIP]

private def duringMSIP : List (Event timerPlatform) :=
  [.platform .processMSIP, .handlePRq coreZero 0, .platform (.waitMSIPDone fun _ => 0)]

private def msipEvents : List (Event timerPlatform) :=
  beforeMSIP ++ selectFor setMSIP :: duringMSIP

private abbrev timerSystem : Clocked.Machine (System timerPlatform) (Event timerPlatform) :=
  system atPowerUp (fun _ => 0) fun _ => 0

private def logOf (events : List (Event timerPlatform)) : Log timerPlatform :=
  timerSystem.cyclesOf timerSystem.reset events

private def stateAfter (events : List (Event timerPlatform)) : System timerPlatform :=
  timerSystem.after timerSystem.reset events

private instance (cycles : Log timerPlatform) (s : System timerPlatform)
    (e : Event timerPlatform) : Decidable (timerSystem.allowed cycles s e) :=
  System.decidableAllowed s e

theorem platform_serves_cores_msip :
    ((stateAfter msipEvents).platform.mtime < (stateAfter msipEvents).platform.mtimecmp coreZero ∨
        sentMTIP (logOf msipEvents) coreZero = 1) ∧
      ∃ answer, responsesOf (timerSystem.cyclesOf
          (stateAfter (beforeMSIP ++ [selectFor setMSIP])) duringMSIP) = [(coreZero, answer)] ∧
        MSIPServed 0 setMSIP (stateAfter beforeMSIP).msip (stateAfter msipEvents).msip answer := by
  have run : timerSystem.Run (logOf msipEvents) (stateAfter msipEvents) :=
    Clocked.Machine.run_of_accepts msipEvents (by decide +kernel)
  obtain ⟨-, -, -, -, -, timer, msip⟩ := platform_serves_cores run
  refine ⟨?_, ?_⟩
  · exact (timer (by decide +kernel) (by decide +kernel) coreZero (by decide +kernel)).1
  · exact msip (logOf beforeMSIP) _ (stateAfter beforeMSIP) (fun _ => some setMSIP) coreZero
      setMSIP 0 rfl ⟨by decide +kernel, by decide +kernel, rfl⟩ (.inr rfl) (by decide +kernel)
      (by decide +kernel) (by decide +kernel)

/-- A store or AMO to `mtimecmp` of a core or to `mtime`. -/
def TimerWritten (log : Log c) (i : CoreId c) : Prop :=
  ∃ s, ((s, .platform .processMTimeCmp) ∈ log ∧ s.platform.curReq = .mTimeCmp i.val ∨
      (s, .platform .processMTime) ∈ log) ∧
    (s.platform.reqFunc = .st ∨ s.platform.reqFunc.isAmo = true)

/-- The first store to `mtimecmp` leaves a time that has come: nothing is sent. -/
theorem first_due_store_not_sent :
    ¬ ∀ {c : PlatformCfg} {u : Platform c} {msip mtip : CoreId c → BitVec 1} {log : Log c}
        {s : System c}, (system u msip mtip).Run log s → s.platform.state = .selectReq →
      (∀ i, s.platform.needTimerInt i = false) → ∀ i, TimerWritten log i →
      ((lastMTIP log i).map Prod.snd = some 1 ↔ s.platform.mtimecmp i ≤ s.platform.mtime) := by
  intro claim
  have run : timerSystem.Run (logOf (timerEvents 0)) (stateAfter (timerEvents 0)) :=
    Clocked.Machine.run_of_accepts (timerEvents 0) (by decide +kernel)
  have written : TimerWritten (logOf (timerEvents 0)) coreZero := by
    refine ⟨stateAfter ((timerEvents 0).take 3), .inl ⟨?_, by decide +kernel⟩, .inl rfl⟩
    exact List.mem_of_getLast? rfl
  have sent := (claim run (by decide +kernel) (by decide +kernel) coreZero written).mpr
    (by decide +kernel)
  have none : lastMTIP (logOf (timerEvents 0)) coreZero = none := by decide +kernel
  rw [none] at sent
  cases sent

end OneCore

end Toooba.MMIOSystem
