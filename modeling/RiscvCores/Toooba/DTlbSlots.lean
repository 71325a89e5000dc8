import RiscvCores.Toooba.DTlbRuns

/-!
# The slots of the data TLB

Which requests are in the slots, which slots are free, and how much work is left.
-/

set_option autoImplicit false

namespace Toooba.DTlb

open Tlb

variable {instT : Type} {p : Params instT} {s s' : State p}

/-! ## Requests -/

/-- A request as its acceptance and the speculation since then left it. -/
structure Outstanding (p : Params instT) where
  inst : instT
  specBits : SpecBits p
  killed : Bool

def Outstanding.incorrect (kill_all : Bool) (x : SpecTag p) (r : Outstanding p) :
    Outstanding p :=
  { r with killed := if kill_all || r.specBits.getLsbD x.val then true else r.killed }

def Outstanding.correct (mask : SpecBits p) (r : Outstanding p) : Outstanding p :=
  { r with specBits := r.specBits &&& mask }

/-- The requests in the slots after a rule: one enters with `procReq`, one leaves with its
response or is dropped. -/
def track (s : State p) (held : DTlbReqIdx p → Option (Outstanding p)) :
    Rule p → DTlbReqIdx p → Option (Outstanding p)
  | .procReq req =>
      s.freeQ.head?.elim held fun idx =>
        Function.update held idx (some ⟨req.inst, req.specBits, false⟩)
  | .deqProcResp => s.validProcRespIdx.elim held fun idx => Function.update held idx none
  | .doPoisonedProcResp =>
      s.poisonedProcRespIdx.elim held fun idx => Function.update held idx none
  | .incorrectSpeculation kill_all x => fun i => (held i).map (.incorrect kill_all x)
  | .correctSpeculation mask => fun i => (held i).map (.correct mask)
  | _ => held

/-- The requests that a run has accepted and that have not left. -/
def outstanding (cycles : List (State p × Rule p)) : DTlbReqIdx p → Option (Outstanding p) :=
  cycles.foldl (fun held c => track c.1 held c.2) fun _ => none

theorem outstanding_concat (cycles : List (State p × Rule p)) (c : State p × Rule p) :
    outstanding (cycles ++ [c]) = track c.1 (outstanding cycles) c.2 := by
  unfold outstanding
  rw [List.foldl_append]
  rfl

/-- The request that the registers of a slot hold. -/
def State.request (s : State p) (i : DTlbReqIdx p) : Option (Outstanding p) :=
  if s.pendValid i then some ⟨s.pendInst i, s.pendSpecBits i, s.pendPoisoned i⟩ else none

theorem request_eq_none {i : DTlbReqIdx p} : s.request i = none ↔ s.pendValid i = false := by
  unfold State.request
  cases s.pendValid i <;> simp

/-! ## What the rules do to the slots -/

/-- A request takes the first free slot. -/
structure Accepted (s s' : State p) (req : DTlbReq p) (idx : DTlbReqIdx p) (wait : DTlbWait p) :
    Prop where
  head : s.freeQ.head? = some idx
  inited : s.freeQInited = true
  freeQ : s'.freeQ = s.freeQ.tail
  freeQInited : s'.freeQInited = s.freeQInited
  pendValid : s'.pendValid = Function.update s.pendValid idx true
  pendWait : s'.pendWait = Function.update s.pendWait idx wait
  pendPoisoned : s'.pendPoisoned = Function.update s.pendPoisoned idx false
  pendInst : s'.pendInst = Function.update s.pendInst idx req.inst
  pendSpecBits : s'.pendSpecBits = Function.update s.pendSpecBits idx req.specBits

theorem procReq_accepted {req : DTlbReq p} (fires : s.procReq req = some s') :
    ∃ idx wait, Accepted s s' req idx wait := by
  obtain ⟨can, idx, head, ⟨resp, -, rfl⟩ | ⟨-, -, rfl⟩⟩ := procReq_some fires
  · exact ⟨idx, .none, head, (canProcReq_iff.mp can).2.2.2, rfl, rfl, rfl, rfl, rfl, rfl, rfl⟩
  · unfold State.miss
    cases s.reqSamePage (p.getTlbReq req.inst) with
    | some i =>
        exact ⟨idx, _, head, (canProcReq_iff.mp can).2.2.2, rfl, rfl, rfl, rfl, rfl, rfl, rfl⟩
    | none =>
        exact ⟨idx, _, head, (canProcReq_iff.mp can).2.2.2, rfl, rfl, rfl, rfl, rfl, rfl, rfl⟩

/-- A response of the parent ends the wait of one slot. -/
structure Refilled (s s' : State p) (idx : DTlbReqIdx p) : Prop where
  freeQ : s'.freeQ = s.freeQ
  freeQInited : s'.freeQInited = s.freeQInited
  freeQInitIdx : s'.freeQInitIdx = s.freeQInitIdx
  pendValid : s'.pendValid = s.pendValid
  pendWait : s'.pendWait = Function.update s.pendWait idx .none
  pendPoisoned : s'.pendPoisoned = s.pendPoisoned
  pendInst : s'.pendInst = s.pendInst
  pendSpecBits : s'.pendSpecBits = s.pendSpecBits
  rqToPQ : s'.rqToPQ = s.rqToPQ
  asked : s'.asked = s.asked
  needFlush : s'.needFlush = s.needFlush
  waitFlushP : s'.waitFlushP = s.waitFlushP

theorem doPRs_refilled {victim : Option (Fin p.dTlbSize)} (fires : s.doPRs victim = some s') :
    ∃ pRs, s.ldTransRsFromPQ.head? = some pRs ∧
      Refilled s s' (s.respForOtherReq.getD pRs.id) := by
  obtain ⟨pRs, head, made⟩ := Option.map_eq_some_iff.mp fires
  refine ⟨pRs, head, ?_⟩
  generalize s.respForOtherReq.getD pRs.id = idx at made
  obtain ⟨other, rest, next⟩ := nextResp_frame s pRs.id idx
  obtain ⟨tlb, pendResp, filled, -⟩ := refill_frame (s.nextResp pRs.id idx) idx pRs.entry victim
  dsimp only at made
  rw [filled, next] at made
  subst made
  exact ⟨rfl, rfl, rfl, rfl, rfl, rfl, rfl, rfl, rfl, rfl, rfl, rfl⟩

/-- The registers of the slots do not change. -/
structure SameSlots (s s' : State p) : Prop where
  freeQ : s'.freeQ = s.freeQ
  freeQInited : s'.freeQInited = s.freeQInited
  freeQInitIdx : s'.freeQInitIdx = s.freeQInitIdx
  pendValid : s'.pendValid = s.pendValid
  pendWait : s'.pendWait = s.pendWait
  pendPoisoned : s'.pendPoisoned = s.pendPoisoned
  pendInst : s'.pendInst = s.pendInst
  pendSpecBits : s'.pendSpecBits = s.pendSpecBits

/-- The rules that leave the slots alone. -/
def Rule.quiet : Rule p → Bool
  | .doPRs _ | .doInitFreeQ | .doPoisonedProcResp | .procReq _ | .deqProcResp => false
  | .incorrectSpeculation _ _ | .correctSpeculation _ => false
  | _ => true

theorem quiet_same {rule : Rule p} (quiet : rule.quiet = true) (fires : fire s rule = some s') :
    SameSlots s s' := by
  have same : SameSlots s s := ⟨rfl, rfl, rfl, rfl, rfl, rfl, rfl, rfl⟩
  cases rule with
  | doStartFlush =>
      obtain ⟨-, -, -, rfl⟩ := doStartFlush_some fires
      exact ⟨rfl, rfl, rfl, rfl, rfl, rfl, rfl, rfl⟩
  | doFinishFlush =>
      simp only [fire, State.doFinishFlush, Option.ite_none_right_eq_some] at fires
      obtain rfl := Option.some.inj fires.2
      exact ⟨rfl, rfl, rfl, rfl, rfl, rfl, rfl, rfl⟩
  | flush =>
      simp only [fire, State.flush, Option.ite_none_left_eq_some] at fires
      obtain rfl := Option.some.inj fires.2
      exact ⟨rfl, rfl, rfl, rfl, rfl, rfl, rfl, rfl⟩
  | rqToP =>
      obtain ⟨r, -, rfl⟩ := Option.map_eq_some_iff.mp fires
      exact ⟨rfl, rfl, rfl, rfl, rfl, rfl, rfl, rfl⟩
  | ldTransRsFromP k =>
      simp only [fire, Option.ite_none_right_eq_some] at fires
      obtain ⟨r, -, rfl⟩ := Option.map_eq_some_iff.mp fires.2
      exact ⟨rfl, rfl, rfl, rfl, rfl, rfl, rfl, rfl⟩
  | flushRequest =>
      simp only [fire, Option.ite_none_right_eq_some] at fires
      obtain rfl := Option.some.inj fires.2
      exact ⟨rfl, rfl, rfl, rfl, rfl, rfl, rfl, rfl⟩
  | flushResponse =>
      simp only [fire, Option.ite_none_left_eq_some] at fires
      obtain rfl := Option.some.inj fires.2
      exact ⟨rfl, rfl, rfl, rfl, rfl, rfl, rfl, rfl⟩
  | updateVMInfo vm =>
      obtain rfl := Option.some.inj fires
      exact ⟨rfl, rfl, rfl, rfl, rfl, rfl, rfl, rfl⟩
  | writeTables mem =>
      obtain rfl := Option.some.inj fires
      exact ⟨rfl, rfl, rfl, rfl, rfl, rfl, rfl, rfl⟩
  | _ => cases quiet

/-- After a rule, the slots hold the requests that were accepted and have not left. -/
theorem request_next {rule : Rule p} (fires : fire s rule = some s') :
    s'.request = track s s.request rule := by
  have released : ∀ idx, s.release idx = some s' →
      s'.request = Function.update s.request idx none := by
    intro idx release
    obtain rfl := release_some release
    funext i
    unfold State.request
    by_cases same : i = idx
    · simp [same]
    · simp [same]
  have quietly : SameSlots s s' → s'.request = s.request := by
    intro same
    funext i
    unfold State.request
    rw [same.pendValid, same.pendInst, same.pendSpecBits, same.pendPoisoned]
  cases rule with
  | procReq req =>
      obtain ⟨idx, wait, accepted⟩ := procReq_accepted fires
      funext i
      unfold State.request track
      rw [accepted.head, accepted.pendValid, accepted.pendInst, accepted.pendSpecBits,
        accepted.pendPoisoned]
      by_cases same : i = idx
      · simp [same]
      · simp [same]
  | doPRs victim =>
      obtain ⟨pRs, -, refilled⟩ := doPRs_refilled fires
      funext i
      unfold State.request track
      rw [refilled.pendValid, refilled.pendInst, refilled.pendSpecBits, refilled.pendPoisoned]
  | doPoisonedProcResp =>
      obtain ⟨-, idx, found, release⟩ := doPoisonedProcResp_some fires
      unfold track
      rw [found]
      exact released idx release
  | deqProcResp =>
      obtain ⟨-, idx, found, release⟩ := deqProcResp_some fires
      unfold track
      rw [found]
      exact released idx release
  | incorrectSpeculation kill_all x =>
      obtain rfl := Option.some.inj fires
      funext i
      cases valid : s.pendValid i with
      | false => simp [State.request, track, State.incorrectSpeculation, valid]
      | true =>
          simp [State.request, track, State.incorrectSpeculation, valid, Outstanding.incorrect]
  | correctSpeculation mask =>
      obtain rfl := Option.some.inj fires
      funext i
      cases valid : s.pendValid i with
      | false => simp [State.request, track, State.correctSpeculation, valid]
      | true =>
          simp [State.request, track, State.correctSpeculation, valid, Outstanding.correct]
  | doInitFreeQ =>
      obtain ⟨-, inside, rfl⟩ := doInitFreeQ_some fires
      rfl
  | _ => exact quietly (quiet_same rfl fires)

/-! ## Free slots -/

/-- The free slots are those without a request, as far as the queue has been filled. -/
structure Slots (s : State p) : Prop where
  nodup : s.freeQ.Nodup
  free : ∀ i ∈ s.freeQ, s.pendValid i = false
  filled : s.freeQInited = true → ∀ i, s.pendValid i = false → i ∈ s.freeQ
  filling : s.freeQInited = false →
    (∀ i, s.pendValid i = false) ∧ ∀ i, i ∈ s.freeQ ↔ i.val < s.freeQInitIdx
  idle : ∀ i, s.pendValid i = false → s.pendWait i = .none

theorem Slots.same (slots : Slots s) (same : SameSlots s s') : Slots s' := by
  obtain ⟨freeQ, freeQInited, freeQInitIdx, pendValid, pendWait, -, -, -⟩ := same
  constructor
  · rw [freeQ]
    exact slots.nodup
  · rw [freeQ, pendValid]
    exact slots.free
  · rw [freeQInited, freeQ, pendValid]
    exact slots.filled
  · rw [freeQInited, freeQ, pendValid, freeQInitIdx]
    exact slots.filling
  · rw [pendValid, pendWait]
    exact slots.idle

theorem Slots.accepted (slots : Slots s) {req : DTlbReq p} {idx : DTlbReqIdx p}
    {wait : DTlbWait p} (accepted : Accepted s s' req idx wait) : Slots s' := by
  obtain ⟨rest, queue⟩ := List.head?_eq_some_iff.mp accepted.head
  have nodup := slots.nodup
  rw [queue] at nodup
  obtain ⟨taken, later⟩ := List.nodup_cons.mp nodup
  have freeQ : s'.freeQ = rest := by rw [accepted.freeQ, queue, List.tail_cons]
  constructor
  · rw [freeQ]
    exact later
  · intro i member
    rw [freeQ] at member
    have other : i ≠ idx := by
      rintro rfl
      exact taken member
    rw [accepted.pendValid, Function.update_of_ne other]
    apply slots.free
    rw [queue]
    exact List.mem_cons_of_mem idx member
  · intro inited i absent
    rw [accepted.pendValid] at absent
    have other : i ≠ idx := by
      rintro rfl
      exact nomatch (Function.update_self ..).symm.trans absent
    rw [Function.update_of_ne other] at absent
    have member := slots.filled accepted.inited i absent
    rw [queue] at member
    rw [freeQ]
    exact (List.mem_cons.mp member).resolve_left other
  · intro filling
    rw [accepted.freeQInited, accepted.inited] at filling
    exact nomatch filling
  · intro i absent
    rw [accepted.pendValid] at absent
    have other : i ≠ idx := by
      rintro rfl
      exact nomatch (Function.update_self ..).symm.trans absent
    rw [Function.update_of_ne other] at absent
    rw [accepted.pendWait, Function.update_of_ne other]
    exact slots.idle i absent

theorem Slots.refilled (slots : Slots s) {idx : DTlbReqIdx p} (refilled : Refilled s s' idx) :
    Slots s' := by
  constructor
  · rw [refilled.freeQ]
    exact slots.nodup
  · rw [refilled.freeQ, refilled.pendValid]
    exact slots.free
  · rw [refilled.freeQInited, refilled.freeQ, refilled.pendValid]
    exact slots.filled
  · rw [refilled.freeQInited, refilled.freeQ, refilled.pendValid, refilled.freeQInitIdx]
    exact slots.filling
  · intro i absent
    rw [refilled.pendValid] at absent
    rw [refilled.pendWait]
    by_cases same : i = idx
    · rw [same, Function.update_self]
    · rw [Function.update_of_ne same]
      exact slots.idle i absent

theorem Slots.release (slots : Slots s) {idx : DTlbReqIdx p} (inited : s.freeQInited = true)
    (valid : s.pendValid idx = true) (done : s.pendWait idx = .none)
    (fires : s.release idx = some s') : Slots s' := by
  obtain rfl := release_some fires
  have taken : idx ∉ s.freeQ := by
    intro member
    exact nomatch valid.symm.trans (slots.free idx member)
  constructor
  · exact List.nodup_append.mpr ⟨slots.nodup, List.nodup_singleton idx, by
      rintro i member j last rfl
      exact taken (List.mem_singleton.mp last ▸ member)⟩
  · intro i member
    by_cases same : i = idx
    · exact same ▸ Function.update_self ..
    · refine (Function.update_of_ne same ..).trans (slots.free i ?_)
      rcases List.mem_append.mp member with earlier | last
      · exact earlier
      · exact absurd (List.mem_singleton.mp last) same
  · intro _ i absent
    by_cases same : i = idx
    · exact List.mem_append_right _ (List.mem_singleton.mpr same)
    · apply List.mem_append_left
      exact slots.filled inited i ((Function.update_of_ne same ..).symm.trans absent)
  · intro filling
    exact nomatch inited.symm.trans filling
  · intro i absent
    by_cases same : i = idx
    · exact same ▸ done
    · exact slots.idle i ((Function.update_of_ne same ..).symm.trans absent)

theorem Slots.doInitFreeQ (slots : Slots s) (fires : s.doInitFreeQ = some s') : Slots s' := by
  obtain ⟨notYet, inside, rfl⟩ := doInitFreeQ_some fires
  obtain ⟨none, below⟩ := slots.filling notYet
  have member : ∀ i : DTlbReqIdx p, i ∈ s.freeQ ++ [⟨s.freeQInitIdx, inside⟩] ↔
      i.val < s.freeQInitIdx + 1 := by
    intro i
    rw [List.mem_append, List.mem_singleton, below, Fin.ext_iff]
    change i.val < s.freeQInitIdx ∨ i.val = s.freeQInitIdx ↔ _
    omega
  constructor
  · refine List.nodup_append.mpr ⟨slots.nodup, List.nodup_singleton _, ?_⟩
    rintro i earlier j last rfl
    have bound := (below i).mp earlier
    rw [List.mem_singleton.mp last] at bound
    exact Nat.lt_irrefl _ bound
  · exact fun i _ => none i
  · intro last i _
    refine (member i).mpr ?_
    have top : s.freeQInitIdx = p.dTlbReqNum - 1 := of_decide_eq_true last
    have bound := i.isLt
    omega
  · exact fun _ => ⟨none, member⟩
  · exact slots.idle

theorem Slots.next (slots : Slots s) {rule : Rule p} (fires : fire s rule = some s') :
    Slots s' := by
  cases rule with
  | procReq req =>
      obtain ⟨idx, wait, accepted⟩ := procReq_accepted fires
      exact slots.accepted accepted
  | doPRs victim =>
      obtain ⟨pRs, -, refilled⟩ := doPRs_refilled fires
      exact slots.refilled refilled
  | doPoisonedProcResp =>
      obtain ⟨inited, idx, found, release⟩ := doPoisonedProcResp_some fires
      obtain ⟨valid, done, -⟩ := poisonedProcRespIdx_some found
      exact slots.release inited valid done release
  | deqProcResp =>
      obtain ⟨inited, idx, found, release⟩ := deqProcResp_some fires
      obtain ⟨valid, done, -⟩ := validProcRespIdx_some found
      exact slots.release inited valid done release
  | incorrectSpeculation kill_all x =>
      obtain rfl := Option.some.inj fires
      exact ⟨slots.nodup, slots.free, slots.filled, slots.filling, slots.idle⟩
  | correctSpeculation mask =>
      obtain rfl := Option.some.inj fires
      exact ⟨slots.nodup, slots.free, slots.filled, slots.filling, slots.idle⟩
  | doInitFreeQ => exact slots.doInitFreeQ fires
  | _ => exact slots.same (quiet_same rfl fires)

end Toooba.DTlb
