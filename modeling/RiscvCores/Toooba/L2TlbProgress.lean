import RiscvCores.Toooba.L2TlbAnswers

/-!
# Progress of the second-level TLB

A weight of what is under way: without new requests every step lowers it, and as long as an
answer is owed some step can be made.
-/

set_option autoImplicit false

namespace Toooba.L2Tlb

open Tlb SharedReads

variable {p : Params} {s s' : State p}

/-- The steps its environment starts on its own account. -/
def Rule.Starts : Rule p → Prop
  | .rqFromC _ | .iTlbReqFlush | .dTlbReqFlush | .updateVMInfo _ _ | .writeTables _ => True
  | _ => False

/-- What a request still has before it: a walk costs at most six steps for each level left. -/
def State.slotWeight (s : State p) (i : L2TlbReqIdx p) : Nat :=
  if !s.pendValid i then 0
  else
    match s.pendWait i with
    | .none => if s.tlbReqQ = some i then 27 else 26
    | _ => 6 * ((s.pendWalkLevel i).toNat + 1)

/-- What a flush still has before it. -/
def State.flushWeight (s : State p) : Nat :=
  (if s.flushing then if s.waitFlushDone then 2 else 2 ^ p.lgSetNum + 4 else 0) +
    (if s.flushDoneQ then 1 else 0)

/-- What the 4KB array still has before it. -/
def arrayWeight {lgSetNum wayNum : Nat} (t : SetAssocTlb lgSetNum wayNum) : Nat :=
  (if t.state = .flush then 2 ^ lgSetNum - t.flushIdx.toNat else 0) +
    match t.pendReq with
    | some (.refill _, _) => 1
    | _ => 0

/-- What stands in the queues; a read passes three of them. -/
def State.queueWeight (s : State p) : Nat :=
  28 * s.rqFromCQ.toList.length + 3 * s.memReqQ.length + 2 * s.reading.length +
    s.respLdQ.length + s.rsToCQ.toList.length

def State.weight (s : State p) : Nat :=
  s.queueWeight + ∑ i, s.slotWeight i + s.flushWeight + arrayWeight s.tlb4KB

/-- The weights of the slots when one slot changes. -/
theorem slotWeights (s s' : State p) (idx : L2TlbReqIdx p)
    (others : ∀ i, i ≠ idx → s'.slotWeight i = s.slotWeight i) :
    ∑ i, s'.slotWeight i + s.slotWeight idx = ∑ i, s.slotWeight i + s'.slotWeight idx := by
  have before := Finset.add_sum_erase Finset.univ s.slotWeight (Finset.mem_univ idx)
  have after := Finset.add_sum_erase Finset.univ s'.slotWeight (Finset.mem_univ idx)
  have same : ∑ i ∈ Finset.univ.erase idx, s'.slotWeight i =
      ∑ i ∈ Finset.univ.erase idx, s.slotWeight i :=
    Finset.sum_congr rfl fun i member => others i (Finset.ne_of_mem_erase member)
  omega

section Arrays

variable {lgSetNum wayNum : Nat} {t t' : SetAssocTlb lgSetNum wayNum}

theorem doFlush_weight (fires : t.doFlush = some t') : arrayWeight t' < arrayWeight t := by
  obtain ⟨flushing, rfl⟩ : t.state = .flush ∧ _ = t' := by
    simpa only [SetAssocTlb.doFlush, Option.ite_none_right_eq_some, Option.some_inj] using fires
  have bound := t.flushIdx.isLt
  unfold arrayWeight
  rw [if_pos flushing]
  dsimp only
  by_cases last : t.flushIdx = BitVec.allOnes lgSetNum
  · rw [if_pos last, if_neg (by rintro ⟨⟩)]
    omega
  · have notLast : t.flushIdx.toNat ≠ 2 ^ lgSetNum - 1 := by
      intro here
      exact last (BitVec.eq_of_toNat_eq (by rw [here, BitVec.toNat_allOnes]))
    have sets : 1 < 2 ^ lgSetNum := by omega
    have one : (1 : BitVec lgSetNum).toNat = 1 := Nat.mod_eq_of_lt sets
    have next : (t.flushIdx + 1).toNat = t.flushIdx.toNat + 1 := by
      rw [← one]
      exact BitVec.toNat_add_of_lt (by rw [one]; omega)
    rw [if_neg last, if_pos rfl, next]
    omega

theorem doAddEntry_weight {way : Fin wayNum} (fires : t.doAddEntry way = some t') :
    arrayWeight t' < arrayWeight t := by
  unfold SetAssocTlb.doAddEntry at fires
  split at fires
  next newEn row ready pending =>
    obtain rfl := Option.some_inj.mp fires
    simp [arrayWeight, ready, pending]
  next => cases fires

theorem req_weight {r : SetAssocTlbReq} (fires : t.req r = some t') :
    arrayWeight t' ≤ arrayWeight t + match r with
      | .refill _ => 1
      | .translate _ _ => 0 := by
  obtain ⟨ready, idle, rfl⟩ := SetAssocTlb.req_some fires
  cases r <;> simp [arrayWeight, ready, idle]

theorem deqResp_weight {hit : Option TlbEntry} (answered : t.resp = some hit) :
    arrayWeight t.deqResp = arrayWeight t := by
  unfold SetAssocTlb.resp at answered
  split at answered
  next vpn asid row ready pending => simp [arrayWeight, SetAssocTlb.deqResp, ready, pending]
  next => cases answered

theorem flush_weight (fires : t.flush = some t') :
    arrayWeight t' ≤ arrayWeight t + 2 ^ lgSetNum := by
  obtain ⟨idle, rfl⟩ := SetAssocTlb.flush_some fires
  simp [arrayWeight, idle]

end Arrays

/-! ## Every step that the environment does not start lowers the weight -/

/-- A step that only moves what stands in queues. -/
theorem weight_lt_of_queue (slots : s'.slotWeight = s.slotWeight)
    (flush : s'.flushWeight = s.flushWeight) (array : s'.tlb4KB = s.tlb4KB)
    (queue : s'.queueWeight < s.queueWeight) : s'.weight < s.weight := by
  unfold State.weight
  rw [slots, flush, array]
  omega

theorem memReq_weight (fires : fire s .memReq = some s') : s'.weight < s.weight := by
  obtain ⟨r, head, rfl⟩ := Option.map_eq_some_iff.mp fires
  obtain ⟨rest, queue⟩ := List.head?_eq_some_iff.mp head
  refine weight_lt_of_queue rfl rfl rfl ?_
  simp only [State.queueWeight, queue, List.tail_cons, List.length_append, List.length_cons,
    List.length_nil]
  omega

theorem respLd_weight {k : Nat} (fires : fire s (.respLd k) = some s') :
    s'.weight < s.weight := by
  simp only [fire, Option.ite_none_right_eq_some] at fires
  obtain ⟨r, taken, rfl⟩ := Option.map_eq_some_iff.mp fires.2
  obtain ⟨bound, -⟩ := List.getElem?_eq_some_iff.mp taken
  refine weight_lt_of_queue rfl rfl rfl ?_
  simp only [State.queueWeight, List.length_eraseIdx_of_lt bound, List.length_append,
    List.length_cons, List.length_nil]
  omega

theorem rsToC_weight (fires : fire s .rsToC = some s') : s'.weight < s.weight := by
  simp only [fire, Option.ite_none_right_eq_some, Option.some_inj] at fires
  obtain ⟨full, rfl⟩ := fires
  obtain ⟨a, here⟩ := Option.isSome_iff_exists.mp full
  refine weight_lt_of_queue rfl rfl rfl ?_
  simp [State.queueWeight, here]

theorem array_weight {tlb4KB : SetAssocTlb p.lgSetNum p.wayNum}
    (less : arrayWeight tlb4KB < arrayWeight s.tlb4KB) :
    { s with tlb4KB := tlb4KB }.weight < s.weight :=
  Nat.add_lt_add_left less _

theorem flushDone_weight (fires : fire s .flushDone = some s') : s'.weight < s.weight := by
  simp only [fire, Option.ite_none_right_eq_some, Option.some_inj] at fires
  obtain ⟨full, rfl⟩ := fires
  refine Nat.add_lt_add_right (Nat.add_lt_add_left ?_ _) _
  simp [State.flushWeight, State.flushing, full]

theorem doWaitFlush_weight (fires : s.doWaitFlush = some s') : s'.weight < s.weight := by
  simp only [State.doWaitFlush, Option.ite_none_right_eq_some, Option.some_inj,
    Bool.and_eq_true, Bool.not_eq_true'] at fires
  obtain ⟨⟨⟨⟨flushing, waits⟩, -⟩, free⟩, rfl⟩ := fires
  refine Nat.add_lt_add_right (Nat.add_lt_add_left ?_ _) _
  rw [State.flushWeight, State.flushWeight, if_pos flushing, if_pos waits, free]
  simp [State.flushing]

theorem doStartFlush_weight (fires : s.doStartFlush = some s') : s'.weight < s.weight := by
  simp only [State.doStartFlush, Option.ite_none_right_eq_some, Bool.and_eq_true,
    Bool.not_eq_true'] at fires
  obtain ⟨⟨flushing, waits⟩, fires⟩ := fires
  obtain ⟨tlb4KB, flushed, after⟩ := Option.map_eq_some_iff.mp fires
  have array := flush_weight flushed
  have slots : s'.slotWeight = s.slotWeight := by rw [← after]; rfl
  have queue : s'.queueWeight = s.queueWeight := by rw [← after]; rfl
  have pages : s'.tlb4KB = tlb4KB := by rw [← after]
  have flush : s'.flushWeight + 2 ^ p.lgSetNum + 2 = s.flushWeight := by
    have flushing' : s'.flushing = true := by rw [← after]; exact flushing
    have waits' : s'.waitFlushDone = true := by rw [← after]
    have done : s'.flushDoneQ = s.flushDoneQ := by rw [← after]
    rw [State.flushWeight, State.flushWeight, if_pos flushing, if_pos flushing', if_pos waits',
      waits, done]
    simp only [Bool.false_eq_true, if_false]
    omega
  unfold State.weight
  rw [slots, queue, pages]
  omega

theorem slotWeight_free {i : L2TlbReqIdx p} (free : s.pendValid i = false) :
    s.slotWeight i = 0 := by
  simp [State.slotWeight, free]

/-- The weight of a slot depends only on its own registers and on being looked up. -/
theorem slotWeight_eq {i : L2TlbReqIdx p} (valid : s'.pendValid i = s.pendValid i)
    (wait : s'.pendWait i = s.pendWait i) (level : s'.pendWalkLevel i = s.pendWalkLevel i)
    (tlb : s'.tlbReqQ = some i ↔ s.tlbReqQ = some i) : s'.slotWeight i = s.slotWeight i := by
  unfold State.slotWeight
  rw [valid, wait, level]
  simp only [tlb]

theorem slotWeight_wait {i : L2TlbReqIdx p} (valid : s.pendValid i = true)
    (waits : s.pendWait i ≠ .none) :
    s.slotWeight i = 6 * ((s.pendWalkLevel i).toNat + 1) := by
  unfold State.slotWeight
  rw [valid]
  cases wait : s.pendWait i with
  | none => exact absurd wait waits
  | waitMem => rfl
  | waitPeer j => rfl

theorem doTlbReq_weight (inv : Inv s) (fires : s.doTlbReq = some s') :
    s'.weight < s.weight := by
  obtain ⟨-, -, idle, idx, r, tlb4KB, free, asked, taken, after⟩ := doTlbReq_some fires
  have array : arrayWeight s'.tlb4KB ≤ arrayWeight s.tlb4KB := by
    rw [after]
    exact req_weight taken
  have flush : s'.flushWeight = s.flushWeight := by rw [after]; rfl
  have queue : s'.queueWeight + 28 = s.queueWeight := by
    rw [after]
    simp only [State.queueWeight, asked, Option.toList_none, Option.toList_some, List.length_nil,
      List.length_cons]
    omega
  have own : s'.slotWeight idx = 27 := by
    rw [after]
    simp [State.slotWeight, inv.walks.free idx free]
  have before : s.slotWeight idx = 0 := slotWeight_free free
  have slots := slotWeights s s' idx fun i other => by
    rw [after]
    refine slotWeight_eq (Function.update_of_ne other ..) rfl rfl ?_
    rw [idle]
    exact iff_of_false (fun here => other (Option.some_inj.mp here).symm) nofun
  unfold State.weight
  omega

theorem doTlbResp_weight (inv : Inv s) (fires : s.doTlbResp = some s') :
    s'.weight < s.weight := by
  obtain ⟨idx, hit, here, answered, moves⟩ := doTlbResp_some fires
  obtain ⟨valid, idle, -⟩ := inv.stages.tlb idx here
  have before : s.slotWeight idx = 27 := by simp [State.slotWeight, valid, idle, here]
  have others : s'.tlbReqQ = none → ∀ i, i ≠ idx → (s'.tlbReqQ = some i ↔ s.tlbReqQ = some i) := by
    intro gone i other
    rw [gone, here]
    exact iff_of_false nofun fun same => other (Option.some_inj.mp same).symm
  rcases moves with ⟨answer, empty, -, after⟩ | ⟨-, transCache, -, after⟩
  · have array : arrayWeight s'.tlb4KB = arrayWeight s.tlb4KB := by
      rw [after]
      exact deqResp_weight answered
    have flush : s'.flushWeight = s.flushWeight := by rw [after]; rfl
    have queue : s'.queueWeight = s.queueWeight + 1 := by
      rw [after]
      simp [State.queueWeight, empty]
    have own : s'.slotWeight idx = 0 := by
      rw [after]
      exact slotWeight_free (Function.update_self ..)
    have slots := slotWeights s s' idx fun i other => by
      refine slotWeight_eq ?_ (by rw [after]) (by rw [after]) (others (by rw [after]) i other)
      rw [after]
      exact Function.update_of_ne other ..
    unfold State.weight
    omega
  · have array : arrayWeight s'.tlb4KB = arrayWeight s.tlb4KB := by
      rw [after]
      exact deqResp_weight answered
    have flush : s'.flushWeight = s.flushWeight := by rw [after]; rfl
    have queue : s'.queueWeight = s.queueWeight := by rw [after]; rfl
    have own : s'.slotWeight idx = 26 := by
      rw [after]
      simp [State.slotWeight, valid, idle]
    have slots := slotWeights s s' idx fun i other =>
      slotWeight_eq (by rw [after]) (by rw [after]) (by rw [after]) (others (by rw [after]) i other)
    unfold State.weight
    omega

/-- Walking on costs at most a read. -/
theorem walkOn_weight {idx : L2TlbReqIdx p} {level : PageWalkLevel} {addr : Addr}
    (fires : s.walkOn idx level addr = some s') (valid : s.pendValid idx = true) :
    s'.weight + s.slotWeight idx ≤ s.weight + 6 * (level.toNat + 1) + 3 := by
  have queue : s'.queueWeight ≤ s.queueWeight + 3 := by
    rcases walkOn_some fires with ⟨i, -, after⟩ | ⟨-, -, after⟩
    · rw [after]
      simp only [State.queueWeight]
      omega
    · rw [after]
      simp only [State.queueWeight, List.length_append, List.length_cons, List.length_nil]
      omega
  obtain ⟨wait, memReqQ, waits, after⟩ := walkOn_frame fires
  have array : s'.tlb4KB = s.tlb4KB := by rw [after]
  have flush : s'.flushWeight = s.flushWeight := by rw [after]; rfl
  have own : s'.slotWeight idx = 6 * (level.toNat + 1) := by
    rw [slotWeight_wait, after]
    · simp only [Function.update_self]
    · rw [after]
      exact valid
    · rw [after]
      simpa only [Function.update_self] using waits
  have slots := slotWeights s s' idx fun i other => by
    rw [after]
    exact slotWeight_eq rfl (Function.update_of_ne other ..) (Function.update_of_ne other ..)
      Iff.rfl
  unfold State.weight
  rw [array]
  omega

theorem doTranslationCacheResp_weight (inv : Inv s) (fires : s.doTranslationCacheResp = some s') :
    s'.weight < s.weight := by
  obtain ⟨idx, resp, here, answered, walked⟩ := doTranslationCacheResp_some fires
  obtain ⟨valid, idle, resp', answered', uses⟩ := inv.stages.trans idx here
  obtain rfl := Option.some_inj.mp (answered.symm.trans answered')
  have low : resp.startLevel.toNat ≤ 2 := uses.le
  have notTlb : s.tlbReqQ ≠ some idx := fun tlb => (inv.stages.tlb idx tlb).2.2.1 here
  have before : s.slotWeight idx = 26 := by simp [State.slotWeight, valid, idle, notTlb]
  have cost := walkOn_weight walked valid
  have same : { s with transCacheReqQ := none, transCache := s.transCache.deqResp }.slotWeight idx =
      s.slotWeight idx := rfl
  have deq : { s with transCacheReqQ := none, transCache := s.transCache.deqResp }.weight =
      s.weight := rfl
  rw [same, before, deq] at cost
  omega

theorem keeps_weight {victimMG : Option (Fin p.hugeSize)} {answer : Option TlbEntry}
    {tlbMG : Fin p.hugeSize → Option TlbEntry} {tlb4KB : SetAssocTlb p.lgSetNum p.wayNum}
    (kept : s.Keeps victimMG answer tlbMG tlb4KB) :
    arrayWeight tlb4KB ≤ arrayWeight s.tlb4KB + 1 := by
  cases answer with
  | none =>
      obtain ⟨-, rfl⟩ := kept
      exact Nat.le_succ _
  | some entry =>
      rcases kept with ⟨-, -, rfl⟩ | ⟨-, -, taken⟩
      · exact Nat.le_succ _
      · exact req_weight taken

/-- Using a response lowers the weight: the slot is a level further, or free. -/
theorem usePTE_weight {idx : L2TlbReqIdx p} {pte : PTESv39} {victimMG : Option (Fin p.hugeSize)}
    {victimTC : Option (Fin p.transCacheSize)}
    (fires : s.usePTE idx pte victimMG victimTC = some s') (valid : s.pendValid idx = true)
    (waits : s.pendWait idx ≠ .none) : s'.weight < s.weight := by
  have before := slotWeight_wait valid waits
  cases ends : s.verdict idx pte with
  | some answer =>
      obtain ⟨tlbMG, tlb4KB, empty, kept, after⟩ := usePTE_ends ends fires
      have array : arrayWeight s'.tlb4KB ≤ arrayWeight s.tlb4KB + 1 := by
        rw [after]
        exact keeps_weight kept
      have flush : s'.flushWeight = s.flushWeight := by rw [after]; rfl
      have queue : s'.queueWeight = s.queueWeight + 1 := by
        rw [after]
        simp [State.queueWeight, empty, State.moved]
      have own : s'.slotWeight idx = 0 := by
        rw [after]
        exact slotWeight_free (Function.update_self ..)
      have slots := slotWeights s s' idx fun i other => by
        rw [after]
        exact slotWeight_eq (Function.update_of_ne other ..) (Function.update_of_ne other ..)
          (Function.update_of_ne other ..) Iff.rfl
      unfold State.weight
      omega
  | none =>
      obtain ⟨s₁, transCache, walked, -, rfl⟩ := usePTE_goes ends fires
      have cost := walkOn_weight walked valid
      have above : (s.pendWalkLevel idx).toNat = (s.pendWalkLevel idx - 1).toNat + 1 := by
        have nonzero : (s.pendWalkLevel idx).toNat ≠ 0 :=
          fun zero => (verdict_none ends).1 (BitVec.toNat_inj.mp zero)
        bv_omega
      have same : { s₁ with transCache := transCache }.weight = s₁.weight := rfl
      rw [same]
      omega

theorem doPageWalk_weight (inv : Inv s) {victimMG : Option (Fin p.hugeSize)}
    {victimTC : Option (Fin p.transCacheSize)}
    (fires : s.doPageWalk victimMG victimTC = some s') : s'.weight < s.weight := by
  obtain ⟨-, -, first, head, used⟩ := doPageWalk_some fires
  have waits := inv.walks.turn_waits head
  generalize s.respForOtherReq.getD first.id = idx at used waits
  obtain ⟨other, rest, next, -, left⟩ := nextResp_frame s first.id idx
  have shorter : rest.length ≤ s.respLdQ.length := by
    rw [left]
    split
    · exact Nat.le_refl _
    · rw [List.length_tail]
      omega
  have handed : (s.nextResp first.id idx).weight ≤ s.weight := by
    have slots : (s.nextResp first.id idx).slotWeight = s.slotWeight := by rw [next]; rfl
    have flush : (s.nextResp first.id idx).flushWeight = s.flushWeight := by rw [next]; rfl
    have array : (s.nextResp first.id idx).tlb4KB = s.tlb4KB := by rw [next]
    have queue : (s.nextResp first.id idx).queueWeight ≤ s.queueWeight := by
      rw [next]
      simp only [State.queueWeight]
      omega
    unfold State.weight
    rw [slots, flush, array]
    omega
  refine Nat.lt_of_lt_of_le (usePTE_weight used ?_ ?_) handed
  · rw [next]
    exact inv.valid waits
  · rw [next]
    exact waits

/-- Every step that the environment does not start lowers the weight. -/
theorem Inv.weight_lt (inv : Inv s) {rule : Rule p} (own : ¬ rule.Starts)
    (fires : fire s rule = some s') : s'.weight < s.weight := by
  cases rule with
  | doStartFlush => exact doStartFlush_weight fires
  | doWaitFlush => exact doWaitFlush_weight fires
  | doFlush =>
      obtain ⟨tlb4KB, flushed, rfl⟩ := Option.map_eq_some_iff.mp fires
      exact array_weight (doFlush_weight flushed)
  | doAddEntry way =>
      obtain ⟨tlb4KB, added, rfl⟩ := Option.map_eq_some_iff.mp fires
      exact array_weight (doAddEntry_weight added)
  | doTlbReq => exact doTlbReq_weight inv fires
  | doTlbResp => exact doTlbResp_weight inv fires
  | doTranslationCacheResp => exact doTranslationCacheResp_weight inv fires
  | doPageWalk victimMG victimTC => exact doPageWalk_weight inv fires
  | memReq => exact memReq_weight fires
  | respLd k => exact respLd_weight fires
  | rsToC => exact rsToC_weight fires
  | flushDone => exact flushDone_weight fires
  | rqFromC r => exact absurd trivial own
  | iTlbReqFlush => exact absurd trivial own
  | dTlbReqFlush => exact absurd trivial own
  | updateVMInfo vmI vmD => exact absurd trivial own
  | writeTables mem => exact absurd trivial own

/-! ## Some step can be made -/

/-- A rule the environment does not start can fire. -/
def State.CanStep (s : State p) : Prop := ∃ rule : Rule p, ¬ rule.Starts ∧ (fire s rule).isSome

/-- What a state looks like in which nothing else is left to do than to look a request up, to
walk on or to take a response. -/
structure Drained (s : State p) : Prop where
  rsToCQ : s.rsToCQ = none
  memReqQ : s.memReqQ = []
  ready : s.tlb4KB.state = .ready
  refill : ∀ entry row, s.tlb4KB.pendReq ≠ some (.refill entry, row)
  flushDoneQ : s.flushDoneQ = false

theorem blocked (stuck : ¬ s.CanStep) (rule : Rule p) (own : ¬ rule.Starts) :
    fire s rule = none := by
  rw [← Option.not_isSome_iff_eq_none]
  exact fun fires => stuck ⟨rule, own, fires⟩

theorem drained_of_stuck (stuck : ¬ s.CanStep) : Drained s := by
  have blocked := blocked stuck
  constructor
  · by_contra full
    have blocked := blocked .rsToC id
    simp only [fire, Option.isSome_iff_ne_none.mpr full, if_true] at blocked
    cases blocked
  · by_contra some_
    have blocked := blocked .memReq id
    obtain ⟨r, rest, queue⟩ := List.exists_cons_of_ne_nil some_
    simp [fire, queue] at blocked
  · by_contra flushing
    have blocked := blocked .doFlush id
    have state : s.tlb4KB.state = .flush := by
      cases here : s.tlb4KB.state with
      | flush => rfl
      | ready => exact absurd here flushing
    simp [fire, SetAssocTlb.doFlush, state] at blocked
  · intro entry row pending
    have blocked := blocked (.doAddEntry ⟨0, p.someWay⟩) id
    cases state : s.tlb4KB.state with
    | ready => simp [fire, SetAssocTlb.doAddEntry, state, pending] at blocked
    | flush =>
        have blocked' := stuck ⟨.doFlush, id, by simp [fire, SetAssocTlb.doFlush, state]⟩
        exact blocked'
  · cases full : s.flushDoneQ with
    | false => rfl
    | true =>
        have blocked := blocked .flushDone id
        simp [fire, full] at blocked

theorem walkOn_isSome (idx : L2TlbReqIdx p) (level : PageWalkLevel) (addr : Addr)
    (empty : s.memReqQ = []) : (s.walkOn idx level addr).isSome := by
  unfold State.walkOn
  cases s.otherReqSamePTE idx addr with
  | some i => rfl
  | none => simp [empty]

theorem respond_isSome (idx : L2TlbReqIdx p) (entry : Option TlbEntry) (empty : s.rsToCQ = none) :
    (s.respond idx entry).isSome := by
  simp [State.respond, empty]

theorem usePTE_isSome {idx : L2TlbReqIdx p} {pte : PTESv39} (noAnswer : s.rsToCQ = none)
    (noRead : s.memReqQ = []) (noTrans : s.transCache.respQ = none)
    (ready : s.tlb4KB.state = .ready) (idle : s.tlb4KB.pendReq = none) :
    (s.usePTE idx pte none none).isSome := by
  cases ends : s.verdict idx pte with
  | some answer =>
      rw [usePTE_end ends]
      obtain ⟨s', answered⟩ := Option.isSome_iff_exists.mp
        (respond_isSome (s := { s.moved idx pte with
          pendWait := Function.update (s.moved idx pte).pendWait idx .none }) idx answer noAnswer)
      have ended : (s.moved idx pte).endWalk idx answer = some s' := answered
      rw [ended, Option.bind_some]
      cases answer with
      | none => rfl
      | some entry =>
          obtain ⟨-, rfl⟩ := respond_some answered
          have added : ∀ s₁ : State p, s₁.tlb4KB = s.tlb4KB → (s₁.addToTlb entry none).isSome := by
            intro s₁ same
            unfold State.addToTlb
            split
            · rfl
            · simp [SetAssocTlb.req, same, ready, idle]
          exact added _ rfl
  | none =>
      rw [usePTE_on ends]
      obtain ⟨s', walked⟩ := Option.isSome_iff_exists.mp
        (walkOn_isSome idx (s.pendWalkLevel idx - 1) (s.nextPTEAddr idx pte) noRead)
      rw [walked, Option.bind_some]
      simp [TranslationCache.addEntry, noTrans]

theorem Inv.noTrans (inv : Inv s) (stuck : ¬ s.CanStep) : s.transCacheReqQ = none := by
  have drained := drained_of_stuck stuck
  rw [Option.eq_none_iff_forall_ne_some]
  intro idx here
  obtain ⟨-, -, resp, answered, -⟩ := inv.stages.trans idx here
  have walks := walkOn_isSome (s := { s with
      transCacheReqQ := none, transCache := s.transCache.deqResp }) idx resp.startLevel
    (s.startPTEAddr idx resp) drained.memReqQ
  have fires : s.doTranslationCacheResp.isSome := by
    rw [State.doTranslationCacheResp, here, answered]
    exact walks
  exact stuck ⟨.doTranslationCacheResp, id, fires⟩

theorem Inv.noTlb (inv : Inv s) (stuck : ¬ s.CanStep) : s.tlbReqQ = none := by
  have drained := drained_of_stuck stuck
  have noTrans := inv.noTrans stuck
  rw [Option.eq_none_iff_forall_ne_some]
  intro idx here
  obtain ⟨-, -, -, asid, row, translate⟩ := inv.stages.tlb idx here
  obtain ⟨hit, answered⟩ : ∃ hit, s.tlb4KB.resp = some hit := by
    simp only [SetAssocTlb.resp, drained.ready, translate]
    exact ⟨_, rfl⟩
  have asks : (s.transCache.req (s.pendReq idx).vpn
      (s.vmInfo (s.pendReq idx).child).asid).isSome := by
    simp [TranslationCache.req, inv.stages.noResp noTrans]
  have answers := fun entry => respond_isSome (s := { s with
    tlbReqQ := none, tlb4KB := s.tlb4KB.deqResp }) idx entry drained.rsToCQ
  have fires : s.doTlbResp.isSome := by
    rw [State.doTlbResp, here, answered]
    dsimp only
    split
    · exact answers none
    · split
      · exact answers _
      · exact answers _
      · simpa [noTrans] using asks
  exact stuck ⟨.doTlbResp, id, fires⟩

theorem Inv.noPending (inv : Inv s) (stuck : ¬ s.CanStep) : s.tlb4KB.pendReq = none := by
  have drained := drained_of_stuck stuck
  have noTlb := inv.noTlb stuck
  cases pending : s.tlb4KB.pendReq with
  | none => rfl
  | some request =>
      obtain ⟨r, row⟩ := request
      cases r with
      | translate vpn asid => exact absurd pending (inv.stages.noTranslate noTlb vpn asid row)
      | refill entry => exact absurd pending (drained.refill entry row)

theorem Inv.noResp (inv : Inv s) (stuck : ¬ s.CanStep) : s.respLdQ = [] := by
  have drained := drained_of_stuck stuck
  have noTrans := inv.noTrans stuck
  have noTlb := inv.noTlb stuck
  have noPending := inv.noPending stuck
  cases queue : s.respLdQ with
  | nil => rfl
  | cons first rest =>
      exfalso
      refine stuck ⟨.doPageWalk none none, id, ?_⟩
      have head : s.respLdQ.head? = some first := by rw [queue]; rfl
      simp only [fire, State.doPageWalk, noTlb, noTrans, head, Option.isSome_none, Bool.or_self,
        Bool.false_eq_true, if_false, Option.bind_some]
      generalize s.respForOtherReq.getD first.id = idx
      obtain ⟨other, rest, next, -, -⟩ := nextResp_frame s first.id idx
      rw [next]
      exact usePTE_isSome drained.rsToCQ drained.memReqQ (inv.stages.noResp noTrans) drained.ready
        noPending

/-- With nothing to take and nothing looked up, no slot is pending. -/
theorem Inv.noSlot (inv : Inv s) (stuck : ¬ s.CanStep) (i : L2TlbReqIdx p) :
    s.pendValid i = false := by
  have drained := drained_of_stuck stuck
  have noResp := inv.noResp stuck
  have noReading : s.reading = [] := by
    cases queue : s.reading with
    | nil => rfl
    | cons r rest =>
        have blocked := blocked stuck (.respLd 0) id
        simp [fire, noResp, queue] at blocked
  have noRead : ∀ j, s.pendWait j ≠ .waitMem := by
    intro j waits
    have member := (inv.walks.reads.mem_reading j).mpr waits
    simp [Table.reading, Table.fresh, State.table, noReading, drained.memReqQ, noResp] at member
  cases valid : s.pendValid i with
  | false => rfl
  | true =>
      exfalso
      cases waits : s.pendWait i with
      | none =>
          rcases inv.stages.idle i valid waits with tlb | trans
          · cases (inv.noTlb stuck).symm.trans tlb
          · cases (inv.noTrans stuck).symm.trans trans
      | waitMem => exact noRead i waits
      | waitPeer j =>
          rcases (inv.walks.reads.peer i j waits).2 with ⟨first, served, -⟩ | ⟨-, reads, -⟩
          · simp [table_served, noResp] at served
          · exact noRead j reads

theorem Inv.canStep (inv : Inv s) (owed : s.outstanding ≠ []) : s.CanStep := by
  by_contra stuck
  have drained := drained_of_stuck stuck
  have noSlot := inv.noSlot stuck
  have slots : (List.finRange p.l2TlbReqNum).filterMap s.pending = [] := by
    rw [List.filterMap_eq_nil_iff]
    intro i _
    simp [State.pending, noSlot i]
  have noPending := inv.noPending stuck
  have noRequest : s.rqFromCQ = none := by
    cases asked : s.rqFromCQ with
    | none => rfl
    | some r =>
        exfalso
        cases flushing : s.flushing with
        | true =>
            cases waits : s.waitFlushDone with
            | true =>
                refine stuck ⟨.doWaitFlush, id, ?_⟩
                simp [fire, State.doWaitFlush, flushing, waits, drained.ready, drained.flushDoneQ]
            | false =>
                refine stuck ⟨.doStartFlush, id, ?_⟩
                simp [fire, State.doStartFlush, flushing, waits, SetAssocTlb.flush, drained.ready,
                  noPending]
        | false =>
            have free : s.freeSlot.isSome := by
              rw [State.freeSlot, List.find?_isSome]
              exact ⟨⟨0, p.someReq⟩, List.mem_finRange _, by simp [noSlot]⟩
            obtain ⟨idx, free⟩ := Option.isSome_iff_exists.mp free
            refine stuck ⟨.doTlbReq, id, ?_⟩
            simp [fire, State.doTlbReq, flushing, inv.noResp stuck, inv.noTlb stuck, free, asked,
              SetAssocTlb.req, drained.ready, noPending]
  apply owed
  rw [State.outstanding, State.unanswered, drained.rsToCQ, noRequest, slots]
  rfl

end Toooba.L2Tlb
