import RiscvCores.Toooba.L2TlbWalks

/-!
# Runs of the second-level TLB

What holds in every state a run reaches: the entries of the arrays are results of walks, every
request is in one stage, and the walks under way are in order.  From it, every answer is the
one the tables give.
-/

set_option autoImplicit false

namespace Toooba.L2Tlb

open Tlb SharedReads

variable {p : Params} {s s' : State p}

def State.walkOf (s : State p) (vpn : Vpn) : Option TlbEntry :=
  sv39Walk s.vm_info_I.asid s.vm_info_I.basePPN s.mem vpn

/-- Every page number the entry stands for has a walk that ends with it. -/
def State.Good (s : State p) (entry : TlbEntry) : Prop :=
  ∀ vpn, getMaskedVpn vpn entry.level = entry.vpn → s.walkOf vpn = some entry

/-- Every page number the pointer stands for has a walk that takes it. -/
def State.GoodPointer (s : State p) (i : Fin 2) (entry : TransEntry) : Prop :=
  ∀ vpn, getMaskedVpn vpn (TranslationCache.cacheLevel i) =
      getMaskedVpn entry.vpn (TranslationCache.cacheLevel i) →
    s.Uses vpn (BitVec.ofNat 2 i.val) entry.ppn

structure Cached (s : State p) : Prop where
  mg : ReadCache.Holds s.Good s.tlbMG
  pages : SetAssocTlb.Sound (fun entry => entry.level = 0 ∧ s.Good entry) s.tlb4KB
  pointers : TranslationCache.Sound s.GoodPointer s.transCache

/-- Where the requests in the slots are. -/
structure Stages (s : State p) : Prop where
  tlb : ∀ j, s.tlbReqQ = some j → s.pendValid j = true ∧ s.pendWait j = .none ∧
    s.transCacheReqQ ≠ some j ∧
    ∃ asid row, s.tlb4KB.pendReq = some (.translate (s.pendReq j).vpn asid, row)
  trans : ∀ j, s.transCacheReqQ = some j → s.pendValid j = true ∧ s.pendWait j = .none ∧
    ∃ resp, s.transCache.respQ = some resp ∧
      s.Uses (s.pendReq j).vpn resp.startLevel (s.startPPN j resp)
  noResp : s.transCacheReqQ = none → s.transCache.respQ = none
  noTranslate : s.tlbReqQ = none →
    ∀ vpn asid row, s.tlb4KB.pendReq ≠ some (.translate vpn asid, row)
  idle : ∀ j, s.pendValid j = true → s.pendWait j = .none →
    s.tlbReqQ = some j ∨ s.transCacheReqQ = some j

structure Inv (s : State p) : Prop where
  same : s.SameTables
  walks : Walks s
  cached : Cached s
  stages : Stages s

theorem Inv.valid (inv : Inv s) {i : L2TlbReqIdx p} (waits : s.pendWait i ≠ .none) :
    s.pendValid i = true := by
  cases valid : s.pendValid i with
  | true => rfl
  | false => exact absurd (inv.walks.free i valid) waits

theorem inv_reset (u : PowerUp p) : Inv (reset u) where
  same := ⟨rfl, rfl⟩
  walks :=
    { reads :=
        { nodup := List.nodup_nil
          mem_reading := fun _ => iff_of_false List.not_mem_nil nofun
          asked := nofun
          fresh := nofun
          peer := nofun
          serving := nofun }
      entries := fun _ waits => absurd rfl waits
      free := fun _ _ => rfl }
  cached :=
    { mg := ReadCache.Holds.empty
      pages :=
        { rows := nofun
          flushed := fun _ => ⟨rfl, fun _ small => absurd small BitVec.not_lt_zero⟩
          row := nofun
          refill := nofun }
      pointers := fun _ => ReadCache.Holds.empty }
  stages :=
    { tlb := nofun
      trans := nofun
      noResp := fun _ => rfl
      noTranslate := fun _ _ _ _ => nofun
      idle := nofun }

/-! ## Rules that leave the walks alone -/

theorem Inv.doStartFlush (inv : Inv s) (fires : s.doStartFlush = some s') : Inv s' := by
  unfold State.doStartFlush at fires
  split at fires
  next =>
    obtain ⟨tlb4KB, flushed, rfl⟩ := Option.map_eq_some_iff.mp fires
    have pages := SetAssocTlb.sound_of_flush (fun entry => entry.level = 0 ∧ s.Good entry) flushed
    obtain ⟨-, rfl⟩ := SetAssocTlb.flush_some flushed
    exact
      { same := inv.same
        walks := ⟨inv.walks.reads, inv.walks.entries, inv.walks.free⟩
        cached := ⟨ReadCache.Holds.empty, pages, fun _ => ReadCache.Holds.empty⟩
        stages := ⟨inv.stages.tlb, inv.stages.trans, inv.stages.noResp, inv.stages.noTranslate,
          inv.stages.idle⟩ }
  next => cases fires

/-- The flush flags and the queues of the children are outside the invariant. -/
theorem Inv.outside (inv : Inv s) (iFlushReq dFlushReq waitFlushDone flushDoneQ : Bool)
    (rqFromCQ : Option L2TlbRqFromC) (rsToCQ : Option L2TlbRsToC) :
    Inv { s with
      iFlushReq := iFlushReq, dFlushReq := dFlushReq, waitFlushDone := waitFlushDone
      flushDoneQ := flushDoneQ, rqFromCQ := rqFromCQ, rsToCQ := rsToCQ } where
  same := inv.same
  walks := ⟨inv.walks.reads, inv.walks.entries, inv.walks.free⟩
  cached := ⟨inv.cached.mg, inv.cached.pages, inv.cached.pointers⟩
  stages := ⟨inv.stages.tlb, inv.stages.trans, inv.stages.noResp, inv.stages.noTranslate,
    inv.stages.idle⟩

theorem Inv.doWaitFlush (inv : Inv s) (fires : s.doWaitFlush = some s') : Inv s' := by
  unfold State.doWaitFlush at fires
  split at fires
  next =>
    obtain rfl := Option.some_inj.mp fires
    exact inv.outside ..
  next => cases fires

theorem Inv.doFlush (inv : Inv s) (fires : fire s .doFlush = some s') : Inv s' := by
  obtain ⟨tlb4KB, flushed, rfl⟩ := Option.map_eq_some_iff.mp fires
  have idle := SetAssocTlb.doFlush_pendReq flushed
  refine ⟨inv.same, ⟨inv.walks.reads, inv.walks.entries, inv.walks.free⟩,
    ⟨inv.cached.mg, inv.cached.pages.doFlush flushed, inv.cached.pointers⟩, ?_⟩
  have tlb := inv.stages.tlb
  have noTranslate := inv.stages.noTranslate
  rw [← idle] at tlb noTranslate
  exact ⟨tlb, inv.stages.trans, inv.stages.noResp, noTranslate, inv.stages.idle⟩

theorem Inv.doAddEntry (inv : Inv s) {way : Fin p.wayNum}
    (fires : fire s (.doAddEntry way) = some s') : Inv s' := by
  obtain ⟨tlb4KB, added, rfl⟩ := Option.map_eq_some_iff.mp fires
  obtain ⟨idle, entry, row, refill⟩ := SetAssocTlb.doAddEntry_pendReq added
  refine ⟨inv.same, ⟨inv.walks.reads, inv.walks.entries, inv.walks.free⟩,
    ⟨inv.cached.mg, inv.cached.pages.doAddEntry added, inv.cached.pointers⟩, ?_⟩
  refine ⟨fun j here => ?_, inv.stages.trans, inv.stages.noResp, fun _ _ _ _ pending => ?_,
    inv.stages.idle⟩
  · obtain ⟨-, -, -, asid, row', translate⟩ := inv.stages.tlb j here
    cases refill.symm.trans translate
  · cases idle.symm.trans pending

theorem Inv.memReq (inv : Inv s) (fires : fire s .memReq = some s') : Inv s' := by
  obtain ⟨r, head, rfl⟩ := Option.map_eq_some_iff.mp fires
  obtain ⟨rest, queue⟩ := List.head?_eq_some_iff.mp head
  refine ⟨inv.same, ⟨?_, inv.walks.entries, inv.walks.free⟩, ?_, ?_⟩
  · have reads := inv.walks.reads
    simpa [State.table, queue] using reads
  · exact ⟨inv.cached.mg, inv.cached.pages, inv.cached.pointers⟩
  · exact ⟨inv.stages.tlb, inv.stages.trans, inv.stages.noResp, inv.stages.noTranslate,
      inv.stages.idle⟩

theorem Inv.respLd (inv : Inv s) {k : Nat} (fires : fire s (.respLd k) = some s') : Inv s' := by
  simp only [fire, Option.ite_none_right_eq_some] at fires
  obtain ⟨-, fires⟩ := fires
  obtain ⟨r, taken, rfl⟩ := Option.map_eq_some_iff.mp fires
  refine ⟨inv.same, ⟨?_, inv.walks.entries, inv.walks.free⟩, ?_, ?_⟩
  · obtain ⟨bound, -⟩ := List.getElem?_eq_some_iff.mp taken
    have asked : s.table.asked[k]? = some (r.addr, r.id) := by
      rw [State.table, List.getElem?_map, List.getElem?_append_left bound, taken]
      rfl
    have answered := inv.walks.reads.answer asked
    simp only [Table.answer, State.table, List.eraseIdx_map,
      List.eraseIdx_append_of_lt_length bound] at answered
    simpa [State.table] using answered
  · exact ⟨inv.cached.mg, inv.cached.pages, inv.cached.pointers⟩
  · exact ⟨inv.stages.tlb, inv.stages.trans, inv.stages.noResp, inv.stages.noTranslate,
      inv.stages.idle⟩

/-- While nothing is pending and nothing is cached, the tables and their root may change. -/
theorem Inv.change (inv : Inv s) (pending : s.NonePending) (cached : s.NoneCached)
    {vmI vmD : VMInfo} (agree : vmI.asid = vmD.asid ∧ vmI.basePPN = vmD.basePPN)
    (mem : Addr → Data) : Inv { s with vm_info_I := vmI, vm_info_D := vmD, mem := mem } := by
  have idle : ∀ j, s.pendWait j = .none := fun j => inv.walks.free j (pending.2 j)
  have noTlb : s.tlbReqQ = none := by
    rw [Option.eq_none_iff_forall_ne_some]
    intro j here
    cases (pending.2 j).symm.trans (inv.stages.tlb j here).1
  have noTrans : s.transCacheReqQ = none := by
    rw [Option.eq_none_iff_forall_ne_some]
    intro j here
    cases (pending.2 j).symm.trans (inv.stages.trans j here).1
  obtain ⟨noRefill, rows, mg, pointers⟩ := cached
  rw [Option.isNone_iff_eq_none] at noRefill
  constructor
  · exact agree
  · exact ⟨inv.walks.reads.change idle mem, fun i waits => absurd (idle i) waits, inv.walks.free⟩
  · refine ⟨fun i entry member => ?_, ⟨fun _ idx way entry member => ?_, inv.cached.pages.flushed,
      fun r row here => ?_, fun entry row here => ?_⟩, fun i place entry member => ?_⟩
    · cases (mg i).symm.trans member
    · cases (rows idx way).symm.trans member
    · cases noRefill.symm.trans here
    · cases noRefill.symm.trans here
    · cases (pointers i place).symm.trans member
  · refine ⟨inv.stages.tlb, fun j here => ?_, inv.stages.noResp, inv.stages.noTranslate,
      inv.stages.idle⟩
    cases noTrans.symm.trans here

/-! ## Looking up the arrays -/

theorem starts_of_eq {i : L2TlbReqIdx p} {resp : TranslationCacheResp}
    (starts : s.Uses (s.pendReq i).vpn resp.startLevel (s.startPPN i resp))
    (uses : s'.Uses = s.Uses) (vm : s'.vmInfo = s.vmInfo) (req : s'.pendReq i = s.pendReq i) :
    s'.Uses (s'.pendReq i).vpn resp.startLevel (s'.startPPN i resp) := by
  unfold State.startPPN
  rw [uses, vm, req]
  exact starts

theorem doTlbReq_some (fires : s.doTlbReq = some s') :
    s.flushing = false ∧ s.respLdQ = [] ∧ s.tlbReqQ = none ∧ ∃ idx r tlb4KB,
      s.pendValid idx = false ∧ s.rqFromCQ = some r ∧
      s.tlb4KB.req (.translate r.vpn (s.vmInfo r.child).asid) = some tlb4KB ∧
      s' =
        { s with
          rqFromCQ := none
          tlb4KB := tlb4KB
          tlbReqQ := some idx
          pendValid := Function.update s.pendValid idx true
          pendReq := Function.update s.pendReq idx r } := by
  unfold State.doTlbReq at fires
  split at fires
  next => cases fires
  next guard =>
    simp only [Bool.or_eq_true, not_or, Bool.not_eq_true, Bool.not_eq_false', List.isEmpty_iff,
      Option.isSome_eq_false_iff, Option.isNone_iff_eq_none] at guard
    obtain ⟨⟨running, empty⟩, idle⟩ := guard
    split at fires
    next idx r free asked =>
      obtain ⟨tlb4KB, taken, rfl⟩ := Option.map_eq_some_iff.mp fires
      have invalid : s.pendValid idx = false := by simpa using List.find?_some free
      exact ⟨running, empty, idle, idx, r, tlb4KB, invalid, asked, taken, rfl⟩
    next => cases fires

theorem Inv.doTlbReq (inv : Inv s) (fires : s.doTlbReq = some s') : Inv s' := by
  obtain ⟨-, -, idle, idx, r, tlb4KB, free, -, taken, rfl⟩ := doTlbReq_some fires
  have noWait := inv.walks.free idx free
  have pages := inv.cached.pages.req (by simp) taken
  obtain ⟨-, -, rfl⟩ := SetAssocTlb.req_some taken
  have notTrans : s.transCacheReqQ ≠ some idx := by
    intro here
    cases free.symm.trans (inv.stages.trans idx here).1
  constructor
  · exact inv.same
  · refine ⟨inv.walks.reads, fun i waits => ?_, fun i invalid => ?_⟩
    · have other : i ≠ idx := by
        rintro rfl
        exact waits noWait
      exact (inv.walks.entries i waits).of_eq rfl (Function.update_of_ne other ..) rfl rfl
    · by_cases here : i = idx
      · subst here
        exact noWait
      · exact inv.walks.free i ((Function.update_of_ne here ..).symm.trans invalid)
  · exact ⟨inv.cached.mg, pages, inv.cached.pointers⟩
  · constructor
    · rintro j here
      obtain rfl := Option.some_inj.mp here
      refine ⟨Function.update_self .., noWait, notTrans, (s.vmInfo r.child).asid,
        s.tlb4KB.tlbRam (SetAssocTlb.getIndex r.vpn), ?_⟩
      simp only [Function.update_self, SetAssocTlbReq.vpn]
    · intro j here
      have other : j ≠ idx := by
        rintro rfl
        exact notTrans here
      obtain ⟨valid, waits, resp, answered, uses⟩ := inv.stages.trans j here
      exact ⟨(Function.update_of_ne other ..).trans valid, waits, resp, answered,
        starts_of_eq uses rfl rfl (Function.update_of_ne other ..)⟩
    · exact inv.stages.noResp
    · exact nofun
    · intro j valid waits
      by_cases here : j = idx
      · exact .inl (congrArg some here.symm)
      · have before := inv.stages.idle j ((Function.update_of_ne here ..).symm.trans valid) waits
        rw [idle] at before
        exact .inr (before.resolve_left nofun)

/-- The arrays answer a request, or its walk is to start. -/
theorem doTlbResp_some (fires : s.doTlbResp = some s') :
    ∃ idx hit, s.tlbReqQ = some idx ∧ s.tlb4KB.resp = some hit ∧
      ((∃ answer, s.rsToCQ = none ∧
          ((s.vmInfo (s.pendReq idx).child).sv39 = false ∧ answer = none ∨
            (s.vmInfo (s.pendReq idx).child).sv39 = true ∧ ∃ entry, answer = some entry ∧
              (FullAssoc.translate s.tlbMG (s.pendReq idx).vpn
                  (s.vmInfo (s.pendReq idx).child).asid = some entry ∨ hit = some entry)) ∧
          s' =
            { s with
              tlbReqQ := none
              tlb4KB := s.tlb4KB.deqResp
              rsToCQ := some { child := (s.pendReq idx).child, entry := answer }
              pendValid := Function.update s.pendValid idx false }) ∨
        s.transCacheReqQ = none ∧ ∃ transCache,
          s.transCache.req (s.pendReq idx).vpn (s.vmInfo (s.pendReq idx).child).asid =
            some transCache ∧
          s' =
            { s with
              tlbReqQ := none
              tlb4KB := s.tlb4KB.deqResp
              transCache := transCache
              transCacheReqQ := some idx }) := by
  unfold State.doTlbResp at fires
  split at fires
  next idx hit here answered =>
    refine ⟨idx, hit, here, answered, ?_⟩
    dsimp only at fires
    split at fires
    next bare =>
      obtain ⟨empty, rfl⟩ := respond_some fires
      exact .inl ⟨none, empty, .inl ⟨by simpa using bare, rfl⟩, rfl⟩
    next paged =>
      have sv39 : (s.vmInfo (s.pendReq idx).child).sv39 = true := by simpa using paged
      split at fires
      next entry found =>
        obtain ⟨empty, rfl⟩ := respond_some fires
        exact .inl ⟨some entry, empty, .inr ⟨sv39, entry, rfl, .inl found⟩, rfl⟩
      next entry _ =>
        obtain ⟨empty, rfl⟩ := respond_some fires
        exact .inl ⟨some entry, empty, .inr ⟨sv39, entry, rfl, .inr rfl⟩, rfl⟩
      next =>
        split at fires
        next => cases fires
        next free =>
          obtain ⟨transCache, taken, rfl⟩ := Option.map_eq_some_iff.mp fires
          exact .inr ⟨Option.not_isSome_iff_eq_none.mp free, transCache, taken, rfl⟩
  next => cases fires

/-- A hit of either array is the result of the walk. -/
theorem Cached.hit (cached : Cached s) {idx : L2TlbReqIdx p} {asid asid' : Asid}
    {row : Fin p.wayNum → Option TlbEntry} {hit : Option TlbEntry} {entry : TlbEntry}
    (translate : s.tlb4KB.pendReq = some (.translate (s.pendReq idx).vpn asid, row))
    (answered : s.tlb4KB.resp = some hit)
    (found : FullAssoc.translate s.tlbMG (s.pendReq idx).vpn asid' = some entry ∨
      hit = some entry) : s.walkOf (s.pendReq idx).vpn = some entry := by
  rcases found with huge | page
  · obtain ⟨good, matched⟩ := cached.mg.lookup huge
    simp only [FullAssoc.isMatch, Bool.and_eq_true, beq_iff_eq] at matched
    exact good _ matched.2
  · obtain ⟨vpn, asid', row', translate', sound⟩ := cached.pages.resp answered
    cases translate.symm.trans translate'
    obtain ⟨⟨level, good⟩, same⟩ := sound entry page
    refine good _ ?_
    rw [same, level]
    rfl

/-- The answer of the translation cache is where the walk of the request passes. -/
theorem Inv.starts (inv : Inv s) (idx : L2TlbReqIdx p) (asid : Asid) :
    s.Uses (s.pendReq idx).vpn (s.transCache.answer (s.pendReq idx).vpn asid).startLevel
      (s.startPPN idx (s.transCache.answer (s.pendReq idx).vpn asid)) := by
  unfold State.startPPN
  rcases inv.cached.pointers.answer (s.pendReq idx).vpn asid with
    root | ⟨i, entry, good, matched, level, ppn⟩
  · have last : ¬ maxPageWalkLevel < maxPageWalkLevel := by decide
    rw [root]
    simp only [if_neg last, (inv.same.vmInfo _).2]
    exact WalkUses.root
  · have below : ∀ i : Fin 2, BitVec.ofNat 2 i.val < maxPageWalkLevel := by decide
    rw [level]
    simp only [if_pos (below i), ppn]
    exact good _ matched

theorem Inv.doTlbResp (inv : Inv s) (fires : s.doTlbResp = some s') : Inv s' := by
  obtain ⟨idx, hit, here, answered, ⟨answer, -, -, rfl⟩ | ⟨free, transCache, taken, rfl⟩⟩ :=
    doTlbResp_some fires
  · obtain ⟨valid, noWait, notTrans, -⟩ := inv.stages.tlb idx here
    refine ⟨inv.same, ⟨inv.walks.reads, inv.walks.entries, fun i invalid => ?_⟩,
      ⟨inv.cached.mg, inv.cached.pages.deqResp, inv.cached.pointers⟩, ?_⟩
    · by_cases slot : i = idx
      · subst slot
        exact noWait
      · exact inv.walks.free i ((Function.update_of_ne slot ..).symm.trans invalid)
    · refine ⟨nofun, fun j trans => ?_, inv.stages.noResp, fun _ _ _ _ => nofun,
        fun j valid waits => ?_⟩
      · have other : j ≠ idx := by
          rintro rfl
          exact notTrans trans
        obtain ⟨valid, waits, resp⟩ := inv.stages.trans j trans
        exact ⟨(Function.update_of_ne other ..).trans valid, waits, resp⟩
      · have other : j ≠ idx := by
          rintro rfl
          cases (Function.update_self ..).symm.trans valid
        have before := inv.stages.idle j ((Function.update_of_ne other ..).symm.trans valid) waits
        refine .inr (before.resolve_left fun tlb => other ?_)
        exact Option.some_inj.mp (tlb.symm.trans here)
  · obtain ⟨valid, noWait, -⟩ := inv.stages.tlb idx here
    obtain ⟨-, rfl⟩ := TranslationCache.req_some taken
    refine ⟨inv.same, ⟨inv.walks.reads, inv.walks.entries, inv.walks.free⟩,
      ⟨inv.cached.mg, inv.cached.pages.deqResp, inv.cached.pointers⟩, ?_⟩
    refine ⟨nofun, fun j trans => ?_, nofun, fun _ _ _ _ => nofun, fun j valid waits => ?_⟩
    · obtain rfl := Option.some_inj.mp trans
      exact ⟨valid, noWait, _, rfl, inv.starts idx _⟩
    · have before := inv.stages.idle j valid waits
      rw [here, free] at before
      exact .inr (before.resolve_right nofun)

/-! ## Walking the tables -/

theorem doTranslationCacheResp_some (fires : s.doTranslationCacheResp = some s') :
    ∃ idx resp, s.transCacheReqQ = some idx ∧ s.transCache.respQ = some resp ∧
      { s with transCacheReqQ := none, transCache := s.transCache.deqResp }.walkOn idx
        resp.startLevel (s.startPTEAddr idx resp) = some s' := by
  unfold State.doTranslationCacheResp at fires
  split at fires
  next idx resp here answered => exact ⟨idx, resp, here, answered, fires⟩
  next => cases fires

theorem of_update_wait {f : L2TlbReqIdx p → L2TlbWait p} {wait : L2TlbWait p}
    {j idx : L2TlbReqIdx p}
    (waits : wait ≠ .none) (idle : Function.update f idx wait j = .none) :
    j ≠ idx ∧ f j = .none := by
  by_cases here : j = idx
  · rw [here, Function.update_self] at idle
    exact absurd idle waits
  · rw [Function.update_of_ne here] at idle
    exact ⟨here, idle⟩

theorem of_update_valid {f : L2TlbReqIdx p → Bool} {j idx : L2TlbReqIdx p}
    (valid : Function.update f idx false j = true) : j ≠ idx ∧ f j = true := by
  by_cases here : j = idx
  · rw [here, Function.update_self] at valid
    cases valid
  · rw [Function.update_of_ne here] at valid
    exact ⟨here, valid⟩

theorem Inv.doTranslationCacheResp (inv : Inv s) (apart : Apart s .doTranslationCacheResp)
    (fires : s.doTranslationCacheResp = some s') : Inv s' := by
  obtain ⟨idx, resp, here, answered, walked⟩ := doTranslationCacheResp_some fires
  obtain ⟨valid, idle, resp', answered', uses⟩ := inv.stages.trans idx here
  obtain rfl := Option.some_inj.mp (answered.symm.trans answered')
  have deq : Walks { s with transCacheReqQ := none, transCache := s.transCache.deqResp } :=
    ⟨inv.walks.reads, inv.walks.entries, inv.walks.free⟩
  have walks := deq.walkOn idle valid uses (apart idx here resp answered) walked
  obtain ⟨wait, memReqQ, waits, rfl⟩ := walkOn_frame walked
  refine ⟨inv.same, walks, ⟨inv.cached.mg, inv.cached.pages, inv.cached.pointers⟩, ?_⟩
  refine ⟨fun j tlb => ?_, nofun, fun _ => rfl, inv.stages.noTranslate, fun j valid idle => ?_⟩
  · obtain ⟨valid', idle', notTrans, translate⟩ := inv.stages.tlb j tlb
    have other : j ≠ idx := by
      rintro rfl
      exact notTrans here
    exact ⟨valid', (Function.update_of_ne other ..).trans idle', nofun, translate⟩
  · obtain ⟨other, idle⟩ := of_update_wait waits idle
    refine .inl ((inv.stages.idle j valid idle).resolve_right fun trans => other ?_)
    exact Option.some_inj.mp (trans.symm.trans here)

/-- The answer of a walk that ends is the one of the tables. -/
theorem Inv.verdict (inv : Inv s) {first : TlbLdResp p} (head : s.respLdQ.head? = some first)
    {answer : Option TlbEntry}
    (verdict : s.verdict (s.respForOtherReq.getD first.id) (PTESv39.unpack first.data) =
      some answer) :
    (s.walkAnswer (s.pendReq (s.respForOtherReq.getD first.id))).entry = answer ∧
      ∀ entry ∈ answer, s.Good entry := by
  obtain ⟨base, uses, data⟩ := inv.walks.data head
  generalize s.respForOtherReq.getD first.id = idx at *
  have vm := inv.same.vmInfo (s.pendReq idx).child
  unfold State.walkAnswer
  rcases verdict_some verdict with ⟨bare, rfl⟩ | ⟨sv39, decoded⟩
  · exact ⟨by simp [bare], nofun⟩
  · rw [data, vm.1] at decoded
    simp only [sv39, if_true, vm.1, vm.2]
    cases entry : decodePTE s.vm_info_I.asid (s.pendReq idx).vpn (s.pendWalkLevel idx)
      (walkPTE s.mem (s.pendReq idx).vpn (s.pendWalkLevel idx) base) with
    | fault f =>
        rw [entry] at decoded
        obtain rfl : answer = none := decoded
        exact ⟨WalkUses.fault uses entry, nofun⟩
    | pointer next =>
        rw [entry] at decoded
        obtain ⟨last, rfl⟩ : s.pendWalkLevel idx = 0 ∧ answer = none := decoded
        exact ⟨WalkUses.missing uses last entry, nofun⟩
    | leaf leaf =>
        rw [entry] at decoded
        obtain rfl : answer = some leaf := decoded
        refine ⟨WalkUses.leaf uses entry, ?_⟩
        intro entry' kept vpn matched
        obtain rfl := Option.some_inj.mp kept
        have shape := decodePTE_leaf entry
        rw [shape] at matched
        exact WalkUses.leaf_covers uses entry matched.symm

/-- A walk that goes on has taken a pointer of the tables. -/
theorem Inv.pointer (inv : Inv s) {first : TlbLdResp p} (head : s.respLdQ.head? = some first)
    (asid : Asid)
    (verdict : s.verdict (s.respForOtherReq.getD first.id) (PTESv39.unpack first.data) = none) :
    ∀ i, TranslationCache.cacheLevel i = s.pendWalkLevel (s.respForOtherReq.getD first.id) →
      s.GoodPointer i
        ⟨(s.pendReq (s.respForOtherReq.getD first.id)).vpn, (PTESv39.unpack first.data).ppn,
          asid⟩ := by
  intro i level vpn matched
  obtain ⟨base, uses, data⟩ := inv.walks.data head
  generalize s.respForOtherReq.getD first.id = idx at *
  obtain ⟨above, next, entry⟩ := verdict_none verdict
  obtain rfl := decodePTE_pointer entry
  rw [(inv.same.vmInfo _).1, data] at entry
  have below : ∀ i, TranslationCache.cacheLevel i - 1 = BitVec.ofNat 2 i.val := by decide
  rw [level] at matched
  have covers := WalkUses.pointer_covers uses above entry matched.symm
  rw [← data, ← level, below i] at covers
  exact covers

/-- The arrays stay good when the result of a walk is kept. -/
theorem Cached.keeps (cached : Cached s) {victimMG : Option (Fin p.hugeSize)}
    {answer : Option TlbEntry} {tlbMG : Fin p.hugeSize → Option TlbEntry}
    {tlb4KB : SetAssocTlb p.lgSetNum p.wayNum} (good : ∀ entry ∈ answer, s.Good entry)
    (kept : s.Keeps victimMG answer tlbMG tlb4KB) :
    Cached { s with tlbMG := tlbMG, tlb4KB := tlb4KB } := by
  cases answer with
  | none =>
      obtain ⟨rfl, rfl⟩ := kept
      exact cached
  | some entry =>
      have sound := good entry rfl
      rcases kept with ⟨-, rfl, rfl⟩ | ⟨low, rfl, taken⟩
      · exact ⟨cached.mg.insert sound, cached.pages, cached.pointers⟩
      · refine ⟨cached.mg, cached.pages.req ?_ taken, cached.pointers⟩
        rintro _ ⟨⟩
        refine ⟨?_, sound⟩
        have zero : entry.level.toNat = 0 := by
          rw [BitVec.lt_def] at low
          exact Nat.eq_zero_of_not_pos low
        exact BitVec.eq_of_toNat_eq zero

theorem State.Keeps.noTranslate {victimMG : Option (Fin p.hugeSize)}
    {answer : Option TlbEntry} {tlbMG : Fin p.hugeSize → Option TlbEntry}
    {tlb4KB : SetAssocTlb p.lgSetNum p.wayNum} (kept : s.Keeps victimMG answer tlbMG tlb4KB)
    (before : ∀ vpn asid row, s.tlb4KB.pendReq ≠ some (.translate vpn asid, row)) :
    ∀ vpn asid row, tlb4KB.pendReq ≠ some (.translate vpn asid, row) := by
  cases answer with
  | none =>
      obtain ⟨-, rfl⟩ := kept
      exact before
  | some entry =>
      rcases kept with ⟨-, -, rfl⟩ | ⟨-, -, taken⟩
      · exact before
      · obtain ⟨-, -, rfl⟩ := SetAssocTlb.req_some taken
        exact nofun

theorem Inv.doPageWalk (inv : Inv s) {victimMG : Option (Fin p.hugeSize)}
    {victimTC : Option (Fin p.transCacheSize)} (apart : Apart s (.doPageWalk victimMG victimTC))
    (fires : s.doPageWalk victimMG victimTC = some s') : Inv s' := by
  have walks := inv.walks.doPageWalk inv.same (fun i => inv.valid) apart fires
  obtain ⟨noTlb, noTrans, first, head, used⟩ := doPageWalk_some fires
  have answered := fun answer => @inv.verdict _ _ _ head answer
  have pointed := fun asid => inv.pointer head asid
  generalize turn : s.respForOtherReq.getD first.id = idx at used answered pointed
  have verdict := verdict_nextResp s first.id idx idx (PTESv39.unpack first.data)
  obtain ⟨other, rest, next, -, -⟩ := nextResp_frame s first.id idx
  cases ends : s.verdict idx (PTESv39.unpack first.data) with
  | some answer =>
      obtain ⟨tlbMG, tlb4KB, empty, kept, rfl⟩ := usePTE_ends (verdict.trans ends) used
      have good := (answered answer ends).2
      rw [next] at kept walks ⊢
      have cached := inv.cached.keeps good kept
      refine ⟨inv.same, walks, ⟨cached.mg, cached.pages, cached.pointers⟩, ?_⟩
      refine ⟨fun j here => ?_, fun j here => ?_, inv.stages.noResp, ?_, fun j valid idle => ?_⟩
      · cases noTlb.symm.trans here
      · cases noTrans.symm.trans here
      · exact fun _ => kept.noTranslate (inv.stages.noTranslate noTlb)
      · obtain ⟨apart, valid⟩ := of_update_valid valid
        exact inv.stages.idle j valid ((Function.update_of_ne apart ..).symm.trans idle)
  | none =>
      obtain ⟨s₁, transCache, walked, added, rfl⟩ := usePTE_goes (verdict.trans ends) used
      rw [next] at walked added
      obtain ⟨wait, memReqQ, waits, rfl⟩ := walkOn_frame walked
      obtain ⟨pointers, -, noResp⟩ := inv.cached.pointers.addEntry (pointed _ ends) added
      refine ⟨inv.same, walks, ⟨inv.cached.mg, inv.cached.pages, pointers⟩, ?_⟩
      refine ⟨fun j here => ?_, fun j here => ?_, fun _ => noResp, inv.stages.noTranslate,
        fun j valid idle => inv.stages.idle j valid (of_update_wait waits idle).2⟩
      · cases noTlb.symm.trans here
      · cases noTrans.symm.trans here

/-! ## Steps and runs -/

/-- Every step that keeps the condition keeps the invariant. -/
theorem Inv.next (inv : Inv s) {rule : Rule p} (contract : Contract s rule)
    (apart : Apart s rule) (fires : fire s rule = some s') : Inv s' := by
  cases rule with
  | doStartFlush => exact inv.doStartFlush fires
  | doWaitFlush => exact inv.doWaitFlush fires
  | doFlush => exact inv.doFlush fires
  | doAddEntry way => exact inv.doAddEntry fires
  | doTlbReq => exact inv.doTlbReq fires
  | doTlbResp => exact inv.doTlbResp fires
  | doTranslationCacheResp => exact inv.doTranslationCacheResp apart fires
  | doPageWalk victimMG victimTC => exact inv.doPageWalk apart fires
  | memReq => exact inv.memReq fires
  | respLd k => exact inv.respLd fires
  | updateVMInfo vmI vmD =>
      obtain rfl := Option.some_inj.mp fires
      exact inv.change contract.1 contract.2.1 contract.2.2 s.mem
  | writeTables mem =>
      obtain rfl := Option.some_inj.mp fires
      exact inv.change contract.1 contract.2 inv.same mem
  | rqFromC r =>
      simp only [fire, Option.ite_none_left_eq_some, Option.some_inj] at fires
      obtain ⟨-, rfl⟩ := fires
      exact inv.outside ..
  | rsToC =>
      simp only [fire, Option.ite_none_right_eq_some, Option.some_inj] at fires
      obtain ⟨-, rfl⟩ := fires
      exact inv.outside ..
  | iTlbReqFlush =>
      simp only [fire, Option.ite_none_left_eq_some, Option.some_inj] at fires
      obtain ⟨-, rfl⟩ := fires
      exact inv.outside ..
  | dTlbReqFlush =>
      simp only [fire, Option.ite_none_left_eq_some, Option.some_inj] at fires
      obtain ⟨-, rfl⟩ := fires
      exact inv.outside ..
  | flushDone =>
      simp only [fire, Option.ite_none_right_eq_some, Option.some_inj] at fires
      obtain ⟨-, rfl⟩ := fires
      exact inv.outside ..

/-- The steps of a run keep the condition. -/
def Respects (cycles : List (State p × Rule p)) : Prop := ∀ c ∈ cycles, Apart c.1 c.2

theorem allowed_fires {u : PowerUp p} {cycles : List (State p × Rule p)} {rule : Rule p}
    (allowed : (machine u).allowed cycles s rule) :
    fire s rule = some ((machine u).next s rule) := by
  obtain ⟨s', fires⟩ := Option.isSome_iff_exists.mp allowed.1
  simp only [machine, fires, Option.getD_some]

theorem inv_of_run {u : PowerUp p} {cycles : List (State p × Rule p)}
    (run : (machine u).Run cycles s) (respects : Respects cycles) : Inv s := by
  induction run with
  | reset => exact inv_reset u
  | @cycle cycles s rule run allowed ih =>
      have before := ih fun c member => respects c (List.mem_append_left _ member)
      have here : Apart s rule := respects (s, rule) (by simp)
      exact before.next allowed.2 here (allowed_fires allowed)

end Toooba.L2Tlb
