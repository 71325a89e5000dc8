import RiscvCores.Toooba.L2Tlb

/-!
# The walks under way in the second-level TLB

The slots and their reads are a table of shared reads, and every slot that waits has the
address its own page number gives at its level.  A response is used for a slot only if it is
the entry at that address, as long as no walk joins the slot whose response is being handed
out.
-/

set_option autoImplicit false

namespace Toooba.L2Tlb

open Tlb SharedReads

variable {p : Params} {s s' : State p}

/-! ## What a response decides -/

/-- The answer of `idx` when its walk ends with `pte`, none when it goes on. -/
def State.verdict (s : State p) (idx : L2TlbReqIdx p) (pte : PTESv39) :
    Option (Option TlbEntry) :=
  let cRq := s.pendReq idx
  let vm_info := s.vmInfo cRq.child
  if !vm_info.sv39 then some none
  else
    match decodePTE vm_info.asid cRq.vpn (s.pendWalkLevel idx) pte with
    | .fault _ => some none
    | .leaf entry => some (some entry)
    | .pointer _ => if s.pendWalkLevel idx = 0 then some none else none

/-- The entry of an answer is kept. -/
def State.keep (s : State p) (victimMG : Option (Fin p.hugeSize)) :
    Option TlbEntry → Option (State p)
  | none => some s
  | some entry => s.addToTlb entry victimMG

theorem respond_some {idx : L2TlbReqIdx p} {entry : Option TlbEntry}
    (fires : s.respond idx entry = some s') :
    s.rsToCQ = none ∧
      s' =
        { s with
          rsToCQ := some { child := (s.pendReq idx).child, entry }
          pendValid := Function.update s.pendValid idx false } := by
  unfold State.respond at fires
  split at fires
  next => cases fires
  next empty =>
    rw [Option.not_isSome_iff_eq_none] at empty
    exact ⟨empty, (Option.some_inj.mp fires).symm⟩

theorem usePTE_end {idx : L2TlbReqIdx p} {pte : PTESv39} {entry : Option TlbEntry}
    (verdict : s.verdict idx pte = some entry) (victimMG : Option (Fin p.hugeSize))
    (victimTC : Option (Fin p.transCacheSize)) :
    s.usePTE idx pte victimMG victimTC =
      ((s.moved idx pte).endWalk idx entry).bind fun s' => s'.keep victimMG entry := by
  have unanswered : ∀ {o : Option (State p)}, o = o.bind fun s' => s'.keep victimMG none :=
    fun {o} => (Option.bind_fun_some o).symm
  unfold State.verdict decodePTE at verdict
  unfold State.usePTE
  cases sv39 : (s.vmInfo (s.pendReq idx).child).sv39 with
  | false =>
      obtain rfl : none = entry := by simpa [sv39] using verdict
      simpa [sv39] using unanswered
  | true =>
      cases valid : pte.valid with
      | false =>
          obtain rfl : none = entry := by simpa [sv39, valid] using verdict
          simpa [sv39, valid] using unanswered
      | true =>
          cases leaf : isLeafPTE pte.pteType with
          | false =>
              by_cases last : s.pendWalkLevel idx = 0
              · obtain rfl : none = entry := by simpa [sv39, valid, leaf, last] using verdict
                simpa [sv39, valid, leaf, last] using unanswered
              · obtain ⟨here, -⟩ : s.pendWalkLevel idx = 0 ∧ none = entry := by
                  simpa [sv39, valid, leaf] using verdict
                exact absurd here last
          | true =>
              cases aligned : isPpnAligned pte.ppn (s.pendWalkLevel idx) with
              | false =>
                  obtain rfl : none = entry := by
                    simpa [sv39, valid, leaf, aligned] using verdict
                  simpa [sv39, valid, leaf, aligned] using unanswered
              | true =>
                  obtain rfl : some _ = entry := by
                    simpa [sv39, valid, leaf, aligned] using verdict
                  simp [sv39, aligned, State.keep]

theorem usePTE_on {idx : L2TlbReqIdx p} {pte : PTESv39}
    (verdict : s.verdict idx pte = none) (victimMG : Option (Fin p.hugeSize))
    (victimTC : Option (Fin p.transCacheSize)) :
    s.usePTE idx pte victimMG victimTC =
      (s.walkOn idx (s.pendWalkLevel idx - 1) (s.nextPTEAddr idx pte)).bind fun s' =>
        (s.transCache.addEntry (s.pendReq idx).vpn (s.pendWalkLevel idx) pte.ppn
          (s.vmInfo (s.pendReq idx).child).asid victimTC).map
          fun transCache => { s' with transCache := transCache } := by
  unfold State.verdict decodePTE at verdict
  unfold State.usePTE
  cases sv39 : (s.vmInfo (s.pendReq idx).child).sv39 with
  | false => simp [sv39] at verdict
  | true =>
      cases valid : pte.valid with
      | false => simp [sv39, valid] at verdict
      | true =>
          cases leaf : isLeafPTE pte.pteType with
          | true =>
              cases aligned : isPpnAligned pte.ppn (s.pendWalkLevel idx) <;>
                simp [sv39, valid, leaf, aligned] at verdict
          | false =>
              have last : s.pendWalkLevel idx ≠ 0#2 := by
                simpa [sv39, valid, leaf] using verdict
              simp [sv39, last]

theorem verdict_none {idx : L2TlbReqIdx p} {pte : PTESv39} (verdict : s.verdict idx pte = none) :
    s.pendWalkLevel idx ≠ 0 ∧ ∃ next,
      decodePTE (s.vmInfo (s.pendReq idx).child).asid (s.pendReq idx).vpn (s.pendWalkLevel idx)
        pte = .pointer next := by
  unfold State.verdict at verdict
  cases sv39 : (s.vmInfo (s.pendReq idx).child).sv39 with
  | false => simp [sv39] at verdict
  | true =>
      cases decoded : decodePTE (s.vmInfo (s.pendReq idx).child).asid (s.pendReq idx).vpn
        (s.pendWalkLevel idx) pte with
      | fault f => simp [sv39, decoded] at verdict
      | leaf entry => simp [sv39, decoded] at verdict
      | pointer next =>
          have above : s.pendWalkLevel idx ≠ 0#2 := by simpa [sv39, decoded] using verdict
          exact ⟨above, next, rfl⟩

/-- A walk that ends gives the answer of the tables. -/
theorem verdict_some {idx : L2TlbReqIdx p} {pte : PTESv39} {answer : Option TlbEntry}
    (verdict : s.verdict idx pte = some answer) :
    ((s.vmInfo (s.pendReq idx).child).sv39 = false ∧ answer = none) ∨
      (s.vmInfo (s.pendReq idx).child).sv39 = true ∧
        match decodePTE (s.vmInfo (s.pendReq idx).child).asid (s.pendReq idx).vpn
          (s.pendWalkLevel idx) pte with
        | .fault _ => answer = none
        | .leaf entry => answer = some entry
        | .pointer _ => s.pendWalkLevel idx = 0 ∧ answer = none := by
  unfold State.verdict at verdict
  cases sv39 : (s.vmInfo (s.pendReq idx).child).sv39 with
  | false => exact .inl ⟨rfl, by simpa [sv39] using verdict.symm⟩
  | true =>
      refine .inr ⟨rfl, ?_⟩
      cases decoded : decodePTE (s.vmInfo (s.pendReq idx).child).asid (s.pendReq idx).vpn
        (s.pendWalkLevel idx) pte with
      | fault f => simpa [sv39, decoded] using verdict.symm
      | leaf entry => simpa [sv39, decoded] using verdict.symm
      | pointer next =>
          obtain ⟨last, here⟩ : s.pendWalkLevel idx = 0 ∧ none = answer := by
            simpa [sv39, decoded] using verdict
          exact ⟨last, here.symm⟩

/-! ## Slots and their reads -/

/-- Instructions and data use the same tables. -/
def State.SameTables (s : State p) : Prop :=
  s.vm_info_I.asid = s.vm_info_D.asid ∧ s.vm_info_I.basePPN = s.vm_info_D.basePPN

/-- The walk of `vpn` uses the table `base` at `level`. -/
def State.Uses (s : State p) (vpn : Vpn) (level : PageWalkLevel) (base : Ppn) : Prop :=
  WalkUses s.vm_info_I.asid s.vm_info_I.basePPN s.mem vpn level base

def State.table (s : State p) : Table p.l2TlbReqNum Addr Data where
  wait := s.pendWait
  addr := s.pendWalkAddr
  asked := (s.reading ++ s.memReqQ).map fun r => (r.addr, r.id)
  answers := s.respLdQ.map fun r => (r.data, r.id)
  serving := s.respForOtherReq

/-- `idx` waits at its level for the entry its own page number needs there. -/
def State.AtEntry (s : State p) (idx : L2TlbReqIdx p) : Prop :=
  ∃ base, s.Uses (s.pendReq idx).vpn (s.pendWalkLevel idx) base ∧
    s.pendWalkAddr idx = getPTEAddr (getPTBaseAddr base) (s.pendReq idx).vpn (s.pendWalkLevel idx)

structure Walks (s : State p) : Prop where
  reads : Consistent s.mem s.table
  entries : ∀ i, s.pendWait i ≠ .none → s.AtEntry i
  free : ∀ i, s.pendValid i = false → s.pendWait i = .none

/-- The slot that `idx` joins when it walks on to `pteAddr` is not the one whose response is
being handed out. -/
def State.JoinsApart (s : State p) (idx : L2TlbReqIdx p) (pteAddr : Addr) : Prop :=
  s.respForOtherReq.isSome → ∀ first ∈ s.respLdQ.head?,
    s.otherReqSamePTE idx pteAddr ≠ some first.id

theorem State.SameTables.vmInfo (same : s.SameTables) (child : TlbChild) :
    (s.vmInfo child).asid = s.vm_info_I.asid ∧ (s.vmInfo child).basePPN = s.vm_info_I.basePPN := by
  cases child with
  | I => exact ⟨rfl, rfl⟩
  | D idx => exact ⟨same.1.symm, same.2.symm⟩

theorem State.AtEntry.of_eq {i : L2TlbReqIdx p} (entry : s.AtEntry i) (uses : s'.Uses = s.Uses)
    (req : s'.pendReq i = s.pendReq i) (level : s'.pendWalkLevel i = s.pendWalkLevel i)
    (addr : s'.pendWalkAddr i = s.pendWalkAddr i) : s'.AtEntry i := by
  unfold State.AtEntry
  rw [uses, req, level, addr]
  exact entry

theorem otherReqSamePTE_some {idx i : L2TlbReqIdx p} {addr : Addr}
    (found : s.otherReqSamePTE idx addr = some i) :
    i ≠ idx ∧ s.pendWait i = .waitMem ∧ s.pendWalkAddr i = addr := by
  simpa using List.find?_some found

/-- What walking on does to the slots. -/
theorem walkOn_some {idx : L2TlbReqIdx p} {level : PageWalkLevel} {addr : Addr}
    (fires : s.walkOn idx level addr = some s') :
    (∃ i, s.otherReqSamePTE idx addr = some i ∧
      s' =
        { s with
          pendWalkLevel := Function.update s.pendWalkLevel idx level
          pendWalkAddr := Function.update s.pendWalkAddr idx addr
          pendWait := Function.update s.pendWait idx (.waitPeer i) }) ∨
    s.otherReqSamePTE idx addr = none ∧ s.memReqQ.length < 2 ∧
      s' =
        { s with
          pendWalkLevel := Function.update s.pendWalkLevel idx level
          pendWalkAddr := Function.update s.pendWalkAddr idx addr
          memReqQ := s.memReqQ ++ [{ addr := addr, id := idx }]
          pendWait := Function.update s.pendWait idx .waitMem } := by
  unfold State.walkOn at fires
  cases found : s.otherReqSamePTE idx addr with
  | some i =>
      rw [found] at fires
      exact .inl ⟨i, rfl, (Option.some_inj.mp fires).symm⟩
  | none =>
      rw [found] at fires
      dsimp only at fires
      split at fires
      next room => exact .inr ⟨rfl, room, (Option.some_inj.mp fires).symm⟩
      next => cases fires

theorem table_served (s : State p) :
    s.table.served =
      if s.respForOtherReq.isSome then s.respLdQ.head?.map fun r => (r.data, r.id) else none := by
  simp only [Table.served, State.table, List.head?_map]

/-- Walking on touches only the walk of `idx` and the queue of reads. -/
theorem walkOn_frame {idx : L2TlbReqIdx p} {level : PageWalkLevel} {addr : Addr}
    (fires : s.walkOn idx level addr = some s') :
    ∃ wait memReqQ, wait ≠ .none ∧
      s' =
        { s with
          pendWalkLevel := Function.update s.pendWalkLevel idx level
          pendWalkAddr := Function.update s.pendWalkAddr idx addr
          pendWait := Function.update s.pendWait idx wait
          memReqQ := memReqQ } := by
  rcases walkOn_some fires with ⟨i, -, rfl⟩ | ⟨-, -, rfl⟩
  · exact ⟨.waitPeer i, s.memReqQ, nofun, rfl⟩
  · exact ⟨.waitMem, s.memReqQ ++ [{ addr := addr, id := idx }], nofun, rfl⟩

/-- The reads after walking on. -/
theorem Walks.reads_walkOn (walks : Walks s) {idx : L2TlbReqIdx p} {level : PageWalkLevel}
    {addr : Addr} (idle : s.pendWait idx = .none) (apart : s.JoinsApart idx addr)
    (fires : s.walkOn idx level addr = some s') : Consistent s'.mem s'.table := by
  have idle' : s.table.wait idx = .none := idle
  rcases walkOn_some fires with ⟨i, found, rfl⟩ | ⟨-, -, rfl⟩
  · obtain ⟨other, reads, same⟩ := otherReqSamePTE_some found
    have joined := walks.reads.join idle' other reads (by
      intro first served
      rw [table_served] at served
      split at served
      next serving =>
        obtain ⟨head, here, rfl⟩ := Option.map_eq_some_iff.mp served
        intro id
        exact apart serving head here (found.trans (congrArg some id.symm))
      next => cases served)
    have address : s.table.addr i = addr := same
    rwa [address] at joined
  · have asked := walks.reads.ask idle' addr
    simpa [State.table, Table.ask] using asked

/-- A slot that waits for nothing walks on to the entry its page number needs. -/
theorem Walks.walkOn (walks : Walks s) {idx : L2TlbReqIdx p} {level : PageWalkLevel} {base : Ppn}
    (idle : s.pendWait idx = .none) (valid : s.pendValid idx = true)
    (uses : s.Uses (s.pendReq idx).vpn level base)
    (apart : s.JoinsApart idx (getPTEAddr (getPTBaseAddr base) (s.pendReq idx).vpn level))
    (fires : s.walkOn idx level (getPTEAddr (getPTBaseAddr base) (s.pendReq idx).vpn level) =
      some s') : Walks s' := by
  have reads := walks.reads_walkOn idle apart fires
  obtain ⟨wait, memReqQ, -, rfl⟩ := walkOn_frame fires
  refine ⟨reads, fun i waiting => ?_, fun i invalid => ?_⟩
  · by_cases here : i = idx
    · subst here
      refine ⟨base, ?_, ?_⟩
      · dsimp only
        rw [Function.update_self]
        exact uses
      · dsimp only
        rw [Function.update_self, Function.update_self]
    · have before : s.pendWait i ≠ .none := by
        rwa [← Function.update_of_ne here wait s.pendWait]
      exact (walks.entries i before).of_eq rfl rfl (Function.update_of_ne here ..)
        (Function.update_of_ne here ..)
  · have other : i ≠ idx := by
      rintro rfl
      cases valid.symm.trans invalid
    exact (Function.update_of_ne other ..).trans (walks.free i invalid)

/-! ## Handing out a response -/

section Serve

variable {first : TlbLdResp p}

theorem table_nextResp (s : State p) (first : TlbLdResp p) (idx : L2TlbReqIdx p) (a : Addr) :
    { (s.nextResp first.id idx).table with
        wait := Function.update s.pendWait idx .none
        addr := Function.update s.pendWalkAddr idx a } =
      s.table.serve (first.data, first.id) idx a := by
  have waiter : s.table.waiter first.id idx = s.waitForResp first.id idx := rfl
  unfold Table.serve State.nextResp
  simp only [waiter]
  cases next : s.waitForResp first.id idx with
  | none => simp [State.table, List.map_tail]
  | some i => rfl

/-- The slot that is served, `idx`, waits for nothing afterwards. -/
theorem Walks.serve (walks : Walks s) (head : s.respLdQ.head? = some first) {a : Addr}
    (table : s'.table =
      s.table.serve (first.data, first.id) (s.respForOtherReq.getD first.id) a)
    (reqs : s'.pendReq = s.pendReq) (tables : s'.Uses = s.Uses) (mem : s'.mem = s.mem)
    (others : ∀ i, i ≠ s.respForOtherReq.getD first.id →
      s'.pendValid i = s.pendValid i ∧ s'.pendWalkLevel i = s.pendWalkLevel i) : Walks s' := by
  have answers : s.table.answers.head? = some (first.data, first.id) := by
    simp [State.table, head]
  have wait : s'.pendWait =
      Function.update s.pendWait (s.respForOtherReq.getD first.id) .none := by
    have fields := congrArg Table.wait table
    rwa [wait_serve] at fields
  have addr : s'.pendWalkAddr =
      Function.update s.pendWalkAddr (s.respForOtherReq.getD first.id) a := by
    have fields := congrArg Table.addr table
    rwa [addr_serve] at fields
  constructor
  · rw [table, mem]
    exact walks.reads.serve answers a
  · intro i waiting
    have other : i ≠ s.respForOtherReq.getD first.id := by
      rintro rfl
      simp [wait] at waiting
    rw [wait, Function.update_of_ne other] at waiting
    obtain ⟨base, uses, address⟩ := walks.entries i waiting
    refine ⟨base, ?_, ?_⟩
    · rw [tables, reqs, (others i other).2]
      exact uses
    · rw [addr, Function.update_of_ne other, reqs, (others i other).2]
      exact address
  · intro i invalid
    by_cases here : i = s.respForOtherReq.getD first.id
    · rw [wait, here, Function.update_self]
    · rw [wait, Function.update_of_ne here]
      exact walks.free i ((others i here).1.symm.trans invalid)

theorem Walks.turn_waits (walks : Walks s) (head : s.respLdQ.head? = some first) :
    s.pendWait (s.respForOtherReq.getD first.id) ≠ .none := by
  have answers : s.table.answers.head? = some (first.data, first.id) := by
    simp [State.table, head]
  exact walks.reads.waits answers

/-- The data of the response is the entry the served slot needs. -/
theorem Walks.data (walks : Walks s) (head : s.respLdQ.head? = some first) :
    ∃ base, s.Uses (s.pendReq (s.respForOtherReq.getD first.id)).vpn
        (s.pendWalkLevel (s.respForOtherReq.getD first.id)) base ∧
      PTESv39.unpack first.data =
        walkPTE s.mem (s.pendReq (s.respForOtherReq.getD first.id)).vpn
          (s.pendWalkLevel (s.respForOtherReq.getD first.id)) base := by
  have answers : s.table.answers.head? = some (first.data, first.id) := by
    simp [State.table, head]
  have data : first.data = s.mem (s.pendWalkAddr (s.respForOtherReq.getD first.id)) :=
    walks.reads.data answers
  obtain ⟨base, uses, address⟩ := walks.entries _ (walks.turn_waits head)
  exact ⟨base, uses, by rw [data, address]; rfl⟩

end Serve

/-! ## The condition -/

/-- No walk joins the slot whose response is being handed out: not a walk that starts, and not
one that goes on while more requests wait for that response. -/
def Apart (s : State p) : Rule p → Prop
  | .doTranslationCacheResp =>
      ∀ idx ∈ s.transCacheReqQ, ∀ resp ∈ s.transCache.respQ,
        s.JoinsApart idx (s.startPTEAddr idx resp)
  | .doPageWalk _ _ =>
      ∀ first ∈ s.respLdQ.head?,
        let idx := s.respForOtherReq.getD first.id
        let pte := PTESv39.unpack first.data
        s.verdict idx pte = none → (s.waitForResp first.id idx).isSome →
          s.otherReqSamePTE idx (s.nextPTEAddr idx pte) ≠ some first.id
  | _ => True

/-! ## A response is used -/

/-- Which of the two ways a rule of the walk goes, and what it leaves. -/
theorem doPageWalk_some {victimMG : Option (Fin p.hugeSize)}
    {victimTC : Option (Fin p.transCacheSize)} (fires : s.doPageWalk victimMG victimTC = some s') :
    s.tlbReqQ = none ∧ s.transCacheReqQ = none ∧ ∃ first, s.respLdQ.head? = some first ∧
      (s.nextResp first.id (s.respForOtherReq.getD first.id)).usePTE
        (s.respForOtherReq.getD first.id) (PTESv39.unpack first.data) victimMG victimTC =
        some s' := by
  unfold State.doPageWalk at fires
  split at fires
  next => cases fires
  next idle =>
    rw [Bool.or_eq_true, not_or, Option.not_isSome_iff_eq_none,
      Option.not_isSome_iff_eq_none] at idle
    obtain ⟨first, head, used⟩ := Option.bind_eq_some_iff.mp fires
    exact ⟨idle.1, idle.2, first, head, used⟩

theorem verdict_nextResp (s : State p) (id idx idx' : L2TlbReqIdx p) (pte : PTESv39) :
    (s.nextResp id idx).verdict idx' pte = s.verdict idx' pte := by
  unfold State.nextResp
  cases s.waitForResp id idx <;> rfl

/-- What `idx` itself waits for plays no part in where it goes. -/
theorem otherReqSamePTE_idle (s : State p) (idx : L2TlbReqIdx p) (addr : Addr) :
    { s with pendWait := Function.update s.pendWait idx .none }.otherReqSamePTE idx addr =
      s.otherReqSamePTE idx addr := by
  unfold State.otherReqSamePTE
  congr 1
  funext i
  by_cases here : i = idx
  · simp [here]
  · simp [here]

theorem walkOn_idle (s : State p) (idx : L2TlbReqIdx p) (level : PageWalkLevel) (addr : Addr) :
    { s with pendWait := Function.update s.pendWait idx .none }.walkOn idx level addr =
      s.walkOn idx level addr := by
  unfold State.walkOn
  simp only [otherReqSamePTE_idle, Function.update_idem]

/-- The response at the head changes hands; nothing else moves. -/
theorem nextResp_frame (s : State p) (id idx : L2TlbReqIdx p) :
    ∃ other rest, s.nextResp id idx = { s with respForOtherReq := other, respLdQ := rest } ∧
      (other = s.waitForResp id idx) ∧
      rest = if (s.waitForResp id idx).isSome then s.respLdQ else s.respLdQ.tail := by
  unfold State.nextResp
  cases s.waitForResp id idx with
  | none => exact ⟨none, _, rfl, rfl, rfl⟩
  | some i => exact ⟨some i, _, rfl, rfl, rfl⟩

/-- The arrays after an answer. -/
def State.Keeps (s : State p) (victimMG : Option (Fin p.hugeSize)) :
    Option TlbEntry → (Fin p.hugeSize → Option TlbEntry) → SetAssocTlb p.lgSetNum p.wayNum → Prop
  | none, tlbMG, tlb4KB => tlbMG = s.tlbMG ∧ tlb4KB = s.tlb4KB
  | some entry, tlbMG, tlb4KB =>
      0 < entry.level ∧ tlbMG = FullAssoc.addEntry s.tlbMG entry victimMG ∧ tlb4KB = s.tlb4KB ∨
        ¬ 0 < entry.level ∧ tlbMG = s.tlbMG ∧ s.tlb4KB.req (.refill entry) = some tlb4KB

/-- A walk that ends. -/
theorem usePTE_ends {idx : L2TlbReqIdx p} {pte : PTESv39} {answer : Option TlbEntry}
    {victimMG : Option (Fin p.hugeSize)} {victimTC : Option (Fin p.transCacheSize)}
    (verdict : s.verdict idx pte = some answer)
    (fires : s.usePTE idx pte victimMG victimTC = some s') :
    ∃ tlbMG tlb4KB, s.rsToCQ = none ∧ s.Keeps victimMG answer tlbMG tlb4KB ∧
      s' =
        { s.moved idx pte with
          pendWait := Function.update s.pendWait idx .none
          rsToCQ := some { child := (s.pendReq idx).child, entry := answer }
          pendValid := Function.update s.pendValid idx false
          tlbMG := tlbMG
          tlb4KB := tlb4KB } := by
  rw [usePTE_end verdict] at fires
  obtain ⟨s₁, ends, kept⟩ := Option.bind_eq_some_iff.mp fires
  obtain ⟨empty, rfl⟩ := respond_some ends
  cases answer with
  | none =>
      obtain rfl := Option.some_inj.mp kept
      exact ⟨s.tlbMG, s.tlb4KB, empty, ⟨rfl, rfl⟩, rfl⟩
  | some entry =>
      have added : State.addToTlb _ entry victimMG = some s' := kept
      unfold State.addToTlb at added
      split at added
      next high =>
        obtain rfl := Option.some_inj.mp added
        exact ⟨_, s.tlb4KB, empty, .inl ⟨high, rfl, rfl⟩, rfl⟩
      next low =>
        obtain ⟨tlb4KB, taken, rfl⟩ := Option.map_eq_some_iff.mp added
        exact ⟨s.tlbMG, tlb4KB, empty, .inr ⟨low, rfl, taken⟩, rfl⟩

/-- A walk that goes on. -/
theorem usePTE_goes {idx : L2TlbReqIdx p} {pte : PTESv39}
    {victimMG : Option (Fin p.hugeSize)} {victimTC : Option (Fin p.transCacheSize)}
    (verdict : s.verdict idx pte = none)
    (fires : s.usePTE idx pte victimMG victimTC = some s') :
    ∃ s₁ transCache,
      s.walkOn idx (s.pendWalkLevel idx - 1) (s.nextPTEAddr idx pte) = some s₁ ∧
      s.transCache.addEntry (s.pendReq idx).vpn (s.pendWalkLevel idx) pte.ppn
        (s.vmInfo (s.pendReq idx).child).asid victimTC = some transCache ∧
      s' = { s₁ with transCache := transCache } := by
  rw [usePTE_on verdict] at fires
  obtain ⟨s₁, walked, added⟩ := Option.bind_eq_some_iff.mp fires
  obtain ⟨transCache, taken, rfl⟩ := Option.map_eq_some_iff.mp added
  exact ⟨s₁, transCache, walked, taken, rfl⟩

/-- A response keeps the walks in order. -/
theorem Walks.doPageWalk (walks : Walks s) (same : s.SameTables)
    {victimMG : Option (Fin p.hugeSize)} {victimTC : Option (Fin p.transCacheSize)}
    (valid : ∀ i, s.pendWait i ≠ .none → s.pendValid i = true)
    (apart : Apart s (.doPageWalk victimMG victimTC))
    (fires : s.doPageWalk victimMG victimTC = some s') : Walks s' := by
  obtain ⟨-, -, first, head, used⟩ := doPageWalk_some fires
  have joins := apart first head
  generalize turn : s.respForOtherReq.getD first.id = idx at used joins
  have verdict := verdict_nextResp s first.id idx idx (PTESv39.unpack first.data)
  cases ends : s.verdict idx (PTESv39.unpack first.data) with
  | some answer =>
      obtain ⟨tlbMG, tlb4KB, -, -, rfl⟩ := usePTE_ends (verdict.trans ends) used
      obtain ⟨other, rest, next, -, -⟩ := nextResp_frame s first.id idx
      have table := table_nextResp s first idx (s.nextPTEAddr idx (PTESv39.unpack first.data))
      rw [next] at table ⊢
      refine walks.serve head (a := s.nextPTEAddr idx (PTESv39.unpack first.data)) ?_ rfl rfl rfl ?_
      · rw [turn]
        exact table
      · rw [turn]
        intro i apart
        exact ⟨Function.update_of_ne apart .., Function.update_of_ne apart ..⟩
  | none =>
      obtain ⟨s₁, transCache, walked, -, rfl⟩ := usePTE_goes (verdict.trans ends) used
      obtain ⟨other, rest, next, handed, left⟩ := nextResp_frame s first.id idx
      have table := table_nextResp s first idx (s.pendWalkAddr idx)
      rw [Function.update_eq_self] at table
      rw [next] at table walked
      rw [← walkOn_idle] at walked
      have settled : Walks { s with
          respForOtherReq := other, respLdQ := rest
          pendWait := Function.update s.pendWait idx .none } :=
        walks.serve head (by rw [turn]; exact table) rfl rfl rfl fun _ _ => ⟨rfl, rfl⟩
      obtain ⟨base, uses, data⟩ := walks.data head
      rw [turn] at uses data
      obtain ⟨above, ppn, decoded⟩ := verdict_none ends
      rw [(same.vmInfo _).1] at decoded
      obtain rfl := decodePTE_pointer decoded
      rw [data] at decoded
      have deeper := WalkUses.pointer uses above decoded
      rw [← data] at deeper
      have waits := walks.turn_waits head
      rw [turn] at waits
      have after := settled.walkOn (Function.update_self ..) (valid idx waits) deeper (by
        intro serving first' head' joined
        subst handed
        rw [if_pos serving] at left
        subst left
        obtain rfl : first = first' := Option.some_inj.mp (head.symm.trans head')
        exact joins ends serving ((otherReqSamePTE_idle s idx _).symm.trans joined)) walked
      exact ⟨after.reads, after.entries, after.free⟩

end Toooba.L2Tlb
