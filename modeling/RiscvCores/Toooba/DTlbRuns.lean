import RiscvCores.Toooba.DTlb

/-!
# What the data TLB knows of the page tables

Every entry of the array and every answer of the parent is a walk of the tables as they were at
some time.  From that, a request is answered by such a walk of its own page.
-/

set_option autoImplicit false

namespace Toooba.DTlb

open Tlb SharedReads

variable {instT : Type} {p : Params instT} {s s' : State p}
  {known : (Vpn → Option TlbEntry) → Prop}

/-! ## What the rules do -/

/-- The response to a request whose page the parent has walked. -/
def parentResp (vm_info : L1VMInfo) (r : TlbReq) : Option TlbEntry → TlbResp
  | some en => entryResp vm_info r en
  | none => .error r.pageFault

/-- A response leaves everything but the array and the response of its slot alone. -/
theorem refill_frame (s : State p) (idx : DTlbReqIdx p) (entry : Option TlbEntry)
    (victim : Option (Fin p.dTlbSize)) :
    ∃ tlb pendResp,
      s.refill idx entry victim = { s with tlb := tlb, pendResp := pendResp } ∧
      (tlb = s.tlb ∨ ∃ en, entry = some en ∧ tlb = FullAssoc.addEntry s.tlb en victim) ∧
      (∀ i, i ≠ idx → pendResp i = s.pendResp i) ∧
      (s.pendPoisoned idx = false →
        pendResp idx = parentResp s.vm_info (s.pendReq idx) entry) := by
  have others : ∀ (resp : TlbResp) i, i ≠ idx →
      Function.update s.pendResp idx resp i = s.pendResp i :=
    fun resp i other => Function.update_of_ne other ..
  unfold State.refill
  cases poisoned : s.pendPoisoned idx with
  | true => exact ⟨s.tlb, s.pendResp, rfl, .inl rfl, fun _ _ => rfl, nofun⟩
  | false =>
      cases entry with
      | none => exact ⟨s.tlb, _, rfl, .inl rfl, others _, fun _ => Function.update_self ..⟩
      | some en =>
          by_cases permitted : hasVMPermission s.vm_info en.pteType en.ppn en.level
              (s.pendReq idx).access = true
          · refine ⟨_, _, by
                simp only [permitted, if_true]
                rfl, .inr ⟨en, rfl, rfl⟩,
              others _, fun _ => (Function.update_self ..).trans ?_⟩
            simp only [parentResp, entryResp, permitted, if_true]
          · refine ⟨s.tlb, _, by
                simp only [permitted, Bool.false_eq_true, if_false]
                rfl, .inl rfl,
              others _, fun _ => (Function.update_self ..).trans ?_⟩
            simp only [parentResp, entryResp, permitted, Bool.false_eq_true, if_false]

/-- The response to a request that does not miss. -/
inductive Hits (s : State p) (r : TlbReq) : TlbResp → Prop
  | bare (off : s.vm_info.sv39 = false) : Hits s r (.ok r.addr)
  | invalid (on : s.vm_info.sv39 = true) (wrong : validVirtualAddress r.addr = false) :
      Hits s r (.error r.pageFault)
  | hit (on : s.vm_info.sv39 = true) (valid : validVirtualAddress r.addr = true)
      {entry : TlbEntry} (here : FullAssoc.translate s.tlb (getVpn r.addr) s.vm_info.asid =
        some entry) : Hits s r (entryResp s.vm_info r entry)

theorem procReq_some {req : DTlbReq p} (fires : s.procReq req = some s') :
    s.canProcReq = true ∧ ∃ idx, s.freeQ.head? = some idx ∧
      ((∃ resp, Hits s (p.getTlbReq req.inst) resp ∧
          s' = ((s.allocate idx req).record idx resp).noWait idx) ∨
        s.vm_info.sv39 = true ∧ validVirtualAddress (p.getTlbReq req.inst).addr = true ∧
          s' = (s.allocate idx req).miss idx (p.getTlbReq req.inst)
            (s.reqSamePage (p.getTlbReq req.inst))) := by
  unfold State.procReq at fires
  split at fires
  next can =>
    obtain ⟨idx, head, made⟩ := Option.map_eq_some_iff.mp fires
    refine ⟨can, idx, head, ?_⟩
    cases mode : s.vm_info.sv39 with
    | false =>
        simp only [mode, Bool.false_eq_true, if_false] at made
        exact .inl ⟨_, .bare mode, made.symm⟩
    | true =>
        cases valid : validVirtualAddress (p.getTlbReq req.inst).addr with
        | false =>
            simp only [mode, valid, if_true, Bool.not_false] at made
            exact .inl ⟨_, .invalid mode valid, made.symm⟩
        | true =>
            simp only [mode, valid, if_true, Bool.not_true, Bool.false_eq_true, if_false] at made
            cases found : FullAssoc.translate s.tlb (getVpn (p.getTlbReq req.inst).addr)
                s.vm_info.asid with
            | some entry =>
                rw [found] at made
                exact .inl ⟨_, .hit mode valid found, made.symm⟩
            | none =>
                rw [found] at made
                exact .inr ⟨rfl, rfl, made.symm⟩
  next => exact nomatch fires

theorem release_some {idx : DTlbReqIdx p} (fires : s.release idx = some s') :
    s' = { s with
      pendValid := Function.update s.pendValid idx false
      freeQ := s.freeQ ++ [idx] } := by
  unfold State.release at fires
  split at fires
  · exact (Option.some.inj fires).symm
  · exact nomatch fires

theorem validProcRespIdx_some {idx : DTlbReqIdx p} (found : s.validProcRespIdx = some idx) :
    s.pendValid idx = true ∧ s.pendWait idx = .none ∧ s.pendPoisoned idx = false := by
  have here := List.find?_some found
  simpa [and_assoc] using here

theorem poisonedProcRespIdx_some {idx : DTlbReqIdx p}
    (found : s.poisonedProcRespIdx = some idx) :
    s.pendValid idx = true ∧ s.pendWait idx = .none ∧ s.pendPoisoned idx = true := by
  have here := List.find?_some found
  simpa [and_assoc] using here

/-! ## Walks -/

/-- All that is known are walks of page tables. -/
def AreWalks (known : (Vpn → Option TlbEntry) → Prop) : Prop :=
  ∀ walk, known walk → ∃ asid basePPN mem, walk = sv39Walk asid basePPN mem

theorem AreWalks.aligned (walks : AreWalks known) {walk : Vpn → Option TlbEntry}
    (knows : known walk) {vpn : Vpn} {entry : TlbEntry} (ends : walk vpn = some entry) :
    isPpnAligned entry.ppn entry.level = true := by
  obtain ⟨asid, basePPN, mem, rfl⟩ := walks walk knows
  exact sv39Walk_aligned ends

/-- With the answer of the parent for its page, a request is answered as it is due. -/
theorem AreWalks.parentResp_eq (walks : AreWalks known) {walk : Vpn → Option TlbEntry}
    (knows : known walk) {vm_info : L1VMInfo} {r : TlbReq} (sv39 : vm_info.sv39 = true)
    (valid : validVirtualAddress r.addr = true) :
    parentResp vm_info r (walk (getVpn r.addr)) = dataAnswer vm_info walk r := by
  cases ends : walk (getVpn r.addr) with
  | none => simp only [parentResp, dataAnswer, sv39, valid, ends, Bool.not_true,
      Bool.false_eq_true, if_false]
  | some entry => exact entryResp_eq sv39 valid (walks.aligned knows ends) ends

/-- A request that does not miss is answered as it is due. -/
theorem AreWalks.hits (walks : AreWalks known)
    (cached : ReadCache.Holds (fun en => ∃ walk v, known walk ∧ walk v = some en) s.tlb)
    (now : known s.walkOf) {r : TlbReq} {resp : TlbResp} (hits : Hits s r resp) :
    ∃ walk, known walk ∧ resp = dataAnswer s.vm_info walk r := by
  cases hits with
  | bare off =>
      refine ⟨s.walkOf, now, ?_⟩
      simp only [dataAnswer, off, Bool.not_false, if_true]
  | invalid on wrong =>
      refine ⟨s.walkOf, now, ?_⟩
      simp only [dataAnswer, on, wrong, Bool.not_true, Bool.false_eq_true, if_false,
        Bool.not_false, if_true]
  | @hit on valid entry here =>
      obtain ⟨⟨walk, v, knows, ends⟩, matched⟩ := cached.lookup here
      refine ⟨walk, knows, ?_⟩
      simp only [FullAssoc.isMatch, Bool.and_eq_true, beq_iff_eq] at matched
      obtain ⟨asid, basePPN, mem, rfl⟩ := walks walk knows
      exact entryResp_eq on valid (sv39Walk_aligned ends) (sv39Walk_covers ends matched.2)

/-! ## The reads of the parent -/

/-- `t` is the state, with each answer of the parent kept as the page it is for. -/
structure Follows (known : (Vpn → Option TlbEntry) → Prop) (s : State p)
    (t : Table p.dTlbReqNum Vpn Vpn) : Prop where
  wait : t.wait = s.pendWait
  asked : t.asked = (s.asked ++ s.rqToPQ).map fun r => (r.vpn, r.id)
  answers : List.Forall₂
    (fun a rs => a.2 = rs.id ∧ ∃ walk, known walk ∧ walk a.1 = rs.entry) t.answers
    s.ldTransRsFromPQ
  serving : t.serving = s.respForOtherReq
  addr : ∀ i, s.pendWait i ≠ .none → t.addr i = getVpn (s.pendReq i).addr

/-- What the state owes to the tables. -/
structure Tables (known : (Vpn → Option TlbEntry) → Prop) (s : State p) : Prop where
  reads : ∃ t, Consistent id t ∧ Follows known s t
  cached : ReadCache.Holds (fun en => ∃ walk v, known walk ∧ walk v = some en) s.tlb
  missed : ∀ i, s.pendWait i ≠ .none →
    s.vm_info.sv39 = true ∧ validVirtualAddress (s.pendReq i).addr = true
  ready : ∀ i, s.pendValid i = true → s.pendWait i = .none → s.pendPoisoned i = false →
    ∃ walk, known walk ∧ s.pendResp i = dataAnswer s.vm_info walk (s.pendReq i)

theorem Tables.mono {more : (Vpn → Option TlbEntry) → Prop} (tables : Tables known s)
    (grows : ∀ walk, known walk → more walk) : Tables more s where
  reads := by
    obtain ⟨t, consistent, follows⟩ := tables.reads
    refine ⟨t, consistent, follows.wait, follows.asked, ?_, follows.serving, follows.addr⟩
    refine follows.answers.imp ?_
    rintro a rs ⟨same, walk, knows, ends⟩
    exact ⟨same, walk, grows walk knows, ends⟩
  cached := by
    intro i en member
    obtain ⟨walk, v, knows, ends⟩ := tables.cached i en member
    exact ⟨walk, v, grows walk knows, ends⟩
  missed := tables.missed
  ready := by
    intro i valid idle alive
    obtain ⟨walk, knows, answered⟩ := tables.ready i valid idle alive
    exact ⟨walk, grows walk knows, answered⟩

theorem Follows.turn {t : Table p.dTlbReqNum Vpn Vpn} (follows : Follows known s t)
    {pRs : DTlbTransRsFromP p} (head : s.ldTransRsFromPQ.head? = some pRs) :
    ∃ v walk, t.answers.head? = some (v, pRs.id) ∧ known walk ∧ walk v = pRs.entry ∧
      t.turn (v, pRs.id) = s.respForOtherReq.getD pRs.id := by
  have pairs := follows.answers
  obtain ⟨rest, queue⟩ := List.head?_eq_some_iff.mp head
  rw [queue] at pairs
  cases kept : t.answers with
  | nil =>
      rw [kept] at pairs
      exact nomatch pairs
  | cons a more =>
      rw [kept] at pairs
      obtain ⟨⟨same, walk, knows, ends⟩, -⟩ := List.forall₂_cons.mp pairs
      obtain ⟨v, id⟩ := a
      obtain rfl : id = pRs.id := same
      exact ⟨v, walk, rfl, knows, ends, by rw [Table.turn, follows.serving]⟩

/-- The slot that is served waits, and the answer is for its page. -/
theorem Tables.served (tables : Tables known s) {pRs : DTlbTransRsFromP p}
    (head : s.ldTransRsFromPQ.head? = some pRs) :
    s.pendWait (s.respForOtherReq.getD pRs.id) ≠ .none ∧ ∃ walk, known walk ∧
      walk (getVpn (s.pendReq (s.respForOtherReq.getD pRs.id)).addr) = pRs.entry := by
  obtain ⟨t, consistent, follows⟩ := tables.reads
  obtain ⟨v, walk, first, knows, ends, turn⟩ := follows.turn head
  have waits := consistent.waits first
  have data := consistent.data first
  rw [turn] at waits data
  rw [follows.wait] at waits
  refine ⟨waits, walk, knows, ?_⟩
  rw [← follows.addr _ waits, ← ends]
  exact congrArg walk data.symm

theorem nextResp_frame (s : State p) (id idx : DTlbReqIdx p) :
    ∃ other rest, s.nextResp id idx =
      { s with respForOtherReq := other, ldTransRsFromPQ := rest } := by
  unfold State.nextResp
  split
  next i _ => exact ⟨some i, s.ldTransRsFromPQ, rfl⟩
  next => exact ⟨none, s.ldTransRsFromPQ.tail, rfl⟩

/-- Serving a slot keeps the reads in order. -/
theorem Follows.serve {t : Table p.dTlbReqNum Vpn Vpn} (follows : Follows known s t)
    {v : Vpn} {id : DTlbReqIdx p} (first : t.answers.head? = some (v, id)) (idx : DTlbReqIdx p) :
    Follows known ((s.nextResp id idx).noWait idx) (t.serve (v, id) idx (t.addr idx)) := by
  have same : t.waiter id idx = s.waitForResp id idx := by
    unfold Table.waiter State.waitForResp
    rw [follows.wait]
  have waits : (t.serve (v, id) idx (t.addr idx)).wait =
      Function.update s.pendWait idx .none := by
    rw [wait_serve, follows.wait]
  have asked : (t.serve (v, id) idx (t.addr idx)).asked = t.asked := asked_serve
  have addr : ∀ i, Function.update s.pendWait idx .none i ≠ .none →
      (t.serve (v, id) idx (t.addr idx)).addr i = getVpn (s.pendReq i).addr := by
    intro i waiting
    have other : i ≠ idx := by
      rintro rfl
      exact waiting (Function.update_self ..)
    rw [Function.update_of_ne other] at waiting
    rw [addr_serve, Function.update_of_ne other]
    exact follows.addr i waiting
  cases next : s.waitForResp id idx with
  | some i =>
      rw [next] at same
      unfold State.nextResp
      rw [next]
      refine ⟨waits, asked.trans follows.asked, ?_, ?_, addr⟩
      · simp only [Table.serve, same]
        exact follows.answers
      · simp only [Table.serve, same, State.noWait]
  | none =>
      rw [next] at same
      unfold State.nextResp
      rw [next]
      refine ⟨waits, asked.trans follows.asked, ?_, ?_, addr⟩
      · simp only [Table.serve, same]
        have pairs := follows.answers
        obtain ⟨more, kept⟩ := List.head?_eq_some_iff.mp first
        rw [kept] at pairs ⊢
        obtain ⟨pRs, rest, -, later, queue⟩ := List.forall₂_cons_left_iff.mp pairs
        change List.Forall₂ _ more s.ldTransRsFromPQ.tail
        rw [queue]
        exact later
      · simp only [Table.serve, same, State.noWait]

/-! ## Steps -/

theorem Tables.doPRs (tables : Tables known s) (walks : AreWalks known)
    {victim : Option (Fin p.dTlbSize)} (fires : s.doPRs victim = some s') :
    Tables known s' := by
  obtain ⟨pRs, head, made⟩ := Option.map_eq_some_iff.mp fires
  obtain ⟨t, consistent, follows⟩ := tables.reads
  obtain ⟨v, walk, first, -, -, turn⟩ := follows.turn head
  obtain ⟨waits, walk, knows, ends⟩ := tables.served head
  generalize s.respForOtherReq.getD pRs.id = idx at made turn waits ends
  have served := follows.serve first idx
  have kept := consistent.serve first (t.addr idx)
  rw [turn] at kept
  obtain ⟨other, rest, next⟩ := nextResp_frame s pRs.id idx
  obtain ⟨tlb, pendResp, filled, array, others, own⟩ :=
    refill_frame (s.nextResp pRs.id idx) idx pRs.entry victim
  dsimp only at made
  rw [filled] at made
  rw [next] at made served own array others
  subst made
  obtain ⟨sv39, valid⟩ := tables.missed idx waits
  refine ⟨⟨_, kept, served.wait, served.asked, served.answers, served.serving, served.addr⟩,
    ?_, ?_, ?_⟩
  · rcases array with rfl | ⟨en, here, rfl⟩
    · exact tables.cached
    · exact tables.cached.insert ⟨walk, _, knows, ends.trans here⟩
  · intro i waiting
    apply tables.missed i
    intro idle
    apply waiting
    change Function.update s.pendWait idx .none i = .none
    by_cases same : i = idx
    · rw [same, Function.update_self]
    · rw [Function.update_of_ne same]
      exact idle
  · intro i present idle alive
    by_cases same : i = idx
    · subst same
      refine ⟨walk, knows, (own alive).trans ?_⟩
      rw [← ends]
      exact walks.parentResp_eq knows sv39 valid
    · have before : s.pendWait i = .none := by
        rw [← idle]
        exact (Function.update_of_ne same ..).symm
      obtain ⟨walk', knows', answered⟩ := tables.ready i present before alive
      exact ⟨walk', knows', (others i same).trans answered⟩

theorem pendReq_allocate (s : State p) {idx i : DTlbReqIdx p} (req : DTlbReq p) (other : i ≠ idx) :
    (s.allocate idx req).pendReq i = s.pendReq i :=
  congrArg p.getTlbReq (Function.update_of_ne other ..)

theorem pendReq_allocate_self (s : State p) (idx : DTlbReqIdx p) (req : DTlbReq p) :
    (s.allocate idx req).pendReq idx = p.getTlbReq req.inst :=
  congrArg p.getTlbReq (Function.update_self ..)

theorem Tables.hit (tables : Tables known s) {idx : DTlbReqIdx p} {req : DTlbReq p}
    {resp : TlbResp} (idle : s.pendWait idx = .none)
    (answered : ∃ walk, known walk ∧ resp = dataAnswer s.vm_info walk (p.getTlbReq req.inst)) :
    Tables known (((s.allocate idx req).record idx resp).noWait idx) := by
  have waits : Function.update s.pendWait idx .none = s.pendWait := by
    rw [← idle]
    exact Function.update_eq_self idx s.pendWait
  have apart : ∀ i, s.pendWait i ≠ .none → i ≠ idx := by
    rintro i waiting rfl
    exact waiting idle
  obtain ⟨t, consistent, follows⟩ := tables.reads
  refine ⟨⟨t, consistent, follows.wait.trans waits.symm, follows.asked, follows.answers,
    follows.serving, ?_⟩, tables.cached, ?_, ?_⟩
  · intro i waiting
    change Function.update s.pendWait idx .none i ≠ .none at waiting
    rw [waits] at waiting
    change t.addr i = getVpn ((s.allocate idx req).pendReq i).addr
    rw [pendReq_allocate s req (apart i waiting)]
    exact follows.addr i waiting
  · intro i waiting
    change Function.update s.pendWait idx .none i ≠ .none at waiting
    rw [waits] at waiting
    obtain ⟨sv39, valid⟩ := tables.missed i waiting
    refine ⟨sv39, ?_⟩
    change validVirtualAddress ((s.allocate idx req).pendReq i).addr = true
    rw [pendReq_allocate s req (apart i waiting)]
    exact valid
  · intro i present quiet alive
    change ∃ walk, known walk ∧ Function.update s.pendResp idx resp i =
      dataAnswer s.vm_info walk ((s.allocate idx req).pendReq i)
    by_cases same : i = idx
    · subst same
      rw [pendReq_allocate_self, Function.update_self]
      exact answered
    · rw [pendReq_allocate s req same, Function.update_of_ne same]
      apply tables.ready i
      · exact (Function.update_of_ne same ..).symm.trans present
      · exact (congrFun waits i).symm.trans quiet
      · exact (Function.update_of_ne same ..).symm.trans alive

/-- A slot that waits from now on is not ready. -/
theorem Tables.missing (tables : Tables known s) {idx : DTlbReqIdx p} {req : DTlbReq p}
    {wait : DTlbWait p} (rqToPQ : List (DTlbRqToP p)) (waits : wait ≠ .none)
    (sv39 : s.vm_info.sv39 = true)
    (valid : validVirtualAddress (p.getTlbReq req.inst).addr = true)
    (reads : ∃ t, Consistent id t ∧ Follows known
      { s.allocate idx req with
        pendWait := Function.update s.pendWait idx wait, rqToPQ := rqToPQ } t) :
    Tables known
      { s.allocate idx req with
        pendWait := Function.update s.pendWait idx wait, rqToPQ := rqToPQ } := by
  refine ⟨reads, tables.cached, ?_, ?_⟩
  · intro i waiting
    refine ⟨sv39, ?_⟩
    change validVirtualAddress ((s.allocate idx req).pendReq i).addr = true
    by_cases same : i = idx
    · rw [same, pendReq_allocate_self]
      exact valid
    · rw [pendReq_allocate s req same]
      exact (tables.missed i fun quiet =>
        waiting ((Function.update_of_ne same ..).trans quiet)).2
  · intro i present quiet alive
    change Function.update s.pendWait idx wait i = .none at quiet
    have same : i ≠ idx := by
      intro here
      rw [here, Function.update_self] at quiet
      exact waits quiet
    change ∃ walk, known walk ∧ s.pendResp i =
      dataAnswer s.vm_info walk ((s.allocate idx req).pendReq i)
    rw [pendReq_allocate s req same]
    apply tables.ready i
    · exact (Function.update_of_ne same ..).symm.trans present
    · exact (Function.update_of_ne same ..).symm.trans quiet
    · exact (Function.update_of_ne same ..).symm.trans alive

/-- The pages of the slots that wait, after a miss. -/
theorem Follows.addr_miss {t : Table p.dTlbReqNum Vpn Vpn} (follows : Follows known s t)
    {idx : DTlbReqIdx p} {req : DTlbReq p} {wait : DTlbWait p} {a : Vpn}
    (page : a = getVpn (p.getTlbReq req.inst).addr) (i : DTlbReqIdx p)
    (waiting : Function.update s.pendWait idx wait i ≠ .none) :
    Function.update t.addr idx a i = getVpn ((s.allocate idx req).pendReq i).addr := by
  by_cases same : i = idx
  · rw [same, pendReq_allocate_self, Function.update_self]
    exact page
  · rw [Function.update_of_ne same] at waiting
    rw [pendReq_allocate s req same, Function.update_of_ne same]
    exact follows.addr i waiting

/-- No answer is handed out while none of the parent is there. -/
theorem Consistent.served_none {t : Table p.dTlbReqNum Vpn Vpn} (empty : t.answers = []) :
    t.served = none := by
  unfold Table.served
  rw [empty]
  split <;> rfl

theorem Tables.miss (tables : Tables known s) {idx : DTlbReqIdx p} {req : DTlbReq p}
    (idle : s.pendWait idx = .none) (empty : s.ldTransRsFromPQ = [])
    (sv39 : s.vm_info.sv39 = true)
    (valid : validVirtualAddress (p.getTlbReq req.inst).addr = true) :
    Tables known ((s.allocate idx req).miss idx (p.getTlbReq req.inst)
      (s.reqSamePage (p.getTlbReq req.inst))) := by
  obtain ⟨t, consistent, follows⟩ := tables.reads
  have free : t.wait idx = .none := by
    rw [follows.wait]
    exact idle
  have noAnswer : t.answers = [] := by
    have pairs := follows.answers
    rw [empty] at pairs
    exact List.forall₂_nil_right_iff.mp pairs
  unfold State.miss
  cases found : s.reqSamePage (p.getTlbReq req.inst) with
  | some i =>
      obtain ⟨reads, page⟩ : s.pendWait i = .waitMem ∧
          getVpn (p.getTlbReq req.inst).addr = getVpn (s.pendReq i).addr := by
        simpa using List.find?_some found
      have apart : i ≠ idx := by
        rintro rfl
        exact nomatch idle.symm.trans reads
      have addr : t.addr i = getVpn (p.getTlbReq req.inst).addr := by
        rw [page]
        apply follows.addr i
        rw [reads]
        exact nofun
      have joined := consistent.join free apart ((congrFun follows.wait i).trans reads) (by
        intro first handed
        rw [Consistent.served_none noAnswer] at handed
        exact nomatch handed)
      refine tables.missing s.rqToPQ nofun sv39 valid ⟨_, joined, ?_⟩
      refine ⟨?_, follows.asked, follows.answers, follows.serving, ?_⟩
      · change Function.update t.wait idx (.waitPeer i) = _
        rw [follows.wait]
      · exact follows.addr_miss addr
  | none =>
      have asked := consistent.ask free (getVpn (p.getTlbReq req.inst).addr)
      refine tables.missing _ nofun sv39 valid ⟨_, asked, ?_⟩
      refine ⟨?_, ?_, follows.answers, follows.serving, ?_⟩
      · change Function.update t.wait idx .waitMem = _
        rw [follows.wait]
      · change t.asked ++ [_] = _
        rw [follows.asked]
        simp [State.allocate]
      · exact follows.addr_miss rfl

theorem canProcReq_iff : s.canProcReq = true ↔
    s.needFlush = false ∧ s.ldTransRsFromPQ = [] ∧ s.rqToPQ.length < p.dTlbReqNum ∧
      s.freeQInited = true := by
  unfold State.canProcReq
  simp [and_assoc]

theorem Tables.procReq (tables : Tables known s) (walks : AreWalks known)
    (now : known s.walkOf) {req : DTlbReq p}
    (idle : ∀ idx, s.freeQ.head? = some idx → s.pendWait idx = .none)
    (fires : s.procReq req = some s') : Tables known s' := by
  obtain ⟨can, idx, head, ⟨resp, hits, rfl⟩ | ⟨sv39, valid, rfl⟩⟩ := procReq_some fires
  · exact tables.hit (idle idx head) (walks.hits tables.cached now hits)
  · exact tables.miss (idle idx head) (canProcReq_iff.mp can).2.1 sv39 valid

/-! ### The parent -/

theorem Tables.rqToP (tables : Tables known s) (fires : fire s .rqToP = some s') :
    Tables known s' := by
  obtain ⟨r, head, rfl⟩ := Option.map_eq_some_iff.mp fires
  obtain ⟨rest, queue⟩ := List.head?_eq_some_iff.mp head
  obtain ⟨t, consistent, follows⟩ := tables.reads
  refine ⟨⟨t, consistent, follows.wait, ?_, follows.answers, follows.serving, follows.addr⟩,
    tables.cached, tables.missed, tables.ready⟩
  rw [follows.asked, queue]
  simp

theorem Tables.ldTransRsFromP (tables : Tables known s) (now : known s.walkOf) {k : Nat}
    (fires : fire s (.ldTransRsFromP k) = some s') : Tables known s' := by
  simp only [fire, Option.ite_none_right_eq_some] at fires
  obtain ⟨r, taken, rfl⟩ := Option.map_eq_some_iff.mp fires.2
  obtain ⟨bound, -⟩ := List.getElem?_eq_some_iff.mp taken
  obtain ⟨t, consistent, follows⟩ := tables.reads
  have asked : t.asked[k]? = some (r.vpn, r.id) := by
    rw [follows.asked, List.getElem?_map, List.getElem?_append_left bound, taken]
    rfl
  refine ⟨⟨_, consistent.answer asked, follows.wait, ?_, ?_, follows.serving, follows.addr⟩,
    tables.cached, tables.missed, tables.ready⟩
  · change t.asked.eraseIdx k = _
    rw [follows.asked, List.eraseIdx_map, List.eraseIdx_append_of_lt_length bound]
  · exact List.rel_append follows.answers
      (.cons ⟨rfl, s.walkOf, now, rfl⟩ .nil)

/-! ### The other rules -/

theorem Tables.release (tables : Tables known s) {idx : DTlbReqIdx p}
    (fires : s.release idx = some s') : Tables known s' := by
  obtain rfl := release_some fires
  refine ⟨tables.reads.imp fun _ h => ⟨h.1, h.2.wait, h.2.asked, h.2.answers, h.2.serving,
    h.2.addr⟩, tables.cached, tables.missed, ?_⟩
  intro i present
  have other : i ≠ idx := by
    rintro rfl
    exact nomatch (Function.update_self ..).symm.trans present
  exact tables.ready i ((Function.update_of_ne other ..).symm.trans present)

theorem Tables.incorrectSpeculation (tables : Tables known s) (kill_all : Bool) (x : SpecTag p) :
    Tables known (s.incorrectSpeculation kill_all x) := by
  refine ⟨tables.reads.imp fun _ h => ⟨h.1, h.2.wait, h.2.asked, h.2.answers, h.2.serving,
    h.2.addr⟩, tables.cached, tables.missed, ?_⟩
  intro i present idle alive
  apply tables.ready i present idle
  unfold State.incorrectSpeculation at alive
  dsimp only at alive
  split at alive
  · exact nomatch alive
  · exact alive

/-- The array may be emptied. -/
theorem Tables.emptied (tables : Tables known s) (flushRqToPQ waitFlushP : Bool) :
    Tables known
      { s with tlb := fun _ => none, flushRqToPQ := flushRqToPQ, waitFlushP := waitFlushP } :=
  ⟨tables.reads.imp fun _ h => ⟨h.1, h.2.wait, h.2.asked, h.2.answers, h.2.serving, h.2.addr⟩,
    ReadCache.Holds.empty, tables.missed, tables.ready⟩

/-- While nothing is pending, the VM information may change. -/
theorem Tables.change (tables : Tables known s) (none : ∀ i, s.pendValid i = false)
    (idle : ∀ i, s.pendWait i = .none) (vm : L1VMInfo) :
    Tables known { s with vm_info := vm } := by
  refine ⟨tables.reads.imp fun _ h => ⟨h.1, h.2.wait, h.2.asked, h.2.answers, h.2.serving,
    h.2.addr⟩, tables.cached, ?_, ?_⟩
  · intro i waiting
    exact absurd (idle i) waiting
  · intro i present
    exact nomatch (none i).symm.trans present

/-- The flags of a flush, the free slots, the speculation bits and the memory are not part of
what is known. -/
theorem Tables.outside (tables : Tables known s) (needFlush waitFlushP flushRqToPQ
    flushRsFromPQ freeQInited : Bool) (freeQInitIdx : Nat) (freeQ : List (DTlbReqIdx p))
    (pendSpecBits : DTlbReqIdx p → SpecBits p) (mem : Addr → Data) :
    Tables known
      { s with
        needFlush := needFlush, waitFlushP := waitFlushP, flushRqToPQ := flushRqToPQ
        flushRsFromPQ := flushRsFromPQ, freeQInited := freeQInited
        freeQInitIdx := freeQInitIdx, freeQ := freeQ, pendSpecBits := pendSpecBits, mem := mem } :=
  ⟨tables.reads.imp fun _ h => ⟨h.1, h.2.wait, h.2.asked, h.2.answers, h.2.serving, h.2.addr⟩,
    tables.cached, tables.missed, tables.ready⟩

theorem doStartFlush_some (fires : s.doStartFlush = some s') :
    s.needFlush = true ∧ s.waitFlushP = false ∧ (∀ i, s.pendValid i = false) ∧
      s' = { s with tlb := fun _ => none, flushRqToPQ := true, waitFlushP := true } := by
  unfold State.doStartFlush at fires
  split at fires
  next can =>
    simp only [Bool.and_eq_true, Bool.not_eq_true', decide_eq_true_eq] at can
    obtain ⟨⟨⟨need, wait⟩, none⟩, -⟩ := can
    exact ⟨need, wait, none, (Option.some.inj fires).symm⟩
  next => exact nomatch fires

theorem doInitFreeQ_some (fires : s.doInitFreeQ = some s') :
    s.freeQInited = false ∧ ∃ inside : s.freeQInitIdx < p.dTlbReqNum,
      s' = { s with
        freeQ := s.freeQ ++ [⟨s.freeQInitIdx, inside⟩]
        freeQInitIdx := s.freeQInitIdx + 1
        freeQInited := decide (s.freeQInitIdx = p.dTlbReqNum - 1) } := by
  unfold State.doInitFreeQ at fires
  split at fires
  next inside => exact ⟨inside.1, inside.2, (Option.some.inj fires).symm⟩
  next => exact nomatch fires

theorem doPoisonedProcResp_some (fires : s.doPoisonedProcResp = some s') :
    s.freeQInited = true ∧ ∃ idx, s.poisonedProcRespIdx = some idx ∧
      s.release idx = some s' := by
  unfold State.doPoisonedProcResp at fires
  split at fires
  next inited => exact ⟨inited, Option.bind_eq_some_iff.mp fires⟩
  next => exact nomatch fires

theorem deqProcResp_some (fires : s.deqProcResp = some s') :
    s.freeQInited = true ∧ ∃ idx, s.validProcRespIdx = some idx ∧
      s.release idx = some s' := by
  unfold State.deqProcResp at fires
  split at fires
  next inited => exact ⟨inited, Option.bind_eq_some_iff.mp fires⟩
  next => exact nomatch fires

/-- A step keeps what is owed to the tables. -/
theorem Tables.next (tables : Tables known s) (walks : AreWalks known) (now : known s.walkOf)
    (idle : ∀ i, s.pendValid i = false → s.pendWait i = .none)
    (free : ∀ i ∈ s.freeQ, s.pendValid i = false) {rule : Rule p} (contract : Contract s rule)
    (fires : fire s rule = some s') : Tables known s' := by
  cases rule with
  | doStartFlush =>
      obtain ⟨-, -, -, rfl⟩ := doStartFlush_some fires
      exact tables.emptied true true
  | doFinishFlush =>
      simp only [fire, State.doFinishFlush, Option.ite_none_right_eq_some] at fires
      obtain ⟨-, made⟩ := fires
      obtain rfl := Option.some.inj made
      exact tables.outside ..
  | doPRs victim => exact tables.doPRs walks fires
  | doInitFreeQ =>
      obtain ⟨-, inside, rfl⟩ := doInitFreeQ_some fires
      exact tables.outside ..
  | doPoisonedProcResp =>
      obtain ⟨-, idx, -, released⟩ := doPoisonedProcResp_some fires
      exact tables.release released
  | flush =>
      simp only [fire, State.flush, Option.ite_none_left_eq_some] at fires
      obtain ⟨-, made⟩ := fires
      obtain rfl := Option.some.inj made
      exact tables.outside ..
  | updateVMInfo vm =>
      obtain rfl := Option.some.inj fires
      exact tables.change contract (fun i => idle i (contract i)) vm
  | procReq req =>
      apply tables.procReq walks now _ fires
      intro idx head
      exact idle idx (free idx (List.mem_of_head? head))
  | deqProcResp =>
      obtain ⟨-, idx, -, released⟩ := deqProcResp_some fires
      exact tables.release released
  | incorrectSpeculation kill_all x =>
      obtain rfl := Option.some.inj fires
      exact tables.incorrectSpeculation kill_all x
  | correctSpeculation mask =>
      obtain rfl := Option.some.inj fires
      exact tables.outside ..
  | rqToP => exact tables.rqToP fires
  | ldTransRsFromP k => exact tables.ldTransRsFromP now fires
  | flushRequest =>
      simp only [fire, Option.ite_none_right_eq_some] at fires
      obtain ⟨-, made⟩ := fires
      obtain rfl := Option.some.inj made
      exact tables.outside ..
  | flushResponse =>
      simp only [fire, Option.ite_none_left_eq_some] at fires
      obtain ⟨-, made⟩ := fires
      obtain rfl := Option.some.inj made
      exact tables.outside ..
  | writeTables mem =>
      obtain rfl := Option.some.inj fires
      exact tables.outside ..

end Toooba.DTlb
