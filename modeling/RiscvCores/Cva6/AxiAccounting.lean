import RiscvCores.Cva6.AxiLedger

/-!
# The adapter keeps the ledger

The queues of the adapter hold what the ledger says: the requests that wait, the ids of
the requests that are sent and not answered, and the write responses.  The shift registers
hold the beats of the open bursts.
-/

set_option autoImplicit false

namespace Cva6.AxiAdapter

open CommonCells

variable {cfg : AdapterCfg}

/-! ## Bursts -/

/-- The beats received so far are the last words of a shift register. -/
structure Burst {n : Nat} {α : Type} (first : Bool) (data : Fin n → α) (beats : List α) : Prop where
  first : first = beats.isEmpty
  short : beats.length < n
  held : ∀ j (sent : j < beats.length) (inside : n - beats.length + j < n),
    data ⟨n - beats.length + j, inside⟩ = beats[j]

section Burst

variable {n : Nat} {α : Type} {first : Bool} {data : Fin n → α} {beats : List α}

theorem burst_nil (some : 0 < n) (data : Fin n → α) : Burst true data [] where
  first := rfl
  short := some
  held j sent := absurd sent (Nat.not_lt_zero j)

theorem Burst.more (burst : Burst first data beats) (inside : beats.length + 1 < n) (x : α) :
    Burst false (shiftIn first x data) (beats ++ [x]) where
  first := by simp
  short := by simpa using inside
  held j sent place := by
    rw [List.length_append, List.length_singleton] at sent place
    have late : ¬ n - (beats.length + 1) + j = 0 := by omega
    simp only [List.length_append, List.length_singleton, shiftIn, beq_iff_eq, late, if_false,
      Bool.and_eq_true, and_false]
    rcases Nat.lt_or_ge j beats.length with old | new
    · rw [dif_pos (by omega), List.getElem_append_left old, ← burst.held j old (by omega)]
      congr 2
      omega
    · rw [dif_neg (by omega), List.getElem_append_right new]
      simp

/-- The last beat completes a line, or is the only one. -/
theorem Burst.done (burst : Burst first data beats) (whole : beats = [] ∨ beats.length + 1 = n)
    (x : α) : Carries (shiftIn first x data) (beats ++ [x]) := by
  have short := burst.short
  refine ⟨by rwa [List.length_append, List.length_singleton], fun j inside sent => ?_⟩
  rw [List.length_append, List.length_singleton] at sent
  rcases Nat.lt_or_ge j beats.length with old | new
  · have full : beats.length + 1 = n := by
      rcases whole with rfl | full
      · simp at old
      · exact full
    have notFirst : first = false := by
      rw [burst.first]
      cases beats with
      | nil => simp at old
      | cons _ _ => rfl
    simp only [shiftIn, notFirst, Bool.false_and, Bool.false_eq_true, if_false]
    rw [dif_pos (by omega), List.getElem_append_left old, ← burst.held j old (by omega)]
    congr 2
    omega
  · obtain rfl : j = beats.length := by omega
    have last : shiftIn first x data ⟨beats.length, inside⟩ = x := by
      rcases whole with rfl | full
      · simp [shiftIn, burst.first]
      · simp only [shiftIn]
        rw [dif_neg (by omega), ite_self]
    rw [last, List.getElem_append_right (Nat.le_refl _)]
    simp

theorem Burst.setFront (burst : Burst first data beats) (x : α) :
    Burst first (setFront x data) beats where
  first := burst.first
  short := burst.short
  held j sent inside := by
    have short := burst.short
    rw [AxiAdapter.setFront, if_neg (by dsimp only; omega)]
    exact burst.held j sent inside

end Burst

/-! ## The invariant -/

structure Tracks (L : Ledger cfg) (s : State cfg) : Prop where
  iQueue : s.icacheData.Holds (reqCfg cfg) L.iQueue
  dQueue : s.dcacheData.Holds (reqCfg cfg) L.dQueue
  iIds : s.icacheIds.Holds (idCfg cfg) (L.iReads.map IReq.tid)
  rdIds : s.dcacheRdIds.Holds (idCfg cfg) (L.reads.map DReq.tid)
  wrIds : s.dcacheWrIds.Holds (idCfg cfg) (L.writes.map DReq.tid)
  bs : s.bs.Holds (bCfg cfg) (L.bs.map fun b => (b.2, dcacheId b.1))
  iBurst : Burst s.icacheFirst s.icacheShift L.iBeats
  dBurst : Burst s.dcacheFirst s.dcacheShift L.beats
  iOpen : L.iBeats ≠ [] → ∃ q ∈ L.iReads.head?, L.iBeats.length ≤ icacheLen cfg q
  dOpen : L.beats ≠ [] → ∃ q ∈ L.reads.find? isLoad, L.beats.length ≤ dcacheLen q
  known : ∀ q ∈ L.dQueue, Known q
  reads : ∀ q ∈ L.reads, Known q ∧ asksRead q = true
  writes : ∀ q ∈ L.writes, Known q ∧ asksWrite q = true
  stores : ∀ q ∈ L.stores, isStore q = true
  atomics : ∀ q ∈ L.atomics, isAtomic q = true ∧ Known q ∧ asksWrite q = true
  responses : ∀ b ∈ L.bs, Known b.1 ∧ asksWrite b.1 = true
  storeOrder : L.writes.filter isStore = (L.bs.map Prod.fst).filter isStore ++ L.stores
  scOrder : L.writes.filter isSc = (L.bs.map Prod.fst).filter isSc ++ L.atomics.filter isSc
  /-- An atomic is older than all other open requests. -/
  queuedAtomic : ∀ q ∈ L.dQueue, isAtomic q = true → L.reads = [] ∧ L.writes = []
  queueTail : ∀ q ∈ L.dQueue.tail, isAtomic q = false
  readsTail : ∀ q ∈ L.reads.tail, isAtomic q = false
  writesTail : ∀ q ∈ L.writes.tail, isAtomic q = false
  flag : ∀ q ∈ L.writes, isSc q = true → s.amoGenR = false ∧ s.amoOff = scOff q
  locked : s.arb.Locked (arbReq s)
  waits : s.wrState = .idle ∨ (s.wrState = .waitAwReady ∨ s.wrState = .waitLastWReady) ∧
    s.arb.lock = true ∧ arbIdx s = 1 ∧ ∃ q ∈ L.dQueue.head?, asksWrite q = true
  single : s.wrCnt = 0

theorem tracks_reset (cfg : AdapterCfg) : Tracks ({} : Ledger cfg) (reset cfg) where
  iQueue := Fifo.reset_holds ({} : IReq)
  dQueue := Fifo.reset_holds ({} : DReq cfg)
  iIds := Fifo.reset_holds 0
  rdIds := Fifo.reset_holds 0
  wrIds := Fifo.reset_holds 0
  bs := Fifo.reset_holds (false, 0)
  iBurst := burst_nil cfg.someIcacheWords _
  dBurst := burst_nil cfg.someDcacheWords _
  iOpen some := (some rfl).elim
  dOpen some := (some rfl).elim
  known _ inside := nomatch inside
  reads _ inside := nomatch inside
  writes _ inside := nomatch inside
  stores _ inside := nomatch inside
  atomics _ inside := nomatch inside
  responses _ inside := nomatch inside
  storeOrder := rfl
  scOrder := rfl
  queuedAtomic _ inside := nomatch inside
  queueTail _ inside := nomatch inside
  readsTail _ inside := nomatch inside
  writesTail _ inside := nomatch inside
  flag _ inside := nomatch inside
  locked := RrState.locked_reset _
  waits := .inl rfl
  single := rfl

/-! ## Kinds of requests -/

section Kinds

variable {q : DReq cfg}

theorem asksRead_cases (asks : asksRead q = true) :
    isLoad q = true ∨ (isLr q = true ∧ cfg.rva = true) := by
  simpa [asksRead, and_comm] using asks

theorem asksWrite_cases (asks : asksWrite q = true) :
    isStore q = true ∨ ((isSc q = true ∨ isRmw q = true) ∧ cfg.rva = true) := by
  simpa [asksWrite, and_comm] using asks

/-- A request is sent on one of the two channels. -/
theorem asks_of_known (known : Known q) : asksRead q = !asksWrite q := by
  unfold asksRead asksWrite isLoad isStore isLr isSc isRmw
  rcases known with load | store | ⟨atomic, rva, _⟩
  · rw [show q.rtype = .load from beq_iff_eq.mp load]
    cases cfg.rva <;> rfl
  · rw [show q.rtype = .store from beq_iff_eq.mp store]
    cases cfg.rva <;> rfl
  · rw [show q.rtype = .atomic from beq_iff_eq.mp atomic, rva]
    cases q.amoOp <;> rfl

/-- The kinds exclude one another. -/
theorem kind_excl (q : DReq cfg) :
    (isLoad q = true → isStore q = false ∧ isAtomic q = false ∧ isLr q = false ∧ isSc q = false ∧
      isRmw q = false) ∧
    (isStore q = true → isLoad q = false ∧ isAtomic q = false ∧ isLr q = false ∧
      isSc q = false ∧ isRmw q = false) ∧
    (isLr q = true → isAtomic q = true ∧ isLoad q = false ∧ isStore q = false ∧
      isSc q = false ∧ isRmw q = false) ∧
    (isSc q = true → isAtomic q = true ∧ isLoad q = false ∧ isStore q = false ∧
      isLr q = false ∧ isRmw q = false) ∧
    (isRmw q = true → isAtomic q = true ∧ isLoad q = false ∧ isStore q = false ∧
      isLr q = false ∧ isSc q = false) := by
  unfold isLoad isStore isAtomic isLr isSc isRmw
  cases q.rtype <;> cases q.amoOp <;> decide

end Kinds

/-! ## The request path -/

section Cycle

variable {L : Ledger cfg} {s : State cfg} {i : Input cfg}

theorem arbReq_icache_iff {queue : List IReq} {ids : List Nat}
    (requests : s.icacheData.Holds (reqCfg cfg) queue)
    (open' : s.icacheIds.Holds (idCfg cfg) ids) :
    arbReq s 0 = true ↔ queue ≠ [] ∧ ids.length < cfg.metaFifoDepth := by
  rw [arbReq, if_pos rfl, Bool.not_eq_true', Bool.or_eq_false_iff, open'.room_iff,
    ← Bool.not_eq_true, requests.empty_iff rfl]

theorem arbReq_dcache_iff {queue : List (DReq cfg)} {wrIds rdIds : List Nat}
    (requests : s.dcacheData.Holds (reqCfg cfg) queue)
    (openWrites : s.dcacheWrIds.Holds (idCfg cfg) wrIds)
    (openReads : s.dcacheRdIds.Holds (idCfg cfg) rdIds) :
    arbReq s 1 = true ↔
      queue ≠ [] ∧ wrIds.length < cfg.metaFifoDepth ∧ rdIds.length < cfg.metaFifoDepth := by
  rw [arbReq, if_neg (by decide), Bool.not_eq_true', Bool.or_eq_false_iff,
    Bool.or_eq_false_iff, openWrites.room_iff, openReads.room_iff, ← Bool.not_eq_true,
    requests.empty_iff rfl, and_assoc]

theorem Tracks.arbReq_icache (tracks : Tracks L s) (asks : arbReq s 0 = true) :
    L.iQueue ≠ [] ∧ L.iReads.length < cfg.metaFifoDepth := by
  simpa using (arbReq_icache_iff tracks.iQueue tracks.iIds).mp asks

theorem Tracks.arbReq_dcache (tracks : Tracks L s) (asks : arbReq s 1 = true) :
    L.dQueue ≠ [] ∧ L.writes.length < cfg.metaFifoDepth ∧
      L.reads.length < cfg.metaFifoDepth := by
  simpa using (arbReq_dcache_iff tracks.dQueue tracks.wrIds tracks.rdIds).mp asks

theorem anyReq_iff : anyReq s = true ↔ ∃ k, arbReq s k = true := by
  rw [anyReq, Bool.or_eq_true_iff, Fin.exists_fin_two]

theorem Tracks.selected (tracks : Tracks L s) (some : anyReq s = true) :
    arbReq s (arbIdx s) = true :=
  tracks.locked.idxO (anyReq_iff.mp some)

theorem Tracks.anyReq_of_lock (tracks : Tracks L s) (lock : s.arb.lock = true) :
    anyReq s = true := by
  obtain ⟨⟨k, held⟩, asks⟩ := tracks.locked lock
  exact anyReq_iff.mpr ⟨k, asks k held⟩

theorem idx_cases (s : State cfg) : arbIdx s = 0 ∨ arbIdx s = 1 := by
  have bound := (arbIdx s).isLt
  rcases (by omega : (arbIdx s).val = 0 ∨ (arbIdx s).val = 1) with zero | one
  · exact .inl (Fin.ext zero)
  · exact .inr (Fin.ext one)

/-- The write channel carries single words. -/
theorem Tracks.writeFsm_single (tracks : Tracks L s) (i : Input cfg) :
    ((writeFsm s i).state = .idle ∨ ((writeFsm s i).state = .waitAwReady ∨
        (writeFsm s i).state = .waitLastWReady) ∧ (writeFsm s i).gnt = false) ∧
      (writeFsm s i).cntEn = false ∧
      (s.wrState = .idle → wrReq s = false →
        (writeFsm s i).gnt = false ∧ (writeFsm s i).state = .idle) := by
  have done : wrCntDone s = true := by
    rw [wrCntDone, tracks.single]
    rfl
  have single : wrSingleReq = true := rfl
  unfold writeFsm
  rcases tracks.waits with idle | ⟨wait | wait, _⟩
  · rw [idle, single]
    cases wrReq s <;> cases cfg.axiBurstWriteEn <;> cases i.awReady <;> cases i.wReady <;> simp
  · rw [wait]
    cases i.awReady <;> simp
  · rw [wait, done]
    cases cfg.axiBurstWriteEn <;> cases i.wReady <;> simp

theorem Tracks.head (tracks : Tracks L s) (some : L.dQueue ≠ []) :
    ∃ rest, L.dQueue = dcacheHead s :: rest := by
  obtain ⟨q, rest, queue⟩ := List.exists_cons_of_ne_nil some
  have holds := tracks.dQueue
  rw [queue] at holds
  exact ⟨rest, by rw [queue, dcacheHead, holds.stored]⟩

/-- A write is open in the shim, or is asked for. -/
theorem Tracks.writes_turn (tracks : Tracks L s)
    (turn : s.wrState ≠ .idle ∨ wrReq s = true) :
    anyReq s = true ∧ arbIdx s = 1 ∧ asksWrite (dcacheHead s) = true := by
  rcases turn with busy | asks
  · obtain idle | ⟨_, lock, idx, q, front, asks⟩ := tracks.waits
    · exact (busy idle).elim
    · have some : L.dQueue ≠ [] := by
        rintro none
        rw [none] at front
        cases front
      obtain ⟨rest, queue⟩ := tracks.head some
      rw [queue] at front
      obtain rfl : dcacheHead s = q := Option.some.inj front
      exact ⟨tracks.anyReq_of_lock lock, idx, asks⟩
  · simp only [wrReq, Bool.and_eq_true, decide_eq_true_eq] at asks
    exact ⟨asks.1.1, asks.1.2, asks.2⟩

theorem Tracks.wrGnt_turn (tracks : Tracks L s) (gnt : wrGnt s i = true) :
    anyReq s = true ∧ arbIdx s = 1 ∧ asksWrite (dcacheHead s) = true := by
  refine tracks.writes_turn ?_
  by_contra quiet
  rw [not_or, not_not] at quiet
  have none := (tracks.writeFsm_single i).2.2 quiet.1 (Bool.not_eq_true _ |>.mp quiet.2)
  rw [wrGnt, none.1] at gnt
  cases gnt

theorem rdGnt_iff : rdGnt s i = true ↔ i.arReady = true ∧ anyReq s = true ∧
    (arbIdx s = 1 → asksRead (dcacheHead s) = true) := by
  unfold rdGnt rdReq
  rcases idx_cases s with idx | idx <;> simp [idx, and_comm]

/-- What the grant of the instruction cache means. -/
theorem Tracks.granted_icache (tracks : Tracks L s) (ack : arbAck s i 0 = true) :
    rdGnt s i = true ∧ L.iReads.length < cfg.metaFifoDepth ∧
      ∃ rest, L.iQueue = icacheHead s :: rest := by
  obtain ⟨gnt, idx⟩ := Bool.and_eq_true_iff.mp ack
  have idx : arbIdx s = 0 := of_decide_eq_true idx
  have read : rdGnt s i = true := by
    rcases Bool.or_eq_true_iff.mp gnt with read | write
    · exact read
    · rw [(tracks.wrGnt_turn write).2.1] at idx
      cases idx
  have asks := tracks.selected (rdGnt_iff.mp read).2.1
  rw [idx] at asks
  obtain ⟨some, room⟩ := tracks.arbReq_icache asks
  obtain ⟨q, rest, queue⟩ := List.exists_cons_of_ne_nil some
  have holds := tracks.iQueue
  rw [queue] at holds
  exact ⟨read, room, rest, by rw [queue, icacheHead, holds.stored]⟩

/-- What the grant of the data cache means. -/
theorem Tracks.granted_dcache (tracks : Tracks L s) (ack : arbAck s i 1 = true) :
    anyReq s = true ∧ arbIdx s = 1 ∧ L.reads.length < cfg.metaFifoDepth ∧
      L.writes.length < cfg.metaFifoDepth ∧ (∃ rest, L.dQueue = dcacheHead s :: rest) ∧
      rdGnt s i = asksRead (dcacheHead s) ∧ wrGnt s i = asksWrite (dcacheHead s) := by
  obtain ⟨gnt, idx⟩ := Bool.and_eq_true_iff.mp ack
  have idx : arbIdx s = 1 := of_decide_eq_true idx
  have some : anyReq s = true := by
    rcases Bool.or_eq_true_iff.mp gnt with read | write
    · exact (rdGnt_iff.mp read).2.1
    · exact (tracks.wrGnt_turn write).1
  have asks := tracks.selected some
  rw [idx] at asks
  obtain ⟨nonempty, roomW, roomR⟩ := tracks.arbReq_dcache asks
  obtain ⟨rest, queue⟩ := tracks.head nonempty
  have channel := asks_of_known
    (tracks.known (dcacheHead s) (by rw [queue]; exact List.mem_cons_self))
  refine ⟨some, idx, roomR, roomW, ⟨rest, queue⟩, ?_⟩
  cases write : wrGnt s i with
  | true =>
      have asksW := (tracks.wrGnt_turn write).2.2
      rw [asksW] at channel ⊢
      refine ⟨?_, rfl⟩
      rw [channel]
      by_contra read
      have asksR := (rdGnt_iff.mp (Bool.not_eq_false _ |>.mp read)).2.2 idx
      rw [channel] at asksR
      cases asksR
  | false =>
      have read : rdGnt s i = true := by
        rw [arbGnt, write, Bool.or_false] at gnt
        exact gnt
      have asksR := (rdGnt_iff.mp read).2.2 idx
      rw [asksR] at channel
      rw [read, asksR]
      exact ⟨rfl, (Bool.not_eq_true' _ |>.mp channel.symm).symm⟩

/-! ## What is answered -/

theorem dcacheId_store {q : DReq cfg} (store : isStore q = true) : dcacheId q = 1 := by
  rw [dcacheId, ((kind_excl q).2.1 store).2.1, if_neg Bool.false_ne_true]

theorem dcacheId_atomic {q : DReq cfg} (atomic : isAtomic q = true) : dcacheId q = 3 :=
  if_pos atomic

/-- The write responses that the adapter can take. -/
theorem Tracks.shown (tracks : Tracks L s) (env : Environment L s i) (pop : Bool) :
    (bIn s i pop).shown (L.bs.map fun b => (b.2, dcacheId b.1)) =
      (L.bs ++ L.received s i).map fun b => (b.2, dcacheId b.1) := by
  rw [List.map_append, FifoIn.shown]
  refine congrArg (_ ++ ·) ?_
  unfold Ledger.received
  cases response : i.b with
  | none => simp [bIn, bPush, response]
  | some b =>
      cases taken : bPush s i with
      | false => simp [bIn, taken]
      | true =>
          rcases env.response b response with ⟨id, some⟩ | ⟨id, some⟩
          · obtain ⟨q, rest, stores⟩ := List.exists_cons_of_ne_nil some
            have store := tracks.stores q (by rw [stores]; exact List.mem_cons_self)
            simp [bIn, bData, taken, response, id, stores, dcacheId_store store]
          · obtain ⟨q, rest, atomics⟩ := List.exists_cons_of_ne_nil some
            have atomic := (tracks.atomics q (by rw [atomics]; exact List.mem_cons_self)).1
            simp [bIn, bData, taken, response, id, atomics, dcacheId_atomic atomic]

/-- What the decoder of the data cache does. -/
inductive Event (L : Ledger cfg) (s : State cfg) (i : Input cfg) : Prop
  | quiet (noBeat : dcacheBeat s i = none) (noB : bPop s i = false)
  | beat (r : RBeat cfg) (taken : dcacheBeat s i = some r) (id : r.id = 1)
      (more : r.last = false)
  | load (r : RBeat cfg) (q : DReq cfg) (taken : dcacheBeat s i = some r) (id : r.id = 1)
      (last : r.last = true) (kind : isLoad q = true) (found : L.reads.find? isLoad = some q)
      (front : L.reads.head? = some q) (whole : L.beats.length = dcacheLen q)
  | loadReserved (r : RBeat cfg) (q : DReq cfg) (taken : dcacheBeat s i = some r) (id : r.id = 3)
      (last : r.last = true) (kind : isLr q = true) (found : L.atomicRead = some q)
      (front : L.reads.head? = some q) (alone : L.writes = []) (whole : L.beats = [])
  | rmw (r : RBeat cfg) (q : DReq cfg) (taken : dcacheBeat s i = some r) (id : r.id = 3)
      (last : r.last = true) (kind : isRmw q = true) (found : L.atomicRead = some q)
      (front : L.writes.head? = some q) (whole : L.beats = [])
  | store (q : DReq cfg) (exokay : Bool) (rest : List (DReq cfg × Bool))
      (noBeat : dcacheBeat s i = none) (pops : bPop s i = true)
      (shown : L.bs ++ L.received s i = (q, exokay) :: rest) (kind : isStore q = true)
      (front : L.writes.head? = some q)
  | storeConditional (q : DReq cfg) (exokay : Bool) (rest : List (DReq cfg × Bool))
      (noBeat : dcacheBeat s i = none) (pops : bPop s i = true)
      (shown : L.bs ++ L.received s i = (q, exokay) :: rest) (kind : isSc q = true)
      (front : L.writes.head? = some q)
  | dropped (q : DReq cfg) (exokay : Bool) (rest : List (DReq cfg × Bool))
      (noBeat : dcacheBeat s i = none) (pops : bPop s i = true)
      (shown : L.bs ++ L.received s i = (q, exokay) :: rest) (kind : isRmw q = true)
      (flag : s.amoGenR = true)

theorem dcacheBeat_spec {r : RBeat cfg} (env : Environment L s i)
    (taken : dcacheBeat s i = some r) : OwesBeat L r ∧ (r.id = 1 ∨ r.id = 3) := by
  unfold dcacheBeat at taken
  split at taken
  · cases taken
  · obtain ⟨present, test⟩ := Option.filter_eq_some_iff.mp taken
    have owes := env.beat r present
    refine ⟨owes, owes.id.resolve_left fun zero => ?_⟩
    rw [zero] at test
    cases test

theorem Tracks.rva_of_known {q : DReq cfg} (atomic : isAtomic q = true) (known : Known q) :
    cfg.rva = true := by
  rcases known with load | store | ⟨_, rva, _⟩
  · rw [((kind_excl q).1 load).2.1] at atomic
    cases atomic
  · rw [((kind_excl q).2.1 store).2.1] at atomic
    cases atomic
  · exact rva

theorem Tracks.response_known (tracks : Tracks L s) {q : DReq cfg} {exokay : Bool}
    (inside : (q, exokay) ∈ L.bs ++ L.received s i) : Known q ∧ asksWrite q = true := by
  rcases List.mem_append.mp inside with waits | new
  · exact tracks.responses _ waits
  · unfold Ledger.received at new
    split at new
    next b _ =>
      split at new
      · obtain ⟨q', taken, same⟩ := List.mem_map.mp new
        obtain rfl : q' = q := congrArg Prod.fst same
        have owed := List.mem_of_mem_take taken
        split at owed
        · have store := tracks.stores q' owed
          exact ⟨.inr (.inl store), by rw [asksWrite, store, Bool.true_or]⟩
        · exact (tracks.atomics q' owed).2
      · cases new
    · cases new

theorem Tracks.event (tracks : Tracks L s) (env : Environment L s i) (orderly : Orderly L s i) :
    Event L s i := by
  cases taken : dcacheBeat s i with
  | some r =>
      obtain ⟨owes, load | atomic⟩ := dcacheBeat_spec env taken
      · obtain ⟨q, found, last⟩ := owes.load load
        cases ends : r.last with
        | false => exact .beat r taken load ends
        | true =>
            have due : L.dDue s i = some (q, .words (L.beats ++ [r.data])) := by
              rw [Ledger.dDue, taken]
              simp only [ends, if_true, load, Nat.reduceEqDiff, if_false]
              rw [found]
              rfl
            have kind := List.find?_some found
            have asks := (tracks.reads q (List.mem_of_find?_eq_some found)).2
            rw [ends] at last
            exact .load r q taken load ends kind found (orderly.read _ due asks)
              (of_decide_eq_true last.symm)
      · obtain ⟨pending, ends⟩ := owes.atomic atomic
        obtain ⟨q, found⟩ := Option.isSome_iff_exists.mp pending
        have due : L.dDue s i = some (q, .words [r.data]) := by
          rw [Ledger.dDue, taken]
          simp only [ends, if_true, atomic]
          rw [found]
          rfl
        have whole := orderly.whole r taken atomic
        cases reserved : L.reads.find? isLr with
        | some q' =>
            obtain rfl : q' = q := by
              rw [Ledger.atomicRead, reserved] at found
              exact Option.some.inj found
            have kind := List.find?_some reserved
            have asks := (tracks.reads q' (List.mem_of_find?_eq_some reserved)).2
            exact .loadReserved r q' taken atomic ends kind found (orderly.read _ due asks)
              (orderly.loadReserved _ due kind) whole
        | none =>
            have found' : L.writes.find? isRmw = some q := by
              rwa [Ledger.atomicRead, reserved] at found
            have kind := List.find?_some found'
            have asks := (tracks.writes q (List.mem_of_find?_eq_some found')).2
            exact .rmw r q taken atomic ends kind found (orderly.write _ due asks) whole
  | none =>
      cases pops : bPop s i with
      | false => exact .quiet taken pops
      | true =>
          have nonempty : bEmpty s i = false := by
            rw [bPop, Bool.and_eq_true_iff, Bool.not_eq_true'] at pops
            exact pops.2
          cases shown : L.bs ++ L.received s i with
          | nil =>
              have isEmpty := (tracks.bs.empty_fall (i := bIn s i false) rfl).mpr
                (by rw [tracks.shown env, shown]; rfl)
              change bEmpty s i = true at isEmpty
              rw [nonempty] at isEmpty
              cases isEmpty
          | cons front rest =>
              obtain ⟨q, exokay⟩ := front
              have inside : (q, exokay) ∈ L.bs ++ L.received s i := by
                rw [shown]
                exact List.mem_cons_self
              have asks := (tracks.response_known inside).2
              rcases asksWrite_cases asks with store | ⟨sc | rmw, _⟩
              · have due : L.dDue s i = some (q, .stored) := by
                  rw [Ledger.dDue, taken]
                  simp only [pops, if_true, shown, store]
                exact .store q exokay rest taken pops shown store (orderly.write _ due asks)
              · have due : L.dDue s i = some (q, .conditional exokay) := by
                  rw [Ledger.dDue, taken]
                  simp only [pops, if_true, shown, ((kind_excl q).2.2.2.1 sc).2.2.1,
                    Bool.false_eq_true, if_false, sc]
                exact .storeConditional q exokay rest taken pops shown sc
                  (orderly.write _ due asks)
              · have flag := orderly.flag (q, exokay) (by rw [shown]; rfl) pops rmw
                exact .dropped q exokay rest taken pops shown rmw flag

end Cycle

end Cva6.AxiAdapter
