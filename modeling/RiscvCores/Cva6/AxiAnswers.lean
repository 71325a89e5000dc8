import RiscvCores.Cva6.AxiAccounting

/-!
# Every request is answered once

The decoder of the adapter pops the id of the request that is answered, and the packet of
the next cycle carries that id and the answer.
-/

set_option autoImplicit false

namespace Cva6.AxiAdapter

open CommonCells

variable {cfg : AdapterCfg} {L : Ledger cfg} {s : State cfg} {i : Input cfg}

/-! ## What the decoder does in each event -/

section Decoder

theorem done_of_beat {r : RBeat cfg} (taken : dcacheBeat s i = some r) :
    dcacheDone s i = r.last ∧ bPop s i = false := by
  rw [dcacheDone, bPop, taken]
  simp

theorem atomicBeat_load {r : RBeat cfg} (taken : dcacheBeat s i = some r) (id : r.id = 1) :
    atomicBeat s i = false := by
  rw [atomicBeat, taken, Option.any_some, id]
  exact Bool.and_false _

theorem atomicBeat_atomic {r : RBeat cfg} (taken : dcacheBeat s i = some r) (id : r.id = 3)
    (rva : cfg.rva = true) : atomicBeat s i = true := by
  rw [atomicBeat, taken, Option.any_some, id, rva]
  rfl

theorem done_of_none (noBeat : dcacheBeat s i = none) : dcacheDone s i = false := by
  rw [dcacheDone, noBeat]
  rfl

theorem Tracks.bOut (tracks : Tracks L s) (env : Environment L s i) {q : DReq cfg} {exokay : Bool}
    {rest : List (DReq cfg × Bool)} (shown : L.bs ++ L.received s i = (q, exokay) :: rest) :
    bOut s i = (exokay, dcacheId q) :=
  tracks.bs.dataO_fall rfl (by rw [tracks.shown env, shown]; rfl)

theorem Tracks.atomicB_store (tracks : Tracks L s) (env : Environment L s i) {q : DReq cfg}
    {exokay : Bool} {rest : List (DReq cfg × Bool)}
    (shown : L.bs ++ L.received s i = (q, exokay) :: rest) (store : isStore q = true) :
    atomicB s i = false := by
  rw [atomicB, tracks.bOut env shown, dcacheId_store store]
  dsimp only
  exact Bool.and_false _

theorem Tracks.atomicB_atomic (tracks : Tracks L s) (env : Environment L s i) {q : DReq cfg}
    {exokay : Bool} {rest : List (DReq cfg × Bool)}
    (shown : L.bs ++ L.received s i = (q, exokay) :: rest) (pops : bPop s i = true)
    (atomic : isAtomic q = true) : atomicB s i = true := by
  have inside : (q, exokay) ∈ L.bs ++ L.received s i := by
    rw [shown]
    exact List.mem_cons_self
  have known := (tracks.response_known inside).1
  rw [atomicB, tracks.bOut env shown, dcacheId_atomic atomic, pops,
    Tracks.rva_of_known atomic known]
  dsimp only
  rfl

theorem Tracks.wrIds_empty (tracks : Tracks L s) :
    s.dcacheWrIds.empty (idCfg cfg) false = L.writes.isEmpty := by
  have empty := tracks.wrIds.empty_iff rfl false
  rw [List.map_eq_nil_iff, ← List.isEmpty_iff] at empty
  exact Bool.eq_iff_iff.mpr empty

theorem mem_of_head? {α : Type} {xs : List α} {x : α} (front : xs.head? = some x) :
    ∃ rest, xs = x :: rest := by
  cases xs with
  | nil => cases front
  | cons y rest => exact ⟨rest, by rw [Option.some.inj front]⟩

/-- The answer that is due and the ids that are popped. -/
structure Decodes (L : Ledger cfg) (s : State cfg) (i : Input cfg)
    (due : Option (DReq cfg × Answer cfg)) (rdPop wrPop : Bool) : Prop where
  due : L.dDue s i = due
  rdPop : dcacheRdPop s i = rdPop
  wrPop : dcacheWrPop s i = wrPop

theorem decodes_quiet (noBeat : dcacheBeat s i = none) (noB : bPop s i = false) :
    Decodes L s i none false false := by
  have done := done_of_none noBeat
  refine ⟨?_, ?_, ?_⟩
  · rw [Ledger.dDue, noBeat, noB]
    rfl
  · rw [dcacheRdPop, done]
    rfl
  · rw [dcacheWrPop, done, noB]
    rfl

theorem decodes_beat {r : RBeat cfg} (taken : dcacheBeat s i = some r) (more : r.last = false) :
    Decodes L s i none false false := by
  obtain ⟨done, noB⟩ := done_of_beat taken
  rw [more] at done
  refine ⟨?_, ?_, ?_⟩
  · rw [Ledger.dDue, taken]
    simp only [more, Bool.false_eq_true, if_false]
  · rw [dcacheRdPop, done]
    rfl
  · rw [dcacheWrPop, done, noB]
    rfl

theorem decodes_load {r : RBeat cfg} {q : DReq cfg} (taken : dcacheBeat s i = some r)
    (id : r.id = 1) (last : r.last = true) (found : L.reads.find? isLoad = some q) :
    Decodes L s i (some (q, .words (L.beats ++ [r.data]))) true false := by
  obtain ⟨done, noB⟩ := done_of_beat taken
  rw [last] at done
  refine ⟨?_, ?_, ?_⟩
  · rw [Ledger.dDue, taken]
    simp only [last, if_true, id, Nat.reduceEqDiff, if_false]
    rw [found]
    rfl
  · rw [dcacheRdPop, done, atomicBeat_load taken id]
    rfl
  · rw [dcacheWrPop, done, noB, atomicBeat_load taken id]
    rfl

theorem dDue_atomic {r : RBeat cfg} {q : DReq cfg} (taken : dcacheBeat s i = some r)
    (id : r.id = 3) (last : r.last = true) (found : L.atomicRead = some q) :
    L.dDue s i = some (q, .words [r.data]) := by
  rw [Ledger.dDue, taken]
  simp only [last, if_true, id]
  rw [found]
  rfl

theorem Tracks.decodes_loadReserved (tracks : Tracks L s) {r : RBeat cfg} {q : DReq cfg}
    (taken : dcacheBeat s i = some r) (id : r.id = 3) (last : r.last = true)
    (kind : isLr q = true) (found : L.atomicRead = some q) (front : L.reads.head? = some q)
    (alone : L.writes = []) : Decodes L s i (some (q, .words [r.data])) true false := by
  obtain ⟨done, noB⟩ := done_of_beat taken
  rw [last] at done
  obtain ⟨rest, reads⟩ := mem_of_head? front
  have known := (tracks.reads q (by rw [reads]; exact List.mem_cons_self)).1
  have atomic := atomicBeat_atomic taken id
    (Tracks.rva_of_known ((kind_excl q).2.2.1 kind).1 known)
  refine ⟨dDue_atomic taken id last found, ?_, ?_⟩
  · rw [dcacheRdPop, done, atomic, tracks.wrIds_empty, alone]
    rfl
  · rw [dcacheWrPop, done, atomic, noB, tracks.wrIds_empty, alone]
    rfl

theorem Tracks.decodes_rmw (tracks : Tracks L s) {r : RBeat cfg} {q : DReq cfg}
    (taken : dcacheBeat s i = some r) (id : r.id = 3) (last : r.last = true)
    (kind : isRmw q = true) (found : L.atomicRead = some q) (front : L.writes.head? = some q) :
    Decodes L s i (some (q, .words [r.data])) false true := by
  obtain ⟨done, _⟩ := done_of_beat taken
  rw [last] at done
  obtain ⟨rest, writes⟩ := mem_of_head? front
  have known := (tracks.writes q (by rw [writes]; exact List.mem_cons_self)).1
  have atomic := atomicBeat_atomic taken id
    (Tracks.rva_of_known ((kind_excl q).2.2.2.2 kind).1 known)
  refine ⟨dDue_atomic taken id last found, ?_, ?_⟩
  · rw [dcacheRdPop, done, atomic, tracks.wrIds_empty, writes]
    rfl
  · rw [dcacheWrPop, done, atomic, tracks.wrIds_empty, writes]
    rfl

theorem Tracks.decodes_store (tracks : Tracks L s) (env : Environment L s i) {q : DReq cfg}
    {exokay : Bool} {rest : List (DReq cfg × Bool)} (noBeat : dcacheBeat s i = none)
    (pops : bPop s i = true) (shown : L.bs ++ L.received s i = (q, exokay) :: rest)
    (kind : isStore q = true) : Decodes L s i (some (q, .stored)) false true := by
  have done := done_of_none noBeat
  refine ⟨?_, ?_, ?_⟩
  · rw [Ledger.dDue, noBeat]
    simp only [pops, if_true, shown, kind]
  · rw [dcacheRdPop, done]
    rfl
  · rw [dcacheWrPop, done, pops, tracks.atomicB_store env shown kind]
    rfl

theorem Tracks.decodes_storeConditional (tracks : Tracks L s)
    {q : DReq cfg} {exokay : Bool} {rest : List (DReq cfg × Bool)}
    (noBeat : dcacheBeat s i = none) (pops : bPop s i = true)
    (shown : L.bs ++ L.received s i = (q, exokay) :: rest) (kind : isSc q = true)
    (front : L.writes.head? = some q) :
    Decodes L s i (some (q, .conditional exokay)) false true := by
  have done := done_of_none noBeat
  obtain ⟨more, writes⟩ := mem_of_head? front
  have flag := (tracks.flag q (by rw [writes]; exact List.mem_cons_self) kind).1
  refine ⟨?_, ?_, ?_⟩
  · rw [Ledger.dDue, noBeat]
    simp only [pops, if_true, shown, ((kind_excl q).2.2.2.1 kind).2.2.1, Bool.false_eq_true,
      if_false, kind]
  · rw [dcacheRdPop, done]
    rfl
  · rw [dcacheWrPop, done, pops, flag]
    simp

theorem Tracks.decodes_dropped (tracks : Tracks L s) (env : Environment L s i) {q : DReq cfg}
    {exokay : Bool} {rest : List (DReq cfg × Bool)} (noBeat : dcacheBeat s i = none)
    (pops : bPop s i = true) (shown : L.bs ++ L.received s i = (q, exokay) :: rest)
    (kind : isRmw q = true) (flag : s.amoGenR = true) : Decodes L s i none false false := by
  have done := done_of_none noBeat
  obtain ⟨atomic, _, store, _, sc⟩ := (kind_excl q).2.2.2.2 kind
  refine ⟨?_, ?_, ?_⟩
  · rw [Ledger.dDue, noBeat]
    simp only [pops, if_true, shown, store, sc, Bool.false_eq_true, if_false]
  · rw [dcacheRdPop, done]
    rfl
  · rw [dcacheWrPop, done, pops, tracks.atomicB_atomic env shown pops atomic, flag]
    rfl

/-! ## The ids that are popped -/

theorem Tracks.not_mem_reads (tracks : Tracks L s) {q : DReq cfg} (known : Known q)
    (asks : asksWrite q = true) : q ∉ L.reads := by
  intro inside
  have read := (tracks.reads q inside).2
  rw [asks_of_known known, asks] at read
  cases read

theorem Tracks.not_mem_writes (tracks : Tracks L s) {q : DReq cfg} (known : Known q)
    (asks : asksRead q = true) : q ∉ L.writes := by
  intro inside
  have write := (tracks.writes q inside).2
  rw [asks_of_known known, write] at asks
  cases asks

/-- The ids that are popped are those of the request that is answered. -/
structure Pops (L : Ledger cfg) (s : State cfg) (i : Input cfg) : Prop where
  reads : L.unanswered s i L.reads = if dcacheRdPop s i then L.reads.tail else L.reads
  writes : L.unanswered s i L.writes = if dcacheWrPop s i then L.writes.tail else L.writes
  someRead : dcacheRdPop s i = true → L.reads ≠ []
  someWrite : dcacheWrPop s i = true → L.writes ≠ []

theorem Decodes.pops_none (decodes : Decodes L s i none false false) : Pops L s i := by
  constructor <;> simp [Ledger.unanswered, decodes.due, decodes.rdPop, decodes.wrPop]

theorem Decodes.pops_read {q : DReq cfg} {answer : Answer cfg}
    (decodes : Decodes L s i (some (q, answer)) true false) (tracks : Tracks L s)
    (front : L.reads.head? = some q) : Pops L s i := by
  obtain ⟨rest, reads⟩ := mem_of_head? front
  obtain ⟨known, asks⟩ := tracks.reads q (by rw [reads]; exact List.mem_cons_self)
  have other := List.erase_of_not_mem (tracks.not_mem_writes known asks)
  constructor <;>
    simp [Ledger.unanswered, decodes.due, decodes.rdPop, decodes.wrPop, reads, other]

theorem Decodes.pops_write {q : DReq cfg} {answer : Answer cfg}
    (decodes : Decodes L s i (some (q, answer)) false true) (tracks : Tracks L s)
    (front : L.writes.head? = some q) : Pops L s i := by
  obtain ⟨rest, writes⟩ := mem_of_head? front
  obtain ⟨known, asks⟩ := tracks.writes q (by rw [writes]; exact List.mem_cons_self)
  have other := List.erase_of_not_mem (tracks.not_mem_reads known asks)
  constructor <;>
    simp [Ledger.unanswered, decodes.due, decodes.rdPop, decodes.wrPop, writes, other]

theorem Tracks.pops (tracks : Tracks L s) (env : Environment L s i) (event : Event L s i) :
    Pops L s i := by
  cases event with
  | quiet noBeat noB => exact (decodes_quiet noBeat noB).pops_none
  | beat r taken id more => exact (decodes_beat taken more).pops_none
  | load r q taken id last kind found front whole =>
      exact (decodes_load taken id last found).pops_read tracks front
  | loadReserved r q taken id last kind found front alone whole =>
      exact (tracks.decodes_loadReserved taken id last kind found front alone).pops_read tracks
        front
  | rmw r q taken id last kind found front whole =>
      exact (tracks.decodes_rmw taken id last kind found front).pops_write tracks front
  | store q exokay rest noBeat pops shown kind front =>
      exact (tracks.decodes_store env noBeat pops shown kind).pops_write tracks front
  | storeConditional q exokay rest noBeat pops shown kind front =>
      exact (tracks.decodes_storeConditional noBeat pops shown kind front).pops_write tracks front
  | dropped q exokay rest noBeat pops shown kind flag =>
      exact (tracks.decodes_dropped env noBeat pops shown kind flag).pops_none

end Decoder

/-! ## The queues after a cycle -/

section Queues

/-- The request of the data cache that is granted. -/
inductive Sent (L : Ledger cfg) (s : State cfg) (i : Input cfg) : Prop
  | idle (ack : arbAck s i 1 = false) (read : L.sentRead s i = []) (write : L.sentWrite s i = [])
  | read (rest : List (DReq cfg)) (ack : arbAck s i 1 = true)
      (queue : L.dQueue = dcacheHead s :: rest) (rd : rdGnt s i = true) (wr : wrGnt s i = false)
      (read : L.sentRead s i = [dcacheHead s]) (write : L.sentWrite s i = [])
      (asks : asksRead (dcacheHead s) = true) (room : L.reads.length < cfg.metaFifoDepth)
  | write (rest : List (DReq cfg)) (ack : arbAck s i 1 = true)
      (queue : L.dQueue = dcacheHead s :: rest) (rd : rdGnt s i = false) (wr : wrGnt s i = true)
      (read : L.sentRead s i = []) (write : L.sentWrite s i = [dcacheHead s])
      (asks : asksWrite (dcacheHead s) = true) (room : L.writes.length < cfg.metaFifoDepth)

theorem Tracks.sent (tracks : Tracks L s) (i : Input cfg) : Sent L s i := by
  cases ack : arbAck s i 1 with
  | false =>
      refine .idle ack ?_ ?_
      · rw [Ledger.sentRead, ack]
        rfl
      · rw [Ledger.sentWrite, ack]
        rfl
  | true =>
      obtain ⟨_, _, roomR, roomW, ⟨rest, queue⟩, rd, wr⟩ := tracks.granted_dcache ack
      have channel := asks_of_known
        (tracks.known (dcacheHead s) (by rw [queue]; exact List.mem_cons_self))
      cases asks : asksWrite (dcacheHead s) with
      | false =>
          rw [asks] at channel wr
          rw [channel] at rd
          refine .read rest ack queue rd wr ?_ ?_ channel roomR
          · rw [Ledger.sentRead, ack, rd, queue]
            rfl
          · rw [Ledger.sentWrite, ack, wr]
            rfl
      | true =>
          rw [asks] at channel wr
          rw [channel] at rd
          refine .write rest ack queue rd wr ?_ ?_ asks roomW
          · rw [Ledger.sentRead, ack, rd]
            rfl
          · rw [Ledger.sentWrite, ack, wr, queue]
            rfl

theorem icacheAccepted_eq (s : State cfg) (i : Input cfg) : Ledger.icacheAccepted s i =
    if (icacheDataIn s i).push then [(icacheDataIn s i).data] else [] := by
  unfold Ledger.icacheAccepted icacheDataIn icacheDataAck
  cases i.icacheReq <;> simp

theorem dcacheAccepted_eq (s : State cfg) (i : Input cfg) : Ledger.dcacheAccepted s i =
    if (dcacheDataIn s i).push then [(dcacheDataIn s i).data] else [] := by
  unfold Ledger.dcacheAccepted dcacheDataIn dcacheDataAck
  cases i.dcacheReq <;> simp

theorem Tracks.iQueue_next (tracks : Tracks L s) (orderly : Orderly L s i) :
    (next s i).icacheData.Holds (reqCfg cfg) (L.step s i).iQueue := by
  have respects : (icacheDataIn s i).Respects cfg.reqFifoDepth L.iQueue := by
    constructor
    · intro push
      have room := (Bool.and_eq_true_iff.mp push).2
      rw [Bool.not_eq_true'] at room
      exact tracks.iQueue.room room
    · intro pop
      obtain ⟨_, _, rest, queue⟩ := tracks.granted_icache pop
      rw [queue]
      exact List.cons_ne_nil _ _
  have list : (L.step s i).iQueue = (icacheDataIn s i).after L.iQueue := by
    simp only [Ledger.step, icacheAccepted_eq]
    rfl
  rw [list]
  exact tracks.iQueue.cycle respects orderly.icacheQueue rfl {}

theorem Tracks.dQueue_next (tracks : Tracks L s) (orderly : Orderly L s i) :
    (next s i).dcacheData.Holds (reqCfg cfg) (L.step s i).dQueue := by
  have respects : (dcacheDataIn s i).Respects cfg.reqFifoDepth L.dQueue := by
    constructor
    · intro push
      have room := (Bool.and_eq_true_iff.mp push).2
      rw [Bool.not_eq_true'] at room
      exact tracks.dQueue.room room
    · intro pop
      obtain ⟨_, _, _, _, ⟨rest, queue⟩, _⟩ := tracks.granted_dcache pop
      rw [queue]
      exact List.cons_ne_nil _ _
  have list : (L.step s i).dQueue = (dcacheDataIn s i).after L.dQueue := by
    simp only [Ledger.step, dcacheAccepted_eq]
    rfl
  rw [list]
  exact tracks.dQueue.cycle respects orderly.dcacheQueue rfl {}

theorem icacheBeat_spec {r : RBeat cfg} (env : Environment L s i)
    (taken : icacheBeat s i = some r) :
    ∃ q rest, L.iReads = q :: rest ∧ r.last = decide (L.iBeats.length = icacheLen cfg q) := by
  obtain ⟨present, test⟩ := Option.filter_eq_some_iff.mp taken
  obtain ⟨zero, _⟩ := Bool.and_eq_true_iff.mp test
  obtain ⟨q, front, last⟩ := (env.beat r present).icache (beq_iff_eq.mp zero)
  obtain ⟨rest, reads⟩ := mem_of_head? front
  exact ⟨q, rest, reads, last⟩

theorem icacheDone_iff : icacheDone s i = true ↔ ∃ r, icacheBeat s i = some r ∧ r.last = true := by
  rw [icacheDone, Option.any_eq_true]

/-- The ids of a channel. -/
theorem ids_next {ids : Fifo cfg.metaFifoDepth Nat} {α : Type} {f : α → Nat} {sent : List α}
    {open' : List α} (holds : ids.Holds (idCfg cfg) (sent.map f)) (io : FifoIn Nat)
    (flush : io.flush = false) (pops : io.pop = true → sent ≠ [])
    (pushes : io.push = false ∧ open' = [] ∨
      io.push = true ∧ open'.map f = [io.data] ∧ sent.length < cfg.metaFifoDepth) :
    (ids.cycle (idCfg cfg) io 0).Holds (idCfg cfg)
      (((if io.pop then sent.tail else sent) ++ open').map f) := by
  have respects : io.Respects cfg.metaFifoDepth (sent.map f) := by
    constructor
    · intro push
      rcases pushes with ⟨idle, _⟩ | ⟨_, _, room⟩
      · rw [idle] at push
        cases push
      · rwa [List.length_map]
    · intro pop none
      exact pops pop (List.map_eq_nil_iff.mp none)
  have stale : ¬ ids.Stale (idCfg cfg) io := by
    rintro ⟨altera, _⟩
    simp [idCfg, FifoCfg.altera] at altera
  have list : io.after (sent.map f) =
      ((if io.pop then sent.tail else sent) ++ open').map f := by
    rw [FifoIn.after, List.map_append, ← List.map_tail]
    refine congrArg₂ (· ++ ·) (apply_ite _ _ _ _).symm ?_
    rcases pushes with ⟨idle, none⟩ | ⟨push, one, _⟩
    · rw [idle, none]
      rfl
    · rw [push, one]
      rfl
  rw [← list]
  exact holds.cycle respects stale flush 0

theorem Tracks.iIds_next (tracks : Tracks L s) (env : Environment L s i) :
    (next s i).icacheIds.Holds (idCfg cfg) ((L.step s i).iReads.map IReq.tid) := by
  refine ids_next (f := IReq.tid) tracks.iIds _ rfl ?_ ?_
  · intro done
    obtain ⟨r, taken, _⟩ := icacheDone_iff.mp done
    obtain ⟨q, rest, reads, _⟩ := icacheBeat_spec env taken
    rw [reads]
    exact List.cons_ne_nil _ _
  · cases ack : arbAck s i 0 with
    | false => exact .inl ⟨rfl, rfl⟩
    | true =>
        obtain ⟨read, room, rest, queue⟩ := tracks.granted_icache ack
        rw [queue, read]
        exact .inr ⟨rfl, rfl, room⟩

theorem Tracks.rdIds_next (tracks : Tracks L s) (pops : Pops L s i) :
    (next s i).dcacheRdIds.Holds (idCfg cfg) ((L.step s i).reads.map DReq.tid) := by
  change Fifo.Holds _ _ ((L.unanswered s i L.reads ++ L.sentRead s i).map DReq.tid)
  rw [pops.reads]
  refine ids_next (f := DReq.tid) tracks.rdIds _ rfl pops.someRead ?_
  cases tracks.sent i with
  | idle ack read write => exact .inl ⟨by rw [ack, Bool.false_and], read⟩
  | read rest ack queue rd wr read write asks room =>
      exact .inr ⟨by rw [ack, rd, Bool.true_and], by rw [read]; rfl, room⟩
  | write rest ack queue rd wr read write asks room =>
      exact .inl ⟨by rw [rd, Bool.and_false], read⟩

theorem Tracks.wrIds_next (tracks : Tracks L s) (pops : Pops L s i) :
    (next s i).dcacheWrIds.Holds (idCfg cfg) ((L.step s i).writes.map DReq.tid) := by
  change Fifo.Holds _ _ ((L.unanswered s i L.writes ++ L.sentWrite s i).map DReq.tid)
  rw [pops.writes]
  refine ids_next (f := DReq.tid) tracks.wrIds _ rfl pops.someWrite ?_
  cases tracks.sent i with
  | idle ack read write => exact .inl ⟨by rw [ack, Bool.false_and], write⟩
  | read rest ack queue rd wr read write asks room =>
      exact .inl ⟨by rw [wr, Bool.and_false], write⟩
  | write rest ack queue rd wr read write asks room =>
      exact .inr ⟨by rw [ack, wr, Bool.true_and], by rw [write]; rfl, room⟩

theorem Tracks.bs_next (tracks : Tracks L s) (env : Environment L s i) :
    (next s i).bs.Holds (bCfg cfg) ((L.step s i).bs.map fun b => (b.2, dcacheId b.1)) := by
  have shown := tracks.shown env (bPop s i)
  have list : (L.step s i).bs.map (fun b => (b.2, dcacheId b.1)) =
      if bPop s i then ((bIn s i (bPop s i)).shown (L.bs.map fun b => (b.2, dcacheId b.1))).tail
      else (bIn s i (bPop s i)).shown (L.bs.map fun b => (b.2, dcacheId b.1)) := by
    rw [shown]
    simp only [Ledger.step]
    split
    · rw [List.map_tail]
    · rfl
  rw [list]
  refine tracks.bs.cycle_fall rfl ?_ ?_ ?_ rfl (false, 0)
  · simp [bCfg, FifoCfg.altera]
  · intro push
    have room := (Bool.and_eq_true_iff.mp push).2
    rw [Bool.not_eq_true'] at room
    exact tracks.bs.room room
  · intro pop none
    have isEmpty := (tracks.bs.empty_fall (i := bIn s i (bPop s i)) rfl).mpr none
    have pop' : bPop s i = true := pop
    rw [bPop, Bool.and_eq_true_iff, Bool.not_eq_true'] at pop'
    change bEmpty s i = true at isEmpty
    rw [pop'.2] at isEmpty
    cases isEmpty

end Queues

end Cva6.AxiAdapter
