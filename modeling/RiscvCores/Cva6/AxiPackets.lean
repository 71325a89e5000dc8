import RiscvCores.Cva6.AxiInvariant

/-!
# Packets and requests

In orderly runs the packets are the answers of the ledger: each accepted request is answered
by one packet with its id, its type and its own data, or it still waits.  A request that
waits is owed by the bus, offered to it, or answered by the next free cycle.
-/

set_option autoImplicit false

namespace Cva6.AxiAdapter

open CommonCells

variable {cfg : AdapterCfg} {L : Ledger cfg} {s : State cfg} {i : Input cfg}

/-! ## The packet of a cycle -/

/-- The packet of the next cycle carries what is due in this one. -/
def Shows {α β : Type} (matching : α → β → Prop) (packet : Option α) (due : Option β) : Prop :=
  List.Forall₂ matching packet.toList due.toList

theorem shows_none {α β : Type} (matching : α → β → Prop) : Shows matching none none :=
  List.Forall₂.nil

theorem shows_some {α β : Type} {matching : α → β → Prop} {packet : α} {due : β}
    (fits : matching packet due) : Shows matching (some packet) (some due) :=
  List.Forall₂.cons fits List.Forall₂.nil

theorem Tracks.iPacket (tracks : Tracks L s) (env : Environment L s i) :
    Shows IMatches (icacheOut (AxiAdapter.next s i)) (L.iDue s i) := by
  have done : icacheDone s i = (icacheBeat s i).any fun r => r.last := rfl
  unfold icacheOut Ledger.iDue
  simp only [AxiAdapter.next, done]
  cases taken : icacheBeat s i with
  | none => exact shows_none _
  | some r =>
      obtain ⟨q, rest, reads, last⟩ := icacheBeat_spec env taken
      rw [reads, Option.any_some]
      cases ends : r.last with
      | false =>
          simp only [ends, Bool.false_eq_true, if_false]
          exact shows_none _
      | true =>
          have ids := tracks.iIds
          rw [reads] at ids
          rw [ends] at last
          have length : L.iBeats.length = icacheLen cfg q := of_decide_eq_true last.symm
          have whole : L.iBeats = [] ∨ L.iBeats.length + 1 = cfg.icacheWords := by
            have some := cfg.someIcacheWords
            rw [icacheLen] at length
            split at length
            · exact .inl (List.eq_nil_of_length_eq_zero length)
            · exact .inr (by omega)
          simp only [ends, if_true]
          refine shows_some ⟨ids.stored, ?_, tracks.iBurst.done whole r.data⟩
          rw [List.length_append, List.length_singleton, length]

/-- The packets of the data cache other than invalidations. -/
def answerOut (s : State cfg) : Option (DRtrn cfg) := (dcacheOut s).filter isAnswer

theorem invalidate_of_beat {r : RBeat cfg} (env : Environment L s i)
    (taken : dcacheBeat s i = some r) : (cfg.rva && invalidate s i) = false := by
  unfold dcacheBeat at taken
  rw [env.inval, Option.isSome_none, Bool.false_or] at taken
  by_contra sent
  rw [if_pos (Bool.not_eq_false _ |>.mp sent)] at taken
  cases taken

theorem invalidate_of_pop (env : Environment L s i) (pops : bPop s i = true) :
    (cfg.rva && invalidate s i) = false := by
  rw [bPop, env.inval, Option.isSome_none, Bool.false_or] at pops
  by_contra sent
  rw [Bool.not_eq_false _ |>.mp sent] at pops
  simp at pops

/-- Nothing is returned in a cycle that completes nothing. -/
theorem answerOut_none (env : Environment L s i) (noDone : dcacheDone s i = false)
    (noPop : (bPop s i && (!atomicB s i || !s.amoGenR)) = false) :
    answerOut (AxiAdapter.next s i) = none := by
  unfold answerOut dcacheOut
  simp only [AxiAdapter.next, dcacheRtrnVldD, dcacheRtrnTypeD, env.inval, noDone, noPop,
    Option.isSome_none, Bool.false_or, Bool.or_false]
  cases sent : cfg.rva && invalidate s i with
  | false => rfl
  | true => rfl

/-- What is returned in a cycle that completes a request. -/
theorem answerOut_some (env : Environment L s i) (quiet : (cfg.rva && invalidate s i) = false)
    (done : (dcacheDone s i || bPop s i && (!atomicB s i || !s.amoGenR)) = true) :
    answerOut (AxiAdapter.next s i) = some {
      rtype :=
        if (dcacheBeat s i).isSome then if atomicBeat s i then .atomicAck else .loadAck
        else if bPop s i then if atomicB s i then .atomicAck else .storeAck else .loadAck
      inv := {}
      tid := dcacheRtrnTidD s i
      data := (AxiAdapter.next s i).dcacheShift
      user := (AxiAdapter.next s i).dcacheShiftUser } := by
  have valid : dcacheRtrnVldD s i = true := by
    rw [dcacheRtrnVldD, env.inval, quiet]
    simpa using done
  unfold answerOut dcacheOut
  simp only [AxiAdapter.next, valid, dcacheRtrnTypeD, dcacheRtrnInvD, env.inval, quiet,
    Option.isSome_none, Bool.false_or, if_true, Bool.false_eq_true, if_false]
  refine Option.filter_some_pos ?_
  unfold isAnswer
  dsimp only
  repeat' split
  all_goals rfl

theorem Tracks.tid_read (tracks : Tracks L s) {q : DReq cfg} (front : L.reads.head? = some q)
    (kept : dcacheWrPop s i = false) : dcacheRtrnTidD s i = q.tid := by
  obtain ⟨rest, reads⟩ := mem_of_head? front
  have ids := tracks.rdIds
  rw [reads] at ids
  rw [dcacheRtrnTidD, kept, if_neg Bool.false_ne_true]
  exact ids.stored

theorem Tracks.tid_write (tracks : Tracks L s) {q : DReq cfg} (front : L.writes.head? = some q)
    (popped : dcacheWrPop s i = true) : dcacheRtrnTidD s i = q.tid := by
  obtain ⟨rest, writes⟩ := mem_of_head? front
  have ids := tracks.wrIds
  rw [writes] at ids
  rw [dcacheRtrnTidD, popped, if_pos rfl]
  exact ids.stored

/-- The last beat completes the words of its burst. -/
theorem Tracks.dCarries (tracks : Tracks L s) {r : RBeat cfg}
    (taken : dcacheBeat s i = some r)
    (whole : L.beats = [] ∨ L.beats.length + 1 = cfg.dcacheWords) :
    Carries (AxiAdapter.next s i).dcacheShift (L.beats ++ [r.data]) := by
  simp only [AxiAdapter.next, taken]
  exact tracks.dBurst.done whole r.data

theorem whole_of_length {q : DReq cfg} (length : L.beats.length = dcacheLen q) :
    L.beats = [] ∨ L.beats.length + 1 = cfg.dcacheWords := by
  have some := cfg.someDcacheWords
  rw [dcacheLen] at length
  split at length
  · exact .inr (by omega)
  · exact .inl (List.eq_nil_of_length_eq_zero length)

theorem dcacheLen_atomic {q : DReq cfg} (atomic : isAtomic q = true) (known : Known q) :
    dcacheLen q = 0 := by
  rcases known with load | store | ⟨_, _, _, single⟩
  · rw [((kind_excl q).1 load).2.1] at atomic
    cases atomic
  · rw [((kind_excl q).2.1 store).2.1] at atomic
    cases atomic
  · rw [dcacheLen, single]
    rfl

/-- An atomic that returns a read beat. -/
theorem Tracks.packet_atomic (tracks : Tracks L s) (env : Environment L s i) {r : RBeat cfg}
    {q : DReq cfg} (taken : dcacheBeat s i = some r) (id : r.id = 3) (last : r.last = true)
    (whole : L.beats = []) (atomic : isAtomic q = true) (known : Known q)
    (found : L.atomicRead = some q) (tid : dcacheRtrnTidD s i = q.tid) :
    Shows DMatches (answerOut (AxiAdapter.next s i)) (L.dDue s i) := by
  have beat := atomicBeat_atomic taken id (rva_of_known atomic known)
  have notLoad : isLoad q = false := by
    by_contra load
    rw [((kind_excl q).1 (Bool.not_eq_false _ |>.mp load)).2.1] at atomic
    cases atomic
  have carries := tracks.dCarries taken (.inl whole)
  rw [whole, List.nil_append] at carries
  rw [dDue_atomic taken id last found, answerOut_some env (invalidate_of_beat env taken)
    (by rw [(done_of_beat taken).1, last]; rfl)]
  refine shows_some ⟨tid, ?_, ?_, carries⟩
  · rw [taken, beat, notLoad]
    rfl
  · rw [dcacheLen_atomic atomic known]
    rfl

theorem Tracks.dPacket (tracks : Tracks L s) (env : Environment L s i)
    (orderly : Orderly L s i) :
    Shows DMatches (answerOut (AxiAdapter.next s i)) (L.dDue s i) := by
  cases tracks.event env orderly with
  | quiet noBeat noB =>
      rw [(decodes_quiet noBeat noB).due,
        answerOut_none env (done_of_none noBeat) (by rw [noB]; rfl)]
      exact shows_none _
  | beat r taken id more =>
      obtain ⟨done, noB⟩ := done_of_beat taken
      rw [more] at done
      rw [(decodes_beat taken more).due, answerOut_none env done (by rw [noB]; rfl)]
      exact shows_none _
  | load r q taken id last kind found front whole =>
      have decodes := decodes_load taken id last found
      rw [decodes.due, answerOut_some env (invalidate_of_beat env taken)
        (by rw [(done_of_beat taken).1, last]; rfl)]
      refine shows_some ⟨tracks.tid_read front decodes.wrPop, ?_, ?_,
        tracks.dCarries taken (whole_of_length whole)⟩
      · rw [taken, atomicBeat_load taken id, kind]
        rfl
      · rw [List.length_append, List.length_singleton, whole]
  | loadReserved r q taken id last kind found front alone whole =>
      have decodes := tracks.decodes_loadReserved taken id last kind found front alone
      obtain ⟨rest, reads⟩ := mem_of_head? front
      exact tracks.packet_atomic env taken id last whole ((kind_excl q).2.2.1 kind).1
        (tracks.reads q (by rw [reads]; exact List.mem_cons_self)).1 found
        (tracks.tid_read front decodes.wrPop)
  | rmw r q taken id last kind found front whole =>
      have decodes := tracks.decodes_rmw taken id last kind found front
      obtain ⟨rest, writes⟩ := mem_of_head? front
      exact tracks.packet_atomic env taken id last whole ((kind_excl q).2.2.2.2 kind).1
        (tracks.writes q (by rw [writes]; exact List.mem_cons_self)).1 found
        (tracks.tid_write front decodes.wrPop)
  | store q exokay rest noBeat pops shown kind front =>
      have decodes := tracks.decodes_store env noBeat pops shown kind
      have plain := tracks.atomicB_store env shown kind
      rw [decodes.due, answerOut_some env (invalidate_of_pop env pops)
        (by rw [pops, plain]; simp)]
      refine shows_some ⟨tracks.tid_write front decodes.wrPop, kind, ?_⟩
      rw [noBeat, pops, plain]
      rfl
  | storeConditional q exokay rest noBeat pops shown kind front =>
      have decodes := tracks.decodes_storeConditional noBeat pops shown kind front
      have atomic := tracks.atomicB_atomic env shown pops ((kind_excl q).2.2.2.1 kind).1
      obtain ⟨more, writes⟩ := mem_of_head? front
      have inside : q ∈ L.writes := by
        rw [writes]
        exact List.mem_cons_self
      obtain ⟨flag, off⟩ := tracks.flag q inside kind
      have rva := rva_of_known ((kind_excl q).2.2.2.1 kind).1 (tracks.writes q inside).1
      rw [decodes.due, answerOut_some env (invalidate_of_pop env pops)
        (by rw [pops, flag]; simp)]
      refine shows_some ⟨tracks.tid_write front decodes.wrPop, kind, ?_, ?_⟩
      · rw [noBeat, pops, atomic]
        rfl
      · simp only [AxiAdapter.next, noBeat, scRtrn, atomic, flag, rva, tracks.bOut env shown, off]
        rfl
  | dropped q exokay rest noBeat pops shown kind flag =>
      rw [(tracks.decodes_dropped env noBeat pops shown kind flag).due,
        answerOut_none env (done_of_none noBeat)
          (by rw [tracks.atomicB_atomic env shown pops ((kind_excl q).2.2.2.2 kind).1, flag]
              simp)]
      exact shows_none _

/-! ## No request is lost or answered twice -/

theorem Tracks.due_open (tracks : Tracks L s) (env : Environment L s i)
    (orderly : Orderly L s i) {q : DReq cfg} {answer : Answer cfg}
    (due : L.dDue s i = some (q, answer)) : q ∈ L.reads ∨ q ∈ L.writes := by
  have fromReads {q' : DReq cfg} {answer' : Answer cfg} (due' : L.dDue s i = some (q', answer'))
      (front : L.reads.head? = some q') : q ∈ L.reads ∨ q ∈ L.writes := by
    rw [due] at due'
    obtain rfl : q = q' := congrArg Prod.fst (Option.some.inj due')
    exact .inl (List.mem_of_head? front)
  have fromWrites {q' : DReq cfg} {answer' : Answer cfg} (due' : L.dDue s i = some (q', answer'))
      (front : L.writes.head? = some q') : q ∈ L.reads ∨ q ∈ L.writes := by
    rw [due] at due'
    obtain rfl : q = q' := congrArg Prod.fst (Option.some.inj due')
    exact .inr (List.mem_of_head? front)
  have never (due' : L.dDue s i = none) : q ∈ L.reads ∨ q ∈ L.writes := by
    rw [due] at due'
    cases due'
  cases tracks.event env orderly with
  | quiet noBeat noB => exact never (decodes_quiet noBeat noB).due
  | beat r taken id more => exact never (decodes_beat taken more).due
  | load r q' taken id last kind found front whole =>
      exact fromReads (decodes_load taken id last found).due front
  | loadReserved r q' taken id last kind found front alone whole =>
      exact fromReads (dDue_atomic taken id last found) front
  | rmw r q' taken id last kind found front whole =>
      exact fromWrites (dDue_atomic taken id last found) front
  | store q' exokay rest noBeat popsB shown kind front =>
      exact fromWrites (tracks.decodes_store env noBeat popsB shown kind).due front
  | storeConditional q' exokay rest noBeat popsB shown kind front =>
      exact fromWrites (tracks.decodes_storeConditional noBeat popsB shown kind front).due front
  | dropped q' exokay rest noBeat popsB shown kind flag =>
      exact never (tracks.decodes_dropped env noBeat popsB shown kind flag).due

/-- What is answered leaves the open requests, and nothing else does. -/
theorem Tracks.open_perm (tracks : Tracks L s) (env : Environment L s i)
    (orderly : Orderly L s i) :
    ((L.dDue s i).toList.map Prod.fst ++ L.unanswered s i L.reads ++
      L.unanswered s i L.writes).Perm (L.reads ++ L.writes) := by
  unfold Ledger.unanswered
  cases due : L.dDue s i with
  | none => exact List.Perm.refl _
  | some answered =>
      obtain ⟨q, answer⟩ := answered
      rcases tracks.due_open env orderly due with read | write
      · obtain ⟨known, asks⟩ := tracks.reads q read
        dsimp only
        rw [List.erase_of_not_mem (tracks.not_mem_writes known asks)]
        exact (List.perm_cons_erase read).symm.append_right L.writes
      · obtain ⟨known, asks⟩ := tracks.writes q write
        dsimp only
        rw [List.erase_of_not_mem (tracks.not_mem_reads known asks)]
        exact List.perm_middle.symm.trans
          ((List.perm_cons_erase write).symm.append_left L.reads)

/-- The request that is granted goes from the queue to one of the channels. -/
theorem Tracks.sent_queue (tracks : Tracks L s) (i : Input cfg) :
    L.sentRead s i ++ L.sentWrite s i ++
      (if arbAck s i 1 then L.dQueue.tail else L.dQueue) = L.dQueue := by
  cases tracks.sent i with
  | idle ack read write => rw [ack, read, write]; rfl
  | read rest ack queue rd wr read write asks room => rw [ack, read, write, queue]; rfl
  | write rest ack queue rd wr read write asks room => rw [ack, read, write, queue]; rfl

/-- The requests that a ledger accounts for. -/
def Ledger.iAll (L : Ledger cfg) : List IReq := L.iAnswered.map Prod.fst ++ L.iReads ++ L.iQueue

def Ledger.dAll (L : Ledger cfg) : List (DReq cfg) :=
  L.dAnswered.map Prod.fst ++ L.reads ++ L.writes ++ L.dQueue

theorem Tracks.dAll_next (tracks : Tracks L s) (env : Environment L s i)
    (orderly : Orderly L s i) (once : L.dAccepted.Perm L.dAll) :
    (L.step s i).dAccepted.Perm (L.step s i).dAll := by
  have closed := tracks.open_perm env orderly
  have sent := tracks.sent_queue i
  rw [List.perm_iff_count] at once closed ⊢
  intro q
  have once := once q
  have closed := closed q
  have sent := congrArg (List.count q) sent
  simp only [Ledger.step, Ledger.dAll, List.map_append, List.count_append] at once closed sent ⊢
  omega

theorem iAll_next (env : Environment L s i)
    (once : L.iAccepted = L.iAll) : (L.step s i).iAccepted = (L.step s i).iAll := by
  have answered : (L.iDue s i).toList.map Prod.fst ++
      (if icacheDone s i then L.iReads.tail else L.iReads) = L.iReads := by
    have done : icacheDone s i = (icacheBeat s i).any fun r => r.last := rfl
    rw [done, Ledger.iDue]
    cases taken : icacheBeat s i with
    | none => rfl
    | some r =>
        obtain ⟨q, rest, reads, last⟩ := icacheBeat_spec env taken
        rw [reads, Option.any_some]
        cases ends : r.last <;> simp [ends]
  have sent : (if arbAck s i 0 then L.iQueue.take 1 else []) ++
      (if arbAck s i 0 then L.iQueue.tail else L.iQueue) = L.iQueue := by
    split
    · rw [← List.drop_one, List.take_append_drop]
    · rfl
  calc L.iAccepted ++ Ledger.icacheAccepted s i
      = L.iAnswered.map Prod.fst ++ L.iReads ++ L.iQueue ++ Ledger.icacheAccepted s i := by
        rw [once, Ledger.iAll]
    _ = (L.step s i).iAll := by
        conv_lhs => rw [← answered, ← sent]
        simp only [Ledger.iAll, Ledger.step, List.map_append, List.append_assoc]

/-! ## What waits moves on -/

/-- A write that is not answered has its response waiting or owed by the bus. -/
theorem Tracks.open_write (tracks : Tracks L s) (some : L.writes ≠ []) :
    L.bs ≠ [] ∨ L.stores ≠ [] ∨ L.atomics ≠ [] ∨ L.atomicRead.isSome = true := by
  obtain ⟨q, rest, writes⟩ := List.exists_cons_of_ne_nil some
  have inside : q ∈ L.writes := by
    rw [writes]
    exact List.mem_cons_self
  by_contra none
  simp only [not_or, not_not] at none
  obtain ⟨bs, stores, atomics, noRead⟩ := none
  rcases asksWrite_cases (tracks.writes q inside).2 with store | ⟨sc | rmw, _⟩
  · have order := List.mem_filter.mpr ⟨inside, store⟩
    rw [tracks.storeOrder, bs, stores] at order
    cases order
  · have order := List.mem_filter.mpr ⟨inside, sc⟩
    rw [tracks.scOrder, bs, atomics] at order
    cases order
  · have found : (L.writes.find? isRmw).isSome = true := List.find?_isSome.mpr ⟨q, inside, rmw⟩
    rw [Ledger.atomicRead, Option.isSome_or, found, Bool.or_true] at noRead
    exact noRead rfl

/-- A response that waits is taken in a cycle without a read beat or an atomic that is sent. -/
theorem Tracks.response_taken (tracks : Tracks L s) (some : L.bs ≠ []) (inval : i.inval = none)
    (noBeat : dcacheBeat s i = none) (quiet : (cfg.rva && invalidate s i) = false) :
    bPop s i = true := by
  have nonempty : bEmpty s i = false := by
    by_contra isEmpty
    have none := (tracks.bs.empty_fall (i := bIn s i false) rfl).mp
      (Bool.not_eq_false _ |>.mp isEmpty)
    rw [FifoIn.shown, List.append_eq_nil_iff, List.map_eq_nil_iff] at none
    exact some none.1
  rw [bPop, inval, quiet, noBeat, nonempty]
  rfl

/-- A request that can be sent is offered to the bus. -/
theorem Tracks.offered (tracks : Tracks L s) (asks : ∃ k, arbReq s k = true) (i : Input cfg) :
    rdReq s = true ∨ (writeFsm s i).awValid = true ∨ (writeFsm s i).wValid = true := by
  have some := anyReq_iff.mpr asks
  have selected := tracks.selected some
  rcases idx_cases s with idx | idx
  · exact .inl (by rw [rdReq, some, idx]; rfl)
  · rw [idx] at selected
    obtain ⟨rest, queue⟩ := tracks.head (tracks.arbReq_dcache selected).1
    have channel := asks_of_known
      (tracks.known (dcacheHead s) (by rw [queue]; exact List.mem_cons_self))
    cases write : asksWrite (dcacheHead s) with
    | false =>
        rw [write] at channel
        exact .inl (by rw [rdReq, some, idx, channel]; rfl)
    | true =>
        have wrReq : wrReq s = true := by
          rw [wrReq, some, idx, write]
          rfl
        have single : wrSingleReq = true := rfl
        refine .inr ?_
        unfold writeFsm
        rcases tracks.waits with idle | ⟨wait | wait, _⟩
        · rw [idle, wrReq, single]
          simp
        · rw [wait]
          exact .inl rfl
        · rw [wait]
          dsimp only
          split
          · exact .inr rfl
          · split <;> exact .inr rfl

/-! ## Runs -/

/-- The packets of a run are the answers to its requests, and no request is stuck. -/
structure Accounted (cycles : List (Cycle cfg)) (s : State cfg) (L : Ledger cfg) : Prop where
  icache : List.Forall₂ IMatches (iPackets cycles s) L.iAnswered
  dcache : List.Forall₂ DMatches (dPackets cycles s) L.dAnswered
  iOnce : L.iAccepted = L.iAll
  dOnce : L.dAccepted.Perm L.dAll
  write : L.writes ≠ [] →
    L.bs ≠ [] ∨ L.stores ≠ [] ∨ L.atomics ≠ [] ∨ L.atomicRead.isSome = true
  response : L.bs ≠ [] → ∀ i, i.inval = none → dcacheBeat s i = none →
    (cfg.rva && invalidate s i) = false → bPop s i = true
  iOffered : L.iQueue ≠ [] → L.iReads.length < cfg.metaFifoDepth → ∀ i,
    rdReq s = true ∨ (writeFsm s i).awValid = true ∨ (writeFsm s i).wValid = true
  dOffered : L.dQueue ≠ [] → L.writes.length < cfg.metaFifoDepth →
    L.reads.length < cfg.metaFifoDepth → ∀ i,
    rdReq s = true ∨ (writeFsm s i).awValid = true ∨ (writeFsm s i).wValid = true

theorem iPackets_concat (cycles : List (Cycle cfg)) (s : State cfg) (i : Input cfg)
    (s' : State cfg) :
    iPackets (cycles ++ [(s, i)]) s' = iPackets cycles s ++ (icacheOut s').toList := by
  have one : [s'].filterMap icacheOut = (icacheOut s').toList := by
    cases out : icacheOut s' <;> simp [out]
  rw [iPackets, List.map_append, List.filterMap_append, one]
  rfl

theorem dPackets_concat (cycles : List (Cycle cfg)) (s : State cfg) (i : Input cfg)
    (s' : State cfg) :
    dPackets (cycles ++ [(s, i)]) s' = dPackets cycles s ++ (answerOut s').toList := by
  have one : ([s'].filterMap dcacheOut).filter isAnswer = (answerOut s').toList := by
    unfold answerOut
    cases out : dcacheOut s' with
    | none => simp [out]
    | some p => cases kind : isAnswer p <;> simp [out, kind, Option.filter]
  rw [dPackets, List.map_append, List.filterMap_append, List.filter_append, one]
  rfl

/-- The machine in an environment that keeps the order of the answers. -/
def orderlyMachine (cfg : AdapterCfg) : Clocked.Machine (State cfg) (Input cfg) :=
  (machine cfg).restrict fun cycles => Orderly (ledger cycles)

/-- What holds along an orderly run. -/
structure Inv (cycles : List (Cycle cfg)) (s : State cfg) : Prop where
  tracks : Tracks (ledger cycles) s
  icache : List.Forall₂ IMatches (iPackets cycles s) (ledger cycles).iAnswered
  dcache : List.Forall₂ DMatches (dPackets cycles s) (ledger cycles).dAnswered
  iOnce : (ledger cycles).iAccepted = (ledger cycles).iAll
  dOnce : (ledger cycles).dAccepted.Perm (ledger cycles).dAll

theorem inv_of_run {cycles : List (Cycle cfg)} {s : State cfg}
    (run : (orderlyMachine cfg).Run cycles s) : Inv cycles s := by
  refine run.invariant Inv ?_ ?_
  · exact {
      tracks := tracks_reset cfg
      icache := List.Forall₂.nil
      dcache := List.Forall₂.nil
      iOnce := rfl
      dOnce := List.Perm.refl _ }
  · intro cycles s i _ inv allowed
    obtain ⟨env, orderly⟩ := allowed
    have step := ledger_concat cycles s i
    constructor
    · rw [step]
      exact inv.tracks.next env orderly
    · rw [step, iPackets_concat]
      exact List.rel_append inv.icache (inv.tracks.iPacket env)
    · rw [step, dPackets_concat]
      exact List.rel_append inv.dcache (inv.tracks.dPacket env orderly)
    · rw [step]
      exact iAll_next env inv.iOnce
    · rw [step]
      exact inv.tracks.dAll_next env orderly inv.dOnce

theorem accounted_of_run {cycles : List (Cycle cfg)} {s : State cfg}
    (run : (orderlyMachine cfg).Run cycles s) : Accounted cycles s (ledger cycles) := by
  obtain ⟨tracks, icache, dcache, iOnce, dOnce⟩ := inv_of_run run
  exact {
    icache := icache
    dcache := dcache
    iOnce := iOnce
    dOnce := dOnce
    write := tracks.open_write
    response := fun some i inval noBeat quiet => tracks.response_taken some inval noBeat quiet
    iOffered := fun some room i => tracks.offered
      ⟨0, (arbReq_icache_iff tracks.iQueue tracks.iIds).mpr ⟨some, by simpa using room⟩⟩ i
    dOffered := fun some roomW roomR i => tracks.offered
      ⟨1, (arbReq_dcache_iff tracks.dQueue tracks.wrIds tracks.rdIds).mpr
        ⟨some, by simpa using roomW, by simpa using roomR⟩⟩ i }

/-! ## A swap and a store-conditional -/

section Example

variable (L : Ledger cfg) (s : State cfg) (i : Input cfg)

instance decidableKnown (q : DReq cfg) : Decidable (Known q) :=
  inferInstanceAs (Decidable (_ ∨ _))

instance decidableOwesBeat (r : RBeat cfg) : Decidable (OwesBeat L r) :=
  decidable_of_iff
    ((r.id = 0 → ∃ q ∈ L.iReads.head?, r.last = decide (L.iBeats.length = icacheLen cfg q)) ∧
      (r.id = 1 → ∃ q ∈ L.reads.find? isLoad, r.last = decide (L.beats.length = dcacheLen q)) ∧
      (r.id = 3 → L.atomicRead.isSome = true ∧ r.last = true) ∧
      (r.id = 0 ∨ r.id = 1 ∨ r.id = 3))
    ⟨fun ⟨icache, load, atomic, id⟩ => ⟨icache, load, atomic, id⟩,
      fun ⟨icache, load, atomic, id⟩ => ⟨icache, load, atomic, id⟩⟩

instance decidableEnvironment : Decidable (Environment L s i) :=
  decidable_of_iff
    ((∀ r ∈ i.r, OwesBeat L r) ∧
      (∀ b ∈ i.b, b.id = 1 ∧ L.stores ≠ [] ∨ b.id = 3 ∧ L.atomics ≠ []) ∧ i.inval = none ∧
      (∀ q ∈ i.dcacheReq, Known q) ∧
      (∀ q ∈ i.dcacheReq, dcacheDataAck s i = true → isAtomic q = true →
        L.dQueue = [] ∧ L.reads = [] ∧ L.writes = []))
    ⟨fun ⟨beat, response, inval, known, alone⟩ => ⟨beat, response, inval, known, alone⟩,
      fun ⟨beat, response, inval, known, alone⟩ => ⟨beat, response, inval, known, alone⟩⟩

instance decidableStale {depth : Nat} {α : Type} (fifo : FifoCfg) (f : Fifo depth α)
    (io : FifoIn α) : Decidable (f.Stale fifo io) :=
  inferInstanceAs (Decidable (_ ∧ _))

instance decidableOrderly : Decidable (Orderly L s i) :=
  decidable_of_iff
    ((∀ q ∈ L.dDue s i, asksRead q.1 = true → L.reads.head? = some q.1) ∧
      (∀ q ∈ L.dDue s i, asksWrite q.1 = true → L.writes.head? = some q.1) ∧
      (∀ q ∈ L.dDue s i, isLr q.1 = true → L.writes = []) ∧
      (∀ r ∈ dcacheBeat s i, r.id = 3 → L.beats = []) ∧
      (∀ q ∈ (L.bs ++ L.received s i).head?, bPop s i = true → isRmw q.1 = true →
        s.amoGenR = true) ∧
      ¬ s.icacheData.Stale (reqCfg cfg) (icacheDataIn s i) ∧
      ¬ s.dcacheData.Stale (reqCfg cfg) (dcacheDataIn s i))
    ⟨fun ⟨read, write, loadReserved, whole, flag, icacheQueue, dcacheQueue⟩ =>
        ⟨read, write, loadReserved, whole, flag, icacheQueue, dcacheQueue⟩,
      fun ⟨read, write, loadReserved, whole, flag, icacheQueue, dcacheQueue⟩ =>
        ⟨read, write, loadReserved, whole, flag, icacheQueue, dcacheQueue⟩⟩

instance decidableAllowed (cycles : List (Cycle cfg)) :
    Decidable ((machine cfg).allowed cycles s i) :=
  inferInstanceAs (Decidable (Environment (ledger cycles) s i))

instance decidableAllowedOrderly (cycles : List (Cycle cfg)) :
    Decidable ((orderlyMachine cfg).allowed cycles s i) :=
  inferInstanceAs (Decidable
    (Environment (ledger cycles) s i ∧ Orderly (ledger cycles) s i))

/-- Words of a byte and lines of two words. -/
def oneByte : AdapterCfg where
  rva := true
  xlen := 8
  xlen64 := false
  axiAddrWidth := 8
  lgAxiBytes := 0
  axiUserEn := false
  axiUserWidth := 1
  axiBurstWriteEn := false
  icacheWords := 2
  dcacheWords := 2
  icacheUserWords := 1
  dcacheUserWords := 1
  reqFifoDepth := 2
  metaFifoDepth := 2
  fpgaEn := false
  fpgaAlteraEn := false
  dcacheIndexWidth := 4
  someIcacheWords := Nat.two_pos
  someDcacheWords := Nat.two_pos
  someReqs := Nat.two_pos
  someIds := Nat.two_pos

def swapReq : DReq oneByte := { rtype := .atomic, amoOp := .swap, tid := 1 }

def scReq : DReq oneByte := { rtype := .atomic, amoOp := .sc, tid := 2 }

/-- A swap is answered by its old value. -/
def swapInputs : List (Input oneByte) :=
  [{ dcacheReq := some swapReq }, { awReady := true, wReady := true },
    { r := some { id := 3, data := 7, last := true } }]

/-- Its write response comes before the next atomic is sent. -/
def inOrder : List (Input oneByte) :=
  swapInputs ++ [{ b := some { id := 3 } }, { dcacheReq := some scReq },
    { awReady := true, wReady := true }, { b := some { id := 3, resp := .exokay } }]

/-- Its write response comes after the next atomic is sent. -/
def crossed : List (Input oneByte) :=
  swapInputs ++ [({} : Input oneByte), { dcacheReq := some scReq },
    { awReady := true, wReady := true }, { b := some { id := 3 } }]

theorem accounted_of_run_inOrder :
    let m := orderlyMachine oneByte
    let cycles := m.cyclesOf m.reset inOrder
    let s := m.after m.reset inOrder
    (dPackets cycles s).map DRtrn.tid = [1, 2] ∧ Accounted cycles s (ledger cycles) :=
  ⟨by decide +kernel, accounted_of_run (Clocked.Machine.run_of_accepts
    (m := orderlyMachine oneByte) inOrder (by decide +kernel))⟩

/-- The response of the swap is taken for that of the store-conditional, whose own response
the bus still owes. -/
theorem not_accounted_crossed :
    let m := machine oneByte
    let cycles := m.cyclesOf m.reset crossed
    let s := m.after m.reset crossed
    m.Run cycles s ∧ (ledger cycles).atomics = [scReq] ∧
      (dPackets cycles s).map DRtrn.tid = [1, 2] ∧ ¬ Accounted cycles s (ledger cycles) := by
  refine ⟨Clocked.Machine.run_of_accepts (m := machine oneByte) crossed (by decide +kernel),
    by decide +kernel, by decide +kernel, fun accounted => ?_⟩
  have same := accounted.dcache.length_eq
  revert same
  decide +kernel

end Example

end Cva6.AxiAdapter
