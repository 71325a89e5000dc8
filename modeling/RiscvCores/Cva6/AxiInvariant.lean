import RiscvCores.Cva6.AxiAnswers

/-!
# The ledger in every cycle

The other parts of the invariant after a cycle: the bursts, the kinds of the requests in
each list, the order of the write responses, and the request that the arbiter holds.
-/

set_option autoImplicit false

namespace Cva6.AxiAdapter

open CommonCells

variable {cfg : AdapterCfg} {L : Ledger cfg} {s : State cfg} {i : Input cfg}

/-! ## Bursts -/

theorem Tracks.iRoom (tracks : Tracks L s) {q : IReq} {rest : List IReq}
    (reads : L.iReads = q :: rest) : L.iBeats.length ≤ icacheLen cfg q := by
  by_cases none : L.iBeats = []
  · rw [none]
    exact Nat.zero_le _
  · obtain ⟨q', front, short⟩ := tracks.iOpen none
    rw [reads] at front
    obtain rfl : q = q' := Option.some.inj front
    exact short

theorem icacheLen_lt (cfg : AdapterCfg) (q : IReq) : icacheLen cfg q < cfg.icacheWords := by
  have some := cfg.someIcacheWords
  unfold icacheLen
  split <;> omega

theorem Tracks.iBurst_next (tracks : Tracks L s) (env : Environment L s i) :
    Burst (next s i).icacheFirst (next s i).icacheShift (L.step s i).iBeats := by
  simp only [next, Ledger.step]
  cases taken : icacheBeat s i with
  | none => exact tracks.iBurst
  | some r =>
      obtain ⟨q, rest, reads, last⟩ := icacheBeat_spec env taken
      have room := tracks.iRoom reads
      have inLine := icacheLen_lt cfg q
      cases ends : r.last with
      | true =>
          simp only [ends, if_true]
          exact burst_nil cfg.someIcacheWords _
      | false =>
          rw [ends] at last
          have short : L.iBeats.length ≠ icacheLen cfg q := of_decide_eq_false last.symm
          simp only [ends, Bool.false_eq_true, if_false]
          exact tracks.iBurst.more (by omega) r.data

theorem Tracks.iOpen_next (tracks : Tracks L s) (env : Environment L s i)
    (some : (L.step s i).iBeats ≠ []) :
    ∃ q ∈ (L.step s i).iReads.head?, (L.step s i).iBeats.length ≤ icacheLen cfg q := by
  simp only [Ledger.step] at some ⊢
  cases taken : icacheBeat s i with
  | none =>
      have notDone : icacheDone s i = false := by
        rw [icacheDone, taken]
        rfl
      rw [taken] at some
      obtain ⟨q, front, short⟩ := tracks.iOpen some
      obtain ⟨rest, reads⟩ := mem_of_head? front
      rw [notDone, reads]
      exact ⟨q, rfl, short⟩
  | some r =>
      rw [taken] at some
      obtain ⟨q, rest, reads, last⟩ := icacheBeat_spec env taken
      have room := tracks.iRoom reads
      cases ends : r.last with
      | true => simp [ends] at some
      | false =>
          have notDone : icacheDone s i = false := by
            rw [icacheDone, taken]
            exact ends
          rw [ends] at last
          have short : L.iBeats.length ≠ icacheLen cfg q := of_decide_eq_false last.symm
          rw [notDone, reads]
          refine ⟨q, rfl, ?_⟩
          simp only [ends, Bool.false_eq_true, if_false, List.length_append, List.length_singleton]
          omega

theorem Tracks.dRoom (tracks : Tracks L s) {q : DReq cfg} (found : L.reads.find? isLoad = some q) :
    L.beats.length ≤ dcacheLen q := by
  by_cases none : L.beats = []
  · rw [none]
    exact Nat.zero_le _
  · obtain ⟨q', found', short⟩ := tracks.dOpen none
    rw [found] at found'
    obtain rfl : q = q' := Option.some.inj found'
    exact short

theorem dcacheLen_lt (q : DReq cfg) : dcacheLen q < cfg.dcacheWords := by
  have some := cfg.someDcacheWords
  unfold dcacheLen
  split <;> omega

/-- A beat that is not the last one belongs to the oldest load. -/
theorem Tracks.beat_more (tracks : Tracks L s) (env : Environment L s i) {r : RBeat cfg}
    (taken : dcacheBeat s i = some r) (id : r.id = 1) (more : r.last = false) :
    ∃ q, L.reads.find? isLoad = some q ∧ L.beats.length < dcacheLen q := by
  obtain ⟨q, found, last⟩ := (dcacheBeat_spec env taken).1.load id
  have room := tracks.dRoom found
  rw [more] at last
  have short : L.beats.length ≠ dcacheLen q := of_decide_eq_false last.symm
  exact ⟨q, found, by omega⟩

theorem Tracks.dBurst_beat (tracks : Tracks L s) (env : Environment L s i) {r : RBeat cfg}
    (taken : dcacheBeat s i = some r) :
    Burst (next s i).dcacheFirst (next s i).dcacheShift (L.step s i).beats := by
  simp only [next, Ledger.step, taken]
  obtain ⟨owes, load | atomic⟩ := dcacheBeat_spec env taken
  · cases ends : r.last with
    | true => exact burst_nil cfg.someDcacheWords _
    | false =>
        obtain ⟨q, _, short⟩ := tracks.beat_more env taken load ends
        have inLine := dcacheLen_lt q
        rw [load]
        exact tracks.dBurst.more (by omega) r.data
  · rw [(owes.atomic atomic).2]
    exact burst_nil cfg.someDcacheWords _

theorem Tracks.dBurst_next (tracks : Tracks L s) (env : Environment L s i) :
    Burst (next s i).dcacheFirst (next s i).dcacheShift (L.step s i).beats := by
  cases taken : dcacheBeat s i with
  | some r => exact tracks.dBurst_beat env taken
  | none =>
      simp only [next, Ledger.step, taken]
      split
      · exact tracks.dBurst.setFront _
      · exact tracks.dBurst

theorem Tracks.dOpen_next (tracks : Tracks L s) (env : Environment L s i)
    (event : Event L s i) (some : (L.step s i).beats ≠ []) :
    ∃ q ∈ (L.step s i).reads.find? isLoad, (L.step s i).beats.length ≤ dcacheLen q := by
  have pops := tracks.pops env event
  -- The oldest load stays in front of what is sent now.
  have stays : dcacheRdPop s i = false → ∀ q, L.reads.find? isLoad = Option.some q →
      (L.step s i).reads.find? isLoad = Option.some q := by
    intro kept q found
    change (L.unanswered s i L.reads ++ L.sentRead s i).find? isLoad = Option.some q
    rw [pops.reads, kept, List.find?_append, if_neg Bool.false_ne_true, found]
    rfl
  cases taken : dcacheBeat s i with
  | none =>
      have same : (L.step s i).beats = L.beats := by
        simp only [Ledger.step, taken]
      rw [same] at some ⊢
      obtain ⟨q, found, short⟩ := tracks.dOpen some
      have kept : dcacheRdPop s i = false := by
        rw [dcacheRdPop, done_of_none taken]
        rfl
      exact ⟨q, stays kept q found, short⟩
  | some r =>
      simp only [Ledger.step, taken] at some
      obtain ⟨owes, load | atomic⟩ := dcacheBeat_spec env taken
      · cases ends : r.last with
        | true => simp [ends] at some
        | false =>
            obtain ⟨q, found, short⟩ := tracks.beat_more env taken load ends
            have same : (L.step s i).beats = L.beats ++ [r.data] := by
              simp [Ledger.step, taken, ends, load]
            refine ⟨q, stays (decodes_beat (L := L) taken ends).rdPop q found, ?_⟩
            rw [same, List.length_append, List.length_singleton]
            exact short
      · simp [(owes.atomic atomic).2] at some

/-! ## The kinds of the requests -/

theorem Tracks.known_next (tracks : Tracks L s) (env : Environment L s i) :
    ∀ q ∈ (L.step s i).dQueue, Known q := by
  intro q inside
  simp only [Ledger.step, List.mem_append] at inside
  rcases inside with old | new
  · refine tracks.known q ?_
    split at old
    · exact List.mem_of_mem_tail old
    · exact old
  · unfold Ledger.dcacheAccepted at new
    split at new
    · exact env.known q (Option.mem_toList.mp new)
    · cases new

theorem mem_unanswered {open' : List (DReq cfg)} {q : DReq cfg}
    (inside : q ∈ L.unanswered s i open') : q ∈ open' := by
  unfold Ledger.unanswered at inside
  split at inside
  · exact List.mem_of_mem_erase inside
  · exact inside

theorem Tracks.sentRead_spec (tracks : Tracks L s) {q : DReq cfg}
    (inside : q ∈ L.sentRead s i) :
    q = dcacheHead s ∧ q ∈ L.dQueue ∧ arbAck s i 1 = true ∧ asksRead q = true := by
  cases tracks.sent i with
  | idle ack read write => simp [read] at inside
  | read rest ack queue rd wr read write asks room =>
      rw [read, List.mem_singleton] at inside
      subst inside
      exact ⟨rfl, by rw [queue]; exact List.mem_cons_self, ack, asks⟩
  | write rest ack queue rd wr read write asks room => simp [read] at inside

theorem Tracks.sentWrite_spec (tracks : Tracks L s) {q : DReq cfg}
    (inside : q ∈ L.sentWrite s i) :
    q = dcacheHead s ∧ q ∈ L.dQueue ∧ arbAck s i 1 = true ∧ asksWrite q = true := by
  cases tracks.sent i with
  | idle ack read write => simp [write] at inside
  | read rest ack queue rd wr read write asks room => simp [write] at inside
  | write rest ack queue rd wr read write asks room =>
      rw [write, List.mem_singleton] at inside
      subst inside
      exact ⟨rfl, by rw [queue]; exact List.mem_cons_self, ack, asks⟩

theorem Tracks.reads_next (tracks : Tracks L s) :
    ∀ q ∈ (L.step s i).reads, Known q ∧ asksRead q = true := by
  intro q inside
  rcases List.mem_append.mp inside with old | new
  · exact tracks.reads q (mem_unanswered old)
  · obtain ⟨_, queued, _, asks⟩ := tracks.sentRead_spec new
    exact ⟨tracks.known q queued, asks⟩

theorem Tracks.writes_next (tracks : Tracks L s) :
    ∀ q ∈ (L.step s i).writes, Known q ∧ asksWrite q = true := by
  intro q inside
  rcases List.mem_append.mp inside with old | new
  · exact tracks.writes q (mem_unanswered old)
  · obtain ⟨_, queued, _, asks⟩ := tracks.sentWrite_spec new
    exact ⟨tracks.known q queued, asks⟩

theorem mem_owed {id : Nat} {open' : List (DReq cfg)} {q : DReq cfg}
    (inside : q ∈ Ledger.owed s i id open') : q ∈ open' := by
  unfold Ledger.owed at inside
  split at inside
  · exact List.mem_of_mem_tail inside
  · exact inside

theorem Tracks.stores_next (tracks : Tracks L s) :
    ∀ q ∈ (L.step s i).stores, isStore q = true := by
  intro q inside
  rcases List.mem_append.mp inside with old | new
  · exact tracks.stores q (mem_owed old)
  · exact (List.mem_filter.mp new).2

theorem Tracks.atomics_next (tracks : Tracks L s) :
    ∀ q ∈ (L.step s i).atomics, isAtomic q = true ∧ Known q ∧ asksWrite q = true := by
  intro q inside
  rcases List.mem_append.mp inside with old | new
  · exact tracks.atomics q (mem_owed old)
  · obtain ⟨sent, atomic⟩ := List.mem_filter.mp new
    obtain ⟨_, queued, _, asks⟩ := tracks.sentWrite_spec sent
    exact ⟨atomic, tracks.known q queued, asks⟩

theorem Tracks.responses_next (tracks : Tracks L s) :
    ∀ b ∈ (L.step s i).bs, Known b.1 ∧ asksWrite b.1 = true := by
  intro b inside
  have present : (b.1, b.2) ∈ L.bs ++ L.received s i := by
    simp only [Ledger.step] at inside
    split at inside
    · exact List.mem_of_mem_tail inside
    · exact inside
  exact tracks.response_known present

/-! ## The order of the write responses -/

theorem isSc_of_store {q : DReq cfg} (store : isStore q = true) : isSc q = false :=
  ((kind_excl q).2.1 store).2.2.2.1

theorem isStore_of_atomic {q : DReq cfg} (atomic : isAtomic q = true) : isStore q = false := by
  by_contra store
  have other := ((kind_excl q).2.1 (Bool.not_eq_false _ |>.mp store)).2.1
  rw [atomic] at other
  cases other

theorem Tracks.received_cases (tracks : Tracks L s) (env : Environment L s i) :
    L.received s i = [] ∧ Ledger.owed s i 1 L.stores = L.stores ∧
        Ledger.owed s i 3 L.atomics = L.atomics ∨
      (∃ q exokay, L.received s i = [(q, exokay)] ∧ isStore q = true ∧
        L.stores = q :: Ledger.owed s i 1 L.stores ∧
        Ledger.owed s i 3 L.atomics = L.atomics) ∨
      ∃ q exokay, L.received s i = [(q, exokay)] ∧ isAtomic q = true ∧
        Ledger.owed s i 1 L.stores = L.stores ∧
        L.atomics = q :: Ledger.owed s i 3 L.atomics := by
  unfold Ledger.received Ledger.owed
  cases response : i.b with
  | none => exact .inl ⟨rfl, by simp, by simp⟩
  | some b =>
      cases taken : bPush s i with
      | false => exact .inl ⟨by simp, by simp, by simp⟩
      | true =>
          rcases env.response b response with ⟨id, some⟩ | ⟨id, some⟩
          · obtain ⟨q, rest, stores⟩ := List.exists_cons_of_ne_nil some
            have store := tracks.stores q (by rw [stores]; exact List.mem_cons_self)
            exact .inr (.inl ⟨q, b.resp == .exokay, by simp [id, stores], store,
              by simp [id, stores], by simp [id]⟩)
          · obtain ⟨q, rest, atomics⟩ := List.exists_cons_of_ne_nil some
            have atomic := (tracks.atomics q (by rw [atomics]; exact List.mem_cons_self)).1
            exact .inr (.inr ⟨q, b.resp == .exokay, by simp [id, atomics], atomic, by simp [id],
              by simp [id, atomics]⟩)

/-- The open writes of a kind are those whose response has come and those whose response
the bus owes. -/
def Ordered (kind : DReq cfg → Bool) (writes : List (DReq cfg)) (bs : List (DReq cfg × Bool))
    (owed : List (DReq cfg)) : Prop :=
  writes.filter kind = (bs.map Prod.fst).filter kind ++ owed

theorem Tracks.stores_received (tracks : Tracks L s) (env : Environment L s i) :
    Ordered isStore L.writes (L.bs ++ L.received s i) (Ledger.owed s i 1 L.stores) := by
  have stores : ((L.received s i).map Prod.fst).filter isStore ++ Ledger.owed s i 1 L.stores =
      L.stores := by
    rcases tracks.received_cases env with ⟨none, same, _⟩ | ⟨q, exokay, one, store, owes, _⟩ |
        ⟨q, exokay, one, atomic, same, _⟩
    · rw [none, same]
      rfl
    · rw [one, List.map_singleton, List.filter_singleton,
        show isStore (q, exokay).1 = true from store]
      exact owes.symm
    · rw [one, same, List.map_singleton, List.filter_singleton,
        show isStore (q, exokay).1 = false from isStore_of_atomic atomic]
      rfl
  rw [Ordered, tracks.storeOrder, List.map_append, List.filter_append, List.append_assoc, stores]

theorem Tracks.scs_received (tracks : Tracks L s) (env : Environment L s i) :
    Ordered isSc L.writes (L.bs ++ L.received s i)
      ((Ledger.owed s i 3 L.atomics).filter isSc) := by
  have scs : ((L.received s i).map Prod.fst).filter isSc ++
      (Ledger.owed s i 3 L.atomics).filter isSc = L.atomics.filter isSc := by
    rcases tracks.received_cases env with ⟨none, _, same⟩ | ⟨q, exokay, one, store, _, same⟩ |
        ⟨q, exokay, one, atomic, _, owes⟩
    · rw [none, same]
      rfl
    · rw [one, same, List.map_singleton, List.filter_singleton,
        show isSc (q, exokay).1 = false from isSc_of_store store]
      rfl
    · rw [one, List.map_singleton, ← List.filter_append]
      exact congrArg (List.filter isSc) owes.symm
  rw [Ordered, tracks.scOrder, List.map_append, List.filter_append, List.append_assoc, scs]

/-- A response that is taken off belongs to the write that is closed, unless it is dropped. -/
theorem Tracks.ordered_next (tracks : Tracks L s) (env : Environment L s i)
    (event : Event L s i) {k : DReq cfg → Bool}
    (bare : ∀ q, isRmw q = true → k q = false) {owed : List (DReq cfg)}
    (order : Ordered k L.writes (L.bs ++ L.received s i) owed) :
    Ordered k (L.unanswered s i L.writes) (L.step s i).bs owed := by
  have pops := tracks.pops env event
  unfold Ordered at order ⊢
  simp only [Ledger.step]
  rw [pops.writes]
  cases event with
  | quiet noBeat noB =>
      rw [(decodes_quiet (L := L) noBeat noB).wrPop, noB]
      exact order
  | beat r taken id more =>
      rw [(decodes_beat (L := L) taken more).wrPop, (done_of_beat taken).2]
      exact order
  | load r q taken id last kind found front whole =>
      rw [(decodes_load taken id last found).wrPop, (done_of_beat taken).2]
      exact order
  | loadReserved r q taken id last kind found front alone whole =>
      rw [(tracks.decodes_loadReserved taken id last kind found front alone).wrPop,
        (done_of_beat taken).2]
      exact order
  | rmw r q taken id last rmw found front whole =>
      rw [(tracks.decodes_rmw taken id last rmw found front).wrPop, (done_of_beat taken).2]
      obtain ⟨rest, writes⟩ := mem_of_head? front
      rw [writes, List.filter_cons, bare q rmw] at order
      rw [writes]
      exact order
  | store q exokay rest noBeat popsB shown store front =>
      rw [(tracks.decodes_store env noBeat popsB shown store).wrPop, popsB, shown]
      rw [shown] at order
      obtain ⟨more, writes⟩ := mem_of_head? front
      rw [writes] at order ⊢
      simp only [List.map_cons, List.filter_cons] at order
      simp only [if_true, List.tail_cons]
      split at order
      · exact (List.cons.inj order).2
      · exact order
  | storeConditional q exokay rest noBeat popsB shown sc front =>
      rw [(tracks.decodes_storeConditional noBeat popsB shown sc front).wrPop, popsB, shown]
      rw [shown] at order
      obtain ⟨more, writes⟩ := mem_of_head? front
      rw [writes] at order ⊢
      simp only [List.map_cons, List.filter_cons] at order
      simp only [if_true, List.tail_cons]
      split at order
      · exact (List.cons.inj order).2
      · exact order
  | dropped q exokay rest noBeat popsB shown rmw flag =>
      rw [(tracks.decodes_dropped env noBeat popsB shown rmw flag).wrPop, popsB, shown]
      rw [shown, List.map_cons, List.filter_cons, bare q rmw] at order
      exact order

theorem Tracks.storeOrder_next (tracks : Tracks L s) (env : Environment L s i)
    (event : Event L s i) : Ordered isStore (L.step s i).writes (L.step s i).bs
      (L.step s i).stores := by
  have closed := tracks.ordered_next env event (k := isStore)
    (fun q rmw => ((kind_excl q).2.2.2.2 rmw).2.2.1) (tracks.stores_received env)
  change ((L.unanswered s i L.writes ++ L.sentWrite s i).filter isStore) =
    ((L.step s i).bs.map Prod.fst).filter isStore ++ (Ledger.owed s i 1 L.stores ++
      (L.sentWrite s i).filter isStore)
  rw [List.filter_append, closed, List.append_assoc]

theorem Tracks.scOrder_next (tracks : Tracks L s) (env : Environment L s i)
    (event : Event L s i) : Ordered isSc (L.step s i).writes (L.step s i).bs
      ((L.step s i).atomics.filter isSc) := by
  have closed := tracks.ordered_next env event (k := isSc)
    (fun q rmw => ((kind_excl q).2.2.2.2 rmw).2.2.2.2) (tracks.scs_received env)
  have sent : ((L.sentWrite s i).filter isAtomic).filter isSc = (L.sentWrite s i).filter isSc := by
    rw [List.filter_filter]
    refine List.filter_congr fun q _ => ?_
    cases sc : isSc q with
    | false => rfl
    | true => rw [((kind_excl q).2.2.2.1 sc).1]; rfl
  change ((L.unanswered s i L.writes ++ L.sentWrite s i).filter isSc) =
    ((L.step s i).bs.map Prod.fst).filter isSc ++ (Ledger.owed s i 3 L.atomics ++
      (L.sentWrite s i).filter isAtomic).filter isSc
  rw [List.filter_append, closed, List.filter_append, sent, List.append_assoc]

/-! ## Atomics are alone -/

theorem Tracks.accepted_alone (env : Environment L s i) {q : DReq cfg}
    (accepted : q ∈ Ledger.dcacheAccepted s i) (atomic : isAtomic q = true) :
    L.dQueue = [] ∧ L.reads = [] ∧ L.writes = [] := by
  unfold Ledger.dcacheAccepted at accepted
  split at accepted
  next ack => exact env.alone q (Option.mem_toList.mp accepted) ack atomic
  · cases accepted

theorem Tracks.unsent (tracks : Tracks L s) (none : L.dQueue = []) :
    L.sentRead s i = [] ∧ L.sentWrite s i = [] := by
  cases tracks.sent i with
  | idle ack read write => exact ⟨read, write⟩
  | read rest ack queue rd wr read write asks room =>
      rw [none] at queue
      cases queue
  | write rest ack queue rd wr read write asks room =>
      rw [none] at queue
      cases queue

theorem unanswered_nil : L.unanswered s i [] = [] := by
  unfold Ledger.unanswered
  split <;> rfl

/-- What waits in the queue after the grant. -/
theorem Tracks.mem_queue {q : DReq cfg} (atomic : isAtomic q = true) (tracks : Tracks L s)
    (inside : q ∈ if arbAck s i 1 then L.dQueue.tail else L.dQueue) :
    arbAck s i 1 = false ∧ q ∈ L.dQueue := by
  cases ack : arbAck s i 1 with
  | true =>
      rw [ack, if_pos rfl] at inside
      rw [tracks.queueTail q inside] at atomic
      cases atomic
  | false =>
      rw [ack, if_neg Bool.false_ne_true] at inside
      exact ⟨rfl, inside⟩

theorem Tracks.queuedAtomic_next (tracks : Tracks L s) (env : Environment L s i) :
    ∀ q ∈ (L.step s i).dQueue, isAtomic q = true →
      (L.step s i).reads = [] ∧ (L.step s i).writes = [] := by
  intro q inside atomic
  -- With nothing open and nothing sent, nothing is open afterwards.
  have quiet : L.reads = [] → L.writes = [] → L.sentRead s i = [] → L.sentWrite s i = [] →
      (L.step s i).reads = [] ∧ (L.step s i).writes = [] := by
    intro reads writes read write
    simp only [Ledger.step, reads, writes, read, write, unanswered_nil, List.append_nil, and_self]
  rcases List.mem_append.mp inside with old | new
  · obtain ⟨ack, queued⟩ := tracks.mem_queue atomic old
    obtain ⟨reads, writes⟩ := tracks.queuedAtomic q queued atomic
    refine quiet reads writes ?_ ?_
    · rw [Ledger.sentRead, ack]
      rfl
    · rw [Ledger.sentWrite, ack]
      rfl
  · obtain ⟨none, reads, writes⟩ := Tracks.accepted_alone env new atomic
    exact quiet reads writes (tracks.unsent none).1 (tracks.unsent none).2

theorem mem_tail_append {α : Type} {xs ys : List α} {x : α} (inside : x ∈ (xs ++ ys).tail) :
    x ∈ xs.tail ∨ (x ∈ ys ∧ xs ≠ []) ∨ x ∈ ys.tail := by
  cases xs with
  | nil => exact .inr (.inr inside)
  | cons y rest =>
      rcases List.mem_append.mp inside with old | new
      · exact .inl old
      · exact .inr (.inl ⟨new, List.cons_ne_nil _ _⟩)

theorem Tracks.queueTail_next (tracks : Tracks L s) (env : Environment L s i) :
    ∀ q ∈ (L.step s i).dQueue.tail, isAtomic q = false := by
  intro q inside
  by_contra atomic
  have atomic : isAtomic q = true := Bool.not_eq_false _ |>.mp atomic
  rcases mem_tail_append inside with old | ⟨new, some⟩ | later
  · have queued : q ∈ L.dQueue.tail := by
      split at old
      · exact List.mem_of_mem_tail old
      · exact old
    rw [tracks.queueTail q queued] at atomic
    cases atomic
  · rw [(Tracks.accepted_alone env new atomic).1] at some
    simp at some
  · rw [dcacheAccepted_eq] at later
    split at later <;> cases later

theorem Tracks.readsTail_next (tracks : Tracks L s) (pops : Pops L s i) :
    ∀ q ∈ (L.step s i).reads.tail, isAtomic q = false := by
  intro q inside
  by_contra atomic
  have atomic : isAtomic q = true := Bool.not_eq_false _ |>.mp atomic
  rcases mem_tail_append inside with old | ⟨new, some⟩ | later
  · have open' : q ∈ L.reads.tail := by
      rw [pops.reads] at old
      split at old
      · exact List.mem_of_mem_tail old
      · exact old
    rw [tracks.readsTail q open'] at atomic
    cases atomic
  · obtain ⟨_, queued, _⟩ := tracks.sentRead_spec new
    rw [(tracks.queuedAtomic q queued atomic).1, unanswered_nil] at some
    exact some rfl
  · rw [Ledger.sentRead] at later
    split at later
    · cases queue : L.dQueue <;> simp [queue] at later
    · cases later

theorem Tracks.writesTail_next (tracks : Tracks L s) (pops : Pops L s i) :
    ∀ q ∈ (L.step s i).writes.tail, isAtomic q = false := by
  intro q inside
  by_contra atomic
  have atomic : isAtomic q = true := Bool.not_eq_false _ |>.mp atomic
  rcases mem_tail_append inside with old | ⟨new, some⟩ | later
  · have open' : q ∈ L.writes.tail := by
      rw [pops.writes] at old
      split at old
      · exact List.mem_of_mem_tail old
      · exact old
    rw [tracks.writesTail q open'] at atomic
    cases atomic
  · obtain ⟨_, queued, _⟩ := tracks.sentWrite_spec new
    rw [(tracks.queuedAtomic q queued atomic).2, unanswered_nil] at some
    exact some rfl
  · rw [Ledger.sentWrite] at later
    split at later
    · cases queue : L.dQueue <;> simp [queue] at later
    · cases later

/-- While a write is open no atomic is selected. -/
theorem Tracks.atomicTurn_false (tracks : Tracks L s) (some : L.writes ≠ []) :
    atomicTurn s = false := by
  by_contra turn
  have turn : atomicTurn s = true := Bool.not_eq_false _ |>.mp turn
  simp only [atomicTurn, Bool.and_eq_true, decide_eq_true_eq] at turn
  obtain ⟨⟨⟨anyReq, idx⟩, _⟩, atomic⟩ := turn
  have asks := tracks.selected anyReq
  rw [idx] at asks
  obtain ⟨rest, queue⟩ := tracks.head (tracks.arbReq_dcache asks).1
  exact some (tracks.queuedAtomic _ (by rw [queue]; exact List.mem_cons_self) atomic).2

theorem Tracks.flag_next (tracks : Tracks L s) :
    ∀ q ∈ (L.step s i).writes, isSc q = true →
      (next s i).amoGenR = false ∧ (next s i).amoOff = scOff q := by
  intro q inside sc
  simp only [next]
  rcases List.mem_append.mp inside with old | new
  · have open' := mem_unanswered old
    rw [tracks.atomicTurn_false (List.ne_nil_of_mem open'), Bool.false_and]
    exact tracks.flag q open' sc
  · obtain ⟨rfl, queued, ack, _⟩ := tracks.sentWrite_spec new
    obtain ⟨anyReq, idx, _⟩ := tracks.granted_dcache ack
    have atomic := ((kind_excl (dcacheHead s)).2.2.2.1 sc).1
    have turn : atomicTurn s = true := by
      rw [atomicTurn, anyReq, idx, atomic,
        Tracks.rva_of_known atomic (tracks.known _ queued)]
      rfl
    rw [turn, sc]
    exact ⟨rfl, rfl⟩

/-! ## The arbiter and the write channel -/

theorem length_unanswered (open' : List (DReq cfg)) :
    (L.unanswered s i open').length ≤ open'.length := by
  unfold Ledger.unanswered
  split
  · exact List.length_erase_le
  · exact Nat.le_refl _

theorem arbAck_false (ungranted : arbGnt s i = false) (k : Fin 2) : arbAck s i k = false := by
  rw [arbAck, ungranted]
  rfl

/-- What is requested and not granted is requested again. -/
theorem Tracks.asks_again (tracks : Tracks L s) (env : Environment L s i)
    (orderly : Orderly L s i) (pops : Pops L s i) (ungranted : arbGnt s i = false) (k : Fin 2)
    (asks : arbReq s k = true) : arbReq (next s i) k = true := by
  have quiet := arbAck_false ungranted
  rcases (by omega : k.val = 0 ∨ k.val = 1) with zero | one
  · obtain rfl : k = 0 := Fin.ext zero
    obtain ⟨some, room⟩ := tracks.arbReq_icache asks
    refine (arbReq_icache_iff (tracks.iQueue_next orderly) (tracks.iIds_next env)).mpr ⟨?_, ?_⟩
    · simp only [Ledger.step, quiet 0, Bool.false_eq_true, if_false]
      exact List.append_ne_nil_of_left_ne_nil some _
    · simp only [Ledger.step, quiet 0, Bool.false_eq_true, if_false, List.append_nil,
        List.length_map]
      split
      · rw [List.length_tail]
        omega
      · exact room
  · obtain rfl : k = 1 := Fin.ext one
    obtain ⟨some, roomW, roomR⟩ := tracks.arbReq_dcache asks
    refine (arbReq_dcache_iff (tracks.dQueue_next orderly) (tracks.wrIds_next pops)
      (tracks.rdIds_next pops)).mpr ⟨?_, ?_, ?_⟩
    · simp only [Ledger.step, quiet 1, Bool.false_eq_true, if_false]
      exact List.append_ne_nil_of_left_ne_nil some _
    · have fewer := length_unanswered (L := L) (s := s) (i := i) L.writes
      simp only [Ledger.step, Ledger.sentWrite, quiet 1, Bool.false_and, Bool.false_eq_true,
        if_false, List.append_nil, List.length_map]
      omega
    · have fewer := length_unanswered (L := L) (s := s) (i := i) L.reads
      simp only [Ledger.step, Ledger.sentRead, quiet 1, Bool.false_and, Bool.false_eq_true,
        if_false, List.append_nil, List.length_map]
      omega

theorem Tracks.locked_next (tracks : Tracks L s) (env : Environment L s i)
    (orderly : Orderly L s i) (pops : Pops L s i) :
    (next s i).arb.Locked (arbReq (next s i)) :=
  tracks.locked.next fun ungranted k => tracks.asks_again env orderly pops ungranted k

theorem Tracks.waits_next (tracks : Tracks L s) :
    (next s i).wrState = .idle ∨
      ((next s i).wrState = .waitAwReady ∨ (next s i).wrState = .waitLastWReady) ∧
        (next s i).arb.lock = true ∧ arbIdx (next s i) = 1 ∧
          ∃ q ∈ (L.step s i).dQueue.head?, asksWrite q = true := by
  obtain ⟨state, _, rests⟩ := tracks.writeFsm_single i
  rcases state with idle | ⟨waits, ungranted⟩
  · exact .inl idle
  · have turn : s.wrState ≠ .idle ∨ wrReq s = true := by
      by_contra quiet
      rw [not_or, not_not] at quiet
      have idle := (rests quiet.1 (Bool.not_eq_true _ |>.mp quiet.2)).2
      rcases waits with waits | waits <;> rw [idle] at waits <;> cases waits
    obtain ⟨some, idx, asks⟩ := tracks.writes_turn turn
    have request := tracks.selected some
    rw [idx] at request
    obtain ⟨rest, queue⟩ := tracks.head (tracks.arbReq_dcache request).1
    have channel := asks_of_known
      (tracks.known (dcacheHead s) (by rw [queue]; exact List.mem_cons_self))
    have noRead : rdGnt s i = false := by
      by_contra read
      have reads := (rdGnt_iff.mp (Bool.not_eq_false _ |>.mp read)).2.2 idx
      rw [channel, asks] at reads
      cases reads
    have noGrant : arbGnt s i = false := by
      rw [arbGnt, noRead, wrGnt, ungranted]
      rfl
    have requests : s.arb.reqO true (arbReq s) = true :=
      (RrState.reqO_iff (by decide)).mpr (tracks.locked.reqD_some (anyReq_iff.mp some))
    refine .inr ⟨waits, ?_, ?_, dcacheHead s, ?_, asks⟩
    · simp only [next, noGrant, RrState.next, requests]
      rfl
    · have kept := RrState.idxO_next (by decide) requests (arbReq (next s i))
      rw [← noGrant] at kept
      exact kept.trans idx
    · simp only [Ledger.step, arbAck_false noGrant, queue]
      rfl

theorem Tracks.single_next (tracks : Tracks L s) : (next s i).wrCnt = 0 := by
  have single := tracks.single
  obtain ⟨_, noCount, _⟩ := tracks.writeFsm_single i
  simp only [next, noCount, Bool.false_and, Bool.false_eq_true, if_false, single, ite_self]

theorem Tracks.next (tracks : Tracks L s) (env : Environment L s i) (orderly : Orderly L s i) :
    Tracks (L.step s i) (next s i) := by
  have event := tracks.event env orderly
  have pops := tracks.pops env event
  exact {
    iQueue := tracks.iQueue_next orderly
    dQueue := tracks.dQueue_next orderly
    iIds := tracks.iIds_next env
    rdIds := tracks.rdIds_next pops
    wrIds := tracks.wrIds_next pops
    bs := tracks.bs_next env
    iBurst := tracks.iBurst_next env
    dBurst := tracks.dBurst_next env
    iOpen := tracks.iOpen_next env
    dOpen := tracks.dOpen_next env event
    known := tracks.known_next env
    reads := tracks.reads_next
    writes := tracks.writes_next
    stores := tracks.stores_next
    atomics := tracks.atomics_next
    responses := tracks.responses_next
    storeOrder := tracks.storeOrder_next env event
    scOrder := tracks.scOrder_next env event
    queuedAtomic := tracks.queuedAtomic_next env
    queueTail := tracks.queueTail_next env
    readsTail := tracks.readsTail_next pops
    writesTail := tracks.writesTail_next pops
    flag := tracks.flag_next
    locked := tracks.locked_next env orderly pops
    waits := tracks.waits_next
    single := tracks.single_next }

end Cva6.AxiAdapter
