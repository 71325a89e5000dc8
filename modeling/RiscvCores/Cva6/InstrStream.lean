import Mathlib.Data.Nat.ModEq
import RiscvCores.Lib.Interleave
import RiscvCores.Cva6.InstrQueue

/-!
# The instruction queue keeps the stream of instructions

The queues of the lanes together hold the consumed and not yet popped instructions,
each lane every `INSTR_PER_FETCH`-th of them; the queue of addresses holds the targets
of those that are control flow instructions.
-/

set_option autoImplicit false

namespace Cva6.InstrQueue

open Ring Interleave

variable {cfg : Cfg}

/-! ## What has to hold of a cycle -/

/-- The instructions consumed and the entries popped since the last flush. -/
def logs (cycles : List (State cfg × Input cfg)) :
    List (Consumed cfg) × List (FetchEntry cfg) :=
  cycles.foldl (fun logs now =>
    if now.2.flush then ([], [])
    else (logs.1 ++ consumedNow now.1 now.2, logs.2 ++ poppedNow now.1 now.2)) ([], [])

/-- The exception `ex` reports what was recorded with an instruction. -/
structure Reports (data : InstrData cfg) (ex : Exception cfg) : Prop where
  valid : ex.valid = true ↔ data.ex ≠ .none
  cause : data.ex ≠ .none → ex.cause =
    if data.ex = .instrAccessFault then instrAccessFault cfg
    else if cfg.rvh = true ∧ data.ex = .instrGuestPageFault then instrGuestPageFault cfg
    else instrPageFault cfg
  tval : data.ex ≠ .none → cfg.tvalEn = true → ex.tval = data.exVaddr.setWidth cfg.xlen
  guest : data.ex ≠ .none → cfg.rvh = true →
    ex.tval2 = data.exGpaddr ∧ ex.tinst = data.exTinst ∧ ex.gva = data.exGva

/-- A fetch entry is the consumed instruction. -/
structure Matches (entry : FetchEntry cfg) (c : Consumed cfg) : Prop where
  address : entry.address = c.address
  instruction : entry.instruction = c.data.instr
  cf : entry.cf = c.data.cf
  predicted : c.data.cf ≠ .noCF → entry.predictAddress = c.target
  ex : Reports c.data entry.ex

/-- What holds of a cycle after the given history. -/
structure Streams (cycles : List (State cfg × Input cfg)) (s : State cfg) (i : Input cfg) :
    Prop where
  popped : ∃ gone rest, (logs cycles).1 = gone ++ rest ∧
    List.Forall₂ Matches ((logs cycles).2 ++ poppedNow s i) gone
  waiting : fetchEntryValid0 s = true ↔ (logs cycles).2.length < (logs cycles).1.length
  consumedValid : ∀ lane, consumed s i lane = true →
    i.valid lane = true ∧ ∀ earlier ≤ lane, consumed s i earlier = true
  replays : replay s i = true ↔ ∃ lane, unmasked i lane = true ∧ consumed s i lane = false
  replaysAt : replay s i = true → ∀ lane, unmasked i lane = true →
    consumed s i lane = false → (∀ earlier < lane, consumed s i earlier = true) →
    replayAddr s i = i.addr lane

/-! ## The packet -/

section Packet

variable {s : State cfg} {i : Input cfg} {cycles : List (State cfg × Input cfg)}

theorem branchIndex_lt (i : Input cfg) : branchIndex i < cfg.instrPerFetch := by
  have positive : 0 < cfg.instrPerFetch := Nat.two_pow_pos _
  by_cases some : ∃ k, k < cfg.instrPerFetch ∧
      taken i (Fin.ofNat cfg.instrPerFetch k) = true
  · obtain ⟨k, inside, isTaken⟩ := some
    exact (CommonCells.lzcCnt_of_set _ _ k inside isTaken).1
  · have clear : ∀ k, taken i (Fin.ofNat cfg.instrPerFetch k) = false := by
      intro k
      by_contra isTaken
      rw [Bool.not_eq_false] at isTaken
      refine some ⟨k % cfg.instrPerFetch, Nat.mod_lt _ positive, ?_⟩
      have same : Fin.ofNat cfg.instrPerFetch (k % cfg.instrPerFetch) =
          Fin.ofNat cfg.instrPerFetch k := Fin.ext (Nat.mod_mod k _)
      rwa [same]
    have last : branchIndex i = cfg.instrPerFetch - 1 :=
      CommonCells.lzcCnt_of_clear clear cfg.several
    omega

theorem branchMask_iff (i : Input cfg) (lane : Lane cfg) :
    branchMask i lane = true ↔ lane.val ≤ branchIndex i := by
  have bound := branchIndex_lt i
  simp only [branchMask, decide_eq_true_eq]
  omega

theorem unmasked_closed (driven : Driven cycles i) (lane : Lane cfg)
    (valid : unmasked i lane = true) (earlier : Lane cfg) (before : earlier ≤ lane) :
    unmasked i earlier = true := by
  simp only [unmasked, Bool.and_eq_true, branchMask_iff] at valid ⊢
  exact ⟨driven.contiguous lane valid.1 earlier before, Nat.le_trans before valid.2⟩

/-- Only the last unmasked lane is a control flow instruction. -/
theorem taken_last {lane : Lane cfg} (isTaken : taken i lane = true) {other : Lane cfg}
    (valid : unmasked i other = true) : other ≤ lane := by
  simp only [unmasked, Bool.and_eq_true, branchMask_iff] at valid
  have same : Fin.ofNat cfg.instrPerFetch lane.val = lane := Fin.ext (Nat.mod_eq_of_lt lane.isLt)
  have first := (CommonCells.lzcCnt_of_set cfg.instrPerFetch
    (fun k => taken i (Fin.ofNat cfg.instrPerFetch k)) lane.val lane.isLt
    (by rwa [same])).2.2 lane.val
  rw [same, isTaken] at first
  by_contra later
  rw [Fin.not_le, Fin.lt_def] at later
  have impossible := first (Nat.lt_of_lt_of_le later valid.2)
  cases impossible

theorem consumed_eq (s : State cfg) (i : Input cfg) (lane : Lane cfg) :
    consumed s i lane =
      (unmasked i lane && !instrQueueFull s (lane + s.idxIs) && !addressOverflow s i) := by
  rw [consumed, pushInstrFifo, pushInstr, fifoPos, add_sub_cancel_right]

theorem pushInstrFifo_eq (s : State cfg) (i : Input cfg) (fifo : Lane cfg) :
    pushInstrFifo s i fifo = consumed s i (fifo - s.idxIs) := by
  rw [consumed, sub_add_cancel]

/-- The number of instructions consumed is the number of pushes. -/
theorem popcount_eq (s : State cfg) (i : Input cfg) :
    popcount s i = (List.finRange cfg.instrPerFetch).countP (consumed s i) :=
  (countP_rotate (pushInstrFifo s i) s.idxIs).symm

theorem anyLane_iff {p : Lane cfg → Bool} : anyLane p = true ↔ ∃ lane, p lane = true := by
  simp [anyLane]

end Packet

/-! ## The queues hold a list of instructions -/

/-- The targets of the control flow instructions of a list. -/
def targets (all : List (Consumed cfg)) : List (BitVec cfg.vlen) :=
  (all.filter fun c => c.data.cf != .noCF).map Consumed.target

/-- The queues hold the instructions `all`, the first one at the lane `read`. -/
structure QueueOf (s : State cfg) (all : List (Consumed cfg)) (read : Lane cfg) : Prop where
  select : ∀ fifo, s.idxDs fifo = true ↔ fifo = read
  write : s.idxIs = slot read all.length
  lanes : ∀ k, k < cfg.instrPerFetch → ∃ xs,
    (s.fifoInstrData (slot read k)).Holds cfg.fifo xs ∧
      Spread cfg.instrPerFetch (all.map Consumed.data) k xs
  address : s.fifoAddress.Holds cfg.fifo (targets all)

section QueueOf

variable {s : State cfg} {i : Input cfg} {cycles : List (State cfg × Input cfg)}
  {all : List (Consumed cfg)} {read : Lane cfg}

/-- The queue that a lane of the packet goes to. -/
theorem QueueOf.queue_of_lane (queue : QueueOf s all read) (lane : Lane cfg) :
    ∃ k xs, k < cfg.instrPerFetch ∧ slot read k = lane + s.idxIs ∧
      (s.fifoInstrData (lane + s.idxIs)).Holds cfg.fifo xs ∧
      Spread cfg.instrPerFetch (all.map Consumed.data) k xs ∧
      k + xs.length * cfg.instrPerFetch = all.length + lane.val := by
  have turn := Nat.mod_lt (all.length + lane.val) lane.pos
  obtain ⟨xs, holds, spread⟩ := queue.lanes _ turn
  have place : slot read ((all.length + lane.val) % cfg.instrPerFetch) = lane + s.idxIs := by
    rw [slot_mod, ← slot_add, ← queue.write, slot_val_eq, add_comm]
  obtain ⟨j, inside, next⟩ := spread.next turn
  rw [List.length_map] at next
  have same : j = lane.val := by
    have residue : (all.length + j) % cfg.instrPerFetch =
        (all.length + lane.val) % cfg.instrPerFetch := by
      rw [← next, Nat.add_mul_mod_self_right, Nat.mod_mod]
    exact Nat.ModEq.eq_of_lt_of_lt (Nat.ModEq.add_left_cancel' _ residue) inside lane.isLt
  exact ⟨_, xs, turn, place, place ▸ holds, spread, by rw [next, same]⟩

/-- All queues together are one queue. -/
theorem QueueOf.full_iff (queue : QueueOf s all read) (lane : Lane cfg) :
    instrQueueFull s (lane + s.idxIs) = true ↔
      fetchFifoDepth * cfg.instrPerFetch ≤ all.length + lane.val := by
  obtain ⟨k, xs, turn, _, holds, _, next⟩ := queue.queue_of_lane lane
  rw [instrQueueFull, holds.full_iff, ← next]
  constructor
  · intro full
    rw [full]
    exact Nat.le_add_left _ _
  · intro beyond
    have bound : xs.length ≤ fetchFifoDepth := holds.array.1
    by_contra notFull
    have below : (xs.length + 1) * cfg.instrPerFetch ≤ fetchFifoDepth * cfg.instrPerFetch :=
      Nat.mul_le_mul_right _ (by omega)
    rw [Nat.succ_mul] at below
    omega

theorem QueueOf.consumed_closed (queue : QueueOf s all read) (driven : Driven cycles i)
    (lane : Lane cfg) (isConsumed : consumed s i lane = true) (earlier : Lane cfg)
    (before : earlier ≤ lane) : consumed s i earlier = true := by
  simp only [consumed_eq, Bool.and_eq_true, Bool.not_eq_true'] at isConsumed ⊢
  obtain ⟨⟨valid, room⟩, saved⟩ := isConsumed
  refine ⟨⟨unmasked_closed driven lane valid earlier before, ?_⟩, saved⟩
  rw [← Bool.not_eq_true, queue.full_iff] at room ⊢
  rw [Fin.le_def] at before
  omega

theorem QueueOf.consumedNow_eq (queue : QueueOf s all read) (driven : Driven cycles i) :
    consumedNow s i =
      ((List.finRange cfg.instrPerFetch).take (popcount s i)).map (laneConsumed i) := by
  rw [consumedNow, filter_finRange_eq_take (queue.consumed_closed driven), popcount_eq]

theorem QueueOf.consumed_iff (queue : QueueOf s all read) (driven : Driven cycles i)
    (lane : Lane cfg) : consumed s i lane = true ↔ lane.val < popcount s i := by
  rw [popcount_eq]
  exact iff_lt_countP (queue.consumed_closed driven) lane

theorem popcount_le (s : State cfg) (i : Input cfg) : popcount s i ≤ cfg.instrPerFetch := by
  have bound := List.countP_le_length (p := pushInstrFifo s i)
    (l := List.finRange cfg.instrPerFetch)
  rwa [List.length_finRange] at bound

theorem QueueOf.length_consumedNow (queue : QueueOf s all read) (driven : Driven cycles i) :
    (consumedNow s i).length = popcount s i := by
  rw [queue.consumedNow_eq driven, List.length_map, List.length_take, List.length_finRange]
  exact Nat.min_eq_left (popcount_le s i)

theorem QueueOf.consumedNow_lane (queue : QueueOf s all read) (driven : Driven cycles i)
    (lane : Lane cfg) : (consumedNow s i)[lane.val]? =
      if consumed s i lane then some (laneConsumed i lane) else none := by
  rw [queue.consumedNow_eq driven, List.getElem?_map, List.getElem?_take]
  by_cases isConsumed : consumed s i lane = true
  · have below := (queue.consumed_iff driven lane).mp isConsumed
    rw [if_pos below, if_pos isConsumed]
    simp
  · have beyond := mt (queue.consumed_iff driven lane).mpr isConsumed
    rw [if_neg beyond, if_neg isConsumed, Option.map_none]

theorem QueueOf.empty_iff (queue : QueueOf s all read) {k : Nat}
    (turn : k < cfg.instrPerFetch) :
    instrQueueEmpty s (slot read k) = true ↔ all.length ≤ k := by
  obtain ⟨xs, holds, spread⟩ := queue.lanes k turn
  rw [instrQueueEmpty, holds.empty_iff rfl, spread.eq_nil_iff, List.length_map]

theorem QueueOf.valid0_iff (queue : QueueOf s all read) :
    fetchEntryValid0 s = true ↔ 0 < all.length := by
  rw [fetchEntryValid0, anyLane_iff]
  constructor
  · rintro ⟨fifo, filled⟩
    obtain ⟨k, turn, rfl⟩ := exists_slot read fifo
    rw [Bool.not_eq_true', ← Bool.not_eq_true, queue.empty_iff turn] at filled
    omega
  · intro nonempty
    refine ⟨slot read 0, ?_⟩
    rw [Bool.not_eq_true', ← Bool.not_eq_true, queue.empty_iff (Nat.two_pow_pos _)]
    omega

theorem one_lt_instrPerFetch (cfg : Cfg) : 1 < cfg.instrPerFetch :=
  Nat.one_lt_two_pow (Nat.ne_of_gt cfg.several)

theorem QueueOf.select1 (queue : QueueOf s all read) (fifo : Lane cfg) :
    idxDs1 s fifo = true ↔ fifo = slot read 1 := by
  rw [idxDs1, rotateLeft, queue.select, sub_eq_iff_eq_add, add_one_eq_slot]

theorem QueueOf.select2 (queue : QueueOf s all read) (fifo : Lane cfg) :
    idxDs2 s fifo = true ↔ fifo = slot read 2 := by
  rw [idxDs2, rotateLeft, queue.select1, sub_eq_iff_eq_add, slot_add_one]

theorem QueueOf.valid1 (queue : QueueOf s all read) (valid : fetchEntryValid1 s = true) :
    cfg.superscalarEn = true ∧ 1 < all.length ∧ ¬(isCf0 s = true ∧ isCf1 s = true) := by
  simp only [fetchEntryValid1, Bool.and_eq_true, Bool.not_eq_true', Bool.and_eq_false_iff] at valid
  obtain ⟨⟨superscalar, filled⟩, notBoth⟩ := valid
  refine ⟨superscalar, ?_, ?_⟩
  · by_contra short
    rw [← Bool.not_eq_true, anyLane_iff] at filled
    refine filled ⟨slot read 1, ?_⟩
    rw [Bool.and_eq_true, queue.empty_iff (one_lt_instrPerFetch cfg), queue.select1]
    exact ⟨by omega, rfl⟩
  · rintro ⟨isCf, isCf'⟩
    rw [isCf, isCf'] at notBoth
    rcases notBoth with impossible | impossible <;> cases impossible

theorem selected_eq {select : Lane cfg → Bool} {fifo : Lane cfg}
    (only : ∀ other, select other = true ↔ other = fifo) : selected select = some fifo := by
  rw [selected, filter_finRange_eq_singleton only]
  rfl

/-- The instruction in front of the `k`-th queue. -/
theorem QueueOf.dataOut (queue : QueueOf s all read) {k : Nat} (turn : k < cfg.instrPerFetch)
    (inside : k < all.length) : instrDataOut s (slot read k) = all[k].data := by
  obtain ⟨xs, holds, spread⟩ := queue.lanes k turn
  obtain ⟨rest, rfl⟩ := spread.eq_cons (by rwa [List.length_map])
  rw [instrDataOut, holds.stored, List.getElem_map]

end QueueOf

/-! ## The predicted path -/

/-- The instructions follow one another from `pc` on, up to `last`. -/
def Path (pc : BitVec cfg.vlen) : List (Consumed cfg) → BitVec cfg.vlen → Prop
  | [], last => pc = last
  | c :: rest, last => c.address = pc ∧ Path c.follower rest last

theorem Path.append {pc middle last : BitVec cfg.vlen} {all more : List (Consumed cfg)}
    (path : Path pc all middle) (further : Path middle more last) :
    Path pc (all ++ more) last := by
  induction all generalizing pc with
  | nil =>
      have same : pc = middle := path
      rwa [same]
  | cons c rest ih => exact ⟨path.1, ih path.2⟩

/-- The registers show the list of instructions and where it goes on. -/
structure Shows (s : State cfg) (all : List (Consumed cfg)) (at? : Option (BitVec cfg.vlen)) :
    Prop where
  resets : s.resetAddress = true → all = [] ∧ at? = none
  path : s.resetAddress = false → ∃ last, at? = some last ∧ Path s.pc all last

/-- Neither the RAM of the Altera target nor the second port loses anything. -/
structure Sound (s : State cfg) (i : Input cfg) : Prop where
  fresh : i.flush = false → ∀ fifo, ¬(s.fifoInstrData fifo).Stale cfg.fifo (fifoIn s i fifo)
  freshAddress : i.flush = false → ¬s.fifoAddress.Stale cfg.fifo (addressIn s i)
  plain : fire1 s i = true → cfg.rvh = true → ∀ fifo, idxDs1 s fifo = true →
    (instrDataOut s fifo).ex ≠ .none → (instrDataOut s fifo).ex ≠ .instrGuestPageFault ∧
      (instrDataOut s fifo).exGpaddr = 0 ∧ (instrDataOut s fifo).exTinst = 0 ∧
      (instrDataOut s fifo).exGva = false

section Pops

variable {s : State cfg} {i : Input cfg} {cycles : List (State cfg × Input cfg)}
  {all : List (Consumed cfg)} {read : Lane cfg} {at? : Option (BitVec cfg.vlen)}

theorem Shows.pc_path {c : Consumed cfg} {rest : List (Consumed cfg)}
    (shows' : Shows s (c :: rest) at?) : ∃ last, at? = some last ∧ Path s.pc (c :: rest) last := by
  apply shows'.path
  by_contra resets
  rw [Bool.not_eq_false] at resets
  cases (shows'.resets resets).1

theorem QueueOf.addressOut (queue : QueueOf s all read) {target : BitVec cfg.vlen}
    {more : List (BitVec cfg.vlen)} (first : targets all = target :: more) :
    addressOut s = target := by
  have holds := queue.address
  rw [first] at holds
  exact holds.stored

theorem targets_cons (c : Consumed cfg) (rest : List (Consumed cfg)) :
    targets (c :: rest) =
      if c.data.cf ≠ .noCF then c.target :: targets rest else targets rest := by
  unfold targets
  by_cases isCf : c.data.cf = .noCF
  · simp [isCf]
  · simp [isCf]

theorem QueueOf.entry0 {c : Consumed cfg} {rest : List (Consumed cfg)}
    (queue : QueueOf s (c :: rest) read) (shows' : Shows s (c :: rest) at?) :
    Matches (fetchEntry0 s) c := by
  obtain ⟨last, _, path⟩ := shows'.pc_path
  have data : instrDataOut s read = c.data := by
    have front := queue.dataOut (k := 0) (Nat.two_pow_pos _) (Nat.succ_pos _)
    rwa [slot_zero] at front
  rw [fetchEntry0, selected_eq queue.select]
  simp only [data]
  refine ⟨path.1.symm, rfl, rfl, fun isCf => ?_, ?_⟩
  · exact queue.addressOut (by rw [targets_cons, if_pos isCf])
  · refine ⟨by simp, fun _ => rfl, fun _ tvalEn => by simp [tvalEn], fun _ rvh => by simp [rvh]⟩

theorem QueueOf.isCf0_iff {c : Consumed cfg} {rest : List (Consumed cfg)}
    (queue : QueueOf s (c :: rest) read) (shows' : Shows s (c :: rest) at?) :
    isCf0 s = true ↔ c.data.cf ≠ .noCF := by
  rw [isCf0, (queue.entry0 shows').cf, bne_iff_ne]

theorem QueueOf.pcJ1 {c : Consumed cfg} {rest : List (Consumed cfg)}
    (queue : QueueOf s (c :: rest) read) (shows' : Shows s (c :: rest) at?) :
    pcJ1 s = c.follower := by
  obtain ⟨last, _, path⟩ := shows'.pc_path
  rw [InstrQueue.pcJ1, Consumed.follower, (queue.entry0 shows').instruction, path.1]
  by_cases isCf : c.data.cf ≠ .noCF
  · rw [if_pos isCf, if_pos ((queue.isCf0_iff shows').mpr isCf)]
    exact queue.addressOut (by rw [targets_cons, if_pos isCf])
  · rw [if_neg isCf, if_neg (mt (queue.isCf0_iff shows').mp isCf)]

section Second

variable {c d : Consumed cfg} {rest : List (Consumed cfg)}
  (queue : QueueOf s (c :: d :: rest) read) (shows' : Shows s (c :: d :: rest) at?)

include queue shows'

omit shows' in
theorem QueueOf.data1 : instrDataOut s (slot read 1) = d.data :=
  queue.dataOut (one_lt_instrPerFetch cfg) (by simp)

omit shows' in
theorem QueueOf.isCf1_iff : isCf1 s = true ↔ d.data.cf ≠ .noCF := by
  rw [isCf1, fetchEntry1, selected_eq queue.select1]
  simp only [queue.data1, bne_iff_ne]

theorem QueueOf.addressOut1 (notBoth : ¬(isCf0 s = true ∧ isCf1 s = true))
    (isCf : d.data.cf ≠ .noCF) : InstrQueue.addressOut s = d.target := by
  have notFirst : ¬c.data.cf ≠ .noCF := fun first =>
    notBoth ⟨(queue.isCf0_iff shows').mpr first, (queue.isCf1_iff).mpr isCf⟩
  exact queue.addressOut (by rw [targets_cons, if_neg notFirst, targets_cons, if_pos isCf])

theorem QueueOf.entry1 (notBoth : ¬(isCf0 s = true ∧ isCf1 s = true))
    (fire : fire1 s i = true) (sound : Sound s i) : Matches (fetchEntry1 s) d := by
  obtain ⟨last, _, path⟩ := shows'.pc_path
  have data := queue.data1
  have plain := sound.plain fire
  rw [fetchEntry1, selected_eq queue.select1]
  simp only [data]
  refine ⟨?_, rfl, rfl, queue.addressOut1 shows' notBoth, ?_⟩
  · exact (queue.pcJ1 shows').trans path.2.1.symm
  · refine ⟨by simp, fun some => ?_, fun _ _ => rfl, fun some rvh => ?_⟩
    · by_cases rvh : cfg.rvh = true
      · have notGuest := plain rvh _ ((queue.select1 _).mpr rfl) (by rwa [data])
        rw [data] at notGuest
        simp [notGuest.1]
      · simp [rvh]
    · have notGuest := plain rvh _ ((queue.select1 _).mpr rfl) (by rwa [data])
      rw [data] at notGuest
      exact ⟨notGuest.2.1.symm, notGuest.2.2.1.symm, notGuest.2.2.2.symm⟩

theorem QueueOf.pcJ2 (notBoth : ¬(isCf0 s = true ∧ isCf1 s = true)) :
    pcJ2 s = d.follower := by
  obtain ⟨last, _, path⟩ := shows'.pc_path
  have instruction : (fetchEntry1 s).instruction = d.data.instr := by
    rw [fetchEntry1, selected_eq queue.select1]
    simp only [queue.data1]
  rw [InstrQueue.pcJ2, Consumed.follower, instruction, queue.pcJ1 shows', path.2.1]
  by_cases isCf : d.data.cf ≠ .noCF
  · rw [if_pos isCf, if_pos ((queue.isCf1_iff).mpr isCf)]
    exact queue.addressOut1 shows' notBoth isCf
  · rw [if_neg isCf, if_neg (mt (queue.isCf1_iff).mp isCf)]

end Second

/-- What a cycle pops of the instructions. -/
structure Pops (s : State cfg) (i : Input cfg) (read : Lane cfg)
    (gone rest : List (Consumed cfg)) : Prop where
  entries : List.Forall₂ Matches (poppedNow s i) gone
  path : ∀ last, Path s.pc (gone ++ rest) last →
    Path (if fire0 s i then if fire1 s i then pcJ2 s else pcJ1 s else s.pc) rest last
  pop : ∀ k, k < cfg.instrPerFetch → popInstr s i (slot read k) = decide (k < gone.length)
  select : ∀ fifo, idxDsD s i fifo = true ↔ fifo = slot read gone.length
  address : targets rest =
    if popAddress s i then (targets (gone ++ rest)).tail else targets (gone ++ rest)
  saved : popAddress s i = true → targets (gone ++ rest) ≠ []
  few : gone.length ≤ 2

theorem QueueOf.popInstr_eq (queue : QueueOf s all read)
    (superscalar : fire1 s i = true → cfg.superscalarEn = true) {k : Nat}
    (turn : k < cfg.instrPerFetch) : popInstr s i (slot read k) =
      (decide (k = 1) && fire1 s i || decide (k = 0) && fire0 s i) := by
  have first : s.idxDs (slot read k) = decide (k = 0) := by
    rw [Bool.eq_iff_iff, queue.select, decide_eq_true_eq]
    constructor
    · intro same
      exact slot_inj turn (Nat.two_pow_pos _) (same.trans (slot_zero read).symm)
    · rintro rfl
      exact slot_zero read
  have second : idxDs1 s (slot read k) = decide (k = 1) := by
    rw [Bool.eq_iff_iff, queue.select1, decide_eq_true_eq]
    exact ⟨slot_inj turn (one_lt_instrPerFetch cfg), fun same => by rw [same]⟩
  rw [popInstr, first, second]
  cases fire : fire1 s i with
  | true =>
      rw [superscalar fire]
      by_cases one : k = 1
      · simp [one]
      · by_cases zero : k = 0 <;> simp [one, zero]
  | false =>
      by_cases one : k = 1
      · simp [one]
      · by_cases zero : k = 0 <;> simp [one, zero]

theorem fire1_false_of_fire0 (queue : QueueOf s all read) (driven : Driven cycles i)
    (idle : fire0 s i = false) : fire1 s i = false := by
  by_contra fire
  rw [Bool.not_eq_false, fire1, Bool.and_eq_true] at fire
  have valid := queue.valid0_iff.mpr (Nat.lt_of_succ_lt (queue.valid1 fire.1).2.1)
  rw [fire0, valid, driven.together fire.2] at idle
  cases idle

theorem QueueOf.pops (queue : QueueOf s all read) (shows' : Shows s all at?)
    (driven : Driven cycles i) (sound : Sound s i) :
    ∃ gone rest, all = gone ++ rest ∧ Pops s i read gone rest := by
  have superscalar : fire1 s i = true → cfg.superscalarEn = true := by
    intro fire
    rw [fire1, Bool.and_eq_true] at fire
    exact (queue.valid1 fire.1).1
  cases fire : fire0 s i with
  | false =>
      have fire' := fire1_false_of_fire0 queue driven fire
      refine ⟨[], all, rfl, ?_, ?_, ?_, ?_, ?_, ?_, by simp⟩
      · simp [poppedNow, fire, fire']
      · simp [fire]
      · intro k turn
        simp [queue.popInstr_eq superscalar turn, fire, fire']
      · intro fifo
        simp [idxDsD, fire, queue.select]
      · simp [popAddress, fire, fire']
      · simp [popAddress, fire, fire']
  | true =>
      have valid : fetchEntryValid0 s = true := by
        rw [fire0, Bool.and_eq_true] at fire
        exact fire.1
      obtain ⟨c, rest, rfl⟩ := List.exists_cons_of_length_pos (queue.valid0_iff.mp valid)
      cases fire' : fire1 s i with
      | false =>
          refine ⟨[c], rest, rfl, ?_, ?_, ?_, ?_, ?_, ?_, by simp⟩
          · simp [poppedNow, fire, fire', queue.entry0 shows']
          · intro last path
            simp only [fire, fire', if_true, Bool.false_eq_true, if_false, queue.pcJ1 shows']
            exact path.2
          · intro k turn
            simp [queue.popInstr_eq superscalar turn, fire, fire']
          · intro fifo
            simp [idxDsD, fire, fire', queue.select1]
          · simp only [popAddress, fire, fire', Bool.and_true, Bool.and_false, Bool.or_false,
              queue.isCf0_iff shows', List.singleton_append, targets_cons]
            split_ifs <;> rfl
          · simp only [popAddress, fire, fire', Bool.and_true, Bool.and_false, Bool.or_false,
              queue.isCf0_iff shows', List.singleton_append, targets_cons]
            intro isCf
            rw [if_pos isCf]
            exact List.cons_ne_nil _ _
      | true =>
          have valid' : fetchEntryValid1 s = true := by
            rw [fire1, Bool.and_eq_true] at fire'
            exact fire'.1
          obtain ⟨_, two, notBoth⟩ := queue.valid1 valid'
          obtain ⟨d, rest, rfl⟩ : ∃ d more, rest = d :: more := by
            apply List.exists_cons_of_length_pos
            rw [List.length_cons] at two
            omega
          refine ⟨[c, d], rest, rfl, ?_, ?_, ?_, ?_, ?_, ?_, by simp⟩
          · simp [poppedNow, fire, fire', queue.entry0 shows',
              queue.entry1 shows' notBoth fire' sound]
          · intro last path
            simp only [fire, fire', if_true, queue.pcJ2 shows' notBoth]
            exact path.2.2
          · intro k turn
            rw [queue.popInstr_eq superscalar turn, fire, fire']
            rw [Bool.eq_iff_iff]
            simp
            omega
          · intro fifo
            simp [idxDsD, fire, fire', queue.select2]
          · have iff0 := queue.isCf0_iff shows'
            have iff1 := queue.isCf1_iff
            simp only [popAddress, fire, fire', Bool.and_true, Bool.or_eq_true, iff0, iff1,
              List.cons_append, List.nil_append, targets_cons]
            rw [iff0, iff1] at notBoth
            split_ifs <;> simp_all
          · simp only [popAddress, fire, fire', Bool.and_true, Bool.or_eq_true,
              queue.isCf0_iff shows', queue.isCf1_iff, List.cons_append,
              List.nil_append, targets_cons]
            rintro (isCf | isCf)
            · rw [if_pos isCf]
              exact List.cons_ne_nil _ _
            · rw [if_pos isCf]
              split_ifs <;> exact List.cons_ne_nil _ _

end Pops

/-! ## Pushes -/

section Pushes

variable {s : State cfg} {i : Input cfg} {cycles : List (State cfg × Input cfg)}
  {all : List (Consumed cfg)} {read : Lane cfg} {at? : Option (BitVec cfg.vlen)}

theorem consumed_of_overflow (overflow : addressOverflow s i = true) (lane : Lane cfg) :
    consumed s i lane = false := by
  rw [consumed_eq, overflow, Bool.not_true, Bool.and_false]

theorem pushAddress_iff : pushAddress s i = true ↔ ∃ lane, unmasked i lane = true ∧
    instrQueueFull s (lane + s.idxIs) = false ∧ taken i lane = true := by
  rw [pushAddress, anyLane_iff]
  constructor
  · rintro ⟨fifo, pushed⟩
    simp only [pushInstr, fifoPos, Bool.and_eq_true, Bool.not_eq_true'] at pushed
    exact ⟨fifo - s.idxIs, pushed.1.1, by rw [sub_add_cancel]; exact pushed.1.2, pushed.2⟩
  · rintro ⟨lane, valid, room, isTaken⟩
    refine ⟨lane + s.idxIs, ?_⟩
    simp only [pushInstr, fifoPos, instrDataIn, add_sub_cancel_right, Bool.and_eq_true,
      Bool.not_eq_true']
    exact ⟨⟨valid, room⟩, isTaken⟩

/-- The queue of addresses gets the target of the consumed instructions. -/
theorem targets_consumedNow (s : State cfg) (i : Input cfg) : targets (consumedNow s i) =
    if pushAddress s i && !fullAddress s then [i.predictAddress] else [] := by
  have mapped : targets (consumedNow s i) =
      ((List.finRange cfg.instrPerFetch).filter
        fun lane => taken i lane && consumed s i lane).map fun _ => i.predictAddress := by
    rw [targets, consumedNow, List.filter_map, List.map_map, List.filter_filter]
    rfl
  rw [mapped]
  by_cases pushed : pushAddress s i = true ∧ fullAddress s = false
  · obtain ⟨lane, valid, room, isTaken⟩ := pushAddress_iff.mp pushed.1
    have only : ∀ other, (taken i other && consumed s i other) = true ↔ other = lane := by
      intro other
      rw [Bool.and_eq_true, consumed_eq, addressOverflow, pushed.2, Bool.false_and,
        Bool.not_false, Bool.and_true, Bool.and_eq_true, Bool.not_eq_true']
      constructor
      · rintro ⟨otherTaken, otherValid, _⟩
        exact le_antisymm (taken_last isTaken otherValid) (taken_last otherTaken valid)
      · rintro rfl
        exact ⟨isTaken, valid, room⟩
    rw [filter_finRange_eq_singleton only, pushed.1, pushed.2]
    rfl
  · have nothing : ∀ lane, ¬(taken i lane && consumed s i lane) = true := by
      intro lane both
      rw [Bool.and_eq_true, consumed_eq, Bool.and_eq_true, Bool.and_eq_true,
        Bool.not_eq_true', Bool.not_eq_true'] at both
      have push := pushAddress_iff.mpr ⟨lane, both.2.1.1, both.2.1.2, both.1⟩
      refine pushed ⟨push, ?_⟩
      have saved := both.2.2
      rwa [addressOverflow, push, Bool.and_true] at saved
    have condition : (pushAddress s i && !fullAddress s) = false := by
      rw [← Bool.not_eq_true, Bool.and_eq_true, Bool.not_eq_true']
      exact pushed
    rw [condition, List.filter_eq_nil_iff.mpr fun lane _ => nothing lane]
    rfl

/-- The queue asks for a replay exactly when it leaves an instruction out. -/
theorem replay_iff : replay s i = true ↔
    ∃ lane, unmasked i lane = true ∧ consumed s i lane = false := by
  rw [replay, Bool.or_eq_true]
  constructor
  · rintro (full | overflow)
    · obtain ⟨fifo, full⟩ := anyLane_iff.mp full
      rw [Bool.and_eq_true, fifoPos] at full
      refine ⟨fifo - s.idxIs, full.2, ?_⟩
      rw [consumed_eq, sub_add_cancel, full.1, Bool.not_true, Bool.and_false, Bool.false_and]
    · have push : pushAddress s i = true := by
        rw [addressOverflow, Bool.and_eq_true] at overflow
        exact overflow.2
      obtain ⟨lane, valid, _⟩ := pushAddress_iff.mp push
      exact ⟨lane, valid, consumed_of_overflow overflow lane⟩
  · rintro ⟨lane, valid, notConsumed⟩
    cases overflow : addressOverflow s i with
    | true => exact .inr rfl
    | false =>
        left
        rw [consumed_eq, valid, overflow, Bool.true_and, Bool.not_false, Bool.and_true,
          Bool.not_eq_false'] at notConsumed
        refine anyLane_iff.mpr ⟨lane + s.idxIs, ?_⟩
        rw [notConsumed, fifoPos, add_sub_cancel_right, valid]
        rfl

/-- The replay starts at the first instruction left out. -/
theorem QueueOf.replayAddr_eq (queue : QueueOf s all read) (driven : Driven cycles i)
    {lane : Lane cfg} (notConsumed : consumed s i lane = false)
    (first : ∀ earlier < lane, consumed s i earlier = true) :
    replayAddr s i = i.addr lane := by
  rw [replayAddr]
  cases overflow : addressOverflow s i with
  | true =>
      have isFirst : lane = 0 := by
        by_contra later
        have impossible := first 0 (Fin.pos_iff_ne_zero.mpr later)
        rw [consumed_of_overflow overflow] at impossible
        cases impossible
      rw [if_pos rfl, isFirst]
  | false =>
      have count : popcount s i = lane.val := by
        have beyond : ¬lane.val < popcount s i := by
          rw [← queue.consumed_iff driven, notConsumed]
          exact Bool.false_ne_true
        by_contra other
        have inside : popcount s i < lane.val := by omega
        have before := first ⟨popcount s i, by omega⟩ inside
        rw [queue.consumed_iff driven] at before
        exact absurd before (Nat.lt_irrefl _)
      have same : shamt s i = lane := by
        apply Fin.ext
        rw [shamt, count]
        exact Nat.mod_eq_of_lt lane.isLt
      rw [if_neg Bool.false_ne_true, same]

/-- The first `t` lanes continue the path. -/
theorem lanes_path (driven : Driven cycles i) {start : BitVec cfg.vlen}
    (starts : i.valid 0 = true → i.addr 0 = start) (t : Nat) (inside : t ≤ cfg.instrPerFetch)
    (valid : ∀ lane : Lane cfg, lane.val < t → unmasked i lane = true) :
    ∃ last, Path start (((List.finRange cfg.instrPerFetch).take t).map (laneConsumed i)) last ∧
      ((((List.finRange cfg.instrPerFetch).take t).map (laneConsumed i)).getLast?.map
        Consumed.follower).getD start = last ∧
      ∀ lane : Lane cfg, lane.val = t → unmasked i lane = true → i.addr lane = last := by
  induction t with
  | zero =>
      refine ⟨start, rfl, rfl, fun lane first isValid => ?_⟩
      obtain rfl : lane = 0 := Fin.ext first
      rw [unmasked, Bool.and_eq_true] at isValid
      exact starts isValid.1
  | succ t ih =>
      obtain ⟨last, path, _, goesOn⟩ := ih (by omega) fun lane before => valid lane (by omega)
      have here := valid ⟨t, inside⟩ (Nat.lt_succ_self t)
      have address := goesOn ⟨t, inside⟩ rfl here
      have split : ((List.finRange cfg.instrPerFetch).take (t + 1)).map (laneConsumed i) =
          ((List.finRange cfg.instrPerFetch).take t).map (laneConsumed i) ++
            [laneConsumed i ⟨t, inside⟩] := by
        have present : (List.finRange cfg.instrPerFetch)[t]? = some ⟨t, inside⟩ := by
          rw [List.getElem?_eq_getElem (by rw [List.length_finRange]; exact inside)]
          simp
        rw [List.take_add_one, present, List.map_append]
        rfl
      refine ⟨(laneConsumed i ⟨t, inside⟩).follower, ?_, ?_, fun lane next isValid => ?_⟩
      · rw [split]
        exact path.append ⟨address, rfl⟩
      · rw [split, List.getLast?_concat]
        rfl
      · have notTaken : ¬(laneConsumed i ⟨t, inside⟩).data.cf ≠ .noCF := by
          intro isCf
          have isTaken : taken i ⟨t, inside⟩ = true := by
            rw [taken, bne_iff_ne]
            exact isCf
          have later : lane.val ≤ t := taken_last isTaken isValid
          omega
        have notFirst : lane ≠ 0 := by
          rintro rfl
          cases next
        have before : lane - 1 = ⟨t, inside⟩ := by
          rw [sub_eq_iff_eq_add]
          apply Fin.ext
          have bound := lane.isLt
          rw [next] at bound
          rw [add_one_eq_slot, slot_val, next]
          exact (Nat.mod_eq_of_lt bound).symm
        rw [unmasked, Bool.and_eq_true] at isValid
        rw [Consumed.follower, if_neg notTaken, driven.lanes lane notFirst isValid.1, before]
        rfl

/-- A packet that starts where the path goes on takes it further, to the replay
address when there is a replay. -/
theorem QueueOf.packet (queue : QueueOf s all read) (driven : Driven cycles i)
    {start : BitVec cfg.vlen} (starts : i.valid 0 = true → i.addr 0 = start) :
    ∃ last, Path start (consumedNow s i) last ∧
      ((consumedNow s i).getLast?.map Consumed.follower).getD start = last ∧
      (replay s i = true → replayAddr s i = last) := by
  have valid : ∀ lane : Lane cfg, lane.val < popcount s i → unmasked i lane = true := by
    intro lane below
    have isConsumed := (queue.consumed_iff driven lane).mpr below
    rw [consumed_eq, Bool.and_eq_true, Bool.and_eq_true] at isConsumed
    exact isConsumed.1.1
  obtain ⟨last, path, goesOn, next⟩ :=
    lanes_path driven starts (popcount s i) (popcount_le s i) valid
  rw [← queue.consumedNow_eq driven] at path goesOn
  refine ⟨last, path, goesOn, fun isReplay => ?_⟩
  obtain ⟨lane, isValid, notConsumed⟩ := replay_iff.mp isReplay
  have beyond : popcount s i ≤ lane.val := by
    by_contra below
    rw [(queue.consumed_iff driven lane).mpr (by omega)] at notConsumed
    cases notConsumed
  -- the first lane that is left out
  have first : popcount s i < cfg.instrPerFetch := Nat.lt_of_le_of_lt beyond lane.isLt
  have out : consumed s i ⟨popcount s i, first⟩ = false := by
    rw [← Bool.not_eq_true, queue.consumed_iff driven]
    exact Nat.lt_irrefl _
  rw [queue.replayAddr_eq driven out fun earlier before =>
    (queue.consumed_iff driven earlier).mpr before]
  exact next _ rfl (unmasked_closed driven lane isValid _ beyond)

end Pushes

/-! ## One cycle -/

section Cycle

variable {s : State cfg} {i : Input cfg} {cycles : List (State cfg × Input cfg)}
  {all gone rest : List (Consumed cfg)} {read : Lane cfg} {at? : Option (BitVec cfg.vlen)}

/-- The queue of one lane after a cycle. -/
theorem QueueOf.next_lane (queue : QueueOf s (gone ++ rest) read) (driven : Driven cycles i)
    (sound : Sound s i) (pops : Pops s i read gone rest) (noFlush : i.flush = false) {k : Nat}
    (turn : k < cfg.instrPerFetch) : ∃ xs,
      ((next s i).fifoInstrData (slot (slot read gone.length) k)).Holds cfg.fifo xs ∧
        Spread cfg.instrPerFetch ((rest ++ consumedNow s i).map Consumed.data) k xs := by
  have two := one_lt_instrPerFetch cfg
  have few := pops.few
  generalize place : slot (slot read gone.length) k = fifo
  obtain ⟨old, xs, oldTurn, oldPlace, holds, spread, position⟩ :=
    queue.queue_of_lane (fifo - s.idxIs)
  rw [sub_add_cancel] at oldPlace holds
  have residue : (gone.length + k) % cfg.instrPerFetch = old := by
    rw [slot_add, ← oldPlace, ← slot_mod] at place
    exact slot_inj (Nat.mod_lt _ (by omega)) oldTurn place
  have pop : popInstr s i fifo = decide (old < gone.length) := by
    rw [← oldPlace]
    exact pops.pop old oldTurn
  have push := pushInstrFifo_eq s i fifo
  have respects : (fifoIn s i fifo).Respects fetchFifoDepth xs := by
    refine ⟨fun pushed => ?_, fun popped => ?_⟩
    · have bound : xs.length ≤ fetchFifoDepth := holds.array.1
      have notFull : ¬instrQueueFull s fifo = true := by
        change pushInstrFifo s i fifo = true at pushed
        rw [pushInstrFifo, pushInstr, Bool.and_eq_true, Bool.and_eq_true,
          Bool.not_eq_true'] at pushed
        rw [pushed.1.2]
        exact Bool.false_ne_true
      rw [instrQueueFull, holds.full_iff] at notFull
      omega
    · change popInstr s i fifo = true at popped
      rw [pop, decide_eq_true_eq] at popped
      rw [ne_eq, spread.eq_nil_iff, List.length_map, List.length_append]
      omega
  refine ⟨(fifoIn s i fifo).after xs, ?_, ?_⟩
  · exact holds.cycle respects (sound.fresh noFlush fifo) noFlush _
  · have pushed : (if pushInstrFifo s i fifo then [instrDataIn s i fifo] else []) =
        (((consumedNow s i).map Consumed.data)[(fifo - s.idxIs).val]?).toList := by
      rw [List.getElem?_map, queue.consumedNow_lane driven, push]
      split_ifs <;> rfl
    have popped : Spread cfg.instrPerFetch (rest.map Consumed.data) k
        (if popInstr s i fifo then xs.tail else xs) ∧
        k + (if popInstr s i fifo then xs.tail else xs).length * cfg.instrPerFetch =
          (rest.map Consumed.data).length + (fifo - s.idxIs).val := by
      have dropped : rest.map Consumed.data =
          ((gone ++ rest).map Consumed.data).drop gone.length := by
        rw [← List.map_drop, List.drop_left]
      rw [List.length_append] at position
      rw [pop, List.length_map, dropped]
      by_cases leaves : old < gone.length
      · have wraps : k + gone.length = old + cfg.instrPerFetch := by
          rcases Nat.lt_or_ge (gone.length + k) cfg.instrPerFetch with low | high
          · rw [Nat.mod_eq_of_lt low] at residue
            omega
          · rw [Nat.mod_eq_sub_mod high, Nat.mod_eq_of_lt (by omega)] at residue
            omega
        have nonempty : 0 < xs.length := by
          apply List.length_pos_of_ne_nil
          rw [ne_eq, spread.eq_nil_iff, List.length_map, List.length_append]
          omega
        have step : xs.length * cfg.instrPerFetch =
            (xs.length - 1) * cfg.instrPerFetch + cfg.instrPerFetch := by
          rw [← Nat.succ_mul]
          congr 1
          omega
        simp only [leaves, decide_true, if_true, List.length_tail]
        refine ⟨Spread.drop ?_, by omega⟩
        rw [wraps]
        exact spread.tail
      · have straight : k + gone.length = old := by
          rcases Nat.lt_or_ge (gone.length + k) cfg.instrPerFetch with low | high
          · rw [Nat.mod_eq_of_lt low] at residue
            omega
          · rw [Nat.mod_eq_sub_mod high, Nat.mod_eq_of_lt (by omega)] at residue
            omega
        simp only [leaves, decide_false, Bool.false_eq_true, if_false]
        refine ⟨Spread.drop ?_, by omega⟩
        rw [straight]
        exact spread
    have few : ((consumedNow s i).map Consumed.data).length ≤ cfg.instrPerFetch := by
      rw [List.length_map, queue.length_consumedNow driven]
      exact popcount_le s i
    change Spread _ _ k ((if popInstr s i fifo then xs.tail else xs) ++
      if pushInstrFifo s i fifo then [instrDataIn s i fifo] else [])
    rw [pushed, List.map_append]
    exact popped.1.append popped.2 few

theorem targets_append (left right : List (Consumed cfg)) :
    targets (left ++ right) = targets left ++ targets right := by
  simp [targets]

/-- The queues after a cycle hold what is left and what is consumed. -/
theorem QueueOf.next (queue : QueueOf s (gone ++ rest) read) (driven : Driven cycles i)
    (sound : Sound s i) (pops : Pops s i read gone rest) (noFlush : i.flush = false) :
    QueueOf (next s i) (rest ++ consumedNow s i) (slot read gone.length) where
  select fifo := by
    simp only [InstrQueue.next, noFlush, Bool.false_eq_true, if_false]
    exact pops.select fifo
  write := by
    simp only [InstrQueue.next, noFlush, Bool.false_eq_true, if_false]
    rw [queue.write, shamt, slot_add, List.length_append, List.length_append,
      queue.length_consumedNow driven, ← Nat.add_assoc, ← slot_add _ _ (popcount s i)]
    rfl
  lanes _ turn := queue.next_lane driven sound pops noFlush turn
  address := by
    have respects : (addressIn s i).Respects fetchAddrFifoDepth (targets (gone ++ rest)) := by
      refine ⟨fun pushed => ?_, pops.saved⟩
      have bound : (targets (gone ++ rest)).length ≤ fetchAddrFifoDepth := queue.address.array.1
      change (pushAddress s i && !fullAddress s) = true at pushed
      rw [Bool.and_eq_true, Bool.not_eq_true', ← Bool.not_eq_true, fullAddress,
        queue.address.full_iff] at pushed
      omega
    have after := queue.address.cycle respects (sound.freshAddress noFlush) noFlush 0
    rw [targets_append, pops.address, targets_consumedNow]
    exact after

theorem expected_append : expected (cycles ++ [(s, i)]) =
    if i.flush then none
    else if replay s i then some (replayAddr s i)
    else ((consumedNow s i).getLast?.map Consumed.follower).or (expected cycles) := by
  simp [expected, List.foldl_append]

theorem expected_path (noFlush : i.flush = false) {start last : BitVec cfg.vlen}
    (before : expected cycles = some start)
    (goesOn : ((consumedNow s i).getLast?.map Consumed.follower).getD start = last)
    (replays : replay s i = true → replayAddr s i = last) :
    expected (cycles ++ [(s, i)]) = some last := by
  rw [expected_append, noFlush, if_neg Bool.false_ne_true, before]
  split_ifs with isReplay
  · rw [replays isReplay]
  · rw [← goesOn]
    cases (consumedNow s i).getLast? <;> rfl

/-- The first packet behind a flush is consumed at least in part. -/
theorem QueueOf.consumed_first (queue : QueueOf s [] read) (valid : i.valid 0 = true) :
    consumed s i 0 = true := by
  have notFull : instrQueueFull s (0 + s.idxIs) = false := by
    rw [← Bool.not_eq_true, queue.full_iff]
    have wide := one_lt_instrPerFetch cfg
    have deep : fetchFifoDepth * cfg.instrPerFetch = 4 * cfg.instrPerFetch := rfl
    have first : (0 : Lane cfg).val = 0 := Fin.val_zero _
    rw [deep, List.length_nil, first]
    omega
  have notFullAddress : fullAddress s = false := by
    rw [← Bool.not_eq_true, fullAddress, queue.address.full_iff]
    intro impossible
    cases impossible
  rw [consumed_eq, unmasked, valid, (branchMask_iff i 0).mpr (Nat.zero_le _), notFull,
    addressOverflow, notFullAddress]
  rfl

theorem Shows.next (shows' : Shows s (gone ++ rest) (expected cycles))
    (queue : QueueOf s (gone ++ rest) read) (driven : Driven cycles i)
    (pops : Pops s i read gone rest) (noFlush : i.flush = false) :
    Shows (next s i) (rest ++ consumedNow s i) (expected (cycles ++ [(s, i)])) := by
  have resetNext : (InstrQueue.next s i).resetAddress = (!basing s i && s.resetAddress) := by
    simp [InstrQueue.next, resetAddressD, noFlush]
  cases resets : s.resetAddress with
  | false =>
      obtain ⟨start, before, path⟩ := shows'.path resets
      obtain ⟨last, further, goesOn, replays⟩ :=
        queue.packet driven fun valid => driven.starts valid start before
      have notBasing : basing s i = false := by simp [basing, resets]
      refine ⟨fun impossible => ?_, fun _ => ⟨last, ?_, ?_⟩⟩
      · rw [resetNext, resets, Bool.and_false] at impossible
        cases impossible
      · exact expected_path noFlush before goesOn replays
      · have pc : (InstrQueue.next s i).pc =
            if fire0 s i then if fire1 s i then pcJ2 s else pcJ1 s else s.pc := by
          simp [InstrQueue.next, pcD, notBasing]
        rw [pc]
        exact (pops.path start path).append further
  | true =>
      obtain ⟨empty, before⟩ := shows'.resets resets
      obtain ⟨rfl, rfl⟩ := List.append_eq_nil_iff.mp empty
      cases valid : i.valid 0 with
      | true =>
          have isBasing : basing s i = true := by simp [basing, resets, valid]
          obtain ⟨last, further, goesOn, replays⟩ := queue.packet driven fun _ => rfl
          refine ⟨fun impossible => ?_, fun _ => ⟨last, ?_, ?_⟩⟩
          · rw [resetNext, isBasing] at impossible
            cases impossible
          · have some : consumedNow s i ≠ [] := by
              have first := queue.consumedNow_lane driven 0
              rw [if_pos (queue.consumed_first valid)] at first
              rintro none
              rw [none] at first
              cases first
            rw [expected_append, noFlush, if_neg Bool.false_ne_true]
            split_ifs with isReplay
            · rw [replays isReplay]
            · rw [List.getLast?_eq_some_getLast some] at goesOn ⊢
              rw [← goesOn]
              rfl
          · have pc : (InstrQueue.next s i).pc = i.addr 0 := by
              simp [InstrQueue.next, pcD, isBasing]
            rw [pc]
            exact further
      | false =>
          have nothing : ∀ lane, unmasked i lane = false := by
            intro lane
            by_contra isValid
            rw [Bool.not_eq_false, unmasked, Bool.and_eq_true] at isValid
            rw [driven.contiguous lane isValid.1 0 (Fin.zero_le lane)] at valid
            cases valid
          have none : consumedNow s i = [] := by
            rw [consumedNow, List.filter_eq_nil_iff.mpr, List.map_nil]
            intro lane _ isConsumed
            rw [consumed_eq, nothing lane] at isConsumed
            cases isConsumed
          have noReplay : replay s i = false := by
            rw [← Bool.not_eq_true, replay_iff]
            rintro ⟨lane, isValid, _⟩
            rw [nothing lane] at isValid
            cases isValid
          refine ⟨fun _ => ⟨by rw [none]; rfl, ?_⟩, fun impossible => ?_⟩
          · rw [expected_append, noFlush, noReplay, none, before]
            rfl
          · rw [resetNext, resets, basing, valid] at impossible
            cases impossible

theorem QueueOf.next_flush (flush : i.flush = true) : QueueOf (InstrQueue.next s i) [] 0 where
  select fifo := by simp [InstrQueue.next, flush, onlyFirst]
  write := by simp [InstrQueue.next, flush]
  lanes k _ := ⟨[], Fifo.Holds.cycle_flush flush _, Spread.nil _ _⟩
  address := Fifo.Holds.cycle_flush flush _

theorem Shows.next_flush (flush : i.flush = true) :
    Shows (InstrQueue.next s i) [] (expected (cycles ++ [(s, i)])) where
  resets _ := ⟨rfl, by rw [expected_append, if_pos flush]⟩
  path impossible := by simp [InstrQueue.next, flush] at impossible

end Cycle

/-! ## Runs -/

section Runs

variable {s : State cfg} {i : Input cfg} {cycles : List (State cfg × Input cfg)}

/-- What holds between two cycles: popped entries are consumed instructions, and the
queues hold the others. -/
def Between (cycles : List (State cfg × Input cfg)) (s : State cfg) : Prop :=
  ∃ gone all read, (logs cycles).1 = gone ++ all ∧ List.Forall₂ Matches (logs cycles).2 gone ∧
    QueueOf s all read ∧ Shows s all (expected cycles)

theorem logs_append : logs (cycles ++ [(s, i)]) =
    if i.flush then ([], [])
    else ((logs cycles).1 ++ consumedNow s i, (logs cycles).2 ++ poppedNow s i) := by
  simp [logs, List.foldl_append]

/-- The machine whose cycles are sound. -/
def soundMachine (cfg : Cfg) : Clocked.Machine (State cfg) (Input cfg) :=
  (machine cfg).restrict fun _ s i => Sound s i

theorem between_reset : Between [] (reset cfg) := by
  refine ⟨[], [], 0, rfl, .nil, ⟨?_, ?_, ?_, ?_⟩, ⟨fun _ => ⟨rfl, rfl⟩, ?_⟩⟩
  · intro fifo
    simp [reset, onlyFirst]
  · simp [reset]
  · exact fun k _ => ⟨[], Fifo.reset_holds _, Spread.nil _ _⟩
  · exact Fifo.reset_holds _
  · intro impossible
    cases impossible

theorem Between.next (between : Between cycles s) (driven : Driven cycles i)
    (sound : Sound s i) : Between (cycles ++ [(s, i)]) (next s i) := by
  obtain ⟨gone, all, read, split, matched, queue, shows'⟩ := between
  cases flush : i.flush with
  | true =>
      refine ⟨[], [], 0, ?_, ?_, QueueOf.next_flush flush, Shows.next_flush flush⟩
      · rw [logs_append, if_pos flush]
        rfl
      · rw [logs_append, if_pos flush]
        exact .nil
  | false =>
      obtain ⟨now, rest, rfl, pops⟩ := queue.pops shows' driven sound
      refine ⟨gone ++ now, rest ++ consumedNow s i, _, ?_, ?_,
        queue.next driven sound pops flush, shows'.next queue driven pops flush⟩
      · simp [logs_append, flush, split]
      · simpa [logs_append, flush] using List.rel_append matched pops.entries

theorem between_run (run : (soundMachine cfg).Run cycles s) : Between cycles s := by
  refine run.invariant Between between_reset ?_
  intro cycles s i _ between allowed
  exact between.next allowed.1 allowed.2

/-- In a run of sound cycles the popped entries are the consumed instructions. -/
theorem instrQueue_streams (cfg : Cfg) {cycles : List (State cfg × Input cfg)} {s : State cfg}
    {i : Input cfg} (run : (soundMachine cfg).Run cycles s)
    (allowed : (soundMachine cfg).allowed cycles s i) : Streams cycles s i := by
  obtain ⟨gone, all, read, split, matched, queue, shows'⟩ := between_run run
  obtain ⟨driven, sound⟩ := allowed
  obtain ⟨now, rest, rfl, pops⟩ := queue.pops shows' driven sound
  refine ⟨⟨gone ++ now, rest, ?_, List.rel_append matched pops.entries⟩, ?_, ?_, replay_iff, ?_⟩
  · rw [split, List.append_assoc]
  · rw [queue.valid0_iff, split, matched.length_eq]
    simp only [List.length_append]
    omega
  · intro lane isConsumed
    refine ⟨?_, queue.consumed_closed driven lane isConsumed⟩
    rw [consumed_eq, unmasked, Bool.and_eq_true, Bool.and_eq_true, Bool.and_eq_true]
      at isConsumed
    exact isConsumed.1.1.1
  · intro _ lane _ notConsumed first
    exact queue.replayAddr_eq driven notConsumed first

/-- Two issue ports and the hypervisor extension. -/
def dualCfg : Cfg where
  log2InstrPerFetch := 2
  several := Nat.two_pos
  vlen := 39
  xlen := 64
  gplen := 41
  superscalarEn := true
  rvh := true
  tvalEn := true
  fpgaEn := false
  fpgaAlteraEn := false

/-- A packet of `count` instructions. -/
def packet (count : Nat) (ex : FrontendException) (ready : Bool) : Input dualCfg where
  flush := false
  instr _ := 0x13
  addr lane := BitVec.ofNat 39 (0x80000000 + 4 * lane.val)
  valid lane := decide (lane.val < count)
  exception := ex
  exceptionAddr := 0x80000000
  exceptionGpaddr := 0
  exceptionTinst := 0
  exceptionGva := false
  predictAddress := 0
  cfType _ := .noCF
  fetchEntryReady _ := ready

/-- The cycle in which two instructions arrive. -/
def arrival (ex : FrontendException) : State dualCfg × Input dualCfg :=
  (reset dualCfg, packet 2 ex false)

theorem packet_lanes (count : Nat) (ex : FrontendException) (ready : Bool)
    (lane : Lane dualCfg) (notFirst : lane ≠ 0) : (packet count ex ready).addr lane =
      (packet count ex ready).addr (lane - 1) +
        instrLength dualCfg ((packet count ex ready).instr (lane - 1)) := by
  have long : instrLength dualCfg 0x13 = 4 := by decide
  have next : lane.val = (lane - 1).val + 1 := by
    revert notFirst
    revert lane
    decide
  change BitVec.ofNat dualCfg.vlen (0x80000000 + 4 * lane.val) =
    BitVec.ofNat dualCfg.vlen (0x80000000 + 4 * (lane - 1).val) + instrLength dualCfg 0x13
  rw [long, next, Nat.mul_add, ← Nat.add_assoc, BitVec.ofNat_add]
  rfl

theorem packet_driven {cycles : List (State dualCfg × Input dualCfg)} {count : Nat}
    {ex : FrontendException} {ready : Bool} (first : count = 0 ∨ cycles = []) :
    Driven cycles (packet count ex ready) where
  contiguous lane valid earlier before := by
    simp only [packet, decide_eq_true_eq] at valid ⊢
    exact Nat.lt_of_le_of_lt before valid
  starts valid address member := by
    rcases first with rfl | rfl
    · cases valid
    · cases member
  lanes lane notFirst _ := packet_lanes count ex ready lane notFirst
  together := id

theorem dualCfg_sound {s : State dualCfg} {i : Input dualCfg}
    (plain : ∀ fifo, idxDs1 s fifo = true → (instrDataOut s fifo).ex = .none) : Sound s i where
  fresh _ _ stale := by cases stale.1
  freshAddress _ stale := by cases stale.1
  plain _ _ fifo selected some := absurd (plain fifo selected) some

theorem instrQueue_streams_pair :
    Streams [arrival .none] (next (arrival .none).1 (arrival .none).2) (packet 0 .none true) :=
  instrQueue_streams dualCfg
    (.cycle .reset ⟨packet_driven (.inr rfl), dualCfg_sound (by decide)⟩)
    ⟨packet_driven (.inl rfl), dualCfg_sound (by decide)⟩

/-- A guest page fault is popped from the second port as a page fault. -/
theorem instrQueue_drops_guest :
    ¬∀ (cfg : Cfg) (cycles : List (State cfg × Input cfg)) (s : State cfg) (i : Input cfg),
      (machine cfg).Run cycles s → (machine cfg).allowed cycles s i → Streams cycles s i := by
  intro all
  have run : (machine dualCfg).Run [arrival .instrGuestPageFault] _ :=
    .cycle .reset (packet_driven (.inr rfl))
  obtain ⟨gone, rest, split, matched⟩ :=
    (all dualCfg _ _ (packet 0 .none true) run (packet_driven (.inl rfl))).popped
  have faults : (logs [arrival .instrGuestPageFault]).1.map (fun c => c.data.ex) =
      [.instrGuestPageFault, .instrGuestPageFault] := by decide
  have causes : ((logs [arrival .instrGuestPageFault]).2 ++
      poppedNow (next (arrival .instrGuestPageFault).1 (arrival .instrGuestPageFault).2)
        (packet 0 .none true)).map (fun entry => entry.ex.cause) = [20, 12] := by decide
  have reported : List.Forall₂ (fun (cause : BitVec dualCfg.xlen) ex => ex = .instrGuestPageFault →
      cause = 20) [20, 12] (gone.map fun c => c.data.ex) := by
    rw [← causes]
    refine List.forall₂_map_left_iff.mpr (List.forall₂_map_right_iff.mpr (matched.imp ?_))
    intro entry c same fault
    rw [same.ex.cause (by rw [fault]; decide), fault]
    rfl
  have whole : gone.map (fun c => c.data.ex) = [.instrGuestPageFault, .instrGuestPageFault] := by
    have length := reported.length_eq
    rw [split, List.map_append] at faults
    rw [← @List.take_left _ (gone.map fun c => c.data.ex), faults, ← length]
    rfl
  rw [whole, List.forall₂_cons, List.forall₂_cons] at reported
  exact absurd (reported.2.1 rfl) (by decide)

end Runs

end Cva6.InstrQueue
