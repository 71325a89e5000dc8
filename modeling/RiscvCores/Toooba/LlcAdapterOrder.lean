import Mathlib.Tactic.IntervalCases
import RiscvCores.Toooba.LlcAdapterReads

/-!
# Memory order through the LLC adapter

A load goes out only when every earlier write-back has been performed, and no later one
touches its line before it is answered; so its response is the line after exactly the
write-backs before it.
-/

set_option autoImplicit false

namespace Toooba.LlcAdapter

open Toooba.AXI4 Link

variable {idT childT : Type}

/-- The responses of the loads: each reads memory after the write-backs before it. -/
def responses (mem : Mem) : List (ToMemMsg idT childT) → List (MemRsMsg idT childT)
  | [] => []
  | .Ld ld :: rest =>
      { data := mem.line (lineAddr ld.addr), child := ld.child, id := ld.id } ::
        responses mem rest
  | .Wb wb :: rest => responses (wb.apply mem) rest

theorem responses_append (mem : Mem) (before after : List (ToMemMsg idT childT)) :
    responses mem (before ++ after) =
      responses mem before ++ responses (afterWrites mem (writes before)) after := by
  induction before generalizing mem with
  | nil => rfl
  | cons msg rest ih =>
      cases msg with
      | Ld ld => exact congrArg (_ :: ·) (ih mem)
      | Wb wb => exact ih (wb.apply mem)

/-- A response carries the names of its load. -/
theorem responses_getElem? {mem : Mem} {msgs : List (ToMemMsg idT childT)} {i : Nat}
    {ld : LdMemRq idT childT} {r : MemRsMsg idT childT} (load : (loads msgs)[i]? = some ld)
    (response : (responses mem msgs)[i]? = some r) : r.child = ld.child ∧ r.id = ld.id := by
  induction msgs generalizing mem i with
  | nil => simp at load
  | cons msg rest ih =>
      cases msg with
      | Wb wb => exact @ih (wb.apply mem) i load response
      | Ld first =>
          cases i with
          | zero =>
              rw [loads_ld, List.getElem?_cons_zero, Option.some.injEq] at load
              rw [responses, List.getElem?_cons_zero, Option.some.injEq] at response
              subst load response
              exact ⟨rfl, rfl⟩
          | succ i => exact @ih mem i load response

theorem responses_length (mem : Mem) (msgs : List (ToMemMsg idT childT)) :
    (responses mem msgs).length = (loads msgs).length := by
  induction msgs generalizing mem with
  | nil => rfl
  | cons msg rest ih =>
      cases msg with
      | Ld ld => exact congrArg (· + 1) (ih mem)
      | Wb wb => exact ih (wb.apply mem)

/-! ## Lines -/

theorem lineWord_shift_last (rdata : Data) (cline : BitVec 512) :
    lineWord (rdata ++ cline.extractLsb' 64 448) 7 = rdata := by
  apply BitVec.eq_of_getLsbD_eq
  intro j below
  have past : ¬ 448 + j < 448 := by omega
  simp only [lineWord, BitVec.getLsbD_extractLsb', BitVec.getLsbD_append, below, past,
    decide_true, Bool.true_and, if_false, Nat.reduceMul, Nat.add_sub_cancel_left]

theorem lineWord_shift (rdata : Data) (cline : BitVec 512) {k : Nat} (inside : k < 7) :
    lineWord (rdata ++ cline.extractLsb' 64 448) k = lineWord cline (k + 1) := by
  apply BitVec.eq_of_getLsbD_eq
  intro j below
  have low : 64 * k + j < 448 := by omega
  have place : 64 + (64 * k + j) = 64 * (k + 1) + j := by omega
  simp only [lineWord, BitVec.getLsbD_extractLsb', BitVec.getLsbD_append, below, low, place,
    decide_true, Bool.true_and, if_true]

theorem line_ext {a b : Line} (words : ∀ k < 8, lineWord a k = lineWord b k) : a = b := by
  apply BitVec.eq_of_getLsbD_eq
  intro j below
  have bits := congrArg (·.getLsbD (j % 64)) (words (j / 64) (by omega))
  have small : j % 64 < 64 := Nat.mod_lt _ (by decide)
  simpa only [lineWord, BitVec.getLsbD_extractLsb', small, decide_true, Bool.true_and,
    Nat.div_add_mod] using bits

theorem extract_low {v w start : Nat} (high : BitVec v) (low : BitVec w)
    (inside : start + 64 ≤ w) : (high ++ low).extractLsb' start 64 = low.extractLsb' start 64 := by
  apply BitVec.eq_of_getLsbD_eq
  intro j below
  have under : start + j < w := by omega
  simp only [BitVec.getLsbD_extractLsb', BitVec.getLsbD_append, below, under, decide_true,
    Bool.true_and, if_true]

theorem extract_past {v w start : Nat} (high : BitVec v) (low : BitVec w) (past : w ≤ start) :
    (high ++ low).extractLsb' start 64 = high.extractLsb' (start - w) 64 := by
  apply BitVec.eq_of_getLsbD_eq
  intro j below
  have over_low : ¬ start + j < w := by omega
  have place : start + j - w = start - w + j := by omega
  simp only [BitVec.getLsbD_extractLsb', BitVec.getLsbD_append, below, over_low, place,
    decide_true, Bool.true_and, if_false]

theorem lineWord_line (mem : Mem) (line : BitVec 58) {k : Nat} (inside : k < 8) :
    lineWord (mem.line line) k = mem (line ++ BitVec.ofNat 3 k) := by
  unfold lineWord Mem.line
  interval_cases k
  all_goals
    simp (disch := decide) only [Nat.reduceMul, Nat.reduceSub, extract_low, extract_past,
      BitVec.extractLsb'_eq_self]

theorem line_apply {mem : Mem} {wb : WbMemRs} {line : BitVec 58}
    (other : line ≠ lineAddr wb.addr) : (wb.apply mem).line line = mem.line line := by
  have word (k : BitVec 3) : wb.apply mem (line ++ k) = mem (line ++ k) := by
    rw [WbMemRs.apply, lineOf_append, if_neg other]
  simp only [Mem.line, word]

/-! ## Lines that are being loaded -/

/-- A write-back behind a load is for another line. -/
def Apart (before after : ToMemMsg idT childT) : Prop :=
  ∀ ld wb, before = .Ld ld → after = .Wb wb → lineAddr ld.addr ≠ lineAddr wb.addr

structure ApartInv (s : Link idT childT) : Prop where
  pending : ∀ ld ∈ s.adapter.f_pending_reads, ∀ wb ∈ (writes s.asked).drop s.memory.wrDone,
    lineAddr ld.addr ≠ lineAddr wb.addr
  queue : s.toM.Pairwise Apart

theorem mem_loads {ld : LdMemRq idT childT} {msgs : List (ToMemMsg idT childT)}
    (there : .Ld ld ∈ msgs) : ld ∈ loads msgs :=
  List.mem_filterMap.mpr ⟨_, there, rfl⟩

theorem mem_of_mem_writes {wb : WbMemRs} {msgs : List (ToMemMsg idT childT)}
    (there : wb ∈ writes msgs) : .Wb wb ∈ msgs := by
  obtain ⟨msg, member, same⟩ := List.mem_filterMap.mp there
  cases msg with
  | Ld ld => exact nomatch same
  | Wb other =>
      rw [← Option.some.inj same]
      exact member

theorem ReadInv.unanswered {s : Link idT childT} (inv : ReadInv s) :
    s.unanswered = s.adapter.f_pending_reads ++ loads s.toM := by
  have answered := inv.answered_le
  rw [Link.unanswered, Link.asked, loads_append, List.drop_append_of_le_length (by omega),
    inv.pending]

/-- Before a load goes out every write-back in front of it has been performed. -/
theorem WriteInv.all_done {s : Link idT childT} (inv : WriteInv s) {ld : LdMemRq idT childT}
    {rest : List (ToMemMsg idT childT)} (queue : s.toM = .Ld ld :: rest)
    (none_pending : s.adapter.ctr_wr_rsps_pending = 0) :
    s.memory.wrDone = (writes s.taken).length := by
  have first : s.adapter.rg_wr_req_beat = 0 := by
    by_contra later
    obtain ⟨wb, others, other⟩ := inv.head later
    rw [queue] at other
    exact nomatch other
  have started : s.started = (writes s.taken).length := by
    rw [Link.started, if_pos first, Nat.add_zero]
  have sent := congrArg List.length inv.addrs
  rw [List.length_map, List.length_take, Nat.min_eq_left inv.started_le.1] at sent
  have split : s.awSent.length = s.memory.wrAddrs.length + s.adapter.wr_addr.toList.length :=
    List.length_append
  have counter := inv.counter
  have resp := inv.resp
  have sent_le := inv.sent_le
  have done_le := inv.done_le
  omega

theorem ApartInv.toM {s : Link idT childT} (reads : ReadInv s) (inv : ApartInv s)
    {msg : ToMemMsg idT childT} (allowed : s.sends msg) : ApartInv (s.step (.toM msg)) := by
  have asked : (s.step (.toM msg)).asked = s.asked ++ [msg] :=
    (List.append_assoc s.taken s.toM [msg]).symm
  have fresh : ∀ ld ∈ s.adapter.f_pending_reads ++ loads s.toM, ∀ wb, msg = .Wb wb →
      lineAddr ld.addr ≠ lineAddr wb.addr := by
    rintro ld member wb rfl
    exact allowed ld (reads.unanswered ▸ member)
  constructor
  · intro ld member wb there
    rw [asked, writes_append, List.drop_append] at there
    rcases List.mem_append.mp there with old | new
    · exact inv.pending ld member wb old
    · have last := mem_of_mem_writes (List.mem_of_mem_drop new)
      exact fresh ld (List.mem_append_left _ member) wb (List.mem_singleton.mp last).symm
  · refine List.pairwise_append.mpr ⟨inv.queue, List.pairwise_singleton _ _, ?_⟩
    rintro before member after last ld wb rfl rfl
    exact fresh ld (List.mem_append_right _ (mem_loads member)) wb (List.mem_singleton.mp last).symm

theorem ApartInv.read_req {s : Link idT childT} {ld : LdMemRq idT childT}
    {rest : List (ToMemMsg idT childT)} (write : WriteInv s) (inv : ApartInv s)
    (queue : s.toM = .Ld ld :: rest) (none_pending : s.adapter.ctr_wr_rsps_pending = 0) :
    ApartInv (s.step .rl_handle_read_req) := by
  have done := write.all_done queue none_pending
  have same := (read_req_same write queue).asked
  have apart := inv.queue
  rw [queue, List.pairwise_cons] at apart
  constructor
  · intro load member wb there
    rw [same, (read_req_same write queue).wrDone] at there
    simp only [Link.step, queue] at member
    rcases List.mem_append.mp member with old | new
    · exact inv.pending load old wb there
    · rw [List.mem_singleton.mp new]
      rw [Link.asked, queue, writes_append, writes_ld, done, List.drop_left] at there
      exact apart.1 _ (mem_of_mem_writes there) ld wb rfl rfl
  · simp only [Link.step, queue]
    exact apart.2

theorem ApartInv.same {s s' : Link idT childT} (inv : ApartInv s) (asked : s'.asked = s.asked)
    (pending : s'.adapter.f_pending_reads ⊆ s.adapter.f_pending_reads)
    (done : s.memory.wrDone ≤ s'.memory.wrDone) (toM : s'.toM.Sublist s.toM) : ApartInv s' := by
  constructor
  · intro ld member wb there
    rw [asked] at there
    exact inv.pending ld (pending member) wb (List.drop_subset_drop_left _ done there)
  · exact inv.queue.sublist toM

theorem ApartInv.next {s : Link idT childT} {e : Event idT childT} (write : WriteInv s)
    (reads : ReadInv s) (inv : ApartInv s) (allowed : s.allows e) : ApartInv (s.step e) := by
  have refl : s.adapter.f_pending_reads ⊆ s.adapter.f_pending_reads := List.Subset.refl _
  cases e with
  | toM msg => exact inv.toM reads allowed
  | rl_handle_read_req =>
      obtain ⟨⟨ld, rest, queue⟩, none_pending, -⟩ := allowed
      exact inv.read_req write queue none_pending
  | rl_handle_read_rsps =>
      refine inv.same rfl ?_ (Nat.le_refl _) (List.Sublist.refl _)
      simp only [Link.step, Adapter.rl_handle_read_rsps]
      split
      · exact List.Sublist.subset (List.tail_sublist _)
      · exact refl
  | rl_handle_write_req =>
      obtain ⟨wb, rest, queue⟩ := allowed.1
      have did := write_req_beat queue allowed
      have same := write_req_reads allowed
      refine inv.same (write_req_asked queue allowed) (same.pending ▸ refl)
        (Nat.le_of_eq (by rw [did.memory])) ?_
      rw [did.toM, queue]
      split
      · exact List.sublist_cons_self _ _
      · exact List.Sublist.refl _
  | rl_discard_write_rsp => exact inv.same rfl refl (Nat.le_refl _) (List.Sublist.refl _)
  | m_arready words =>
      simp only [Link.step]
      split
      · exact inv.same rfl refl (Nat.le_refl _) (List.Sublist.refl _)
      · exact inv
  | m_awready => exact inv.same rfl refl (Nat.le_refl _) (List.Sublist.refl _)
  | m_wready => exact inv.same rfl refl (Nat.le_refl _) (List.Sublist.refl _)
  | m_rvalid rvalid lines =>
      simp only [Link.step, Adapter.m_rvalid]
      split <;> exact inv.same rfl refl (Nat.le_refl _) (List.Sublist.refl _)
  | m_bvalid resp => exact inv.same rfl refl (Nat.le_refl _) (List.Sublist.refl _)
  | perform_read i => exact inv.same rfl refl (Nat.le_refl _) (List.Sublist.refl _)
  | perform_write =>
      simp only [Link.step]
      split
      · exact inv.same rfl refl (Nat.le_succ _) (List.Sublist.refl _)
      · exact inv

/-! ## Values -/

/-- What the loads read: `line` of a load that waits is still its line in memory, `words`
are those of a performed burst, and the line being assembled has its first words on top. -/
structure ValueInv (mem₀ : Mem) (s : Link idT childT) : Prop where
  answers : s.rsFromM = (responses mem₀ s.taken).take s.rsFromM.length
  line : ∀ (i : Nat) (ld : LdMemRq idT childT) (r : MemRsMsg idT childT),
    s.rsFromM.length ≤ i → (loads s.taken)[i]? = some ld →
    (responses mem₀ s.taken)[i]? = some r → s.memory.mem.line (lineAddr ld.addr) = r.data
  words : ∀ (i : Nat) (b : ReadBurst) (r : MemRsMsg idT childT),
    s.memory.reads[i]? = some b → b.performed = true →
    (responses mem₀ s.taken)[i]? = some r → ∀ k < 8, b.words k = lineWord r.data k
  cline : ∀ b : ReadBurst, s.memory.reads[s.rsFromM.length]? = some b →
    ∀ j < s.adapter.rg_rd_rsp_beat.toNat,
      lineWord s.adapter.rg_cline (8 - s.adapter.rg_rd_rsp_beat.toNat + j) = b.words j

/-- The values depend on nothing else. -/
theorem ValueInv.same {mem₀ : Mem} {s s' : Link idT childT} (inv : ValueInv mem₀ s)
    (answer : responses mem₀ s'.taken = responses mem₀ s.taken)
    (load : loads s'.taken = loads s.taken) (rsFromM : s'.rsFromM = s.rsFromM)
    (mem : s'.memory.mem = s.memory.mem) (reads : s'.memory.reads = s.memory.reads)
    (beat : s'.adapter.rg_rd_rsp_beat = s.adapter.rg_rd_rsp_beat)
    (cline : s'.adapter.rg_cline = s.adapter.rg_cline) : ValueInv mem₀ s' := by
  constructor
  · rw [rsFromM, answer]
    exact inv.answers
  · rw [rsFromM, load, answer, mem]
    exact inv.line
  · rw [answer, reads]
    exact inv.words
  · rw [rsFromM, reads, beat, cline]
    exact inv.cline

theorem ValueInv.read_req {mem₀ : Mem} {s : Link idT childT} {ld : LdMemRq idT childT}
    {rest : List (ToMemMsg idT childT)} (write : WriteInv s) (memory : MemInv mem₀ s)
    (reads : ReadInv s) (inv : ValueInv mem₀ s) (queue : s.toM = .Ld ld :: rest)
    (none_pending : s.adapter.ctr_wr_rsps_pending = 0) :
    ValueInv mem₀ (s.step .rl_handle_read_req) := by
  have answered := reads.answered_le
  have long := responses_length mem₀ s.taken
  have done := write.all_done queue none_pending
  have now : s.memory.mem = afterWrites mem₀ (writes s.taken) := by
    rw [memory, done, Link.asked, writes_append, List.take_left]
  have appended := responses_append mem₀ s.taken [.Ld ld]
  simp only [Link.step, queue]
  constructor
  · change s.rsFromM = (responses mem₀ (s.taken ++ [.Ld ld])).take s.rsFromM.length
    rw [appended, List.take_append_of_le_length (by omega)]
    exact inv.answers
  · intro i load r past there response
    change (loads (s.taken ++ [.Ld ld]))[i]? = some load at there
    change (responses mem₀ (s.taken ++ [.Ld ld]))[i]? = some r at response
    change s.memory.mem.line (lineAddr load.addr) = r.data
    rw [loads_append] at there
    rw [appended] at response
    by_cases old : i < (loads s.taken).length
    · rw [List.getElem?_append_left old] at there
      rw [List.getElem?_append_left (by omega)] at response
      exact inv.line i load r past there response
    · rw [List.getElem?_append_right (by omega), loads_ld] at there
      rw [List.getElem?_append_right (by omega), long, responses] at response
      have zero : i - (loads s.taken).length = 0 := by
        have inside := (List.getElem?_eq_some_iff.mp there).1
        simp at inside
        omega
      rw [zero, List.getElem?_cons_zero, Option.some.injEq] at there response
      subst there response
      rw [now]
  · intro i b r burst performed response
    change (responses mem₀ (s.taken ++ [.Ld ld]))[i]? = some r at response
    have inside := (List.getElem?_eq_some_iff.mp burst).1
    have inside : i < s.memory.reads.length := inside
    rw [appended, List.getElem?_append_left (by omega)] at response
    exact inv.words i b r burst performed response
  · exact inv.cline

theorem ValueInv.perform_read {mem₀ : Mem} {s : Link idT childT} (reads : ReadInv s)
    (inv : ValueInv mem₀ s) {i : Nat} (allowed : s.allows (.perform_read i)) :
    ValueInv mem₀ (s.step (.perform_read i)) := by
  obtain ⟨b, burst, waiting, read⟩ := allowed
  refine ⟨inv.answers, inv.line, ?_, ?_⟩
  · intro j other r there performed response k inside
    obtain ⟨b₀, before, -, words, done⟩ := performed_getElem? there
    rw [words]
    rcases done.mp performed with rfl | already
    · rw [burst, Option.some.injEq] at before
      subst before
      obtain ⟨ld, load, address⟩ := reads.burst burst
      have past : s.rsFromM.length ≤ i := by
        by_contra before
        have sent := reads.sent
        have done := reads.performed i b burst (by omega)
        rw [waiting] at done
        exact absurd done (by decide)
      have seven : k ≤ b.ar.arlen.toNat := by
        rw [reads.arlen (List.mem_of_getElem? burst)]
        exact Nat.lt_succ_iff.mp inside
      rw [read k seven, ← inv.line i ld r past load response, lineWord_line _ _ inside, address]
      exact congrArg s.memory.mem (beatIndex_line (lineAddr ld.addr) inside)
    · exact inv.words j b₀ r before already response k inside
  · intro other there j below
    obtain ⟨b₀, before, -, words, -⟩ := performed_getElem? there
    rw [words]
    exact inv.cline b₀ before j below

theorem ValueInv.perform_write {mem₀ : Mem} {s : Link idT childT} (write : WriteInv s)
    (reads : ReadInv s) (apart : ApartInv s) (inv : ValueInv mem₀ s)
    (allowed : s.allows .perform_write) : ValueInv mem₀ (s.step .perform_write) := by
  obtain ⟨wb, next, written, -⟩ := perform_write_mem write allowed
  have line : ∀ i ld r, s.rsFromM.length ≤ i → (loads s.taken)[i]? = some ld →
      (responses mem₀ s.taken)[i]? = some r →
      (s.step .perform_write).memory.mem.line (lineAddr ld.addr) = r.data := by
    intro i ld r past load response
    have waiting : ld ∈ s.adapter.f_pending_reads := by
      rw [reads.pending]
      refine List.mem_of_getElem? (i := i - s.rsFromM.length) ?_
      rw [List.getElem?_drop, Nat.add_sub_of_le past]
      exact load
    have later : wb ∈ (writes s.asked).drop s.memory.wrDone := by
      refine List.mem_of_getElem? (i := 0) ?_
      rw [List.getElem?_drop]
      exact next
    rw [written, line_apply (apart.pending ld waiting wb later)]
    exact inv.line i ld r past load response
  have same : (s.step .perform_write).taken = s.taken ∧
      (s.step .perform_write).rsFromM = s.rsFromM ∧
      (s.step .perform_write).adapter = s.adapter ∧
      (s.step .perform_write).memory.reads = s.memory.reads := by
    simp only [Link.step]
    split <;> exact ⟨rfl, rfl, rfl, rfl⟩
  obtain ⟨taken, rsFromM, adapter, bursts⟩ := same
  constructor
  · rw [rsFromM, taken]
    exact inv.answers
  · rw [rsFromM, taken]
    exact line
  · rw [taken, bursts]
    exact inv.words
  · rw [rsFromM, adapter, bursts]
    exact inv.cline

theorem ValueInv.arready {mem₀ : Mem} {s : Link idT childT} (readInv : ReadInv s)
    (inv : ValueInv mem₀ s) (words : Nat → Data) (allowed : s.allows (.m_arready words)) :
    ValueInv mem₀ (s.step (.m_arready words)) := by
  obtain ⟨ar, slot⟩ := Option.ne_none_iff_exists'.mp allowed
  simp only [Link.step, slot]
  refine ⟨inv.answers, inv.line, ?_, ?_⟩
  · intro i b r there performed response
    by_cases old : i < s.memory.reads.length
    · exact inv.words i b r ((List.getElem?_append_left old).symm.trans there) performed response
    · have new : (s.memory.reads ++ [ReadBurst.mk ar words false])[i]? =
          [ReadBurst.mk ar words false][i - s.memory.reads.length]? :=
        List.getElem?_append_right (Nat.le_of_not_lt old)
      have last : b = ReadBurst.mk ar words false := by
        have member := List.mem_of_getElem? (new.symm.trans there)
        exact List.mem_singleton.mp member
      rw [last] at performed
      cases performed
  · intro b there j below
    by_cases old : s.rsFromM.length < s.memory.reads.length
    · exact inv.cline b ((List.getElem?_append_left old).symm.trans there) j below
    · have sent := readInv.sent
      have sent_le := readInv.sent_le
      have below : j < s.adapter.rg_rd_rsp_beat.toNat := below
      omega

/-- After the shift of a beat one more word of the burst is on top of the line. -/
theorem ValueInv.shifted {mem₀ : Mem} {s : Link idT childT}
    (inv : ValueInv mem₀ s) {b : ReadBurst}
    (burst : s.memory.reads[s.rsFromM.length]? = some b)
    (beat : s.adapter.rg_rd_data = b.beat s.adapter.rg_rd_rsp_beat.toNat) {j : Nat}
    (below : j < s.adapter.rg_rd_rsp_beat.toNat + 1) :
    lineWord (s.adapter.rg_rd_data.rdata ++ s.adapter.rg_cline.extractLsb' 64 448)
      (7 - s.adapter.rg_rd_rsp_beat.toNat + j) = b.words j := by
  have small := s.adapter.rg_rd_rsp_beat.isLt
  by_cases last : j = s.adapter.rg_rd_rsp_beat.toNat
  · have top : 7 - s.adapter.rg_rd_rsp_beat.toNat + j = 7 := by omega
    rw [top, lineWord_shift_last, beat, last]
    rfl
  · have under : 7 - s.adapter.rg_rd_rsp_beat.toNat + j < 7 := by omega
    have place : 7 - s.adapter.rg_rd_rsp_beat.toNat + j + 1 =
        8 - s.adapter.rg_rd_rsp_beat.toNat + j := by omega
    rw [lineWord_shift _ _ under, place]
    exact inv.cline b burst j (by omega)

theorem ValueInv.read_rsps {mem₀ : Mem} {s : Link idT childT} (reads : ReadInv s)
    (inv : ValueInv mem₀ s) (allowed : s.allows .rl_handle_read_rsps) :
    ValueInv mem₀ (s.step .rl_handle_read_rsps) := by
  obtain ⟨full, -⟩ := allowed
  obtain ⟨b, burst, beat⟩ := reads.slot full
  obtain ⟨ld, load, -⟩ := reads.burst burst
  have seven := reads.arlen (List.mem_of_getElem? burst)
  have lastBeat : s.adapter.rg_rd_data.rlast = decide (s.adapter.rg_rd_rsp_beat.toNat = 7) := by
    rw [beat, ReadBurst.beat, seven]
    rfl
  have shifted := fun j below => inv.shifted (j := j) burst beat below
  by_cases last : s.adapter.rg_rd_rsp_beat = 7
  · have rlast : s.adapter.rg_rd_data.rlast = true := by rw [lastBeat, last]; rfl
    have waiting : s.adapter.f_pending_reads.head? = some ld := by
      rw [reads.pending, List.head?_drop]
      exact load
    have inside := (List.getElem?_eq_some_iff.mp load).1
    have long := responses_length mem₀ s.taken
    obtain ⟨r, response⟩ : ∃ r, (responses mem₀ s.taken)[s.rsFromM.length]? = some r :=
      ⟨_, List.getElem?_eq_getElem (by omega)⟩
    have performed : b.performed = true := by
      have sent := reads.sent
      rw [full, last] at sent
      refine reads.performed _ b burst ?_
      change s.memory.rdSent = 8 * s.rsFromM.length + 7 + 1 at sent
      omega
    have data : s.adapter.rg_rd_data.rdata ++ s.adapter.rg_cline.extractLsb' 64 448 = r.data := by
      apply line_ext
      intro k below
      rw [last] at shifted
      have word := shifted k below
      change lineWord _ (7 - 7 + k) = b.words k at word
      rw [Nat.sub_self, Nat.zero_add] at word
      rw [word]
      exact inv.words _ b r burst performed response k below
    have names := responses_getElem? load response
    simp only [Link.step, Adapter.rl_handle_read_rsps, rlast, if_true, waiting, Option.map_some,
      Option.toList_some]
    refine ⟨?_, ?_, inv.words, fun _ _ j below => absurd below (Nat.not_lt_zero j)⟩
    · rw [List.length_append, List.length_singleton, List.take_add_one, response,
        ← inv.answers]
      refine congrArg (s.rsFromM ++ [·]) ?_
      rw [data, ← names.1, ← names.2]
    · intro i load r past there response
      have past : (s.rsFromM ++ [_]).length ≤ i := past
      rw [List.length_append] at past
      exact inv.line i load r (by omega) there response
  · have rlast : s.adapter.rg_rd_data.rlast = false := by
      rw [lastBeat, decide_eq_false]
      exact fun same => last (BitVec.eq_of_toNat_eq same)
    simp only [Link.step, Adapter.rl_handle_read_rsps, rlast, Bool.false_eq_true, if_false,
      Option.toList_none, List.append_nil]
    refine ⟨inv.answers, inv.line, inv.words, ?_⟩
    intro other there j below
    have there : s.memory.reads[s.rsFromM.length]? = some other := there
    rw [burst, Option.some.injEq] at there
    subst there
    have below : j < (s.adapter.rg_rd_rsp_beat + 1).toNat := below
    change lineWord _ (8 - (s.adapter.rg_rd_rsp_beat + 1).toNat + j) = b.words j
    rw [beat_succ last] at below ⊢
    have place : 8 - (s.adapter.rg_rd_rsp_beat.toNat + 1) = 7 - s.adapter.rg_rd_rsp_beat.toNat := by
      omega
    rw [place]
    exact shifted j below

theorem ValueInv.next {mem₀ : Mem} {s : Link idT childT} {e : Event idT childT}
    (write : WriteInv s) (memory : MemInv mem₀ s) (reads : ReadInv s) (apart : ApartInv s)
    (inv : ValueInv mem₀ s) (allowed : s.allows e) : ValueInv mem₀ (s.step e) := by
  cases e with
  | toM msg => exact inv.same rfl rfl rfl rfl rfl rfl rfl
  | rl_handle_read_req =>
      obtain ⟨⟨ld, rest, queue⟩, none_pending, -⟩ := allowed
      exact inv.read_req write memory reads queue none_pending
  | rl_handle_read_rsps => exact inv.read_rsps reads allowed
  | rl_handle_write_req =>
      obtain ⟨wb, rest, queue⟩ := allowed.1
      have did := write_req_beat queue allowed
      have same := write_req_reads allowed
      refine inv.same ?_ same.taken same.rsFromM (by rw [did.memory]) same.reads same.beat
        same.cline
      rw [did.taken]
      split
      · rw [responses_append, responses, responses, List.append_nil]
      · rfl
  | rl_discard_write_rsp => exact inv.same rfl rfl rfl rfl rfl rfl rfl
  | m_arready words => exact inv.arready reads words allowed
  | m_awready => exact inv.same rfl rfl rfl rfl rfl rfl rfl
  | m_wready => exact inv.same rfl rfl rfl rfl rfl rfl rfl
  | m_rvalid rvalid lines =>
      simp only [Link.step, Adapter.m_rvalid]
      split <;> exact inv.same rfl rfl rfl rfl rfl rfl rfl
  | m_bvalid resp => exact inv.same rfl rfl rfl rfl rfl rfl rfl
  | perform_read i => exact inv.perform_read reads allowed
  | perform_write => exact inv.perform_write write reads apart allowed

/-! ## Every run -/

/-- The adapter after a run, from a memory. -/
structure Follows (mem₀ : Mem) (s : Link idT childT) : Prop where
  write_addrs : s.awSent = ((writes s.asked).take s.started).map writeAddr
  write_beats : s.wSent = ((writes s.asked).flatMap writeBeats).take s.beatsSent
  answers : s.rsFromM <+: responses mem₀ s.asked
  waiting : s.unanswered = s.adapter.f_pending_reads ++ loads s.toM
  counter : s.adapter.ctr_wr_rsps_pending + s.discarded = s.awSent.length

theorem start_invs (mem₀ : Mem) (rg_cline : BitVec 512) (rg_rd_data : AXI4_Rd_Data 64) :
    let s : Link idT childT := Link.start mem₀ rg_cline rg_rd_data
    WriteInv s ∧ MemInv mem₀ s ∧ ReadInv s ∧ ApartInv s ∧ ValueInv mem₀ s := by
  refine ⟨⟨fun later => absurd rfl later, rfl, rfl, rfl, Nat.zero_le _, rfl, Nat.le_refl _,
    Nat.le_refl _, rfl, Nat.le_refl _⟩, rfl, ⟨rfl, rfl, rfl, Nat.le_refl _,
    fun full => Bool.noConfusion full, ?_⟩, ⟨?_, .nil⟩, ⟨rfl, ?_, ?_, ?_⟩⟩
  · intro i b there
    simp [Link.start] at there
  · intro ld member
    simp [Link.start] at member
  · intro i ld r past there
    simp [Link.start] at there
  · intro i b r there
    simp [Link.start] at there
  · intro b there
    simp [Link.start] at there

theorem run_follows {mem₀ : Mem} {rg_cline : BitVec 512} {rg_rd_data : AXI4_Rd_Data 64}
    {cycles : List (Link idT childT × Event idT childT)} {s : Link idT childT}
    (run : (machine idT childT mem₀ rg_cline rg_rd_data).Run cycles s)
    (keeps : ∀ c ∈ cycles, KeepsBeat c.1 c.2) : Follows mem₀ s := by
  have invs : WriteInv s ∧ MemInv mem₀ s ∧ ReadInv s ∧ ApartInv s ∧ ValueInv mem₀ s := by
    induction run with
    | reset => exact start_invs mem₀ rg_cline rg_rd_data
    | @cycle cycles s e run allowed ih =>
        obtain ⟨write, memory, reads, apart, value⟩ :=
          ih fun c member => keeps c (List.mem_append_left _ member)
        exact ⟨write.next allowed, memory.next write allowed,
          reads.next allowed (keeps (s, e) (by simp)), apart.next write reads allowed,
          value.next write memory reads apart allowed⟩
  obtain ⟨write, memory, reads, apart, value⟩ := invs
  refine ⟨write.addrs, write.beats, ?_, reads.unanswered, write.counter⟩
  have appended := responses_append mem₀ s.taken s.toM
  rw [Link.asked, appended, value.answers]
  exact (List.take_prefix _ _).trans (List.prefix_append _ _)

/-! ## A beat that is overwritten -/

instance (s : Link idT childT) (e : Event idT childT) : Decidable (s.allows e) :=
  match e with
  | .toM (.Ld _) => .isTrue trivial
  | .toM (.Wb wb) =>
      inferInstanceAs (Decidable (∀ ld ∈ s.unanswered, lineAddr ld.addr ≠ lineAddr wb.addr))
  | .rl_handle_read_req =>
      let _ : Decidable (∃ ld rest, s.toM = .Ld ld :: rest) :=
        match queue : s.toM with
        | [] => .isFalse fun ⟨_, _, same⟩ => nomatch same
        | .Ld ld :: rest => .isTrue ⟨ld, rest, rfl⟩
        | .Wb _ :: _ => .isFalse fun ⟨_, _, same⟩ => nomatch same
      inferInstanceAs (Decidable (_ ∧ _ ∧ _ ∧ _))
  | .rl_handle_read_rsps => inferInstanceAs (Decidable (_ ∧ (_ → _ ≠ [])))
  | .rl_handle_write_req =>
      let _ : Decidable (∃ wb rest, s.toM = .Wb wb :: rest) :=
        match queue : s.toM with
        | [] => .isFalse fun ⟨_, _, same⟩ => nomatch same
        | .Wb wb :: rest => .isTrue ⟨wb, rest, rfl⟩
        | .Ld _ :: _ => .isFalse fun ⟨_, _, same⟩ => nomatch same
      inferInstanceAs (Decidable (_ ∧ _ ∧ (_ → _ ∧ _)))
  | .rl_discard_write_rsp => inferInstanceAs (Decidable (_ ∧ _))
  | .m_arready _ => inferInstanceAs (Decidable (_ ≠ _))
  | .m_awready => inferInstanceAs (Decidable (_ ≠ _))
  | .m_wready => inferInstanceAs (Decidable (_ ≠ _))
  | .m_rvalid _ lines => inferInstanceAs (Decidable (_ → s.memory.offers lines))
  | .m_bvalid _ => inferInstanceAs (Decidable (_ ∧ _))
  | .perform_read i =>
      match burst : s.memory.reads[i]? with
      | none => .isFalse fun ⟨_, there, _⟩ => nomatch burst.symm.trans there
      | some b =>
          decidable_of_iff (b.performed = false ∧
              ∀ k ≤ b.ar.arlen.toNat, b.words k = s.memory.mem (beatIndex b.ar.araddr k))
            ⟨fun ready => ⟨b, burst, ready⟩, fun ⟨_, there, ready⟩ => by
              rwa [← Option.some.inj (burst.symm.trans there)] at ready⟩
  | .perform_write =>
      match next : s.memory.wrAddrs[s.memory.wrDone]? with
      | none => .isFalse fun ⟨_, there, _⟩ => nomatch next.symm.trans there
      | some aw =>
          decidable_of_iff
            (s.memory.wrUsed + (aw.awlen.toNat + 1) ≤ s.memory.wrDatas.length)
            ⟨fun ready => ⟨aw, next, ready⟩, fun ⟨_, there, ready⟩ => by
              rwa [← Option.some.inj (next.symm.trans there)] at ready⟩

instance (mem : Mem) (rg_cline : BitVec 512) (rg_rd_data : AXI4_Rd_Data 64)
    (cycles : List (Link idT childT × Event idT childT)) (s : Link idT childT)
    (e : Event idT childT) :
    Decidable ((machine idT childT mem rg_cline rg_rd_data).allowed cycles s e) :=
  inferInstanceAs (Decidable (s.allows e))

instance (s : Link idT childT) (e : Event idT childT) : Decidable (KeepsBeat s e) :=
  match e with
  | .m_rvalid _ lines => inferInstanceAs (Decidable (_ → lines = s.adapter.rg_rd_data))
  | .toM _ | .rl_handle_read_req | .rl_handle_read_rsps | .rl_handle_write_req
  | .rl_discard_write_rsp | .m_arready _ | .m_awready | .m_wready | .m_bvalid _
  | .perform_read _ | .perform_write => .isTrue trivial

/-- A memory whose double words hold their own numbers. -/
private def numbered : Mem := fun w => w.setWidth 64

private def idleBeat : AXI4_Rd_Data 64 :=
  { rid := 0, rdata := 0, rresp := axi4_resp_okay, rlast := false }

private def loadOf (line : BitVec 58) (id : Nat) : LdMemRq Nat Unit :=
  { addr := line ++ 0#6, child := (), id := id }

private def beatOf (line : BitVec 58) (k : Nat) : AXI4_Rd_Data 64 :=
  (ReadBurst.mk (readAddr (loadOf line 0)) (fun k => numbered (line ++ BitVec.ofNat 3 k))
    true).beat k

/-- A load up to its burst being performed. -/
private def readsLine (line : BitVec 58) (id i : Nat) : List (Event Nat Unit) :=
  [.toM (.Ld (loadOf line id)), .rl_handle_read_req,
    .m_arready fun k => numbered (line ++ BitVec.ofNat 3 k), .perform_read i]

/-- Beats that are taken at once. -/
private def streams (line : BitVec 58) (beats : Nat) : List (Event Nat Unit) :=
  (List.range beats).flatMap fun k => [.m_rvalid true (beatOf line k), .rl_handle_read_rsps]

theorem run_follows_load :
    let m := machine Nat Unit numbered 0 idleBeat
    let s := m.after m.reset (readsLine 5 7 0 ++ streams 5 8)
    Follows numbered s ∧ s.rsFromM = [{ data := numbered.line 5, child := (), id := 7 }] :=
  ⟨run_follows
    (Clocked.Machine.run_of_accepts (m := machine Nat Unit numbered 0 idleBeat) _
      (by decide +kernel))
    (by decide +kernel), by decide +kernel⟩

/-- Two loads.  The last beat of the first one waits for `rsFromM` while the first beat of
the second one is already on the lines. -/
private def overwritten : List (Event Nat Unit) :=
  readsLine 0 1 0 ++ readsLine 1 2 1 ++ streams 0 7 ++ [.m_rvalid true (beatOf 0 7)] ++
    [.m_rvalid true (beatOf 1 0), .rl_handle_read_rsps] ++ streams 1 8

/-- Then the first load is answered with the line of the second, which gets no answer. -/
theorem line_of_the_next_load :
    let m := machine Nat Unit numbered 0 idleBeat
    let s := m.after m.reset overwritten
    m.Run (m.cyclesOf m.reset overwritten) s ∧
      s.asked = [.Ld (loadOf 0 1), .Ld (loadOf 1 2)] ∧ s.toM = [] ∧ s.memory.rdSent = 16 ∧
      s.rsFromM = [{ data := numbered.line 1, child := (), id := 1 }] ∧
      numbered.line 0 ≠ numbered.line 1 := by
  refine ⟨Clocked.Machine.run_of_accepts (m := machine Nat Unit numbered 0 idleBeat) _
    (by decide +kernel), ?_, ?_, ?_, ?_, ?_⟩
  all_goals decide +kernel

end Toooba.LlcAdapter
