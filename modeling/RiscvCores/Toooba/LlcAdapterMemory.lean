import RiscvCores.Toooba.LlcAdapterWrites

/-!
# The memory behind the LLC adapter

A performed burst is the write-back of a line, so the memory is always the initial one
after the write-backs performed so far, in the order of the cache.
-/

set_option autoImplicit false

namespace Toooba.LlcAdapter

open Toooba.AXI4 Link

variable {idT childT : Type}

/-- Memory after a write-back. -/
def WbMemRs.apply (wb : WbMemRs) (mem : Mem) : Mem := fun w =>
  if w.extractLsb' 3 58 = lineAddr wb.addr then
    let k := (w.extractLsb' 0 3).toNat
    mergeBytes (lineStrb wb.byteEn k) (mem w) (lineWord wb.data k)
  else mem w

def afterWrites (mem : Mem) (wbs : List WbMemRs) : Mem :=
  wbs.foldl (fun mem wb => wb.apply mem) mem

/-- A line in memory. -/
def Mem.line (mem : Mem) (line : BitVec 58) : Line :=
  mem (line ++ 7#3) ++ mem (line ++ 6#3) ++ mem (line ++ 5#3) ++ mem (line ++ 4#3) ++
    mem (line ++ 3#3) ++ mem (line ++ 2#3) ++ mem (line ++ 1#3) ++ mem (line ++ 0#3)

/-! ## Bursts on lines -/

theorem index_eq (line : BitVec 58) {k : Nat} (inside : k < 8) :
    (line ++ 0#3) + BitVec.ofNat 61 k = line ++ BitVec.ofNat 3 k := by
  apply BitVec.eq_of_toNat_eq
  have below := line.isLt
  have small : k % 2 ^ 3 < 2 ^ 3 := Nat.mod_lt _ (by decide)
  simp only [BitVec.toNat_add, BitVec.toNat_append, BitVec.toNat_ofNat, Nat.shiftLeft_eq]
  rw [← Nat.shiftLeft_eq, ← Nat.shiftLeft_add_eq_or_of_lt small, Nat.shiftLeft_eq, Nat.zero_mod,
    Nat.or_zero]
  omega

theorem beatIndex_line (line : BitVec 58) {k : Nat} (inside : k < 8) :
    beatIndex (line ++ 0#6) k = line ++ BitVec.ofNat 3 k := by
  have aligned : (line ++ 0#6).extractLsb' 3 61 = line ++ 0#3 := by
    apply BitVec.eq_of_getLsbD_eq
    intro j below
    simp only [BitVec.getLsbD_extractLsb', BitVec.getLsbD_append, below, decide_true,
      Bool.true_and]
    by_cases low : j < 3
    · have six : 3 + j < 6 := by omega
      simp [low, six]
    · have six : ¬ 3 + j < 6 := by omega
      have place : 3 + j - 6 = j - 3 := by omega
      simp [low, six, place]
  rw [beatIndex, aligned, index_eq line inside]

theorem index_succ (index : BitVec 61) (k : Nat) :
    index + 1 + BitVec.ofNat 61 k = index + BitVec.ofNat 61 (k + 1) := by
  rw [BitVec.add_assoc, BitVec.ofNat_add k 1, BitVec.add_comm (BitVec.ofNat 61 k)]
  rfl

theorem index_succ_ne (index : BitVec 61) {k : Nat} (inside : k + 1 < 8) :
    index + BitVec.ofNat 61 (k + 1) ≠ index := by
  intro same
  have zero : index + BitVec.ofNat 61 (k + 1) = index + 0#61 := by rw [same, BitVec.add_zero]
  have equal := congrArg BitVec.toNat ((BitVec.add_right_inj index).mp zero)
  simp only [BitVec.toNat_ofNat] at equal
  omega

theorem writeBeats_outside (mem : Mem) (index w : BitVec 61) (beats : List (AXI4_Wr_Data 64))
    (outside : ∀ k < beats.length, w ≠ index + BitVec.ofNat 61 k) :
    mem.writeBeats index beats w = mem w := by
  induction beats generalizing mem index with
  | nil => rfl
  | cons beat rest ih =>
      have here : w ≠ index := by simpa using outside 0 (by simp)
      rw [Mem.writeBeats, ih]
      · exact Function.update_of_ne here _ _
      · intro k inside same
        refine outside (k + 1) (by simpa using inside) ?_
        rw [same, index_succ]

theorem writeBeats_inside (mem : Mem) (index : BitVec 61) (beats : List (AXI4_Wr_Data 64))
    (short : beats.length ≤ 8) {k : Nat} {beat : AXI4_Wr_Data 64} (there : beats[k]? = some beat) :
    mem.writeBeats index beats (index + BitVec.ofNat 61 k) =
      mergeBytes beat.wstrb (mem (index + BitVec.ofNat 61 k)) beat.wdata := by
  induction beats generalizing mem index k with
  | nil => simp at there
  | cons first rest ih =>
      rw [List.length_cons] at short
      cases k with
      | zero =>
          rw [List.getElem?_cons_zero, Option.some.injEq] at there
          subst there
          have here : index + BitVec.ofNat 61 0 = index := BitVec.add_zero index
          rw [here, Mem.writeBeats, writeBeats_outside]
          · exact Function.update_self _ _ _
          · intro j inside
            rw [index_succ]
            exact (index_succ_ne index (by omega)).symm
      | succ k =>
          rw [List.getElem?_cons_succ] at there
          have inside := (List.getElem?_eq_some_iff.mp there).1
          rw [Mem.writeBeats, ← index_succ, ih _ _ (by omega) there]
          have other : index + 1 + BitVec.ofNat 61 k ≠ index := by
            rw [index_succ]
            exact index_succ_ne index (by omega)
          rw [Function.update_of_ne other]

theorem lineOf_append (line : BitVec 58) (k : BitVec 3) :
    (line ++ k).extractLsb' 3 58 = line := by
  apply BitVec.eq_of_getLsbD_eq
  intro j below
  have past : ¬ 3 + j < 3 := by omega
  simp only [BitVec.getLsbD_extractLsb', BitVec.getLsbD_append, below, past, decide_true,
    Bool.true_and, if_false, Nat.add_sub_cancel_left]

/-- Performing the burst of a write-back writes the line. -/
theorem writeBeats_apply (mem : Mem) (wb : WbMemRs) :
    mem.writeBeats (beatIndex (writeAddr wb).awaddr 0) (writeBeats wb) = wb.apply mem := by
  have base : beatIndex (writeAddr wb).awaddr 0 = lineAddr wb.addr ++ 0#3 :=
    beatIndex_line (lineAddr wb.addr) (by decide)
  rw [base]
  funext w
  have whole : w = w.extractLsb' 3 58 ++ w.extractLsb' 0 3 := by
    rw [BitVec.extractLsb'_append_extractLsb'_eq_extractLsb' (by decide)]
    simp
  have offset := (w.extractLsb' 0 3).isLt
  unfold WbMemRs.apply
  split
  · rename_i same
    have place : w = (lineAddr wb.addr ++ 0#3) + BitVec.ofNat 61 (w.extractLsb' 0 3).toNat := by
      rw [index_eq _ offset, ← same, BitVec.ofNat_toNat, BitVec.setWidth_eq]
      exact whole
    have written := writeBeats_inside mem (lineAddr wb.addr ++ 0#3) (writeBeats wb)
      (Nat.le_of_eq (writeBeats_length wb)) (writeBeats_getElem? wb offset)
    rw [← place] at written
    exact written
  · rename_i other
    refine writeBeats_outside mem _ w _ fun k inside same => other ?_
    rw [writeBeats_length] at inside
    rw [same, index_eq _ inside]
    exact lineOf_append _ _

/-! ## Runs -/

/-- The memory is the initial one after the write-backs performed. -/
def MemInv (mem₀ : Mem) (s : Link idT childT) : Prop :=
  s.memory.mem = afterWrites mem₀ ((writes s.asked).take s.memory.wrDone)

theorem WriteInv.done_started {s : Link idT childT} (inv : WriteInv s) :
    s.memory.wrDone ≤ s.started := by
  have done := inv.done_le
  have sent := congrArg List.length inv.addrs
  rw [Link.awSent, List.length_append, List.length_map, List.length_take] at sent
  omega

/-- The eight beats of the burst to be performed. -/
theorem WriteInv.burst {s : Link idT childT} (inv : WriteInv s) {wb : WbMemRs}
    (next : (writes s.asked)[s.memory.wrDone]? = some wb)
    (arrived : s.memory.wrUsed + 8 ≤ s.memory.wrDatas.length) :
    (s.memory.wrDatas.drop s.memory.wrUsed).take 8 = writeBeats wb := by
  have used := inv.used
  have length : s.memory.wrDatas.length ≤ s.beatsSent := by
    have sent := congrArg List.length inv.beats
    rw [Link.wSent, List.length_append, List.length_take] at sent
    omega
  apply List.ext_getElem?
  intro k
  by_cases inside : k < 8
  · have place : s.memory.wrUsed + k < s.memory.wrDatas.length := by omega
    rw [List.getElem?_take_of_lt inside, List.getElem?_drop, writeBeats_getElem? wb inside]
    calc s.memory.wrDatas[s.memory.wrUsed + k]?
        = s.wSent[s.memory.wrUsed + k]? := by rw [Link.wSent, List.getElem?_append_left place]
      _ = ((writes s.asked).flatMap writeBeats)[s.memory.wrUsed + k]? := by
          rw [inv.beats, List.getElem?_take_of_lt (by omega)]
      _ = some (writeBeat wb k) := by rw [used, stream_getElem? _ _ inside, next]; rfl
  · rw [List.getElem?_eq_none, List.getElem?_eq_none]
    · rw [writeBeats_length]
      omega
    · rw [List.length_take]
      omega

theorem perform_write_mem {s : Link idT childT} (inv : WriteInv s)
    (allowed : s.allows .perform_write) :
    ∃ wb, (writes s.asked)[s.memory.wrDone]? = some wb ∧
      (s.step .perform_write).memory.mem = wb.apply s.memory.mem ∧
      (s.step .perform_write).memory.wrDone = s.memory.wrDone + 1 := by
  obtain ⟨aw, taken, arrived⟩ := allowed
  obtain ⟨wb, next, rfl⟩ := inv.wrAddr taken
  have eight : (writeAddr wb).awlen.toNat + 1 = 8 := rfl
  rw [eight] at arrived
  refine ⟨wb, next, ?_, ?_⟩
  · simp only [Link.step, taken, eight, inv.burst next arrived]
    exact writeBeats_apply s.memory.mem wb
  · simp only [Link.step, taken]

theorem MemInv.same {mem₀ : Mem} {s s' : Link idT childT} (inv : MemInv mem₀ s)
    (same : SameWrites s s') : MemInv mem₀ s' := by
  rw [MemInv, same.mem, same.asked, same.wrDone]
  exact inv

theorem MemInv.next {mem₀ : Mem} {s : Link idT childT} {e : Event idT childT}
    (writeInv : WriteInv s) (inv : MemInv mem₀ s) (allowed : s.allows e) :
    MemInv mem₀ (s.step e) := by
  cases e with
  | toM msg =>
      have asked : (s.step (.toM msg)).asked = s.asked ++ [msg] :=
        (List.append_assoc s.taken s.toM [msg]).symm
      have inside := Nat.le_trans writeInv.done_started writeInv.started_le.1
      rw [MemInv, asked, writes_append]
      exact inv.trans (by rw [← List.take_append_of_le_length inside]; rfl)
  | rl_handle_read_req =>
      obtain ⟨⟨ld, rest, queue⟩, -⟩ := allowed
      exact inv.same (read_req_same writeInv queue)
  | rl_handle_read_rsps => exact inv.same (read_rsps_same s)
  | rl_handle_write_req =>
      obtain ⟨wb, rest, queue⟩ := allowed.1
      have did := write_req_beat queue allowed
      rw [MemInv, did.memory, write_req_asked queue allowed]
      exact inv
  | rl_discard_write_rsp => exact inv
  | m_arready words => exact inv.same (arready_same s words)
  | m_awready => exact inv
  | m_wready => exact inv
  | m_rvalid rvalid lines => exact inv.same (rvalid_same s rvalid lines)
  | m_bvalid resp => exact inv
  | perform_read i => exact inv.same (perform_read_same s i)
  | perform_write =>
      obtain ⟨wb, next, written, done⟩ := perform_write_mem writeInv allowed
      have asked : (s.step .perform_write).asked = s.asked := by
        simp only [Link.step]
        split <;> rfl
      rw [MemInv, written, done, asked, List.take_add_one, next, inv]
      simp [afterWrites]

end Toooba.LlcAdapter
