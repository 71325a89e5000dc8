import RiscvCores.Lib.Blocks
import RiscvCores.Toooba.LlcAxi4Adapter

/-!
# Write-backs of the LLC adapter

The addresses and beats the adapter has sent are those of the write-backs in order, the
counter counts the bursts without a response, and the memory is the one after the
write-backs performed so far.
-/

set_option autoImplicit false

namespace Toooba.LlcAdapter

open Toooba.AXI4

variable {idT childT : Type}

namespace Link

variable (s : Link idT childT)

def awSent : List (AXI4_Wr_Addr 64) := s.memory.wrAddrs ++ s.adapter.wr_addr.toList

def wSent : List (AXI4_Wr_Data 64) := s.memory.wrDatas ++ s.adapter.wr_data.toList

/-- Write-backs whose address has been sent. -/
def started : Nat :=
  (writes s.taken).length + if s.adapter.rg_wr_req_beat = 0 then 0 else 1

/-- Beats sent. -/
def beatsSent : Nat := 8 * (writes s.taken).length + s.adapter.rg_wr_req_beat.toNat

end Link

open Link

def writeBeats (wb : WbMemRs) : List (AXI4_Wr_Data 64) := (List.range 8).map (writeBeat wb)

/-- The write part of the adapter follows the write-backs of the cache. -/
structure WriteInv (s : Link idT childT) : Prop where
  head : s.adapter.rg_wr_req_beat ≠ 0 → ∃ wb rest, s.toM = .Wb wb :: rest
  addrs : s.awSent = ((writes s.asked).take s.started).map writeAddr
  beats : s.wSent = ((writes s.asked).flatMap writeBeats).take s.beatsSent
  counter : s.adapter.ctr_wr_rsps_pending + s.discarded = s.awSent.length
  bound : s.adapter.ctr_wr_rsps_pending ≤ 15
  resp : s.memory.wrSent = s.discarded + s.adapter.wr_resp.toList.length
  sent_le : s.memory.wrSent ≤ s.memory.wrDone
  done_le : s.memory.wrDone ≤ s.memory.wrAddrs.length
  used : s.memory.wrUsed = 8 * s.memory.wrDone
  used_le : s.memory.wrUsed ≤ s.memory.wrDatas.length

section Messages

variable (before after : List (ToMemMsg idT childT))

@[simp] theorem writes_nil : writes ([] : List (ToMemMsg idT childT)) = [] := rfl

@[simp] theorem writes_append : writes (before ++ after) = writes before ++ writes after :=
  List.filterMap_append

@[simp] theorem writes_wb (wb : WbMemRs) : writes (.Wb wb :: after) = wb :: writes after := rfl

@[simp] theorem writes_ld (ld : LdMemRq idT childT) :
    writes (.Ld ld :: after) = writes after := rfl

@[simp] theorem loads_nil : loads ([] : List (ToMemMsg idT childT)) = [] := rfl

@[simp] theorem loads_append : loads (before ++ after) = loads before ++ loads after :=
  List.filterMap_append

@[simp] theorem loads_wb (wb : WbMemRs) : loads (.Wb wb :: after) = loads after := rfl

@[simp] theorem loads_ld (ld : LdMemRq idT childT) :
    loads (.Ld ld :: after) = ld :: loads after := rfl

end Messages

theorem writeBeats_length (wb : WbMemRs) : (writeBeats wb).length = 8 := by
  simp [writeBeats]

theorem writeBeats_getElem? (wb : WbMemRs) {k : Nat} (inside : k < 8) :
    (writeBeats wb)[k]? = some (writeBeat wb k) := by
  simp [writeBeats, inside]

theorem stream_length (wbs : List WbMemRs) : (wbs.flatMap writeBeats).length = 8 * wbs.length :=
  Blocks.length_flatMap fun wb _ => writeBeats_length wb

theorem stream_getElem? (wbs : List WbMemRs) (i : Nat) {k : Nat} (inside : k < 8) :
    (wbs.flatMap writeBeats)[8 * i + k]? = wbs[i]?.map (writeBeat · k) := by
  rw [Blocks.getElem?_flatMap (fun wb _ => writeBeats_length wb) i inside]
  cases wbs[i]? with
  | none => rfl
  | some wb => exact writeBeats_getElem? wb inside

theorem WriteInv.started_le {s : Link idT childT} (inv : WriteInv s) :
    s.started ≤ (writes s.asked).length ∧ s.beatsSent ≤ 8 * (writes s.asked).length := by
  have beat := s.adapter.rg_wr_req_beat.isLt
  unfold Link.started Link.beatsSent Link.asked
  by_cases first : s.adapter.rg_wr_req_beat = 0
  · simp only [first, if_true, writes_append, List.length_append]
    constructor
    · omega
    · change 8 * (writes s.taken).length + 0 ≤ _
      omega
  · obtain ⟨wb, rest, queue⟩ := inv.head first
    simp only [first, if_false, queue, writes_append, writes_wb, List.length_append,
      List.length_cons]
    omega

/-- A step that leaves the write part alone. -/
structure SameWrites (s s' : Link idT childT) : Prop where
  asked : writes s'.asked = writes s.asked
  taken : writes s'.taken = writes s.taken
  head : s.adapter.rg_wr_req_beat ≠ 0 → s'.toM = s.toM
  ctr : s'.adapter.ctr_wr_rsps_pending = s.adapter.ctr_wr_rsps_pending
  beat : s'.adapter.rg_wr_req_beat = s.adapter.rg_wr_req_beat
  wr_addr : s'.adapter.wr_addr = s.adapter.wr_addr
  wr_data : s'.adapter.wr_data = s.adapter.wr_data
  wr_resp : s'.adapter.wr_resp = s.adapter.wr_resp
  discarded : s'.discarded = s.discarded
  wrAddrs : s'.memory.wrAddrs = s.memory.wrAddrs
  wrDatas : s'.memory.wrDatas = s.memory.wrDatas
  wrDone : s'.memory.wrDone = s.memory.wrDone
  wrUsed : s'.memory.wrUsed = s.memory.wrUsed
  wrSent : s'.memory.wrSent = s.memory.wrSent
  mem : s'.memory.mem = s.memory.mem

theorem WriteInv.same {s s' : Link idT childT} (inv : WriteInv s) (same : SameWrites s s') :
    WriteInv s' := by
  have started : s'.started = s.started := by rw [Link.started, same.taken, same.beat]; rfl
  have beatsSent : s'.beatsSent = s.beatsSent := by
    rw [Link.beatsSent, same.taken, same.beat]; rfl
  have awSent : s'.awSent = s.awSent := by rw [Link.awSent, same.wrAddrs, same.wr_addr]; rfl
  have wSent : s'.wSent = s.wSent := by rw [Link.wSent, same.wrDatas, same.wr_data]; rfl
  constructor
  · intro later
    rw [same.beat] at later
    rw [same.head later]
    exact inv.head later
  · rw [awSent, same.asked, started]
    exact inv.addrs
  · rw [wSent, same.asked, beatsSent]
    exact inv.beats
  · rw [same.ctr, same.discarded, awSent]
    exact inv.counter
  · rw [same.ctr]
    exact inv.bound
  · rw [same.wrSent, same.discarded, same.wr_resp]
    exact inv.resp
  · rw [same.wrSent, same.wrDone]
    exact inv.sent_le
  · rw [same.wrDone, same.wrAddrs]
    exact inv.done_le
  · rw [same.wrUsed, same.wrDone]
    exact inv.used
  · rw [same.wrUsed, same.wrDatas]
    exact inv.used_le

theorem read_req_same {s : Link idT childT} {ld : LdMemRq idT childT}
    {rest : List (ToMemMsg idT childT)} (inv : WriteInv s) (queue : s.toM = .Ld ld :: rest) :
    SameWrites s (s.step .rl_handle_read_req) := by
  have first : s.adapter.rg_wr_req_beat = 0 := by
    by_contra later
    obtain ⟨wb, others, other⟩ := inv.head later
    rw [queue] at other
    exact nomatch other
  simp only [Link.step, queue]
  refine ⟨?_, by simp, fun later => absurd first later, rfl, rfl, rfl, rfl, rfl, rfl, rfl, rfl, rfl,
    rfl, rfl, rfl⟩
  simp [Link.asked, queue]

theorem read_rsps_same (s : Link idT childT) : SameWrites s (s.step .rl_handle_read_rsps) := by
  simp only [Link.step, Adapter.rl_handle_read_rsps]
  split
  · exact ⟨rfl, rfl, fun _ => rfl, rfl, rfl, rfl, rfl, rfl, rfl, rfl, rfl, rfl, rfl, rfl, rfl⟩
  · exact ⟨rfl, rfl, fun _ => rfl, rfl, rfl, rfl, rfl, rfl, rfl, rfl, rfl, rfl, rfl, rfl, rfl⟩

theorem arready_same (s : Link idT childT) (words : Nat → Data) :
    SameWrites s (s.step (.m_arready words)) := by
  simp only [Link.step]
  split
  · exact ⟨rfl, rfl, fun _ => rfl, rfl, rfl, rfl, rfl, rfl, rfl, rfl, rfl, rfl, rfl, rfl, rfl⟩
  · exact ⟨rfl, rfl, fun _ => rfl, rfl, rfl, rfl, rfl, rfl, rfl, rfl, rfl, rfl, rfl, rfl, rfl⟩

theorem rvalid_same (s : Link idT childT) (rvalid : Bool) (lines : AXI4_Rd_Data 64) :
    SameWrites s (s.step (.m_rvalid rvalid lines)) := by
  simp only [Link.step, Adapter.m_rvalid]
  split
  · exact ⟨rfl, rfl, fun _ => rfl, rfl, rfl, rfl, rfl, rfl, rfl, rfl, rfl, rfl, rfl, rfl, rfl⟩
  · exact ⟨rfl, rfl, fun _ => rfl, rfl, rfl, rfl, rfl, rfl, rfl, rfl, rfl, rfl, rfl, rfl, rfl⟩

theorem perform_read_same (s : Link idT childT) (i : Nat) :
    SameWrites s (s.step (.perform_read i)) :=
  ⟨rfl, rfl, fun _ => rfl, rfl, rfl, rfl, rfl, rfl, rfl, rfl, rfl, rfl, rfl, rfl, rfl⟩

/-- A message of the cache. -/
theorem WriteInv.toM {s : Link idT childT} (inv : WriteInv s) (msg : ToMemMsg idT childT) :
    WriteInv (s.step (.toM msg)) := by
  obtain ⟨started_le, beats_le⟩ := inv.started_le
  have asked : (s.step (.toM msg)).asked = s.asked ++ [msg] :=
    (List.append_assoc s.taken s.toM [msg]).symm
  constructor
  · intro later
    obtain ⟨wb, rest, queue⟩ := inv.head later
    exact ⟨wb, rest ++ [msg], by simp [Link.step, queue]⟩
  · rw [asked, writes_append]
    refine inv.addrs.trans ?_
    rw [List.take_append_of_le_length]
    · rfl
    · exact started_le
  · rw [asked, writes_append, List.flatMap_append]
    refine inv.beats.trans ?_
    rw [List.take_append_of_le_length]
    · rfl
    · rw [stream_length]
      exact beats_le
  · exact inv.counter
  · exact inv.bound
  · exact inv.resp
  · exact inv.sent_le
  · exact inv.done_le
  · exact inv.used
  · exact inv.used_le

/-- The write-back at the head of `toM` is the next one to be completed. -/
theorem head_getElem? {s : Link idT childT} {wb : WbMemRs} {rest : List (ToMemMsg idT childT)}
    (queue : s.toM = .Wb wb :: rest) : (writes s.asked)[(writes s.taken).length]? = some wb := by
  simp [Link.asked, queue]

theorem awSent_next {s : Link idT childT} {wb : WbMemRs} (inv : WriteInv s)
    (next : (writes s.asked)[s.started]? = some wb) :
    s.awSent ++ [writeAddr wb] = ((writes s.asked).take (s.started + 1)).map writeAddr := by
  rw [inv.addrs, List.take_add_one, next, List.map_append]
  rfl

theorem wSent_next {s : Link idT childT} {wb : WbMemRs} {rest : List (ToMemMsg idT childT)}
    (inv : WriteInv s) (queue : s.toM = .Wb wb :: rest) :
    s.wSent ++ [writeBeat wb s.adapter.rg_wr_req_beat.toNat] =
      ((writes s.asked).flatMap writeBeats).take (s.beatsSent + 1) := by
  have next := stream_getElem? (writes s.asked) (writes s.taken).length
    s.adapter.rg_wr_req_beat.isLt
  rw [head_getElem? queue] at next
  rw [inv.beats, List.take_add_one, Link.beatsSent, next]
  rfl

/-- What a beat of a write-back sends, and when the message leaves the queue. -/
structure Beat (s s' : Link idT childT) (wb : WbMemRs) (rest : List (ToMemMsg idT childT)) :
    Prop where
  awSent : s'.awSent =
    s.awSent ++ if s.adapter.rg_wr_req_beat = 0 then [writeAddr wb] else []
  wSent : s'.wSent = s.wSent ++ [writeBeat wb s.adapter.rg_wr_req_beat.toNat]
  ctr : s'.adapter.ctr_wr_rsps_pending =
    s.adapter.ctr_wr_rsps_pending + if s.adapter.rg_wr_req_beat = 0 then 1 else 0
  beat : s'.adapter.rg_wr_req_beat =
    if s.adapter.rg_wr_req_beat = 7 then 0 else s.adapter.rg_wr_req_beat + 1
  toM : s'.toM = if s.adapter.rg_wr_req_beat = 7 then rest else .Wb wb :: rest
  taken : s'.taken = if s.adapter.rg_wr_req_beat = 7 then s.taken ++ [.Wb wb] else s.taken
  wr_resp : s'.adapter.wr_resp = s.adapter.wr_resp
  discarded : s'.discarded = s.discarded
  memory : s'.memory = s.memory

theorem write_req_beat {s : Link idT childT} {wb : WbMemRs} {rest : List (ToMemMsg idT childT)}
    (queue : s.toM = .Wb wb :: rest) (allowed : s.allows .rl_handle_write_req) :
    Beat s (s.step .rl_handle_write_req) wb rest := by
  obtain ⟨-, data_free, addr_free⟩ := allowed
  simp only [Link.step, queue, Adapter.rl_handle_write_req]
  by_cases first : s.adapter.rg_wr_req_beat = 0
  · have more : ¬ (0 : BitVec 3) = 7 := by decide
    obtain ⟨addr_free, -⟩ := addr_free first
    simp only [first, if_true, more, if_false, Bool.false_eq_true]
    refine ⟨?_, ?_, ?_, ?_, ?_, ?_, rfl, rfl, rfl⟩
    · rw [if_pos first, Link.awSent, Link.awSent, addr_free, Option.toList_none, List.append_nil]
      rfl
    · rw [first, Link.wSent, Link.wSent, data_free, Option.toList_none, List.append_nil]
      rfl
    · rw [if_pos first]
    · rw [first, if_neg more]
    · rw [first, if_neg more]
    · rw [first, if_neg more]
  · by_cases last : s.adapter.rg_wr_req_beat = 7
    · have later : ¬ (7 : BitVec 3) = 0 := by decide
      simp only [last, later, if_true, if_false]
      refine ⟨?_, ?_, ?_, ?_, ?_, ?_, rfl, rfl, rfl⟩
      · rw [if_neg first, List.append_nil]
        rfl
      · rw [last, Link.wSent, Link.wSent, data_free, Option.toList_none, List.append_nil]
        rfl
      · rw [if_neg first, Nat.add_zero]
      · rw [if_pos last]
      · rw [if_pos last]
      · rw [if_pos last]
    · simp only [first, last, if_false, Bool.false_eq_true]
      refine ⟨?_, ?_, ?_, ?_, ?_, ?_, rfl, rfl, rfl⟩
      · rw [if_neg first, List.append_nil]
        rfl
      · rw [Link.wSent, Link.wSent, data_free, Option.toList_none, List.append_nil]
        rfl
      · rw [if_neg first, Nat.add_zero]
      · rw [if_neg last]
      · rw [if_neg last]
      · rw [if_neg last]

theorem write_req_asked {s : Link idT childT} {wb : WbMemRs}
    {rest : List (ToMemMsg idT childT)} (queue : s.toM = .Wb wb :: rest)
    (allowed : s.allows .rl_handle_write_req) :
    (s.step .rl_handle_write_req).asked = s.asked := by
  have did := write_req_beat queue allowed
  rw [Link.asked, did.taken, did.toM, Link.asked, queue]
  split
  · simp
  · rfl

theorem beat_succ {beat : BitVec 3} (more : ¬ beat = 7) : (beat + 1).toNat = beat.toNat + 1 := by
  revert beat
  decide

theorem beat_succ_ne {beat : BitVec 3} (more : ¬ beat = 7) : ¬ beat + 1 = 0 := by
  revert beat
  decide

theorem WriteInv.write_req {s : Link idT childT} (inv : WriteInv s)
    (allowed : s.allows .rl_handle_write_req) : WriteInv (s.step .rl_handle_write_req) := by
  obtain ⟨wb, rest, queue⟩ := allowed.1
  have room := fun first => (allowed.2.2 first).2
  have did := write_req_beat queue allowed
  have asked := write_req_asked queue allowed
  have beatsSent : (s.step .rl_handle_write_req).beatsSent = s.beatsSent + 1 := by
    rw [Link.beatsSent, did.taken, did.beat, Link.beatsSent]
    by_cases last : s.adapter.rg_wr_req_beat = 7
    · rw [if_pos last, if_pos last, last, writes_append, List.length_append]
      change 8 * ((writes s.taken).length + 1) + 0 = 8 * (writes s.taken).length + 7 + 1
      omega
    · rw [if_neg last, if_neg last, beat_succ last]
      omega
  have started : (s.step .rl_handle_write_req).started =
      s.started + if s.adapter.rg_wr_req_beat = 0 then 1 else 0 := by
    rw [Link.started, did.taken, did.beat, Link.started]
    by_cases last : s.adapter.rg_wr_req_beat = 7
    · have later : ¬ (7 : BitVec 3) = 0 := by decide
      rw [if_pos last, if_pos last, last, if_neg later, if_neg later, if_pos rfl, writes_append,
        List.length_append]
      rfl
    · rw [if_neg last, if_neg last, if_neg (beat_succ_ne last)]
      by_cases first : s.adapter.rg_wr_req_beat = 0
      · rw [if_pos first, if_pos first]
      · rw [if_neg first, if_neg first]
  have counter := inv.counter
  have bound := inv.bound
  constructor
  · intro later
    rw [did.beat] at later
    rw [did.toM]
    split at later
    · exact absurd rfl later
    · rename_i more
      exact ⟨wb, rest, if_neg more⟩
  · rw [did.awSent, asked, started]
    split
    · rename_i first
      have next : (writes s.asked)[s.started]? = some wb := by
        rw [Link.started, if_pos first]
        exact head_getElem? queue
      exact awSent_next inv next
    · rw [List.append_nil]
      exact inv.addrs
  · rw [did.wSent, asked, beatsSent]
    exact wSent_next inv queue
  · rw [did.ctr, did.discarded, did.awSent, List.length_append]
    split
    · rw [List.length_singleton]
      omega
    · rw [List.length_nil]
      omega
  · rw [did.ctr]
    split
    · rename_i first
      have := room first
      omega
    · exact bound
  · rw [did.memory, did.discarded, did.wr_resp]
    exact inv.resp
  · rw [did.memory]
    exact inv.sent_le
  · rw [did.memory]
    exact inv.done_le
  · rw [did.memory]
    exact inv.used
  · rw [did.memory]
    exact inv.used_le

/-- An address the subordinate has taken is that of the write-back in its place. -/
theorem WriteInv.wrAddr {s : Link idT childT} (inv : WriteInv s) {i : Nat}
    {aw : AXI4_Wr_Addr 64} (taken : s.memory.wrAddrs[i]? = some aw) :
    ∃ wb, (writes s.asked)[i]? = some wb ∧ aw = writeAddr wb := by
  have sent : s.awSent[i]? = some aw := by
    have inside := (List.getElem?_eq_some_iff.mp taken).1
    rw [Link.awSent, List.getElem?_append_left inside]
    exact taken
  rw [inv.addrs, List.getElem?_map, Option.map_eq_some_iff] at sent
  obtain ⟨wb, there, same⟩ := sent
  rw [List.getElem?_take, Option.ite_none_right_eq_some] at there
  exact ⟨wb, there.2, same.symm⟩

theorem WriteInv.perform {s : Link idT childT} (inv : WriteInv s)
    (allowed : s.allows .perform_write) : WriteInv (s.step .perform_write) := by
  obtain ⟨aw, next, arrived⟩ := allowed
  obtain ⟨wb, -, rfl⟩ := inv.wrAddr next
  have inside := (List.getElem?_eq_some_iff.mp next).1
  have eight : (writeAddr wb).awlen.toNat + 1 = 8 := rfl
  have used := inv.used
  have sent_le := inv.sent_le
  rw [eight] at arrived
  have size : ((s.memory.wrDatas.drop s.memory.wrUsed).take 8).length = 8 := by
    rw [List.length_take, List.length_drop]
    omega
  simp only [Link.step, next, eight, size]
  refine ⟨inv.head, inv.addrs, inv.beats, inv.counter, inv.bound, inv.resp, ?_, inside, ?_,
    arrived⟩
  · change s.memory.wrSent ≤ s.memory.wrDone + 1
    omega
  · change s.memory.wrUsed + 8 = 8 * (s.memory.wrDone + 1)
    omega

theorem WriteInv.next {s : Link idT childT} {e : Event idT childT} (inv : WriteInv s)
    (allowed : s.allows e) : WriteInv (s.step e) := by
  cases e with
  | toM msg => exact inv.toM msg
  | rl_handle_read_req =>
      obtain ⟨⟨ld, rest, queue⟩, -⟩ := allowed
      exact inv.same (read_req_same inv queue)
  | rl_handle_read_rsps => exact inv.same (read_rsps_same s)
  | rl_handle_write_req => exact inv.write_req allowed
  | rl_discard_write_rsp =>
      obtain ⟨waits, pending⟩ := allowed
      obtain ⟨resp, slot⟩ := Option.ne_none_iff_exists'.mp waits
      have counter := inv.counter
      have bound := inv.bound
      have sent := inv.resp
      rw [slot] at sent
      refine ⟨inv.head, inv.addrs, inv.beats, ?_, ?_, ?_, inv.sent_le, inv.done_le, inv.used,
        inv.used_le⟩
      · change s.adapter.ctr_wr_rsps_pending - 1 + (s.discarded + 1) = s.awSent.length
        omega
      · change s.adapter.ctr_wr_rsps_pending - 1 ≤ 15
        omega
      · change s.memory.wrSent = s.discarded + 1 + 0
        exact sent
  | m_arready words => exact inv.same (arready_same s words)
  | m_awready =>
      have sent : (s.step .m_awready).awSent = s.awSent := by
        simp [Link.step, Link.awSent]
      refine ⟨inv.head, ?_, inv.beats, ?_, inv.bound, inv.resp, inv.sent_le, ?_, inv.used,
        inv.used_le⟩
      · rw [sent]
        exact inv.addrs
      · rw [sent]
        exact inv.counter
      · exact Nat.le_trans inv.done_le (by simp [Link.step])
  | m_wready =>
      have sent : (s.step .m_wready).wSent = s.wSent := by
        simp [Link.step, Link.wSent]
      refine ⟨inv.head, inv.addrs, ?_, inv.counter, inv.bound, inv.resp, inv.sent_le, inv.done_le,
        inv.used, ?_⟩
      · rw [sent]
        exact inv.beats
      · exact Nat.le_trans inv.used_le (by simp [Link.step])
  | m_rvalid rvalid lines => exact inv.same (rvalid_same s rvalid lines)
  | m_bvalid resp =>
      obtain ⟨waits, free⟩ := allowed
      have sent := inv.resp
      rw [free] at sent
      refine ⟨inv.head, inv.addrs, inv.beats, inv.counter, inv.bound, ?_, waits, inv.done_le,
        inv.used, inv.used_le⟩
      change s.memory.wrSent + 1 = s.discarded + 1
      exact congrArg (· + 1) sent
  | perform_read i => exact inv.same (perform_read_same s i)
  | perform_write => exact inv.perform allowed

end Toooba.LlcAdapter
