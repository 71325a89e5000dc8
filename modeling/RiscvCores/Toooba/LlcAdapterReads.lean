import RiscvCores.Toooba.LlcAdapterMemory

/-!
# Loads of the LLC adapter

The bursts the subordinate has taken are those of the loads in order, and the beats it
has sent are those the adapter has shifted into its lines, as long as no beat that waits
in the transactor is overwritten.
-/

set_option autoImplicit false

namespace Toooba.LlcAdapter

open Toooba.AXI4 Link

variable {idT childT : Type}

/-- A waiting beat is not overwritten: the lines still carry it. -/
def KeepsBeat (s : Link idT childT) : Event idT childT → Prop
  | .m_rvalid _ lines => s.adapter.crg_rd_data_full = true → lines = s.adapter.rg_rd_data
  | _ => True

structure ReadInv (s : Link idT childT) : Prop where
  pending : s.adapter.f_pending_reads = (loads s.taken).drop s.rsFromM.length
  bursts : s.memory.reads.map (·.ar) ++ s.adapter.rd_addr.toList = (loads s.taken).map readAddr
  sent : s.memory.rdSent = 8 * s.rsFromM.length + s.adapter.rg_rd_rsp_beat.toNat +
    s.adapter.crg_rd_data_full.toNat
  sent_le : s.memory.rdSent ≤ 8 * s.memory.reads.length
  slot : s.adapter.crg_rd_data_full = true → ∃ b, s.memory.reads[s.rsFromM.length]? = some b ∧
    s.adapter.rg_rd_data = b.beat s.adapter.rg_rd_rsp_beat.toNat
  performed : ∀ i b, s.memory.reads[i]? = some b → 8 * i + 8 ≤ s.memory.rdSent →
    b.performed = true

theorem ReadInv.arlen {s : Link idT childT} (inv : ReadInv s) {b : ReadBurst}
    (member : b ∈ s.memory.reads) : b.ar.arlen = 7 := by
  have there : b.ar ∈ s.memory.reads.map (·.ar) ++ s.adapter.rd_addr.toList :=
    List.mem_append_left _ (List.mem_map_of_mem member)
  rw [inv.bursts, List.mem_map] at there
  obtain ⟨ld, -, same⟩ := there
  rw [← same]
  rfl

/-- The burst of a place is that of the load there. -/
theorem ReadInv.burst {s : Link idT childT} (inv : ReadInv s) {i : Nat} {b : ReadBurst}
    (there : s.memory.reads[i]? = some b) :
    ∃ ld, (loads s.taken)[i]? = some ld ∧ b.ar = readAddr ld := by
  have inside := (List.getElem?_eq_some_iff.mp there).1
  have place : ((loads s.taken).map readAddr)[i]? = some b.ar := by
    rw [← inv.bursts, List.getElem?_append_left (by rwa [List.length_map]), List.getElem?_map,
      there]
    rfl
  rw [List.getElem?_map, Option.map_eq_some_iff] at place
  obtain ⟨ld, load, same⟩ := place
  exact ⟨ld, load, same.symm⟩

/-- The beat on the channel, and the burst it belongs to. -/
theorem ReadInv.offered {s : Link idT childT} (inv : ReadInv s) {lines : AXI4_Rd_Data 64}
    (offers : s.memory.offers lines) {i k : Nat} (place : s.memory.rdSent = 8 * i + k)
    (inside : k < 8) :
    ∃ b, s.memory.reads[i]? = some b ∧ lines = b.beat k ∧ (k = 7 → b.performed = true) := by
  have sized : ∀ b ∈ s.memory.reads, (b.beats.map fun beat => (beat, b.performed)).length = 8 := by
    intro b member
    simp [ReadBurst.beats, inv.arlen member]
  have stream := Blocks.getElem?_flatMap sized i inside
  have found : ∀ flag, s.memory.rdStream[s.memory.rdSent]? = some (lines, flag) →
      ∃ b, s.memory.reads[i]? = some b ∧ lines = b.beat k ∧ flag = b.performed := by
    intro flag there
    rw [place, Subordinate.rdStream, stream, Option.bind_eq_some_iff] at there
    obtain ⟨b, burst, beat⟩ := there
    have eight : k < b.ar.arlen.toNat + 1 := by
      rw [inv.arlen (List.mem_of_getElem? burst)]
      exact inside
    rw [List.getElem?_map, ReadBurst.beats, List.getElem?_map, List.getElem?_range eight,
      Option.map_some, Option.map_some, Option.some.injEq, Prod.mk.injEq] at beat
    exact ⟨b, burst, beat.1.symm, beat.2.symm⟩
  rcases offers with there | ⟨there, more⟩
  · obtain ⟨b, burst, same, flag⟩ := found true there
    exact ⟨b, burst, same, fun _ => flag.symm⟩
  · obtain ⟨b, burst, same, -⟩ := found false there
    refine ⟨b, burst, same, fun last => ?_⟩
    rw [same, ReadBurst.beat, inv.arlen (List.mem_of_getElem? burst), last] at more
    exact Bool.noConfusion more

/-- A step that leaves the read part alone. -/
structure SameReads (s s' : Link idT childT) : Prop where
  taken : loads s'.taken = loads s.taken
  rsFromM : s'.rsFromM = s.rsFromM
  pending : s'.adapter.f_pending_reads = s.adapter.f_pending_reads
  beat : s'.adapter.rg_rd_rsp_beat = s.adapter.rg_rd_rsp_beat
  cline : s'.adapter.rg_cline = s.adapter.rg_cline
  rd_addr : s'.adapter.rd_addr = s.adapter.rd_addr
  full : s'.adapter.crg_rd_data_full = s.adapter.crg_rd_data_full
  rg_rd_data : s.adapter.crg_rd_data_full = true → s'.adapter.rg_rd_data = s.adapter.rg_rd_data
  reads : s'.memory.reads = s.memory.reads
  rdSent : s'.memory.rdSent = s.memory.rdSent

theorem ReadInv.same {s s' : Link idT childT} (inv : ReadInv s) (same : SameReads s s') :
    ReadInv s' := by
  constructor
  · rw [same.pending, same.taken, same.rsFromM]
    exact inv.pending
  · rw [same.reads, same.rd_addr, same.taken]
    exact inv.bursts
  · rw [same.rdSent, same.rsFromM, same.beat, same.full]
    exact inv.sent
  · rw [same.rdSent, same.reads]
    exact inv.sent_le
  · intro full
    rw [same.full] at full
    rw [same.reads, same.rsFromM, same.rg_rd_data full, same.beat]
    exact inv.slot full
  · rw [same.reads, same.rdSent]
    exact inv.performed

theorem write_req_reads {s : Link idT childT} (allowed : s.allows .rl_handle_write_req) :
    SameReads s (s.step .rl_handle_write_req) := by
  obtain ⟨wb, rest, queue⟩ := allowed.1
  have did := write_req_beat queue allowed
  refine ⟨?_, ?_, ?_, ?_, ?_, ?_, ?_, ?_, by rw [did.memory], by rw [did.memory]⟩
  · rw [did.taken]
    split
    · simp
    · rfl
  all_goals
    simp only [Link.step, queue, Adapter.rl_handle_write_req]
    split_ifs
    all_goals first | rfl | exact fun _ => rfl

theorem rvalid_kept {s : Link idT childT} {rvalid : Bool} {lines : AXI4_Rd_Data 64}
    (keeps : KeepsBeat s (.m_rvalid rvalid lines))
    (stays : (rvalid && !s.adapter.crg_rd_data_full) = false) :
    SameReads s (s.step (.m_rvalid rvalid lines)) := by
  simp only [Link.step, Adapter.m_rvalid, stays, Bool.false_eq_true, if_false]
  exact ⟨rfl, rfl, rfl, rfl, rfl, rfl, rfl, keeps, rfl, rfl⟩

theorem perform_write_reads (s : Link idT childT) : SameReads s (s.step .perform_write) := by
  simp only [Link.step]
  split
  · exact ⟨rfl, rfl, rfl, rfl, rfl, rfl, rfl, fun _ => rfl, rfl, rfl⟩
  · exact ⟨rfl, rfl, rfl, rfl, rfl, rfl, rfl, fun _ => rfl, rfl, rfl⟩

theorem ReadInv.answered_le {s : Link idT childT} (inv : ReadInv s) :
    s.rsFromM.length ≤ s.memory.reads.length ∧
      s.memory.reads.length ≤ (loads s.taken).length := by
  have sent := inv.sent
  have sent_le := inv.sent_le
  have bursts := congrArg List.length inv.bursts
  rw [List.length_append, List.length_map, List.length_map] at bursts
  omega

theorem ReadInv.read_req {s : Link idT childT} {ld : LdMemRq idT childT}
    {rest : List (ToMemMsg idT childT)} (inv : ReadInv s) (queue : s.toM = .Ld ld :: rest)
    (free : s.adapter.rd_addr = none) : ReadInv (s.step .rl_handle_read_req) := by
  have answered := inv.answered_le
  have bursts := inv.bursts
  rw [free] at bursts
  simp only [Link.step, queue]
  refine ⟨?_, ?_, inv.sent, inv.sent_le, inv.slot, inv.performed⟩
  · change s.adapter.f_pending_reads ++ [ld] =
      (loads (s.taken ++ [.Ld ld])).drop s.rsFromM.length
    rw [loads_append, List.drop_append_of_le_length (by omega), inv.pending]
    rfl
  · change s.memory.reads.map (·.ar) ++ [readAddr ld] =
      (loads (s.taken ++ [.Ld ld])).map readAddr
    rw [loads_append, List.map_append, ← bursts, Option.toList_none, List.append_nil]
    rfl

theorem ReadInv.arready {s : Link idT childT} (inv : ReadInv s) (words : Nat → Data)
    (allowed : s.allows (.m_arready words)) : ReadInv (s.step (.m_arready words)) := by
  obtain ⟨ar, slot⟩ := Option.ne_none_iff_exists'.mp allowed
  have bursts := inv.bursts
  have sent_le := inv.sent_le
  rw [slot] at bursts
  simp only [Link.step, slot]
  refine ⟨inv.pending, ?_, inv.sent, ?_, ?_, ?_⟩
  · simpa using bursts
  · change s.memory.rdSent ≤ 8 * (s.memory.reads ++ [_]).length
    rw [List.length_append]
    omega
  · intro full
    obtain ⟨b, there, beat⟩ := inv.slot full
    have inside := (List.getElem?_eq_some_iff.mp there).1
    exact ⟨b, (List.getElem?_append_left inside).trans there, beat⟩
  · intro i b there done
    have inside : i < s.memory.reads.length := by
      have done : 8 * i + 8 ≤ s.memory.rdSent := done
      omega
    exact inv.performed i b ((List.getElem?_append_left inside).symm.trans there) done

theorem ReadInv.rvalid {s : Link idT childT} {lines : AXI4_Rd_Data 64} (inv : ReadInv s)
    (free : s.adapter.crg_rd_data_full = false) (offers : s.memory.offers lines) :
    ReadInv (s.step (.m_rvalid true lines)) := by
  have sent := inv.sent
  rw [free] at sent
  have small := s.adapter.rg_rd_rsp_beat.isLt
  obtain ⟨b, burst, same, last⟩ := inv.offered offers sent small
  have inside := (List.getElem?_eq_some_iff.mp burst).1
  have stores : (true && !s.adapter.crg_rd_data_full) = true := by rw [free]; rfl
  simp only [Link.step, Adapter.m_rvalid, stores, if_true]
  refine ⟨inv.pending, inv.bursts, ?_, ?_, fun _ => ⟨b, burst, same⟩, ?_⟩
  · change s.memory.rdSent + 1 = _
    rw [sent]
    rfl
  · change s.memory.rdSent + 1 ≤ 8 * s.memory.reads.length
    simp only [Bool.toNat_false] at sent
    omega
  · intro i other there done
    have done : 8 * i + 8 ≤ s.memory.rdSent + 1 := done
    have there : s.memory.reads[i]? = some other := there
    by_cases before : 8 * i + 8 ≤ s.memory.rdSent
    · exact inv.performed i other there before
    · simp only [Bool.toNat_false] at sent
      have here : i = s.rsFromM.length := by omega
      subst here
      rw [burst, Option.some.injEq] at there
      subst there
      exact last (by omega)

/-- A performed burst keeps its address and its words. -/
theorem performed_getElem? {reads : List ReadBurst} {i j : Nat} {b : ReadBurst}
    (there : (reads.modify i fun b => { b with performed := true })[j]? = some b) :
    ∃ b₀, reads[j]? = some b₀ ∧ b.ar = b₀.ar ∧ b.words = b₀.words ∧
      (b.performed = true ↔ i = j ∨ b₀.performed = true) := by
  rw [List.getElem?_modify, Option.map_eq_map, Option.map_eq_some_iff] at there
  obtain ⟨b₀, before, rfl⟩ := there
  refine ⟨b₀, before, ?_⟩
  split
  · rename_i here
    exact ⟨rfl, rfl, by simp [here]⟩
  · rename_i other
    exact ⟨rfl, rfl, by simp [other]⟩

theorem ReadInv.perform {s : Link idT childT} (inv : ReadInv s) (i : Nat) :
    ReadInv (s.step (.perform_read i)) := by
  have length : (s.step (.perform_read i)).memory.reads.length = s.memory.reads.length := by
    simp [Link.step]
  refine ⟨inv.pending, ?_, inv.sent, ?_, ?_, ?_⟩
  · refine Eq.trans (congrArg (· ++ s.adapter.rd_addr.toList) ?_) inv.bursts
    apply List.ext_getElem?
    intro j
    simp only [Link.step, List.getElem?_map, List.getElem?_modify, Option.map_eq_map,
      Option.map_map]
    congr 1
    funext b
    dsimp only [Function.comp_apply]
    split <;> rfl
  · rw [length]
    exact inv.sent_le
  · intro full
    obtain ⟨b, there, beat⟩ := inv.slot full
    refine ⟨if i = s.rsFromM.length then { b with performed := true } else b, ?_, ?_⟩
    · simp only [Link.step, List.getElem?_modify, there, Option.map_eq_map, Option.map_some]
    · refine beat.trans ?_
      split <;> rfl
  · intro j b there done
    obtain ⟨b₀, before, -, -, performed⟩ := performed_getElem? there
    exact performed.mpr (.inr (inv.performed j b₀ before done))

theorem ReadInv.read_rsps {s : Link idT childT} (inv : ReadInv s)
    (allowed : s.allows .rl_handle_read_rsps) : ReadInv (s.step .rl_handle_read_rsps) := by
  obtain ⟨full, -⟩ := allowed
  obtain ⟨b, burst, beat⟩ := inv.slot full
  obtain ⟨ld, load, -⟩ := inv.burst burst
  have sent := inv.sent
  rw [full] at sent
  have seven := inv.arlen (List.mem_of_getElem? burst)
  have lastBeat : s.adapter.rg_rd_data.rlast = decide (s.adapter.rg_rd_rsp_beat.toNat = 7) := by
    rw [beat, ReadBurst.beat, seven]
    rfl
  by_cases last : s.adapter.rg_rd_rsp_beat = 7
  · have rlast : s.adapter.rg_rd_data.rlast = true := by rw [lastBeat, last]; rfl
    have waiting : s.adapter.f_pending_reads =
        ld :: (loads s.taken).drop (s.rsFromM.length + 1) := by
      rw [inv.pending]
      exact List.drop_eq_getElem?_toList_append.trans (by rw [load]; rfl)
    simp only [Link.step, Adapter.rl_handle_read_rsps, rlast, if_true]
    refine ⟨?_, inv.bursts, ?_, inv.sent_le, fun none => Bool.noConfusion none, inv.performed⟩
    · simp [waiting]
    · rw [last] at sent
      simp only [waiting, List.head?_cons, Option.map_some, Option.toList_some,
        List.length_append, List.length_singleton]
      change s.memory.rdSent = 8 * (s.rsFromM.length + 1) + 0 + 0
      change s.memory.rdSent = 8 * s.rsFromM.length + 7 + 1 at sent
      omega
  · have rlast : s.adapter.rg_rd_data.rlast = false := by
      rw [lastBeat, decide_eq_false]
      exact fun same => last (BitVec.eq_of_toNat_eq same)
    simp only [Link.step, Adapter.rl_handle_read_rsps, rlast, Bool.false_eq_true, if_false,
      Option.toList_none, List.append_nil]
    refine ⟨inv.pending, inv.bursts, ?_, inv.sent_le, fun none => Bool.noConfusion none,
      inv.performed⟩
    change s.memory.rdSent = 8 * s.rsFromM.length + (s.adapter.rg_rd_rsp_beat + 1).toNat + 0
    rw [beat_succ last, sent]
    rfl

theorem ReadInv.next {s : Link idT childT} {e : Event idT childT} (inv : ReadInv s)
    (allowed : s.allows e) (keeps : KeepsBeat s e) : ReadInv (s.step e) := by
  cases e with
  | toM msg => exact ⟨inv.pending, inv.bursts, inv.sent, inv.sent_le, inv.slot, inv.performed⟩
  | rl_handle_read_req =>
      obtain ⟨⟨ld, rest, queue⟩, -, free, -⟩ := allowed
      exact inv.read_req queue free
  | rl_handle_read_rsps => exact inv.read_rsps allowed
  | rl_handle_write_req => exact inv.same (write_req_reads allowed)
  | rl_discard_write_rsp =>
      exact ⟨inv.pending, inv.bursts, inv.sent, inv.sent_le, inv.slot, inv.performed⟩
  | m_arready words => exact inv.arready words allowed
  | m_awready => exact ⟨inv.pending, inv.bursts, inv.sent, inv.sent_le, inv.slot, inv.performed⟩
  | m_wready => exact ⟨inv.pending, inv.bursts, inv.sent, inv.sent_le, inv.slot, inv.performed⟩
  | m_rvalid rvalid lines =>
      cases stays : rvalid && !s.adapter.crg_rd_data_full with
      | false => exact inv.same (rvalid_kept keeps stays)
      | true =>
          rw [Bool.and_eq_true, Bool.not_eq_true'] at stays
          obtain ⟨rfl, free⟩ := stays
          exact inv.rvalid free (allowed rfl)
  | m_bvalid resp =>
      exact ⟨inv.pending, inv.bursts, inv.sent, inv.sent_le, inv.slot, inv.performed⟩
  | perform_read i => exact inv.perform i
  | perform_write => exact inv.same (perform_write_reads s)

end Toooba.LlcAdapter
