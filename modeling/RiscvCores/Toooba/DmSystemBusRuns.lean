import RiscvCores.Toooba.DmSystemBusOps

/-!
# Runs of the debug module's bus access

The access in progress, the answer of the fabric that completes it, and what every step
of a run does.
-/

set_option autoImplicit false

namespace Toooba.SystemBus

open Toooba.AXI4

variable {f : Fabric} {power : DM_System_Bus f}

abbrev History (f : Fabric) : Type := List (System f × Event f)

def System.rdSent (s : System f) : List (AXI4_Rd_Addr f.wd_Addr) := s.rd_addrs ++ s.dm.i_rd_addr

def System.wrSent (s : System f) :
    List (AXI4_Wr_Addr f.wd_Addr) × List (AXI4_Wr_Data f.wd_Data) :=
  (s.wr_addrs ++ s.dm.i_wr_addr, s.wr_datas ++ s.dm.i_wr_data)

/-- The fabric has answered every access. -/
def System.Answered (s : System f) : Prop :=
  s.rd_answers = s.rdSent.length ∧ s.wr_answers = s.wrSent.1.length ∧
    s.wr_answers = s.wrSent.2.length
def Event.finishes : Event f → Prop
  | .rl_sb_read_finish => True
  | .rl_sb_write_response => True
  | _ => False

/-- The access started last, and the steps since then, none of which completed it. -/
def Since (cycles during : History f) (a : Access) : Prop :=
  ∃ before s e, cycles = before ++ (s, e) :: during ∧ accessOf s e = some a ∧
    ∀ c ∈ during, ¬ c.2.finishes

/-- A write of `sbcs` is ignored or names the size in force. -/
def KeepsSize (c : System f × Event f) : Prop :=
  ∀ dm_word, c.2 = .write dm_addr_sbcs dm_word →
    (c.1.dm.rg_sbcs_sbbusyerror = true ∧ dm_word.getLsbD 22 = false) ∨
      dm_word.extractLsb' 17 3 = c.1.dm.rg_sbcs_sbaccess

/-- No write of `sbcs` names another size. -/
def SizeKept (during : History f) : Prop := ∀ c ∈ during, KeepsSize c

def isAccess (dm_addr : DM_Addr) : Prop :=
  dm_addr = dm_addr_sbaddress0 ∨ dm_addr = dm_addr_sbaddress1 ∨ dm_addr = dm_addr_sbdata0

/-- What a step does after a history. -/
structure Follows (cycles : History f) (s : System f) (e : Event f) : Prop where
  none_sent : accessOf s e = none → (s.step e).rdSent = s.rdSent ∧ (s.step e).wrSent = s.wrSent
  read_sent : ∀ a, accessOf s e = some a → a.data = none →
    (s.step e).wrSent = s.wrSent ∧ ∃ rda, (s.step e).rdSent = s.rdSent ++ [rda] ∧
      (a.Supported → ReadFor a rda)
  write_sent : ∀ a dm_word, accessOf s e = some a → a.data = some dm_word →
    (s.step e).rdSent = s.rdSent ∧ ∃ wra wrd,
      (s.step e).wrSent = (s.wrSent.1 ++ [wra], s.wrSent.2 ++ [wrd]) ∧
      (a.Supported → WriteFor a dm_word wra wrd)
  stepped : (s.step e).dm.sbaddress =
    if s.dm.rg_sbcs_sbautoincrement = true ∧ ((accessOf s e).isSome ∨ readsData s e) then
      writtenAddress s e + BitVec.ofNat 64 (fn_sbaccess_to_addr_incr s.dm.rg_sbcs_sbaccess)
    else writtenAddress s e
  data_kept : e ≠ .rl_sb_read_finish → (∀ a, accessOf s e = some a → a.data = none) →
    (s.step e).dm.rg_sbdata0 = s.dm.rg_sbdata0
  busy_write : ∀ dm_addr dm_word, e = .write dm_addr dm_word → isAccess dm_addr →
    s.dm.sbbusy = true → s.step e = { s with dm := { s.dm with rg_sbcs_sbbusyerror := true } }
  busy_read : ∀ dm_addr, e = .av_read dm_addr → s.dm.sbbusy = false
  in_progress : s.dm.sbbusy = true ↔ ∃ during a, Since cycles during a
  read_value : ∀ during a rdr, Since cycles during a → SizeKept during →
    e = .rl_sb_read_finish → s.dm.o_rd_data.head? = some rdr →
    a.data = none ∧ (a.Supported → ReadValue a rdr.rdata (s.step e).dm.rg_sbdata0)
  returns : ∀ during a, Since cycles during a → (a.data = none → SizeKept during) →
    s.Answered → ∃ rule, rule.finishes ∧ s.allows rule ∧ (s.step rule).dm.sbbusy = false
/-! ## Runs -/

def System.owes (s : System f) (state : SB_State) : Nat :=
  if s.dm.rg_sb_state = state then 1 else 0

/-- The fabric still has, or has answered, exactly the access in progress. -/
structure Inv (s : System f) : Prop where
  rd : s.rd_answers + s.owes .SB_READ_FINISH = s.rdSent.length + s.dm.o_rd_data.length
  rd_le : s.rd_answers ≤ s.rd_addrs.length
  wr_addr : s.wr_answers + s.owes .SB_WRITE_FINISH =
    s.wrSent.1.length + s.dm.o_wr_resp.length
  wr_data : s.wr_answers + s.owes .SB_WRITE_FINISH =
    s.wrSent.2.length + s.dm.o_wr_resp.length
  wr_addr_le : s.wr_answers ≤ s.wr_addrs.length
  wr_data_le : s.wr_answers ≤ s.wr_datas.length

theorem start_inv (power : DM_System_Bus f) : Inv (System.start power) :=
  ⟨rfl, Nat.le_refl 0, rfl, rfl, Nat.le_refl 0, Nat.le_refl 0⟩

theorem ready_idle {s : DM_System_Bus f} (free : s.ready = true) :
    s.rg_sb_state = .SB_NOTBUSY := by
  simpa [DM_System_Bus.sbbusy] using (DM_System_Bus.ready_iff.mp free).1

theorem Inv.quiet {s : System f} {dm : DM_System_Bus f} (inv : Inv s) (quiet : Quiet s.dm dm) :
    Inv { s with dm := dm } := by
  obtain ⟨state, -, -, rd_addr, wr_addr, wr_data, rd_data, wr_resp⟩ := quiet
  constructor
  · simpa [System.owes, System.rdSent, state, rd_addr, rd_data] using inv.rd
  · exact inv.rd_le
  · simpa [System.owes, System.wrSent, state, wr_addr, wr_resp] using inv.wr_addr
  · simpa [System.owes, System.wrSent, state, wr_data, wr_resp] using inv.wr_data
  · exact inv.wr_addr_le
  · exact inv.wr_data_le

theorem Inv.started {s : System f} {dm : DM_System_Bus f} {a : Access} (inv : Inv s)
    (started : Started s.dm a dm) : Inv { s with dm := dm } := by
  have idle := ready_idle started.free
  have rd := inv.rd
  have wr_addr := inv.wr_addr
  have wr_data := inv.wr_data
  cases write : a.data with
  | none =>
      have state : dm.rg_sb_state = .SB_READ_FINISH := by rw [started.state, Access.state, write]
      constructor
      · simp [System.owes, System.rdSent, state, started.rd_addr, started.rd_data, Access.rdAddrs,
          write, idle] at rd ⊢
        omega
      · exact inv.rd_le
      · simpa [System.owes, System.wrSent, state, idle, started.wr_addr, started.wr_resp,
          Access.wrAddrs, write] using wr_addr
      · simpa [System.owes, System.wrSent, state, idle, started.wr_data, started.wr_resp,
          Access.wrDatas, write] using wr_data
      · exact inv.wr_addr_le
      · exact inv.wr_data_le
  | some dm_word =>
      have state : dm.rg_sb_state = .SB_WRITE_FINISH := by rw [started.state, Access.state, write]
      constructor
      · simpa [System.owes, System.rdSent, state, idle, started.rd_addr, started.rd_data,
          Access.rdAddrs, write] using rd
      · exact inv.rd_le
      · simp [System.owes, System.wrSent, state, started.wr_addr, started.wr_resp, Access.wrAddrs,
          write, idle] at wr_addr ⊢
        omega
      · simp [System.owes, System.wrSent, state, started.wr_data, started.wr_resp, Access.wrDatas,
          write, idle] at wr_data ⊢
        omega
      · exact inv.wr_addr_le
      · exact inv.wr_data_le

theorem Inv.dmi {s : System f} {e : Event f} (inv : Inv s) (dmi : e.dmi = true) :
    Inv { s with dm := (s.step e).dm } := by
  cases started : accessOf s e with
  | none => exact inv.quiet (dmi_quiet s dmi started)
  | some a => exact inv.started (dmi_started s started)

/-- The fabric takes requests in order, so what was sent stays the same. -/
theorem taken {α : Type} (done queue : List α) :
    done ++ queue.take 1 ++ queue.drop 1 = done ++ queue := by
  rw [List.append_assoc, List.take_append_drop]

theorem Inv.next {s : System f} {e : Event f} (inv : Inv s) (allowed : s.allows e) :
    Inv (s.step e) := by
  obtain ⟨rd, rd_le, wr_addr, wr_data, wr_addr_le, wr_data_le⟩ := inv
  cases e with
  | write dm_addr dm_word =>
      exact Inv.dmi (e := .write dm_addr dm_word)
        ⟨rd, rd_le, wr_addr, wr_data, wr_addr_le, wr_data_le⟩ rfl
  | av_read dm_addr =>
      exact Inv.dmi (e := .av_read dm_addr)
        ⟨rd, rd_le, wr_addr, wr_data, wr_addr_le, wr_data_le⟩ rfl
  | rl_sb_read_finish =>
      obtain ⟨state, -, some⟩ := allowed
      cases queue : s.dm.o_rd_data with
      | nil => exact absurd queue some
      | cons rdr rest =>
          simp only [System.owes, state, queue, if_true, List.length_cons, reduceCtorEq,
            if_false] at rd wr_addr wr_data
          refine ⟨?_, rd_le, ?_, ?_, wr_addr_le, wr_data_le⟩ <;>
            simp only [System.step, DM_System_Bus.rl_sb_read_finish, queue, System.owes,
              reduceCtorEq, if_false]
          · exact Nat.succ.inj rd
          · exact wr_addr
          · exact wr_data
  | rl_sb_write_response =>
      cases queue : s.dm.o_wr_resp with
      | nil => exact absurd queue allowed
      | cons wrr rest =>
          have state : s.dm.rg_sb_state = .SB_WRITE_FINISH := by
            by_contra other
            simp only [System.owes, other, queue, if_false, System.wrSent, List.length_cons,
              List.length_append] at wr_addr
            omega
          simp only [System.owes, state, queue, if_true, List.length_cons, reduceCtorEq,
            if_false] at rd wr_addr wr_data
          refine ⟨?_, rd_le, ?_, ?_, wr_addr_le, wr_data_le⟩ <;>
            simp only [System.step, DM_System_Bus.rl_sb_write_response, queue, System.owes,
              reduceCtorEq, if_false]
          · exact rd
          · exact Nat.succ.inj wr_addr
          · exact Nat.succ.inj wr_data
  | rd_addr =>
      have sent : (s.step .rd_addr).rdSent = s.rdSent := taken s.rd_addrs s.dm.i_rd_addr
      refine ⟨by rw [sent]; exact rd, ?_, wr_addr, wr_data, wr_addr_le, wr_data_le⟩
      exact rd_le.trans (by simp [System.step])
  | wr_addr =>
      have sent : (s.step .wr_addr).wrSent.1 = s.wrSent.1 := taken s.wr_addrs s.dm.i_wr_addr
      refine ⟨rd, rd_le, by rw [sent]; exact wr_addr, wr_data, ?_, wr_data_le⟩
      exact wr_addr_le.trans (by simp [System.step])
  | wr_data =>
      have sent : (s.step .wr_data).wrSent.2 = s.wrSent.2 := taken s.wr_datas s.dm.i_wr_data
      refine ⟨rd, rd_le, wr_addr, by rw [sent]; exact wr_data, wr_addr_le, ?_⟩
      exact wr_data_le.trans (by simp [System.step])
  | rd_data rdr =>
      refine ⟨?_, allowed, wr_addr, wr_data, wr_addr_le, wr_data_le⟩
      have queue : (s.step (.rd_data rdr)).dm.o_rd_data.length = s.dm.o_rd_data.length + 1 := by
        simp [System.step]
      have owed : (s.step (.rd_data rdr)).owes .SB_READ_FINISH = s.owes .SB_READ_FINISH := rfl
      have sent : (s.step (.rd_data rdr)).rdSent = s.rdSent := rfl
      have answers : (s.step (.rd_data rdr)).rd_answers = s.rd_answers + 1 := rfl
      rw [sent]
      omega
  | wr_resp wrr =>
      obtain ⟨addr_waits, data_waits⟩ := allowed
      have queue : (s.step (.wr_resp wrr)).dm.o_wr_resp.length = s.dm.o_wr_resp.length + 1 := by
        simp [System.step]
      have owed : (s.step (.wr_resp wrr)).owes .SB_WRITE_FINISH = s.owes .SB_WRITE_FINISH := rfl
      have sent : (s.step (.wr_resp wrr)).wrSent = s.wrSent := rfl
      have answers : (s.step (.wr_resp wrr)).wr_answers = s.wr_answers + 1 := rfl
      exact ⟨rd, rd_le, by rw [sent]; omega, by rw [sent]; omega, addr_waits, data_waits⟩

theorem run_inv {cycles : History f} {s : System f} (run : (machine power).Run cycles s) :
    Inv s :=
  run.invariant (fun _ s => Inv s) (start_inv power) fun _ _ _ _ inv allowed => inv.next allowed

/-- Without an access in progress the request FIFOs are empty. -/
theorem Inv.idle {s : System f} (inv : Inv s) (idle : s.dm.rg_sb_state = .SB_NOTBUSY) :
    s.dm.i_rd_addr = [] ∧ s.dm.i_wr_addr = [] ∧ s.dm.i_wr_data = [] := by
  obtain ⟨rd, rd_le, wr_addr, wr_data, wr_addr_le, wr_data_le⟩ := inv
  simp only [System.owes, idle, reduceCtorEq, if_false, System.rdSent, System.wrSent,
    List.length_append] at rd wr_addr wr_data
  refine ⟨List.eq_nil_of_length_eq_zero ?_, List.eq_nil_of_length_eq_zero ?_,
    List.eq_nil_of_length_eq_zero ?_⟩
  · omega
  · omega
  · omega

/-! ## The access in progress -/

/-- The registers hold the access. -/
def Outstanding (a : Access) (s : System f) : Prop :=
  s.dm.rg_sb_state = a.state ∧ (a.data = none → s.dm.rg_sbaddress_reading = a.addr)

theorem Access.state_ne (a : Access) : a.state ≠ .SB_NOTBUSY := by
  unfold Access.state
  split <;> decide

theorem Outstanding.busy {a : Access} {s : System f} (outstanding : Outstanding a s) :
    s.dm.sbbusy = true := by
  simpa [DM_System_Bus.sbbusy, outstanding.1] using a.state_ne

theorem accessOf_busy {s : System f} (e : Event f) (busy : s.dm.sbbusy = true) :
    accessOf s e = none := by
  have refused : s.dm.ready = false := by simp [DM_System_Bus.ready, busy]
  cases e <;> simp [accessOf, refused]

theorem Outstanding.next {a : Access} {s : System f} {e : Event f}
    (outstanding : Outstanding a s) (goesOn : ¬ e.finishes) : Outstanding a (s.step e) := by
  have none_started := accessOf_busy e outstanding.busy
  have dmi : e.dmi = true → Outstanding a (s.step e) := by
    intro dmi
    have quiet := dmi_quiet s dmi none_started
    exact ⟨quiet.state.trans outstanding.1, fun read => quiet.reading.trans (outstanding.2 read)⟩
  cases e with
  | write dm_addr dm_word => exact dmi rfl
  | av_read dm_addr => exact dmi rfl
  | rl_sb_read_finish => exact absurd trivial goesOn
  | rl_sb_write_response => exact absurd trivial goesOn
  | rd_addr => exact outstanding
  | wr_addr => exact outstanding
  | wr_data => exact outstanding
  | rd_data rdr => exact outstanding
  | wr_resp wrr => exact outstanding

theorem outstanding_of_started {s : System f} {e : Event f} {a : Access}
    (started : accessOf s e = some a) : Outstanding a (s.step e) :=
  ⟨(dmi_started s started).state, (dmi_started s started).reading⟩

/-- The size register still has the size of the access, and no error is pending. -/
def SameSize (a : Access) (s : System f) : Prop :=
  s.dm.rg_sbcs_sbaccess = a.sbaccess ∧ s.dm.rg_sbcs_sberror = DM_SBERROR_NONE

theorem write_keeps_sbcs {s : DM_System_Bus f} {dm_addr : DM_Addr} (dm_word : DM_Word)
    (other : dm_addr ≠ dm_addr_sbcs) :
    (s.write dm_addr dm_word).rg_sbcs_sbaccess = s.rg_sbcs_sbaccess ∧
      (s.write dm_addr dm_word).rg_sbcs_sberror = s.rg_sbcs_sberror := by
  unfold DM_System_Bus.write
  rw [if_neg other]
  split_ifs
  · unfold DM_System_Bus.fa_rg_sbaddress_write
    dsimp only
    split_ifs <;> exact ⟨rfl, rfl⟩
  · unfold DM_System_Bus.fa_rg_sbdata_write
    dsimp only
    split_ifs <;> exact ⟨rfl, rfl⟩
  · exact ⟨rfl, rfl⟩

theorem read_keeps_sbcs (s : DM_System_Bus f) (dm_addr : DM_Addr) :
    (s.av_read dm_addr).1.rg_sbcs_sbaccess = s.rg_sbcs_sbaccess ∧
      (s.av_read dm_addr).1.rg_sbcs_sberror = s.rg_sbcs_sberror := by
  unfold DM_System_Bus.av_read
  split_ifs
  · exact ⟨rfl, rfl⟩
  · exact ⟨rfl, rfl⟩
  · exact ⟨rfl, rfl⟩
  · unfold DM_System_Bus.fav_rg_sbdata_read
    dsimp only
    split_ifs <;> exact ⟨rfl, rfl⟩
  · exact ⟨rfl, rfl⟩

/-- What a write of `sbcs` does to the size. -/
theorem sbcs_write_cases (s : DM_System_Bus f) (dm_word : DM_Word) :
    s.fa_rg_sbcs_write dm_word = s ∨
      ((dm_word.extractLsb' 17 3 = DM_SBACCESS_128_BIT ∨
          dm_word.extractLsb' 17 3 = DM_SBACCESS_64_BIT) ∧
        (s.rg_sbcs_sbbusyerror = true → dm_word.getLsbD 22 = true) ∧
        (s.fa_rg_sbcs_write dm_word).rg_sbcs_sbaccess = s.rg_sbcs_sbaccess) ∨
      (¬ (dm_word.extractLsb' 17 3 = DM_SBACCESS_128_BIT ∨
          dm_word.extractLsb' 17 3 = DM_SBACCESS_64_BIT) ∧
        (s.rg_sbcs_sbbusyerror = true → dm_word.getLsbD 22 = true) ∧
        (s.fa_rg_sbcs_write dm_word).rg_sbcs_sbaccess = dm_word.extractLsb' 17 3 ∧
        (s.fa_rg_sbcs_write dm_word).rg_sbcs_sberror = DM_SBERROR_NONE) := by
  unfold DM_System_Bus.fa_rg_sbcs_write
  dsimp only
  split_ifs with error busyerror size
  · exact .inl rfl
  · exact .inl rfl
  · exact .inr (.inl ⟨size, fun set => by simpa [set] using busyerror, rfl⟩)
  · exact .inr (.inr ⟨size, fun set => by simpa [set] using busyerror, rfl, rfl⟩)

/-- The sizes that are not supported are never in force. -/
def Sized (s : System f) : Prop :=
  ¬ (s.dm.rg_sbcs_sbaccess = DM_SBACCESS_128_BIT ∨ s.dm.rg_sbcs_sbaccess = DM_SBACCESS_64_BIT)

theorem start_sized (power : DM_System_Bus f) : Sized (System.start power) := by
  change ¬ (DM_SBACCESS_32_BIT = DM_SBACCESS_128_BIT ∨ DM_SBACCESS_32_BIT = DM_SBACCESS_64_BIT)
  decide

theorem Sized.next {s : System f} {e : Event f} (sized : Sized s) : Sized (s.step e) := by
  have same : (s.step e).dm.rg_sbcs_sbaccess = s.dm.rg_sbcs_sbaccess → Sized (s.step e) :=
    fun kept => by rw [Sized, kept]; exact sized
  cases e with
  | write dm_addr dm_word =>
      by_cases sbcs : dm_addr = dm_addr_sbcs
      · subst sbcs
        rcases sbcs_write_cases s.dm dm_word with ignored | ⟨-, -, failed⟩ | ⟨fits, -, size, -⟩
        · exact same (congrArg DM_System_Bus.rg_sbcs_sbaccess ignored)
        · exact same failed
        · have size : (s.step (.write dm_addr_sbcs dm_word)).dm.rg_sbcs_sbaccess =
              dm_word.extractLsb' 17 3 := size
          rw [Sized, size]
          exact fits
      · exact same (write_keeps_sbcs dm_word sbcs).1
  | av_read dm_addr => exact same (read_keeps_sbcs s.dm dm_addr).1
  | rl_sb_read_finish =>
      refine same ?_
      simp only [System.step, DM_System_Bus.rl_sb_read_finish]
      split <;> rfl
  | rl_sb_write_response =>
      refine same ?_
      simp only [System.step, DM_System_Bus.rl_sb_write_response]
      split <;> rfl
  | rd_addr => exact sized
  | wr_addr => exact sized
  | wr_data => exact sized
  | rd_data rdr => exact sized
  | wr_resp wrr => exact sized

theorem run_sized {cycles : History f} {s : System f}
    (run : (machine power).Run cycles s) : Sized s :=
  run.invariant (fun _ s => Sized s) (start_sized power) fun _ _ _ _ sized _ => sized.next

theorem sbcs_write_keeps {a : Access} {s : System f} {dm_word : DM_Word} (sized : Sized s)
    (same : SameSize a s) (kept : KeepsSize (s, .write dm_addr_sbcs dm_word)) :
    SameSize a (s.step (.write dm_addr_sbcs dm_word)) := by
  obtain ⟨size, none_pending⟩ := same
  have step : (s.step (.write dm_addr_sbcs dm_word)).dm = s.dm.fa_rg_sbcs_write dm_word := rfl
  rw [SameSize, step]
  rcases kept dm_word rfl with ⟨set, clear⟩ | named
  · have ignored : s.dm.fa_rg_sbcs_write dm_word = s.dm := by
      have refuses := fun clears : s.dm.rg_sbcs_sbbusyerror = true → dm_word.getLsbD 22 = true =>
        Bool.false_ne_true (clear.symm.trans (clears set))
      rcases sbcs_write_cases s.dm dm_word with ignored | ⟨-, clears, -⟩ | ⟨-, clears, -⟩
      · exact ignored
      · exact absurd clears refuses
      · exact absurd clears refuses
    rw [ignored]
    exact ⟨size, none_pending⟩
  · rcases sbcs_write_cases s.dm dm_word with ignored | ⟨unfit, -, -⟩ | ⟨-, -, written, cleared⟩
    · rw [ignored]
      exact ⟨size, none_pending⟩
    · rw [named] at unfit
      exact absurd unfit sized
    · exact ⟨written.trans (named.trans size), cleared⟩

theorem SameSize.next {a : Access} {s : System f} {e : Event f} (sized : Sized s)
    (same : SameSize a s) (goesOn : ¬ e.finishes) (kept : KeepsSize (s, e)) :
    SameSize a (s.step e) := by
  cases e with
  | write dm_addr dm_word =>
      by_cases sbcs : dm_addr = dm_addr_sbcs
      · subst sbcs
        exact sbcs_write_keeps sized same kept
      · have keeps := write_keeps_sbcs (s := s.dm) dm_word sbcs
        exact ⟨keeps.1.trans same.1, keeps.2.trans same.2⟩
  | av_read dm_addr =>
      have keeps := read_keeps_sbcs s.dm dm_addr
      exact ⟨keeps.1.trans same.1, keeps.2.trans same.2⟩
  | rl_sb_read_finish => exact absurd trivial goesOn
  | rl_sb_write_response => exact absurd trivial goesOn
  | rd_addr => exact same
  | wr_addr => exact same
  | wr_data => exact same
  | rd_data rdr => exact same
  | wr_resp wrr => exact same

theorem Since.outstanding {cycles during : History f} {s : System f} {a : Access}
    (run : (machine power).Run cycles s) (since : Since cycles during a) : Outstanding a s := by
  obtain ⟨before, s₀, e₀, rfl, started, goesOn⟩ := since
  exact run.lasts (Outstanding a) (fun c => c.2.finishes)
    (fun _ _ _ _ outstanding goesOn => outstanding.next goesOn)
    (outstanding_of_started started) goesOn

theorem Since.sameSize {cycles during : History f} {s : System f} {a : Access}
    (run : (machine power).Run cycles s) (since : Since cycles during a)
    (kept : SizeKept during) : SameSize a s := by
  obtain ⟨before, s₀, e₀, rfl, started, goesOn⟩ := since
  have begun := dmi_started s₀ started
  refine run.lasts (SameSize a) (fun c => c.2.finishes ∨ ¬ KeepsSize c)
    (fun _ c earlier _ same quiet => ?_) ⟨begun.sbaccess, begun.sberror⟩
    (fun c member => not_or.mpr ⟨goesOn c member, not_not.mpr (kept c member)⟩)
  obtain ⟨goesOn, kept⟩ := not_or.mp quiet
  exact same.next (run_sized earlier) goesOn (not_not.mp kept)

theorem finished_idle {s : System f} {e : Event f} (finishes : e.finishes)
    (allowed : s.allows e) : (s.step e).dm.rg_sb_state = .SB_NOTBUSY := by
  cases e with
  | rl_sb_read_finish =>
      obtain ⟨rdr, rest, queue⟩ := List.exists_cons_of_ne_nil allowed.2.2
      simp only [System.step, DM_System_Bus.rl_sb_read_finish, queue]
  | rl_sb_write_response =>
      obtain ⟨wrr, rest, queue⟩ := List.exists_cons_of_ne_nil allowed
      simp only [System.step, DM_System_Bus.rl_sb_write_response, queue]
  | _ => exact absurd finishes id

/-- An operation that starts nothing does not make the module busy. -/
theorem step_state {s : System f} {e : Event f} (goesOn : ¬ e.finishes)
    (none_started : accessOf s e = none) :
    (s.step e).dm.rg_sb_state = s.dm.rg_sb_state := by
  cases e with
  | write dm_addr dm_word => exact (write_quiet s dm_addr dm_word none_started).state
  | av_read dm_addr => exact (read_quiet s dm_addr none_started).state
  | rl_sb_read_finish => exact absurd trivial goesOn
  | rl_sb_write_response => exact absurd trivial goesOn
  | _ => rfl

theorem since_of_busy {cycles : History f} {s : System f}
    (run : (machine power).Run cycles s) (busy : s.dm.rg_sb_state ≠ .SB_NOTBUSY) :
    ∃ during a, Since cycles during a := by
  induction run with
  | reset => exact absurd rfl busy
  | @cycle cycles s e run allowed ih =>
      by_cases finishes : e.finishes
      · exact absurd (finished_idle finishes allowed) busy
      · cases started : accessOf s e with
        | some a => exact ⟨[], a, cycles, s, e, rfl, started, by simp⟩
        | none =>
            have before : s.dm.rg_sb_state ≠ .SB_NOTBUSY := by
              rwa [← step_state finishes started]
            obtain ⟨during, a, earlier, s₀, e₀, rfl, begun, goesOn⟩ := ih before
            refine ⟨during ++ [(s, e)], a, earlier, s₀, e₀, by simp, begun, fun c member => ?_⟩
            rcases List.mem_append.mp member with old | new
            · exact goesOn c old
            · rw [List.mem_singleton.mp new]
              exact finishes

/-- Once the fabric has answered, the rule that takes the answer can fire. -/
theorem Inv.finish_allowed {a : Access} {s : System f} (inv : Inv s)
    (outstanding : Outstanding a s)
    (none_pending : a.data = none → s.dm.rg_sbcs_sberror = DM_SBERROR_NONE)
    (answered : s.Answered) : ∃ rule : Event f, rule.finishes ∧ s.allows rule := by
  obtain ⟨rd, wr_addr, -⟩ := answered
  cases write : a.data with
  | none =>
      have state : s.dm.rg_sb_state = .SB_READ_FINISH := by
        rw [outstanding.1, Access.state, write]
      have owed : s.owes .SB_READ_FINISH = 1 := if_pos state
      have waits : s.dm.o_rd_data ≠ [] := by
        have queue : s.dm.o_rd_data.length = 1 := by
          have := inv.rd
          omega
        exact List.ne_nil_of_length_pos (by omega)
      exact ⟨.rl_sb_read_finish, trivial, state, none_pending write, waits⟩
  | some dm_word =>
      have state : s.dm.rg_sb_state = .SB_WRITE_FINISH := by
        rw [outstanding.1, Access.state, write]
      have owed : s.owes .SB_WRITE_FINISH = 1 := if_pos state
      have waits : s.dm.o_wr_resp ≠ [] := by
        have queue : s.dm.o_wr_resp.length = 1 := by
          have := inv.wr_addr
          omega
        exact List.ne_nil_of_length_pos (by omega)
      exact ⟨.rl_sb_write_response, trivial, waits⟩

/-! ## Every step -/

theorem none_sent {s : System f} {e : Event f} (none_started : accessOf s e = none) :
    (s.step e).rdSent = s.rdSent ∧ (s.step e).wrSent = s.wrSent := by
  have dmi : e.dmi = true → (s.step e).rdSent = s.rdSent ∧ (s.step e).wrSent = s.wrSent := by
    intro dmi
    have quiet := dmi_quiet s dmi none_started
    cases e <;> simp only [Event.dmi, Bool.false_eq_true] at dmi <;>
      exact ⟨congrArg (s.rd_addrs ++ ·) quiet.rd_addr,
        Prod.ext (congrArg (s.wr_addrs ++ ·) quiet.wr_addr)
          (congrArg (s.wr_datas ++ ·) quiet.wr_data)⟩
  cases e with
  | write dm_addr dm_word => exact dmi rfl
  | av_read dm_addr => exact dmi rfl
  | rl_sb_read_finish =>
      simp only [System.step, DM_System_Bus.rl_sb_read_finish]
      split <;> exact ⟨rfl, rfl⟩
  | rl_sb_write_response =>
      simp only [System.step, DM_System_Bus.rl_sb_write_response]
      split <;> exact ⟨rfl, rfl⟩
  | rd_addr => exact ⟨taken s.rd_addrs s.dm.i_rd_addr, rfl⟩
  | wr_addr => exact ⟨rfl, Prod.ext (taken s.wr_addrs s.dm.i_wr_addr) rfl⟩
  | wr_data => exact ⟨rfl, Prod.ext rfl (taken s.wr_datas s.dm.i_wr_data)⟩
  | rd_data rdr => exact ⟨rfl, rfl⟩
  | wr_resp wrr => exact ⟨rfl, rfl⟩

theorem started_sent {s : System f} {e : Event f} {a : Access} (started : accessOf s e = some a) :
    (s.step e).rdSent = s.rdSent ++ a.rdAddrs f ∧
      (s.step e).wrSent = (s.wrSent.1 ++ a.wrAddrs f, s.wrSent.2 ++ a.wrDatas f) := by
  have begun := dmi_started s started
  cases e with
  | write dm_addr dm_word =>
      refine ⟨?_, Prod.ext ?_ ?_⟩
      · exact (congrArg (s.rd_addrs ++ ·) begun.rd_addr).trans (List.append_assoc _ _ _).symm
      · exact (congrArg (s.wr_addrs ++ ·) begun.wr_addr).trans (List.append_assoc _ _ _).symm
      · exact (congrArg (s.wr_datas ++ ·) begun.wr_data).trans (List.append_assoc _ _ _).symm
  | av_read dm_addr =>
      refine ⟨?_, Prod.ext ?_ ?_⟩
      · exact (congrArg (s.rd_addrs ++ ·) begun.rd_addr).trans (List.append_assoc _ _ _).symm
      · exact (congrArg (s.wr_addrs ++ ·) begun.wr_addr).trans (List.append_assoc _ _ _).symm
      · exact (congrArg (s.wr_datas ++ ·) begun.wr_data).trans (List.append_assoc _ _ _).symm
  | _ => simp [accessOf] at started

theorem step_address (s : System f) (e : Event f) :
    (s.step e).dm.sbaddress =
      if s.dm.rg_sbcs_sbautoincrement = true ∧
          ((accessOf s e).isSome = true ∨ readsData s e = true) then
        s.dm.advanced (writtenAddress s e)
      else writtenAddress s e := by
  cases e with
  | write dm_addr dm_word =>
      simp only [readsData, Bool.false_eq_true, or_false]
      exact write_address s dm_addr dm_word
  | av_read dm_addr =>
      have also : (accessOf s (.av_read dm_addr)).isSome = true →
          readsData s (.av_read dm_addr) = true := by
        intro started
        simp only [accessOf, Option.isSome_ite] at started
        simp [readsData, started.1, started.2.1]
      simp only [or_iff_right_of_imp also]
      exact read_address s dm_addr
  | rl_sb_read_finish =>
      simp only [accessOf, readsData, Option.isSome_none, Bool.false_eq_true, or_self, and_false,
        if_false, writtenAddress, System.step, DM_System_Bus.rl_sb_read_finish]
      split <;> rfl
  | rl_sb_write_response =>
      simp only [accessOf, readsData, Option.isSome_none, Bool.false_eq_true, or_self, and_false,
        if_false, writtenAddress, System.step, DM_System_Bus.rl_sb_write_response]
      split <;> rfl
  | _ =>
      simp only [accessOf, readsData, Option.isSome_none, Bool.false_eq_true, or_self, and_false,
        if_false]
      rfl

theorem step_data {s : System f} {e : Event f} (goesOn : e ≠ .rl_sb_read_finish)
    (noWrite : ∀ a, accessOf s e = some a → a.data = none) :
    (s.step e).dm.rg_sbdata0 = s.dm.rg_sbdata0 := by
  cases started : accessOf s e with
  | some a => exact (dmi_started s started).data (noWrite a started)
  | none =>
      cases e with
      | write dm_addr dm_word => exact (write_quiet s dm_addr dm_word started).data
      | av_read dm_addr => exact (read_quiet s dm_addr started).data
      | rl_sb_read_finish => exact absurd rfl goesOn
      | rl_sb_write_response =>
          simp only [System.step, DM_System_Bus.rl_sb_write_response]
          split <;> rfl
      | _ => rfl

theorem busy_write {s : System f} {dm_addr : DM_Addr} (dm_word : DM_Word)
    (access : isAccess dm_addr) (busy : s.dm.sbbusy = true) :
    s.dm.write dm_addr dm_word = { s.dm with rg_sbcs_sbbusyerror := true } := by
  have pending : s.dm.ready = false := by simp [DM_System_Bus.ready, busy]
  have refused : s.dm.refused = { s.dm with rg_sbcs_sbbusyerror := true } := by
    simp [DM_System_Bus.refused, busy]
  rw [← refused]
  rcases access with rfl | rfl | rfl
  · exact address_write_refused dm_addr_sbaddress0 dm_word pending
  · exact address_write_refused dm_addr_sbaddress1 dm_word pending
  · exact data_write_refused dm_addr_sbdata0 dm_word pending

theorem finish_value {a : Access} {s : System f} {rdr : AXI4_Rd_Data f.wd_Data}
    (outstanding : Outstanding a s) (same : SameSize a s)
    (allowed : s.allows .rl_sb_read_finish) (answer : s.dm.o_rd_data.head? = some rdr) :
    a.data = none ∧
      (a.Supported → ReadValue a rdr.rdata (s.step .rl_sb_read_finish).dm.rg_sbdata0) := by
  have read : a.data = none := by
    cases write : a.data with
    | none => rfl
    | some dm_word =>
        have state := outstanding.1.symm.trans allowed.1
        rw [Access.state, write] at state
        exact nomatch state
  refine ⟨read, fun supported => ?_⟩
  obtain ⟨rest, queue⟩ : ∃ rest, s.dm.o_rd_data = rdr :: rest := by
    cases queue : s.dm.o_rd_data with
    | nil => simp [queue] at answer
    | cons first rest => exact ⟨rest, by simpa [queue] using answer⟩
  have value := read_value (f := f) supported rdr.rdata
  rw [← same.1, ← outstanding.2 read] at value
  simpa only [System.step, DM_System_Bus.rl_sb_read_finish, queue] using value

theorem system_bus_follows {cycles : History f} {s : System f} {e : Event f}
    (run : (machine power).Run cycles s) (allowed : s.allows e) : Follows cycles s e where
  none_sent := none_sent
  read_sent a started read := by
    obtain ⟨rd, wr⟩ := started_sent started
    obtain ⟨rda, request, good⟩ := read_for (f := f) read
    refine ⟨?_, rda, by rw [rd, request], good⟩
    rw [wr, Access.wrAddrs, Access.wrDatas, read]
    simp only [List.append_nil]
  write_sent a dm_word started write := by
    obtain ⟨rd, wr⟩ := started_sent started
    obtain ⟨wra, wrd, request, word, good⟩ := write_for (f := f) write
    refine ⟨?_, wra, wrd, by rw [wr, request, word], good⟩
    rw [rd, Access.rdAddrs, write]
    exact List.append_nil _
  stepped := step_address s e
  data_kept := step_data
  busy_write dm_addr dm_word written access busy := by
    subst written
    have same := busy_write dm_word access busy
    simp only [System.step, same]
  busy_read dm_addr read := by
    subst read
    exact allowed
  in_progress := by
    constructor
    · intro busy
      exact since_of_busy run (by simpa [DM_System_Bus.sbbusy] using busy)
    · rintro ⟨during, a, since⟩
      exact (since.outstanding run).busy
  read_value during a rdr since kept finish answer := by
    subst finish
    exact finish_value (since.outstanding run) (since.sameSize run kept) allowed answer
  returns during a since kept answered := by
    obtain ⟨rule, finishes, allowed⟩ := (run_inv run).finish_allowed (since.outstanding run)
      (fun read => (since.sameSize run (kept read)).2) answered
    refine ⟨rule, finishes, allowed, ?_⟩
    simp [DM_System_Bus.sbbusy, finished_idle finishes allowed]

/-- A read of two bytes is started by `sbaddress0`, taken and answered. -/
private def halfwordRead : List (Event .FABRIC64) :=
  [.write dm_addr_sbcs 0x120000#32, .write dm_addr_sbaddress0 0x1002#32, .rd_addr,
    .rd_data { rid := 0, rdata := 0x8877665544332211#64, rresp := axi4_resp_okay, rlast := true }]

private def powerUp : DM_System_Bus .FABRIC64 where
  rg_sb_state := .SB_NOTBUSY
  rg_sbaddress0 := 0
  rg_sbaddress1 := 0
  rg_sbaddress_reading := 0
  rg_sbdata0 := 0
  rg_sbcs_sbbusyerror := false
  rg_sbcs_sbreadonaddr := false
  rg_sbcs_sbaccess := 0
  rg_sbcs_sbautoincrement := false
  rg_sbcs_sbreadondata := false
  rg_sbcs_sberror := 0
  i_rd_addr := []
  i_wr_addr := []
  i_wr_data := []
  o_rd_data := []
  o_wr_resp := []

instance (cycles : History f) (s : System f) (e : Event f) :
    Decidable ((machine power).allowed cycles s e) :=
  inferInstanceAs (Decidable (s.allows e))

theorem system_bus_follows_halfword :
    Follows ((machine powerUp).cyclesOf (machine powerUp).reset halfwordRead)
        ((machine powerUp).after (machine powerUp).reset halfwordRead) .rl_sb_read_finish ∧
      (((machine powerUp).after (machine powerUp).reset halfwordRead).step
        .rl_sb_read_finish).dm.rg_sbdata0 = 0x4433#32 := by
  have run := Clocked.Machine.run_of_accepts (m := machine powerUp) halfwordRead
    (by decide +kernel)
  exact ⟨system_bus_follows run (by decide +kernel), by decide +kernel⟩

/-- A read of `sbdata0` without `sbreadondata` starts no access, but the address moves. -/
theorem increments_without_access :
    let events : List (Event .FABRIC64) := [.write dm_addr_sbcs 0x50000#32]
    let s := (machine powerUp).after (machine powerUp).reset events
    (machine powerUp).Run ((machine powerUp).cyclesOf (machine powerUp).reset events) s ∧
      s.allows (.av_read dm_addr_sbdata0) ∧ accessOf s (.av_read dm_addr_sbdata0) = none ∧
      s.dm.sbaddress = 0 ∧ (s.step (.av_read dm_addr_sbdata0)).dm.sbaddress = 4 :=
  ⟨Clocked.Machine.run_of_accepts (m := machine powerUp) _ (by decide +kernel),
    by decide +kernel, by decide +kernel, by decide +kernel, by decide +kernel⟩

end Toooba.SystemBus
