import RiscvCores.Toooba.DmSystemBusLanes

/-!
# DMI operations of the debug module

Which operation starts an access, and what it does to the address register.
-/

set_option autoImplicit false

namespace Toooba.SystemBus

open Toooba.AXI4

variable {f : Fabric}

/-- No access is in progress and no error is pending. -/
def DM_System_Bus.ready (s : DM_System_Bus f) : Bool :=
  !s.sbbusy && !s.rg_sbcs_sbbusyerror && decide (s.rg_sbcs_sberror = DM_SBERROR_NONE)

/-- The access an operation starts. -/
def accessOf (s : System f) : Event f → Option Access
  | .write dm_addr dm_word =>
      if ¬ s.dm.ready then none
      else if dm_addr = dm_addr_sbdata0 then
        some ⟨s.dm.sbaddress, s.dm.rg_sbcs_sbaccess, some dm_word⟩
      else if dm_addr = dm_addr_sbaddress0 ∧ s.dm.rg_sbcs_sbreadonaddr then
        some ⟨s.dm.rg_sbaddress1 ++ dm_word, s.dm.rg_sbcs_sbaccess, none⟩
      else none
  | .av_read dm_addr =>
      if s.dm.ready ∧ dm_addr = dm_addr_sbdata0 ∧ s.dm.rg_sbcs_sbreadondata then
        some ⟨s.dm.sbaddress, s.dm.rg_sbcs_sbaccess, none⟩
      else none
  | _ => none

/-- The address register as a DMI write leaves it, before any increment. -/
def writtenAddress (s : System f) : Event f → BitVec 64
  | .write dm_addr dm_word =>
      if ¬ s.dm.ready then s.dm.sbaddress
      else if dm_addr = dm_addr_sbaddress0 then s.dm.rg_sbaddress1 ++ dm_word
      else if dm_addr = dm_addr_sbaddress1 then dm_word ++ s.dm.rg_sbaddress0
      else s.dm.sbaddress
  | _ => s.dm.sbaddress

/-- A read of `sbdata0` that is neither refused nor held back. -/
def readsData (s : System f) : Event f → Bool
  | .av_read dm_addr => decide (dm_addr = dm_addr_sbdata0) && s.dm.ready
  | _ => false
/-! ## The operations -/

section Operations

variable (s : DM_System_Bus f)

/-- An operation that comes while an access is in progress, or after an error. -/
def DM_System_Bus.refused : DM_System_Bus f :=
  { s with rg_sbcs_sbbusyerror := s.sbbusy || s.rg_sbcs_sbbusyerror }
def Access.state (a : Access) : SB_State :=
  match a.data with
  | none => .SB_READ_FINISH
  | some _ => .SB_WRITE_FINISH

/-- An operation that starts no access leaves the bus alone. -/
structure Quiet (s' : DM_System_Bus f) : Prop where
  state : s'.rg_sb_state = s.rg_sb_state
  reading : s'.rg_sbaddress_reading = s.rg_sbaddress_reading
  data : s'.rg_sbdata0 = s.rg_sbdata0
  rd_addr : s'.i_rd_addr = s.i_rd_addr
  wr_addr : s'.i_wr_addr = s.i_wr_addr
  wr_data : s'.i_wr_data = s.i_wr_data
  rd_data : s'.o_rd_data = s.o_rd_data
  wr_resp : s'.o_wr_resp = s.o_wr_resp

structure Started (a : Access) (s' : DM_System_Bus f) : Prop where
  free : s.ready = true
  state : s'.rg_sb_state = a.state
  reading : a.data = none → s'.rg_sbaddress_reading = a.addr
  data : a.data = none → s'.rg_sbdata0 = s.rg_sbdata0
  sbaccess : s'.rg_sbcs_sbaccess = a.sbaccess
  sberror : s'.rg_sbcs_sberror = DM_SBERROR_NONE
  rd_addr : s'.i_rd_addr = s.i_rd_addr ++ a.rdAddrs f
  wr_addr : s'.i_wr_addr = s.i_wr_addr ++ a.wrAddrs f
  wr_data : s'.i_wr_data = s.i_wr_data ++ a.wrDatas f
  rd_data : s'.o_rd_data = s.o_rd_data
  wr_resp : s'.o_wr_resp = s.o_wr_resp

variable {s}

theorem DM_System_Bus.ready_iff : s.ready = true ↔
    s.sbbusy = false ∧ s.rg_sbcs_sbbusyerror = false ∧ s.rg_sbcs_sberror = DM_SBERROR_NONE := by
  simp [DM_System_Bus.ready, and_assoc]

theorem address_write_refused (dm_addr : DM_Addr) (dm_word : DM_Word)
    (pending : s.ready = false) : s.fa_rg_sbaddress_write dm_addr dm_word = s.refused := by
  unfold DM_System_Bus.fa_rg_sbaddress_write DM_System_Bus.refused
  cases busy : s.sbbusy <;> cases busyerror : s.rg_sbcs_sbbusyerror <;>
    simp_all [DM_System_Bus.ready]
  all_goals exact busyerror ▸ rfl

theorem data_write_refused (dm_addr : DM_Addr) (dm_word : DM_Word)
    (pending : s.ready = false) : s.fa_rg_sbdata_write dm_addr dm_word = s.refused := by
  unfold DM_System_Bus.fa_rg_sbdata_write DM_System_Bus.refused
  cases busy : s.sbbusy <;> cases busyerror : s.rg_sbcs_sbbusyerror <;>
    simp_all [DM_System_Bus.ready]
  all_goals exact busyerror ▸ rfl

theorem data_read_refused (dm_addr : DM_Addr) (pending : s.ready = false) :
    (s.fav_rg_sbdata_read dm_addr).1 = s.refused := by
  unfold DM_System_Bus.fav_rg_sbdata_read DM_System_Bus.refused
  cases busy : s.sbbusy <;> cases busyerror : s.rg_sbcs_sbbusyerror <;>
    simp_all [DM_System_Bus.ready]
  all_goals exact busyerror ▸ rfl

theorem refused_quiet : Quiet s s.refused := ⟨rfl, rfl, rfl, rfl, rfl, rfl, rfl, rfl⟩

theorem sbcs_write_quiet (dm_word : DM_Word) : Quiet s (s.fa_rg_sbcs_write dm_word) := by
  unfold DM_System_Bus.fa_rg_sbcs_write
  constructor <;> (dsimp only; split_ifs <;> rfl)

theorem address_write_quiet {dm_addr : DM_Addr} (dm_word : DM_Word)
    (noRead : ¬ (dm_addr = dm_addr_sbaddress0 ∧ s.rg_sbcs_sbreadonaddr = true))
    (free : s.ready = true) : Quiet s (s.fa_rg_sbaddress_write dm_addr dm_word) := by
  obtain ⟨idle, busyerror, sberror⟩ := DM_System_Bus.ready_iff.mp free
  rw [not_and, Bool.not_eq_true] at noRead
  unfold DM_System_Bus.fa_rg_sbaddress_write
  simp only [idle, busyerror, sberror, ne_eq, not_true_eq_false, if_false, Bool.false_eq_true]
  split_ifs with address read increment
  · simp [noRead address] at read
  · simp [noRead address] at read
  · exact ⟨rfl, rfl, rfl, rfl, rfl, rfl, rfl, rfl⟩
  · exact ⟨rfl, rfl, rfl, rfl, rfl, rfl, rfl, rfl⟩

theorem address_write_started (dm_word : DM_Word) (readonaddr : s.rg_sbcs_sbreadonaddr = true)
    (free : s.ready = true) :
    Started s ⟨s.rg_sbaddress1 ++ dm_word, s.rg_sbcs_sbaccess, none⟩
      (s.fa_rg_sbaddress_write dm_addr_sbaddress0 dm_word) := by
  obtain ⟨idle, busyerror, sberror⟩ := DM_System_Bus.ready_iff.mp free
  unfold DM_System_Bus.fa_rg_sbaddress_write
  simp only [idle, busyerror, sberror, ne_eq, not_true_eq_false, if_false, Bool.false_eq_true,
    if_true, readonaddr]
  split_ifs
  all_goals exact ⟨free, rfl, fun _ => rfl, fun _ => rfl, rfl, sberror, rfl,
    (List.append_nil _).symm, (List.append_nil _).symm, rfl, rfl⟩

theorem data_write_started (dm_word : DM_Word) (free : s.ready = true) :
    Started s ⟨s.sbaddress, s.rg_sbcs_sbaccess, some dm_word⟩
      (s.fa_rg_sbdata_write dm_addr_sbdata0 dm_word) := by
  obtain ⟨idle, busyerror, sberror⟩ := DM_System_Bus.ready_iff.mp free
  unfold DM_System_Bus.fa_rg_sbdata_write
  simp only [idle, busyerror, sberror, ne_eq, not_true_eq_false, if_false, Bool.false_eq_true,
    if_true]
  split_ifs
  all_goals exact ⟨free, rfl, (fun read => nomatch read), (fun read => nomatch read), rfl, rfl,
    (List.append_nil _).symm, rfl, rfl, rfl, rfl⟩

theorem data_read_quiet (readondata : s.rg_sbcs_sbreadondata = false) (free : s.ready = true) :
    Quiet s (s.fav_rg_sbdata_read dm_addr_sbdata0).1 := by
  obtain ⟨idle, busyerror, sberror⟩ := DM_System_Bus.ready_iff.mp free
  unfold DM_System_Bus.fav_rg_sbdata_read
  simp only [idle, busyerror, sberror, ne_eq, not_true_eq_false, if_false, Bool.false_eq_true,
    false_and, readondata]
  split_ifs
  all_goals exact ⟨rfl, rfl, rfl, rfl, rfl, rfl, rfl, rfl⟩

theorem data_read_started (readondata : s.rg_sbcs_sbreadondata = true)
    (free : s.ready = true) :
    Started s ⟨s.sbaddress, s.rg_sbcs_sbaccess, none⟩
      (s.fav_rg_sbdata_read dm_addr_sbdata0).1 := by
  obtain ⟨idle, busyerror, sberror⟩ := DM_System_Bus.ready_iff.mp free
  unfold DM_System_Bus.fav_rg_sbdata_read
  simp only [idle, busyerror, sberror, ne_eq, not_true_eq_false, if_false, Bool.false_eq_true,
    and_true, if_true, readondata]
  split_ifs
  all_goals exact ⟨free, rfl, fun _ => rfl, fun _ => rfl, rfl, sberror, rfl,
    (List.append_nil _).symm, (List.append_nil _).symm, rfl, rfl⟩

end Operations

/-! ## One step -/

/-- An operation that comes over the DMI. -/
def Event.dmi : Event f → Bool
  | .write _ _ => true
  | .av_read _ => true
  | _ => false

theorem write_quiet (s : System f) (dm_addr : DM_Addr) (dm_word : DM_Word)
    (none_started : accessOf s (.write dm_addr dm_word) = none) :
    Quiet s.dm (s.dm.write dm_addr dm_word) := by
  have same : Quiet s.dm s.dm := ⟨rfl, rfl, rfl, rfl, rfl, rfl, rfl, rfl⟩
  unfold DM_System_Bus.write
  split_ifs with sbcs address data
  · exact sbcs_write_quiet dm_word
  · cases free : s.dm.ready with
    | false => rw [address_write_refused dm_addr dm_word free]; exact refused_quiet
    | true =>
        refine address_write_quiet dm_word (fun started => ?_) free
        rcases address with address | address
        · simp [accessOf, free, started, dm_addr_sbdata0, dm_addr_sbaddress0] at none_started
        · exact absurd (started.1.symm.trans address) (by decide)
  · cases free : s.dm.ready with
    | false => rw [data_write_refused dm_addr dm_word free]; exact refused_quiet
    | true => simp [accessOf, free, data] at none_started
  · exact same

theorem write_started (s : System f) (dm_addr : DM_Addr) (dm_word : DM_Word) {a : Access}
    (started : accessOf s (.write dm_addr dm_word) = some a) :
    Started s.dm a (s.dm.write dm_addr dm_word) := by
  cases free : s.dm.ready with
  | false => simp [accessOf, free] at started
  | true =>
      by_cases data : dm_addr = dm_addr_sbdata0
      · subst data
        simp only [accessOf, free, not_true_eq_false, if_false, if_true,
          Option.some.injEq] at started
        subst started
        exact data_write_started dm_word free
      · by_cases address : dm_addr = dm_addr_sbaddress0 ∧ s.dm.rg_sbcs_sbreadonaddr = true
        · obtain ⟨rfl, readonaddr⟩ := address
          simp only [accessOf, free, not_true_eq_false, if_false, if_true, data, readonaddr,
            true_and, Option.some.injEq] at started
          subst started
          exact address_write_started dm_word readonaddr free
        · simp [accessOf, free, data, address] at started

theorem read_quiet (s : System f) (dm_addr : DM_Addr)
    (none_started : accessOf s (.av_read dm_addr) = none) :
    Quiet s.dm (s.dm.av_read dm_addr).1 := by
  have same : Quiet s.dm s.dm := ⟨rfl, rfl, rfl, rfl, rfl, rfl, rfl, rfl⟩
  unfold DM_System_Bus.av_read
  split_ifs with sbcs low high data
  · exact same
  · exact same
  · exact same
  · cases free : s.dm.ready with
    | false => rw [data_read_refused _ free]; exact refused_quiet
    | true =>
        cases readondata : s.dm.rg_sbcs_sbreadondata with
        | false => exact data_read_quiet readondata free
        | true => simp [accessOf, free, data, readondata] at none_started
  · exact same

theorem read_started (s : System f) (dm_addr : DM_Addr) {a : Access}
    (started : accessOf s (.av_read dm_addr) = some a) :
    Started s.dm a (s.dm.av_read dm_addr).1 := by
  simp only [accessOf, Option.ite_none_right_eq_some, Option.some.injEq] at started
  obtain ⟨⟨free, rfl, readondata⟩, rfl⟩ := started
  exact data_read_started readondata free

theorem dmi_quiet (s : System f) {e : Event f} (dmi : e.dmi = true)
    (none_started : accessOf s e = none) : Quiet s.dm (s.step e).dm := by
  cases e with
  | write dm_addr dm_word => exact write_quiet s dm_addr dm_word none_started
  | av_read dm_addr => exact read_quiet s dm_addr none_started
  | _ => simp [Event.dmi] at dmi

theorem dmi_started (s : System f) {e : Event f} {a : Access} (started : accessOf s e = some a) :
    Started s.dm a (s.step e).dm := by
  cases e with
  | write dm_addr dm_word => exact write_started s dm_addr dm_word started
  | av_read dm_addr => exact read_started s dm_addr started
  | _ => simp [accessOf] at started

/-! ## The address register -/

theorem halves (x : BitVec 64) : x.extractLsb' 32 32 ++ x.extractLsb' 0 32 = x := by
  apply BitVec.eq_of_getLsbD_eq
  intro j below
  simp only [BitVec.getLsbD_append, BitVec.getLsbD_extractLsb', Nat.zero_add]
  split_ifs with low
  · simp [low]
  · have high : j - 32 < 32 := by omega
    simp [high, Nat.add_sub_of_le (Nat.le_of_not_lt low)]

theorem sbaddress_incr (s : DM_System_Bus f) (addr64 : BitVec 64) :
    (s.fa_sbaddress_incr addr64).sbaddress =
      addr64 + BitVec.ofNat 64 (fn_sbaccess_to_addr_incr s.rg_sbcs_sbaccess) :=
  halves _

theorem sbcs_write_address (s : DM_System_Bus f) (dm_word : DM_Word) :
    (s.fa_rg_sbcs_write dm_word).sbaddress = s.sbaddress := by
  unfold DM_System_Bus.fa_rg_sbcs_write
  dsimp only
  split_ifs <;> rfl

/-- What an increment adds to. -/
def DM_System_Bus.advanced (s : DM_System_Bus f) (addr64 : BitVec 64) : BitVec 64 :=
  addr64 + BitVec.ofNat 64 (fn_sbaccess_to_addr_incr s.rg_sbcs_sbaccess)

theorem address_write_low {s : DM_System_Bus f} (dm_word : DM_Word) (free : s.ready = true) :
    (s.fa_rg_sbaddress_write dm_addr_sbaddress0 dm_word).sbaddress =
      if s.rg_sbcs_sbautoincrement = true ∧ s.rg_sbcs_sbreadonaddr = true then
        s.advanced (s.rg_sbaddress1 ++ dm_word)
      else s.rg_sbaddress1 ++ dm_word := by
  obtain ⟨idle, busyerror, sberror⟩ := DM_System_Bus.ready_iff.mp free
  unfold DM_System_Bus.fa_rg_sbaddress_write
  simp only [idle, busyerror, sberror, ne_eq, not_true_eq_false, if_false, Bool.false_eq_true,
    if_true]
  cases readonaddr : s.rg_sbcs_sbreadonaddr <;>
    cases increment : s.rg_sbcs_sbautoincrement
  · rfl
  · rfl
  · rfl
  · exact sbaddress_incr _ _

theorem address_write_high {s : DM_System_Bus f} (dm_word : DM_Word) (free : s.ready = true) :
    (s.fa_rg_sbaddress_write dm_addr_sbaddress1 dm_word).sbaddress =
      dm_word ++ s.rg_sbaddress0 := by
  obtain ⟨idle, busyerror, sberror⟩ := DM_System_Bus.ready_iff.mp free
  have other : ¬ dm_addr_sbaddress1 = dm_addr_sbaddress0 := by decide
  unfold DM_System_Bus.fa_rg_sbaddress_write
  simp only [idle, busyerror, sberror, ne_eq, not_true_eq_false, if_false, Bool.false_eq_true,
    other]
  rfl

theorem data_write_address {s : DM_System_Bus f} (dm_word : DM_Word) (free : s.ready = true) :
    (s.fa_rg_sbdata_write dm_addr_sbdata0 dm_word).sbaddress =
      if s.rg_sbcs_sbautoincrement = true then s.advanced s.sbaddress else s.sbaddress := by
  obtain ⟨idle, busyerror, sberror⟩ := DM_System_Bus.ready_iff.mp free
  unfold DM_System_Bus.fa_rg_sbdata_write
  simp only [idle, busyerror, sberror, ne_eq, not_true_eq_false, if_false, Bool.false_eq_true,
    if_true]
  cases increment : s.rg_sbcs_sbautoincrement
  · rfl
  · exact sbaddress_incr _ _

theorem data_read_address {s : DM_System_Bus f} (free : s.ready = true) :
    (s.fav_rg_sbdata_read dm_addr_sbdata0).1.sbaddress =
      if s.rg_sbcs_sbautoincrement = true then s.advanced s.sbaddress else s.sbaddress := by
  obtain ⟨idle, busyerror, sberror⟩ := DM_System_Bus.ready_iff.mp free
  unfold DM_System_Bus.fav_rg_sbdata_read
  simp only [idle, busyerror, sberror, ne_eq, not_true_eq_false, if_false, Bool.false_eq_true]
  cases increment : s.rg_sbcs_sbautoincrement <;> cases readondata : s.rg_sbcs_sbreadondata
  · rfl
  · rfl
  · exact sbaddress_incr _ _
  · exact sbaddress_incr _ _

theorem write_address (s : System f) (dm_addr : DM_Addr) (dm_word : DM_Word) :
    (s.dm.write dm_addr dm_word).sbaddress =
      if s.dm.rg_sbcs_sbautoincrement = true ∧
          (accessOf s (.write dm_addr dm_word)).isSome = true then
        s.dm.advanced (writtenAddress s (.write dm_addr dm_word))
      else writtenAddress s (.write dm_addr dm_word) := by
  cases free : s.dm.ready with
  | false =>
      have refused : s.dm.refused.sbaddress = s.dm.sbaddress := rfl
      simp only [accessOf, writtenAddress, free, Bool.false_eq_true, not_false_eq_true, if_true,
        Option.isSome_none, and_false, if_false]
      unfold DM_System_Bus.write
      split_ifs
      · exact sbcs_write_address s.dm dm_word
      · rw [address_write_refused dm_addr dm_word free, refused]
      · rw [data_write_refused dm_addr dm_word free, refused]
      · rfl
  | true =>
      by_cases low : dm_addr = dm_addr_sbaddress0
      · subst low
        have others : ¬ dm_addr_sbaddress0 = dm_addr_sbcs ∧
            ¬ dm_addr_sbaddress0 = dm_addr_sbdata0 := by decide
        simp only [DM_System_Bus.write, accessOf, writtenAddress, free, others, true_or, true_and,
          not_true_eq_false, if_true, if_false, address_write_low dm_word free]
        cases s.dm.rg_sbcs_sbreadonaddr <;> simp
      by_cases high : dm_addr = dm_addr_sbaddress1
      · subst high
        have others : ¬ dm_addr_sbaddress1 = dm_addr_sbcs ∧
            ¬ dm_addr_sbaddress1 = dm_addr_sbdata0 := by decide
        simp only [DM_System_Bus.write, accessOf, writtenAddress, free, low, others, or_true,
          false_and, not_true_eq_false, if_true, if_false, address_write_high dm_word free,
          Option.isSome_none, Bool.false_eq_true, and_false]
      by_cases data : dm_addr = dm_addr_sbdata0
      · subst data
        have others : ¬ dm_addr_sbdata0 = dm_addr_sbcs := by decide
        simp only [DM_System_Bus.write, accessOf, writtenAddress, free, low, high, others,
          or_self, not_true_eq_false, if_true, if_false, data_write_address dm_word free,
          Option.isSome_some, and_true]
      simp only [DM_System_Bus.write, accessOf, writtenAddress, free, low, high, data, or_self,
        false_and, not_true_eq_false, if_false, Option.isSome_none, Bool.false_eq_true,
        and_false]
      split_ifs
      · exact sbcs_write_address s.dm dm_word
      · rfl

theorem read_address (s : System f) (dm_addr : DM_Addr) :
    (s.dm.av_read dm_addr).1.sbaddress =
      if s.dm.rg_sbcs_sbautoincrement = true ∧ readsData s (.av_read dm_addr) = true then
        s.dm.advanced s.dm.sbaddress
      else s.dm.sbaddress := by
  unfold DM_System_Bus.av_read
  by_cases data : dm_addr = dm_addr_sbdata0
  · subst data
    have others : ¬ dm_addr_sbdata0 = dm_addr_sbcs ∧ ¬ dm_addr_sbdata0 = dm_addr_sbaddress0 ∧
        ¬ dm_addr_sbdata0 = dm_addr_sbaddress1 := by decide
    simp only [others, if_false, if_true, readsData, decide_true, Bool.true_and]
    cases free : s.dm.ready with
    | false =>
        rw [data_read_refused _ free]
        simp only [Bool.false_eq_true, and_false, if_false]
        rfl
    | true =>
        rw [data_read_address free]
        simp only [and_true]
  · simp only [readsData, data, decide_false, Bool.false_and, Bool.false_eq_true, and_false,
      if_false]
    split_ifs <;> rfl
end Toooba.SystemBus
