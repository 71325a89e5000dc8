import RiscvCores.Toooba.CsrRegs
import Mathlib.Tactic.IntervalCases

/-!
# What the tandem verifier is told of the CSRs

A cycle reports the value that a CSR will have; the next cycle shows it.  The two agree
for every trap, `mret` and `sret`, and for every write but those to four CSRs.
-/

set_option autoImplicit false

namespace Toooba.CsrFile

/-- The CSRs of `fv_warl_xform`. -/
def warlCsrs (b : Build) : List CSR :=
  [.misa, .mvendorid, .marchid, .mimpid, .mhartid, .mstatus, .mtvec, .medeleg, .mideleg, .mip,
    .mie, .mcounteren, .mcause, .tdata1, .sstatus, .stvec, .sip, .sie, .scounteren, .scause,
    .satp, .fflags, .frm, .fcsr] ++ if b.gdbControl then [.dcsr] else []

/-- Another method writes the CSR. -/
def Others.Writes (others : Others) : CSR → Prop
  | .mip => others.setMSIP ≠ none ∨ others.setMTIP ≠ none ∨ others.setMEIP ≠ none ∨
      others.setSEIP ≠ none
  | .sip => others.setSEIP ≠ none
  | .dcsr => others.dcsrCauseWrite ≠ none
  | _ => False

/-- The written values for which the trace is right: `mie` masks the enables of the machine
away, `mcounteren` and `scounteren` lose the bits of the other counters, and `dcsr` keeps
bits that are said to be 0. -/
def Reportable (csr : CSR) (x : Data) : Prop :=
  match csr with
  | .mie => x.getLsbD 11 = false ∧ x.getLsbD 7 = false ∧ x.getLsbD 3 = false
  | .mcounteren => False
  | .scounteren => False
  | .dcsr => x.extractLsb' 32 32 = 0 ∧ x.extractLsb' 14 14 = 0 ∧ x.getLsbD 5 = false
  | _ => True

/-! ## Bits -/

section Bits

theorem zero_append {k w : Nat} (v : BitVec w) : 0#k ++ v = v.setWidth (k + w) := by
  apply BitVec.eq_of_getLsbD_eq
  intro i below
  rw [BitVec.getLsbD_append, BitVec.getLsbD_setWidth, decide_eq_true below, Bool.true_and]
  split
  · rfl
  · rw [BitVec.getLsbD_zero, BitVec.getLsbD_of_ge v i (by omega)]

variable (x : Data)

theorem slices (lo i j : Nat) :
    x.extractLsb' (lo + j) i ++ x.extractLsb' lo j = x.extractLsb' lo (i + j) := by
  apply BitVec.eq_of_getLsbD_eq
  intro k below
  rw [BitVec.getLsbD_append, BitVec.getLsbD_extractLsb', BitVec.getLsbD_extractLsb',
    BitVec.getLsbD_extractLsb', decide_eq_true below, Bool.true_and]
  split
  next low => rw [decide_eq_true low, Bool.true_and]
  next high =>
    have inside : k - j < i := by omega
    have place : lo + j + (k - j) = lo + k := by omega
    rw [decide_eq_true inside, Bool.true_and, place]

theorem intCsr_getLsbD : ∀ em es tm ts sm ss : Bool, ∀ k < 64,
    (intCsr { s := es, m := em } { s := ts, m := tm } { s := ss, m := sm }).getLsbD k =
      (k == 11 && em || k == 9 && es || k == 7 && tm || k == 5 && ts || k == 3 && sm ||
        k == 1 && ss) := by
  decide +kernel

theorem supervisorIntCsr_getLsbD : ∀ em es tm ts sm ss : Bool, ∀ k < 64,
    (supervisorIntCsr { s := es, m := em } { s := ts, m := tm } { s := ss, m := sm }).getLsbD k =
      (k == 9 && es || k == 5 && ts || k == 1 && ss) := by
  decide +kernel

theorem warlMask_getLsbD : ∀ k < 64,
    mipMieWarlMask.getLsbD k = (k == 9 || k == 5 || k == 1) := by decide

end Bits

/-! ## Writes -/

section Write

variable (b : Build) (r : Regs) (x : Data)

/-- What the CSR shows after the write. -/
def Written (csr : CSR) : Prop := fvWarlXform b r csr x = rd b (r.csrInstWr b csr x) csr

theorem written_mstatus : Written b r x .mstatus := rfl

theorem high_zeros : ∀ sd : BitVec 1, (sd ++ 0#27 ++ 0#2 : BitVec 30) = sd ++ 0#29 := by decide

/-- The view of `mstatus` that traps and writes report is the one that `rd` gives. -/
theorem sstatusCsr_eq (r : Regs) : sstatusCsr b r =
    fnSstatusVal getXLBits r.mxr r.sum xsReg (fsReg b r) r.spp r.prevIeVec r.ieVec := by
  rw [sstatusCsr, fnSstatusVal, high_zeros]
  rfl

theorem written_sstatus : Written b r x .sstatus := by
  change fvWarlXform b r .sstatus x = sstatusCsr b (r.csrInstWr b .sstatus x)
  rw [sstatusCsr_eq]
  rfl

theorem written_medeleg : Written b r x .medeleg := by
  change (0#48 ++ bit (x.getLsbD 15) ++ 0#1 ++ x.extractLsb' 12 2 ++ bit (x.getLsbD 11) ++ 0#1 ++
      x.extractLsb' 0 10 : Data) =
    0#48 ++ bit (x.getLsbD 15) ++ 0#1 ++ x.extractLsb' 11 3 ++ 0#1 ++ x.extractLsb' 0 10
  apply BitVec.eq_of_getLsbD_eq
  intro k below
  simp only [BitVec.getLsbD_append, BitVec.getLsbD_extractLsb', bit, BitVec.getLsbD_ofBool,
    BitVec.getLsbD_zero]
  interval_cases k <;> simp

theorem written_mideleg : Written b r x .mideleg := by
  change (0#52 ++ bit (x.getLsbD 11) ++ 0#1 ++ x.extractLsb' 8 2 ++ bit (x.getLsbD 7) ++ 0#1 ++
      x.extractLsb' 4 2 ++ bit (x.getLsbD 3) ++ 0#1 ++ x.extractLsb' 0 2 : Data) =
    0#52 ++ bit (x.getLsbD 11) ++ 0#1 ++ x.extractLsb' 7 3 ++ 0#1 ++ x.extractLsb' 3 3 ++ 0#1 ++
      x.extractLsb' 0 2
  apply BitVec.eq_of_getLsbD_eq
  intro k below
  simp only [BitVec.getLsbD_append, BitVec.getLsbD_extractLsb', bit, BitVec.getLsbD_ofBool,
    BitVec.getLsbD_zero]
  interval_cases k <;> simp

theorem written_tdata1 : Written b r x .tdata1 := by
  change (0#4 ++ x.extractLsb' 0 60 : Data) = 0#4 ++ bit (x.getLsbD 59) ++ x.extractLsb' 0 59
  apply BitVec.eq_of_getLsbD_eq
  intro k below
  simp only [BitVec.getLsbD_append, BitVec.getLsbD_extractLsb', bit, BitVec.getLsbD_ofBool,
    BitVec.getLsbD_zero]
  interval_cases k <;> simp

theorem written_fcsr : Written b r x .fcsr := by
  change 0#56 ++ x.extractLsb' 0 8 = (x.extractLsb' 5 3 ++ x.extractLsb' 0 5).setWidth 64
  rw [zero_append, slices x 0 3 5]

theorem written_fflags : Written b r x .fflags := zero_append (x.extractLsb' 0 5)

theorem written_frm : Written b r x .frm := zero_append (x.extractLsb' 0 3)

theorem written_mip : Written b r x .mip := by
  change mipCsr r.toState &&& ~~~mipMieWarlMask ||| x &&& mipMieWarlMask =
    intCsr { s := x.getLsbD 9, m := r.externalIntPend.m }
      { s := x.getLsbD 5, m := r.timerIntPend.m } { s := x.getLsbD 1, m := r.softwareIntPend.m }
  apply BitVec.eq_of_getLsbD_eq
  intro k below
  rw [intCsr_getLsbD _ _ _ _ _ _ k below, BitVec.getLsbD_or, BitVec.getLsbD_and,
    BitVec.getLsbD_and, BitVec.getLsbD_not, warlMask_getLsbD k below, mipCsr,
    intCsr_getLsbD _ _ _ _ _ _ k below]
  interval_cases k <;> simp

theorem written_sip : Written b r x .sip := by
  change sipCsr r &&& ~~~sipSieWarlMask ||| x &&& sipSieWarlMask =
    supervisorIntCsr { s := x.getLsbD 9, m := r.externalIntPend.m }
      { s := x.getLsbD 5, m := r.timerIntPend.m } { s := x.getLsbD 1, m := r.softwareIntPend.m }
  apply BitVec.eq_of_getLsbD_eq
  intro k below
  rw [supervisorIntCsr_getLsbD _ _ _ _ _ _ k below, BitVec.getLsbD_or, BitVec.getLsbD_and,
    BitVec.getLsbD_and, BitVec.getLsbD_not, show sipSieWarlMask = mipMieWarlMask from rfl,
    warlMask_getLsbD k below, sipCsr, supervisorIntCsr_getLsbD _ _ _ _ _ _ k below]
  interval_cases k <;> simp

theorem written_sie : Written b r x .sie := by
  change x &&& sipSieWarlMask =
    supervisorIntCsr { s := x.getLsbD 9, m := r.externalIntEn.m }
      { s := x.getLsbD 5, m := r.timerIntEn.m } { s := x.getLsbD 1, m := r.softwareIntEn.m }
  apply BitVec.eq_of_getLsbD_eq
  intro k below
  rw [supervisorIntCsr_getLsbD _ _ _ _ _ _ k below, BitVec.getLsbD_and,
    show sipSieWarlMask = mipMieWarlMask from rfl, warlMask_getLsbD k below]
  interval_cases k <;> simp

/-- The enables of the machine are written, but reported as 0. -/
theorem written_mie : Written b r x .mie ↔ Reportable .mie x := by
  have shown : Written b r x .mie ↔ x &&& mipMieWarlMask =
      intCsr { s := x.getLsbD 9, m := x.getLsbD 11 } { s := x.getLsbD 5, m := x.getLsbD 7 }
        { s := x.getLsbD 1, m := x.getLsbD 3 } := Iff.rfl
  rw [shown, BitVec.eq_of_getLsbD_eq_iff]
  have bits : ∀ k < 64, ((x &&& mipMieWarlMask).getLsbD k =
      (intCsr { s := x.getLsbD 9, m := x.getLsbD 11 } { s := x.getLsbD 5, m := x.getLsbD 7 }
        { s := x.getLsbD 1, m := x.getLsbD 3 }).getLsbD k ↔
      ((k = 11 ∨ k = 7 ∨ k = 3) → x.getLsbD k = false)) := by
    intro k below
    rw [intCsr_getLsbD _ _ _ _ _ _ k below, BitVec.getLsbD_and, warlMask_getLsbD k below]
    interval_cases k <;> simp
  constructor
  · intro same
    exact ⟨(bits 11 (by decide)).mp (same 11 (by decide)) (.inl rfl),
      (bits 7 (by decide)).mp (same 7 (by decide)) (.inr (.inl rfl)),
      (bits 3 (by decide)).mp (same 3 (by decide)) (.inr (.inr rfl))⟩
  · rintro ⟨external, timer, software⟩ k below
    refine (bits k below).mpr ?_
    rintro (rfl | rfl | rfl)
    · exact external
    · exact timer
    · exact software

/-- The bits of the other counters are reported as 0. -/
theorem written_counteren (old : Counteren) :
    (0#61 ++ x.extractLsb' 0 3 : Data) ≠ counterenCsr old := by
  intro same
  have other := congrArg (BitVec.getLsbD · 3) same
  simp only [counterenCsr, bit, BitVec.getLsbD_append, BitVec.getLsbD_extractLsb',
    BitVec.getLsbD_ofBool, BitVec.getLsbD_not, BitVec.getLsbD_zero] at other
  simp at other

theorem dcsr_getLsbD (k : Nat) (below : k < 64) :
    (0#32 ++ x.extractLsb' 28 4 ++ 0#12 ++ bit (x.getLsbD 14) ++ 0#1 ++ x.extractLsb' 6 8 ++
        0#1 ++ x.extractLsb' 0 5).getLsbD k =
      if k = 15 then x.getLsbD 14
      else x.getLsbD k && !decide (k = 5 ∨ 14 ≤ k ∧ k < 28 ∨ 32 ≤ k) := by
  simp only [BitVec.getLsbD_append, BitVec.getLsbD_extractLsb', bit, BitVec.getLsbD_ofBool,
    BitVec.getLsbD_zero]
  interval_cases k <;> simp

theorem slice_zero_iff (lo w : Nat) :
    x.extractLsb' lo w = 0 ↔ ∀ k, lo ≤ k → k < lo + w → x.getLsbD k = false := by
  rw [BitVec.eq_of_getLsbD_eq_iff]
  constructor
  · intro zero k above below
    have bit := zero (k - lo) (by omega)
    rw [BitVec.getLsbD_extractLsb', decide_eq_true (by omega), Bool.true_and,
      Nat.add_sub_cancel' above] at bit
    exact bit.trans BitVec.getLsbD_zero
  · intro clear k below
    rw [BitVec.getLsbD_extractLsb', decide_eq_true below, Bool.true_and,
      clear (lo + k) (by omega) (by omega)]
    exact BitVec.getLsbD_zero.symm

/-- `dcsr` keeps all of the value, and bit 14 is reported as bit 15. -/
theorem written_dcsr (gdb : b.gdbControl = true) :
    Written b r x .dcsr ↔ Reportable .dcsr x := by
  have shown : Written b r x .dcsr ↔
      (0#32 ++ x.extractLsb' 28 4 ++ 0#12 ++ bit (x.getLsbD 14) ++ 0#1 ++ x.extractLsb' 6 8 ++
        0#1 ++ x.extractLsb' 0 5 : Data) = x := by
    simp only [Written, fvWarlXform, rd, Regs.csrInstWr, CsrFile.csrInstWr, gdb, if_true]
    exact Iff.rfl
  rw [shown, BitVec.eq_of_getLsbD_eq_iff, Reportable, slice_zero_iff, slice_zero_iff]
  constructor
  · intro same
    have bits : ∀ k < 64, _ := fun k below => (dcsr_getLsbD x k below).symm.trans (same k below)
    have clear : ∀ k < 64, k = 5 ∨ 14 ≤ k ∧ k < 28 ∧ k ≠ 15 ∨ 32 ≤ k → x.getLsbD k = false := by
      intro k below reserved
      have bit := bits k below
      rw [if_neg (by omega), decide_eq_true (by omega)] at bit
      simpa using bit.symm
    refine ⟨fun k above below => clear k below (by omega), fun k above below => ?_,
      clear 5 (by decide) (by decide)⟩
    rcases eq_or_ne k 15 with rfl | other
    · rw [← bits 15 (by decide)]
      exact clear 14 (by decide) (by decide)
    · exact clear k (by omega) (by omega)
  · rintro ⟨high, middle, five⟩ k below
    rw [dcsr_getLsbD x k below]
    split
    next at15 =>
      subst at15
      rw [middle 14 (by decide) (by decide), middle 15 (by decide) (by decide)]
    next other =>
      by_cases reserved : k = 5 ∨ 14 ≤ k ∧ k < 28 ∨ 32 ≤ k
      · have zero : x.getLsbD k = false := by
          rcases reserved with rfl | between | above
          · exact five
          · exact middle k between.1 between.2
          · exact high k above below
        rw [zero, Bool.false_and]
      · rw [decide_eq_false reserved, Bool.not_false, Bool.and_true]

theorem written_iff {csr : CSR} (named : csr ∈ warlCsrs b) :
    Written b r x csr ↔ Reportable csr x := by
  rw [warlCsrs, List.mem_append] at named
  rcases named with always | debug
  · simp only [List.mem_cons, List.not_mem_nil, or_false] at always
    rcases always with rfl | rfl | rfl | rfl | rfl | rfl | rfl | rfl | rfl | rfl | rfl | rfl | rfl |
      rfl | rfl | rfl | rfl | rfl | rfl | rfl | rfl | rfl | rfl | rfl
    · exact iff_of_true rfl trivial
    · exact iff_of_true rfl trivial
    · exact iff_of_true rfl trivial
    · exact iff_of_true rfl trivial
    · exact iff_of_true rfl trivial
    · exact iff_of_true (written_mstatus b r x) trivial
    · exact iff_of_true rfl trivial
    · exact iff_of_true (written_medeleg b r x) trivial
    · exact iff_of_true (written_mideleg b r x) trivial
    · exact iff_of_true (written_mip b r x) trivial
    · exact written_mie b r x
    · exact iff_of_false (written_counteren x _) id
    · exact iff_of_true rfl trivial
    · exact iff_of_true (written_tdata1 b r x) trivial
    · exact iff_of_true (written_sstatus b r x) trivial
    · exact iff_of_true rfl trivial
    · exact iff_of_true (written_sip b r x) trivial
    · exact iff_of_true (written_sie b r x) trivial
    · exact iff_of_false (written_counteren x _) id
    · exact iff_of_true rfl trivial
    · exact iff_of_true rfl trivial
    · exact iff_of_true (written_fflags b r x) trivial
    · exact iff_of_true (written_frm b r x) trivial
    · exact iff_of_true (written_fcsr b r x) trivial
  · cases gdb : b.gdbControl with
    | false =>
        rw [gdb] at debug
        cases debug
    | true =>
        rw [gdb, if_pos rfl, List.mem_singleton] at debug
        subst debug
        exact written_dcsr b r x gdb

end Write

/-! ## Cycles -/

section Cycle

variable (b : Build) (r : Regs) (others : Others)

/-- Methods that do not write a CSR leave it to the commit stage. -/
theorem rd_next {csr : CSR} (named : csr ∈ warlCsrs b) (alone : ¬others.Writes csr)
    (commit : Commit) : rd b (r.next b commit others) csr = rd b (r.commit b commit) csr := by
  rw [warlCsrs, List.mem_append] at named
  rcases named with always | debug
  · simp only [List.mem_cons, List.not_mem_nil, or_false] at always
    rcases always with rfl | rfl | rfl | rfl | rfl | rfl | rfl | rfl | rfl | rfl | rfl | rfl | rfl |
      rfl | rfl | rfl | rfl | rfl | rfl | rfl | rfl | rfl | rfl | rfl
    case inr.inr.inr.inr.inr.inr.inr.inr.inr.inl =>
        simp only [Others.Writes, not_or, not_not] at alone
        obtain ⟨msip, mtip, meip, seip⟩ := alone
        simp only [rd, Regs.next, msip, mtip, meip, seip, Option.getD_none]
        rfl
    case inr.inr.inr.inr.inr.inr.inr.inr.inr.inr.inr.inr.inr.inr.inr.inr.inl =>
        have seip : others.setSEIP = none := not_not.mp alone
        simp only [rd, sipCsr, Regs.next, seip, Option.getD_none]
        rfl
    all_goals rfl
  · cases gdb : b.gdbControl with
    | false =>
        rw [gdb] at debug
        cases debug
    | true =>
        rw [gdb, if_pos rfl, List.mem_singleton] at debug
        subst debug
        have silent : others.dcsrCauseWrite = none := not_not.mp alone
        simp only [rd, Regs.next, silent]
        rfl

/-- What a trap returns is what the CSRs of the level it goes to show next. -/
structure TrapReported (t : Trap) (pc addr : Addr) (origInst : BitVec 32) : Prop where
  prv : (trapUpdates b r t pc addr origInst).prv =
    (r.next b (.trap t pc addr origInst) others).prvReg
  status : (trapUpdates b r t pc addr origInst).status =
    rd b (r.next b (.trap t pc addr origInst) others)
      (if deleg r.toState t then .sstatus else .mstatus)
  cause : (trapUpdates b r t pc addr origInst).cause =
    rd b (r.next b (.trap t pc addr origInst) others)
      (if deleg r.toState t then .scause else .mcause)
  epc : (trapUpdates b r t pc addr origInst).epc =
    rd b (r.next b (.trap t pc addr origInst) others)
      (if deleg r.toState t then .sepc else .mepc)
  tval : (trapUpdates b r t pc addr origInst).tval =
    rd b (r.next b (.trap t pc addr origInst) others)
      (if deleg r.toState t then .stval else .mtval)

/-- The level and the status that a return gives, before `next`. -/
structure RetReported (told : RetUpdates) (next : Regs) : Prop where
  prv : told.prv = next.prvReg
  status : told.status = rd b next .mstatus

theorem trap_reported (t : Trap) (pc addr : Addr) (origInst : BitVec 32) :
    TrapReported b r others t pc addr origInst := by
  cases down : deleg r.toState t with
  | true =>
      constructor <;>
        simp only [trapUpdates, Regs.next, Regs.commit, trap, down, if_true]
      · rw [rd, sstatusCsr_eq]
        rfl
      · rfl
      · rfl
      · rfl
  | false =>
      constructor <;>
        simp only [trapUpdates, Regs.next, Regs.commit, trap, down, Bool.false_eq_true, if_false]
      · rfl
      · rfl
      · rfl
      · rfl

theorem trace_reported :
    (∀ csr ∈ warlCsrs b, ∀ x others, ¬others.Writes csr →
      (fvWarlXform b r csr x = rd b (r.next b (.csrInstWr csr x) others) csr ↔
        Reportable csr x)) ∧
      (∀ others t pc addr origInst, TrapReported b r others t pc addr origInst) ∧
      ∀ others, RetReported b (mretUpdates b r) (r.next b .mret others) ∧
        RetReported b (sretUpdates b r) (r.next b .sret others) := by
  refine ⟨?_, fun others => trap_reported b r others,
    fun others => ⟨⟨rfl, rfl⟩, ⟨rfl, rfl⟩⟩⟩
  intro csr named x others alone
  rw [rd_next b r others named alone]
  exact written_iff b r x named

end Cycle

private def fullIsa : RiscVISASubset := { m := true, a := true, f := true, d := true, c := true }

/-- After reset, a write of 0 to `mcounteren` is reported as 0 and shows `0xFFFFFFF8`. -/
theorem mcounteren_misreported :
    ¬∀ (b : Build) (csr : CSR), csr ∈ warlCsrs b → ∀ (x : Data) (others : Others),
      ¬others.Writes csr →
        fvWarlXform b Regs.reset csr x =
          rd b (Regs.reset.next b (.csrInstWr csr x) others) csr := by
  intro claim
  have same := claim { gdbControl := false, isa := fullIsa, hartid := 0 } .mcounteren
    (by simp [warlCsrs]) 0 {} id
  revert same
  decide

end Toooba.CsrFile
