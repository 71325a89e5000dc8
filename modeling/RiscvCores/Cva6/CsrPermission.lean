import RiscvCores.Cva6.CsrAccess

/-!
# Permission to access a register

`exception_ctrl` beside the verdict of the privileged architecture on the same
access.  The architecture asks whether the register is there, whether it may be
written, which level it belongs to, and which enables stand in between; with
`V = 1` an access that HS-mode could make is refused as a virtual instruction.
-/

set_option autoImplicit false

namespace Cva6.CsrRegfile

open BitField
open Cva6.Pmp (PrivLvl)

variable {cfg : CsrCfg}

/-! ## The verdict of the architecture -/

/-- The virtualization mode: debug mode and M-mode are never virtual. -/
def virtualized (s : Regs cfg) : Bool := cfg.rvh && s.v && privLvlO s != .m

/-- The bit of a counter in `mcounteren`, `hcounteren` or `scounteren`. -/
def counterBit (enables : BitVec cfg.xlen) (csrAddr : BitVec 12) : Bool :=
  flag enables (field csrAddr 0 5).toNat

/-- The floating-point unit is on where the access needs it. -/
def fpOn (s : Regs cfg) (csr : Csr) : Bool :=
  !isFp csr || !(field s.mstatus Mstatus.fs 2 == xsOff ||
    (virtualized s && field s.vsstatus Mstatus.fs 2 == xsOff))

/-- The level reaches the register. -/
def levelReaches (cfg : CsrCfg) (level : PrivLvl) (csrAddr : BitVec 12) : Bool :=
  match level with
  | .m => true
  | .u => csrPriv csrAddr == 0
  | _ => csrPriv csrAddr == 0 || csrPriv csrAddr == 1 || (cfg.rvh && csrPriv csrAddr == 2)

/-- The counter is enabled for the level; without S-mode there is no `scounteren`. -/
def counterEnabled (s : Regs cfg) (level : PrivLvl) (csrAddr : BitVec 12) : Bool :=
  match level with
  | .m => true
  | .u => counterBit s.mcounteren csrAddr && (!cfg.rvs || counterBit s.scounteren csrAddr)
  | _ => counterBit s.mcounteren csrAddr

/-- `TVM` traps the address-translation registers of the host. -/
def tvmTraps (s : Regs cfg) (level : PrivLvl) (csr : Csr) : Bool :=
  level == .s && flag s.mstatus Mstatus.tvm && (csr == .satp || csr == .hgatp)

/-- Without virtualization an access is made or is illegal. -/
def allowedNative (s : Regs cfg) (i : Input cfg) : Bool :=
  let csr := csrReg i.csrAddr
  let level := privLvlO s
  meaningful cfg i && fpOn s csr && levelReaches cfg level i.csrAddr &&
    (!debugAddr i.csrAddr || (cfg.debugEn && s.debugMode)) &&
    (!counterRegister i.csrAddr || counterEnabled s level i.csrAddr) && !tvmTraps s level csr

/-- HS-mode could make the access if `TVM` were clear. -/
def hsQualified (s : Regs cfg) (i : Input cfg) : Bool :=
  meaningful cfg i && fpOn s (csrReg i.csrAddr) && levelReaches cfg .s i.csrAddr &&
    (!counterRegister i.csrAddr || counterBit s.mcounteren i.csrAddr)

/-- A guest makes the access itself. -/
def allowedVirtual (s : Regs cfg) (i : Input cfg) : Bool :=
  match privLvlO s with
  | .u => csrPriv i.csrAddr == 0 &&
      (!counterRegister i.csrAddr ||
        (counterBit s.hcounteren i.csrAddr && counterBit s.scounteren i.csrAddr))
  | _ => (csrPriv i.csrAddr == 0 || csrPriv i.csrAddr == 1) &&
      (!counterRegister i.csrAddr || counterBit s.hcounteren i.csrAddr) &&
      !(csrReg i.csrAddr == .satp && flag s.hstatus Hstatus.vtvm)

/-- What the architecture raises. -/
def prescribed (s : Regs cfg) (i : Input cfg) : Raised :=
  if virtualized s then
    if !hsQualified s i then .illegalInstr
    else if allowedVirtual s i then .nothing
    else .virtualInstruction
  else if allowedNative s i then .nothing
  else .illegalInstr

/-! ## Where the code deviates -/

/-- A write of `stval` in a core without trap values: the read is granted. -/
def stvalRefused (s : Regs cfg) (i : Input cfg) : Bool :=
  cfg.rvs && !cfg.tvalEn && writesCsr i.csrOp && selected s i == .stval && privLvlO s != .u

/-- The guest's floating-point state refuses an access of debug mode. -/
def guestFpOff (s : Regs cfg) (i : Input cfg) : Bool :=
  privLvlO s == .m && cfg.rvh && s.v && isFp (csrReg i.csrAddr) && cfg.fpPresent &&
    field s.vsstatus Mstatus.fs 2 == xsOff && field s.mstatus Mstatus.fs 2 != xsOff

/-- A user reads a counter outside virtualization: with `RVH` one enable is enough,
without S-mode the absent `scounteren` refuses. -/
def userCounter (s : Regs cfg) (i : Input cfg) : Bool :=
  let m := counterBit s.mcounteren i.csrAddr
  let u := counterBit s.scounteren i.csrAddr
  privLvlO s == .u && !virtualized s && counterRegister i.csrAddr && meaningful cfg i &&
    if cfg.rvh then m != u else !cfg.rvs && m && !u

/-- A guest accesses a counter: a disabled `scounteren` is not looked at alone, and
`hcounteren` makes any access virtual. -/
def guestCounter (s : Regs cfg) (i : Input cfg) : Bool :=
  let m := counterBit s.mcounteren i.csrAddr
  let h := counterBit s.hcounteren i.csrAddr
  let u := counterBit s.scounteren i.csrAddr
  virtualized s && counterRegister i.csrAddr &&
    if privLvlO s == .u then
      if m then if h then meaningful cfg i && !u else !meaningful cfg i
      else meaningful cfg i && (u || !h)
    else m && !h && !meaningful cfg i

/-- A guest accesses a register above its level that is not there, or writes one
that is read-only. -/
def guestMissing (s : Regs cfg) (i : Input cfg) : Bool :=
  virtualized s && !counterRegister i.csrAddr && !meaningful cfg i &&
    (csrPriv i.csrAddr == 2 || (csrPriv i.csrAddr == 1 && privLvlO s == .u))

/-- The accesses that the code judges otherwise. -/
def misjudged (s : Regs cfg) (i : Input cfg) : Bool :=
  stvalRefused s i || guestFpOff s i || userCounter s i || guestCounter s i || guestMissing s i

/-! ## The two verdicts -/

/-- The level of an access exists. -/
theorem implemented_privLvlO (s : Regs cfg) (level : implemented cfg s.privLvl = true) :
    implemented cfg (privLvlO s) = true := by
  unfold privLvlO
  split
  · rfl
  · exact level

/-- The comparisons and the mask of `privilege_check`, by the level of the address. -/
theorem below_facts (p : BitVec 2) :
    decide (privBits .m < p) = false ∧ decide (privBits .hs < p) = !(p == 0 || p == 1 || p == 2) ∧
    decide (privBits .s < p) = (p == 2 || p == 3) ∧ decide (privBits .u < p) = (p != 0) ∧
    decide (p ≤ privBits .hs) = (p != 3) ∧ (privBits .m &&& p != p) = false ∧
    (privBits .s &&& p != p) = !(p == 0 || p == 1) ∧ (privBits .u &&& p != p) = (p != 0) := by
  revert p
  decide

section Counters

variable (zicntr : cfg.rvzicntr = true) (zihpm : cfg.rvzihpm = true)

include zicntr zihpm

theorem counterAddr_eq (a : BitVec 12) : counterAddr cfg a = counterRegister a := by
  rw [counterRegister_eq, counterAddr, zicntr, zihpm, Bool.true_and, Bool.true_and,
    ← Bool.decide_or, ← Bool.decide_or, ← Bool.decide_or, decide_eq_decide]
  omega

/-- Outside virtualization the counters have their enables, and the other
registers their level. -/
theorem violation_native (s : Regs cfg) (i : Input cfg) (access : csrAccess i.csrOp = true)
    (level : implemented cfg s.privLvl = true) (native : virtualized s = false)
    (users : cfg.rvs = true → cfg.rvu = true) :
    (cfg.rvh && virtualPrivilegeViolation s i) = false ∧
    privilegeViolation s i =
      if counterRegister i.csrAddr then
        match privLvlO s with
        | .m => false
        | .s => !counterBit s.mcounteren i.csrAddr
        | _ =>
            if cfg.rvh then !counterBit s.mcounteren i.csrAddr && !counterBit s.scounteren i.csrAddr
            else !counterBit s.mcounteren i.csrAddr || !counterBit s.scounteren i.csrAddr
      else !levelReaches cfg (privLvlO s) i.csrAddr || debugOnly s i.csrAddr := by
  have there := implemented_privLvlO s level
  obtain ⟨belowM, belowHs, -, belowU, -, maskM, maskS, maskU⟩ := below_facts (csrPriv i.csrAddr)
  unfold virtualPrivilegeViolation privilegeViolation privilegeCheckH privilegeCheck
  rw [counterAddr_eq zicntr zihpm, access]
  unfold virtualized at native
  cases current : privLvlO s with
  | m =>
      have acts : accessPriv s = .m := by simp [accessPriv, current]
      rw [acts, belowM, maskM]
      cases cfg.rvh <;> cases counterRegister i.csrAddr <;> simp [levelReaches]
  | hs =>
      rw [current] at there
      exact Bool.noConfusion there
  | s =>
      rw [current] at there native
      have supervisor : cfg.rvs = true := there
      cases rvh : cfg.rvh with
      | false =>
          rw [maskS]
          cases counterRegister i.csrAddr <;>
            simp [levelReaches, supervisor, users supervisor, rvh, counterBit]
      | true =>
          have host : s.v = false := by simpa [rvh] using native
          have acts : accessPriv s = .hs := by simp [accessPriv, current, host]
          rw [acts, belowHs]
          cases counterRegister i.csrAddr <;>
            simp [levelReaches, supervisor, rvh, counterBit, host]
  | u =>
      rw [current] at there native
      have user : cfg.rvu = true := there
      cases rvh : cfg.rvh with
      | false =>
          rw [maskU]
          cases counterRegister i.csrAddr <;> simp [levelReaches, user, counterBit, bne]
      | true =>
          have host : s.v = false := by simpa [rvh] using native
          have acts : accessPriv s = .u := by simp [accessPriv, current]
          rw [acts, belowU]
          cases counterRegister i.csrAddr <;> simp [levelReaches, user, counterBit, host, bne]

/-- A guest reaches the registers of its level, and with `hcounteren` the counters. -/
theorem violation_virtual (s : Regs cfg) (i : Input cfg) (access : csrAccess i.csrOp = true)
    (level : implemented cfg s.privLvl = true) (guest : virtualized s = true) :
    virtualPrivilegeViolation s i =
      (if counterRegister i.csrAddr then
        counterBit s.mcounteren i.csrAddr && !counterBit s.hcounteren i.csrAddr
      else csrPriv i.csrAddr == 2 || (csrPriv i.csrAddr == 1 && privLvlO s == .u)) ∧
    privilegeViolation s i =
      if counterRegister i.csrAddr then
        !counterBit s.mcounteren i.csrAddr && (privLvlO s != .u ||
          (!counterBit s.scounteren i.csrAddr && counterBit s.hcounteren i.csrAddr))
      else csrPriv i.csrAddr == 3 || debugOnly s i.csrAddr := by
  have there := implemented_privLvlO s level
  obtain ⟨-, -, belowS, belowU, atMost, -, -, -⟩ := below_facts (csrPriv i.csrAddr)
  simp only [virtualized, Bool.and_eq_true, bne_iff_ne] at guest
  obtain ⟨⟨rvh, v⟩, notM⟩ := guest
  unfold virtualPrivilegeViolation privilegeViolation privilegeCheckH
  rw [counterAddr_eq zicntr zihpm, access, rvh]
  cases current : privLvlO s with
  | m => exact absurd current notM
  | hs =>
      rw [current] at there
      exact Bool.noConfusion there
  | s =>
      rw [current] at there
      have supervisor : cfg.rvs = true := there
      have acts : accessPriv s = .s := by simp [accessPriv, current, v]
      rw [acts, belowS, atMost]
      cases counterRegister i.csrAddr with
      | true => simp [supervisor, counterBit, v]
      | false =>
          simp only [v, Bool.true_and, Bool.false_eq_true, if_false, if_true]
          generalize csrPriv i.csrAddr = p, debugOnly s i.csrAddr = debugs
          revert p debugs
          decide
  | u =>
      rw [current] at there
      have user : cfg.rvu = true := there
      have acts : accessPriv s = .u := by simp [accessPriv, current]
      rw [acts, belowU, atMost]
      cases counterRegister i.csrAddr with
      | true => simp [user, counterBit, v, Bool.and_assoc]
      | false =>
          simp only [v, Bool.true_and, Bool.false_eq_true, if_false, if_true]
          generalize csrPriv i.csrAddr = p, debugOnly s i.csrAddr = debugs
          revert p debugs
          decide

end Counters

/-- Outside virtualization nothing is virtual, and the verdicts agree where the
refusals do. -/
theorem native_refusal (zicntr : cfg.rvzicntr = true) (zihpm : cfg.rvzihpm = true)
    (users : cfg.rvs = true → cfg.rvu = true) (s : Regs cfg) (i : Input cfg)
    (access : csrAccess i.csrOp = true) (level : implemented cfg s.privLvl = true)
    (native : virtualized s = false) :
    csrExceptionO s i = prescribed s i ↔
      (privilegeViolation s i || refused s i) = !allowedNative s i := by
  obtain ⟨noVirtual, -⟩ := violation_native zicntr zihpm s i access level native users
  have untrapped : (cfg.rvh && (!privilegeViolation s i && vtvmTraps s i)) = false := by
    have noGuest : (cfg.rvh && vsatpIntercepted s) = false := by
      unfold virtualized at native
      unfold vsatpIntercepted
      cases current : privLvlO s <;> simp_all
    unfold vtvmTraps
    cases privilegeViolation s i <;> cases selected s i == .vsatp <;> simp_all
  have code : csrExceptionO s i =
      if privilegeViolation s i || refused s i then .illegalInstr else .nothing := by
    rw [csrExceptionO_eq s i access users, Bool.and_or_distrib_left, noVirtual, untrapped]
    rfl
  rw [code, prescribed, native]
  cases privilegeViolation s i || refused s i <;> cases allowedNative s i <;> simp

theorem native_counter (zicntr : cfg.rvzicntr = true) (zihpm : cfg.rvzihpm = true)
    (users : cfg.rvs = true → cfg.rvu = true) (hypervisor : cfg.rvh = true → cfg.rvs = true)
    (s : Regs cfg) (i : Input cfg) (access : csrAccess i.csrOp = true)
    (level : implemented cfg s.privLvl = true) (native : virtualized s = false)
    (counts : counterRegister i.csrAddr = true) :
    (privilegeViolation s i || refused s i) = (!allowedNative s i) ↔ misjudged s i = false := by
  obtain ⟨zero, notDebug, noFp, noCsr⟩ := counter_facts i.csrAddr counts
  have there := implemented_privLvlO s level
  rw [(violation_native zicntr zihpm s i access level native users).2, refused_eq s i hypervisor]
  simp only [misjudged, stvalRefused, guestFpOff, userCounter, guestCounter, guestMissing,
    (selected_facts s i hypervisor).2.2.2.2.2.1, noFp, noCsr .satp (by decide),
    noCsr .stval (by decide), noCsr .hgatp (by decide), counts, native, allowedNative, fpOn,
    tvmTraps, notDebug, zero, Bool.and_false, Bool.false_and, Bool.or_false, Bool.false_or,
    Bool.not_false, Bool.and_true, if_true, Bool.not_true, levelReaches, counterEnabled]
  cases current : privLvlO s with
  | m => cases meaningful cfg i <;> simp
  | hs =>
      rw [current] at there
      exact Bool.noConfusion there
  | s => cases meaningful cfg i <;> cases counterBit s.mcounteren i.csrAddr <;> simp
  | u =>
      cases rvh : cfg.rvh with
      | true =>
          rw [hypervisor rvh]
          cases meaningful cfg i <;> cases counterBit s.mcounteren i.csrAddr <;>
            cases counterBit s.scounteren i.csrAddr <;> simp
      | false =>
          cases meaningful cfg i <;> cases counterBit s.mcounteren i.csrAddr <;>
            cases counterBit s.scounteren i.csrAddr <;> cases cfg.rvs <;> simp

/-- `tvm` traps the same registers, where they are there. -/
theorem native_tvm (s : Regs cfg) (i : Input cfg) (native : virtualized s = false)
    (there : meaningful cfg i = true) :
    ((!(cfg.rvh && s.v) && csrReg i.csrAddr == .satp && satpIntercepted s) ||
      (csrReg i.csrAddr == .hgatp && hgatpIntercepted s)) =
        tvmTraps s (privLvlO s) (csrReg i.csrAddr) := by
  have hosted : (csrReg i.csrAddr == .hgatp) = true → cfg.rvh = true := by
    intro isHgatp
    rw [meaningful, eq_of_beq isHgatp] at there
    exact ((Bool.and_eq_true _ _).mp there).1
  have level' : (privLvlO s == .s) = true → (privLvlO s != .m) = true := by
    intro supervisor
    rw [eq_of_beq supervisor]
    rfl
  unfold virtualized at native
  unfold satpIntercepted hgatpIntercepted tvmTraps
  generalize (csrReg i.csrAddr == .hgatp) = hgatp, (csrReg i.csrAddr == .satp) = satp,
    (privLvlO s == .s) = supervisor, (privLvlO s != .m) = below, cfg.rvh = rvh,
    s.v = v, flag s.mstatus Mstatus.tvm = tvm at hosted level' native ⊢
  revert hgatp satp supervisor below rvh v tvm
  decide

/-- The refusals of a register that is no counter, with its level decided. -/
theorem native_register (zicntr : cfg.rvzicntr = true) (zihpm : cfg.rvzihpm = true)
    (users : cfg.rvs = true → cfg.rvu = true) (hypervisor : cfg.rvh = true → cfg.rvs = true)
    (s : Regs cfg) (i : Input cfg) (access : csrAccess i.csrOp = true)
    (level : implemented cfg s.privLvl = true) (native : virtualized s = false)
    (plain : counterRegister i.csrAddr = false) :
    (privilegeViolation s i || refused s i) = (!allowedNative s i) ↔ misjudged s i = false := by
  have debugs : debugOnly s i.csrAddr =
    (debugAddr i.csrAddr && !(cfg.debugEn && s.debugMode)) := rfl
  rw [(violation_native zicntr zihpm s i access level native users).2, refused_eq s i hypervisor]
  simp only [misjudged, stvalRefused, guestFpOff, userCounter, guestCounter, guestMissing,
    (selected_facts s i hypervisor).2.2.2.2.2.1, plain, native, allowedNative, fpOn, debugs,
    Bool.and_false, Bool.false_and, Bool.or_false, Bool.not_false,
    Bool.and_true, Bool.false_eq_true, if_false, Bool.true_or]
  by_cases isFloat : isFp (csrReg i.csrAddr) = true
  · obtain ⟨zero, readOnly, notDebug, present, noCsr⟩ := float_facts cfg i.csrAddr isFloat
    have reaches : levelReaches cfg (privLvlO s) i.csrAddr = true := by
      cases privLvlO s <;> simp [levelReaches, zero]
    have level' : (privLvlO s == .m) = !(privLvlO s != .m) := (Bool.not_not _).symm
    have on : (field s.mstatus Mstatus.fs 2 != xsOff) =
      !(field s.mstatus Mstatus.fs 2 == xsOff) := rfl
    unfold virtualized at native
    rw [isFloat, notDebug, reaches, meaningful, readOnly, present, tvmTraps, noCsr .satp rfl,
      noCsr .hgatp rfl, noCsr .stval rfl, fpAccess, level', on]
    generalize (privLvlO s != .m) = below, cfg.rvh = rvh, s.v = v, cfg.fpPresent = unit,
      (field s.mstatus Mstatus.fs 2 == xsOff) = off,
      (field s.vsstatus Mstatus.fs 2 == xsOff) = guestOff at native ⊢
    simp only [Bool.and_false, Bool.false_and, Bool.or_false, Bool.false_or, Bool.not_false,
      Bool.and_true, Bool.true_and, Bool.true_or, Bool.not_true]
    revert below rvh v unit off guestOff
    decide
  · obtain ⟨-, -, stval, -, -, -, -⟩ := register_facts i.csrAddr
    simp only [isFloat, Bool.and_false, Bool.false_and, Bool.or_false, Bool.not_false,
      Bool.and_true, Bool.true_or]
    by_cases isStval : csrReg i.csrAddr = .stval
    · obtain ⟨one, readOnly, notDebug⟩ := stval isStval
      have noSatp : (Csr.stval == .satp) = false := rfl
      have noHgatp : (Csr.stval == .hgatp) = false := rfl
      have reaches : levelReaches cfg (privLvlO s) i.csrAddr = (privLvlO s != .u) := by
        cases privLvlO s <;> simp [levelReaches, one]
      have present : meaningful cfg i = cfg.rvs := by
        rw [meaningful, readOnly, isStval, Bool.and_false, Bool.not_false, Bool.and_true]
        rfl
      rw [isStval, notDebug, reaches, present, tvmTraps, noSatp, noHgatp, BEq.rfl]
      simp only [Bool.and_false, Bool.false_and, Bool.or_false, Bool.not_false, Bool.and_true,
        Bool.true_or]
      generalize (privLvlO s != .u) = above, cfg.rvs = rvs, (cfg.rvh && s.v) = guest,
        writesCsr i.csrOp = writes, cfg.tvalEn = tvalEn
      revert above rvs guest writes tvalEn
      decide
    · have noStval : (csrReg i.csrAddr == .stval) = false := beq_eq_false_iff_ne.mpr isStval
      rw [noStval]
      simp only [Bool.and_false, Bool.false_and, Bool.or_false]
      cases there : meaningful cfg i with
      | false => simp
      | true =>
          rw [Bool.not_true, Bool.false_or, native_tvm s i native there]
          simp [Bool.or_assoc]

/-- A guest's access is judged otherwise at a counter, and at a register above its
level that is not there. -/
theorem virtual_refusal (zicntr : cfg.rvzicntr = true) (zihpm : cfg.rvzihpm = true)
    (users : cfg.rvs = true → cfg.rvu = true) (hypervisor : cfg.rvh = true → cfg.rvs = true)
    (s : Regs cfg) (i : Input cfg) (access : csrAccess i.csrOp = true)
    (level : implemented cfg s.privLvl = true) (guest : virtualized s = true) :
    csrExceptionO s i = prescribed s i ↔ misjudged s i = false := by
  obtain ⟨virtual, violation⟩ := violation_virtual zicntr zihpm s i access level guest
  obtain ⟨-, -, -, -, -, selStval, selVsatp⟩ := selected_facts s i hypervisor
  have there := implemented_privLvlO s level
  have debugs : debugOnly s i.csrAddr =
    (debugAddr i.csrAddr && !(cfg.debugEn && s.debugMode)) := rfl
  have modes := guest
  simp only [virtualized, Bool.and_eq_true, bne_iff_ne] at modes
  obtain ⟨⟨rvh, v⟩, notM⟩ := modes
  have notM' : (privLvlO s == .m) = false := beq_eq_false_iff_ne.mpr notM
  rw [rvh, v, Bool.true_and, Bool.not_true, Bool.false_and] at selStval
  rw [rvh, v, Bool.true_and, Bool.true_and] at selVsatp
  have deviates : misjudged s i = (guestCounter s i || guestMissing s i) := by
    simp only [misjudged, stvalRefused, guestFpOff, userCounter, selStval, guest, notM',
      Bool.and_false, Bool.false_and, Bool.false_or, Bool.not_true]
  rw [csrExceptionO_eq s i access users, prescribed, guest, if_pos rfl, deviates, rvh,
    Bool.true_and, vtvmTraps, rvh, selVsatp, vsatpIntercepted, v, virtual, violation,
    refused_eq s i hypervisor, rvh, v, guestCounter, guestMissing, guest, hsQualified,
    hgatpIntercepted, v]
  cases counts : counterRegister i.csrAddr with
  | true =>
      obtain ⟨zero, notDebug, noFp, noCsr⟩ := counter_facts i.csrAddr counts
      simp only [noFp, noCsr .satp (by decide), noCsr .vsatp (by decide),
        noCsr .hgatp (by decide), fpOn, zero, levelReaches, allowedVirtual, if_true, counts]
      cases current : privLvlO s with
      | m => exact absurd current notM
      | hs =>
          rw [current] at there
          exact Bool.noConfusion there
      | s =>
          cases meaningful cfg i <;> cases counterBit s.mcounteren i.csrAddr <;>
            cases counterBit s.hcounteren i.csrAddr <;> simp
      | u =>
          cases meaningful cfg i <;> cases counterBit s.mcounteren i.csrAddr <;>
            cases counterBit s.hcounteren i.csrAddr <;>
            cases counterBit s.scounteren i.csrAddr <;> simp
  | false =>
      have granted : (!meaningful cfg i || (isFp (csrReg i.csrAddr) && !fpAccess s)) =
          !(meaningful cfg i && fpOn s (csrReg i.csrAddr)) := by
        unfold fpAccess fpOn
        rw [guest, rvh, v]
        cases isFloat : isFp (csrReg i.csrAddr) with
        | false => simp
        | true =>
            obtain ⟨-, readOnly, -, present, -⟩ := float_facts cfg i.csrAddr isFloat
            rw [meaningful, readOnly, present]
            cases cfg.fpPresent <;> simp
      obtain ⟨fp, satp, -, -, vsatp, -, debug⟩ := register_facts i.csrAddr
      have above :
          (csrPriv i.csrAddr == 3 || debugOnly s i.csrAddr) = (csrPriv i.csrAddr == 3) := by
        rw [debugs]
        cases is : debugAddr i.csrAddr with
        | false => simp
        | true => rw [debug is]; rfl
      have reaches : levelReaches cfg .s i.csrAddr = (csrPriv i.csrAddr != 3) := by
        have table : ∀ p : BitVec 2, (p == 0 || p == 1 || (true && p == 2)) = (p != 3) := by decide
        change (csrPriv i.csrAddr == 0 || csrPriv i.csrAddr == 1 ||
          (cfg.rvh && csrPriv i.csrAddr == 2)) = _
        rw [rvh, table]
      have grants : fpOn s (csrReg i.csrAddr) = false → csrPriv i.csrAddr = 0 := by
        intro off
        cases isFloat : isFp (csrReg i.csrAddr) with
        | false => simp [fpOn, isFloat] at off
        | true => exact (fp isFloat).1
      have isSatp : (csrReg i.csrAddr == .satp) = true → csrPriv i.csrAddr = 1 ∧
          meaningful cfg i = true := by
        intro is
        obtain ⟨one, readOnly, -⟩ := satp (eq_of_beq is)
        rw [meaningful, readOnly, eq_of_beq is, registerThere, hypervisor rvh, Bool.and_false]
        exact ⟨one, rfl⟩
      have isVsatp : (csrReg i.csrAddr == .vsatp) = true → csrPriv i.csrAddr = 2 :=
        fun is => (vsatp (eq_of_beq is)).1
      simp only [granted, above, reaches, allowedVirtual, counts, Bool.false_eq_true, if_false,
        Bool.and_false, Bool.false_and, Bool.or_false, Bool.not_false, Bool.true_and, Bool.and_true,
        Bool.not_true, Bool.true_or]
      cases current : privLvlO s with
      | m => exact absurd current notM
      | hs =>
          rw [current] at there
          exact Bool.noConfusion there
      | s =>
          generalize csrPriv i.csrAddr = p, meaningful cfg i = meaning,
            fpOn s (csrReg i.csrAddr) = on,
            (csrReg i.csrAddr == .satp) = satp, (csrReg i.csrAddr == .vsatp) = vsatp,
            flag s.hstatus Hstatus.vtvm = vtvm at grants isSatp isVsatp ⊢
          cases meaning <;> cases on <;> revert p satp vsatp vtvm <;> decide
      | u =>
          generalize csrPriv i.csrAddr = p, meaningful cfg i = meaning,
            fpOn s (csrReg i.csrAddr) = on,
            (csrReg i.csrAddr == .satp) = satp, (csrReg i.csrAddr == .vsatp) = vsatp,
            flag s.hstatus Hstatus.vtvm = vtvm at grants isSatp isVsatp ⊢
          cases meaning <;> cases on <;> revert p satp vsatp vtvm <;> decide

/-- The exception of an access is the prescribed one, but for the accesses that
the code misjudges. -/
theorem csrException_prescribed_iff (zicntr : cfg.rvzicntr = true) (zihpm : cfg.rvzihpm = true)
    (users : cfg.rvs = true → cfg.rvu = true) (hypervisor : cfg.rvh = true → cfg.rvs = true)
    (s : Regs cfg) (i : Input cfg) (access : csrAccess i.csrOp = true)
    (level : implemented cfg s.privLvl = true) :
    csrExceptionO s i = prescribed s i ↔ misjudged s i = false := by
  cases mode : virtualized s with
  | true => exact virtual_refusal zicntr zihpm users hypervisor s i access level mode
  | false =>
      rw [native_refusal zicntr zihpm users s i access level mode]
      cases kind : counterRegister i.csrAddr with
      | true => exact native_counter zicntr zihpm users hypervisor s i access level mode kind
      | false => exact native_register zicntr zihpm users hypervisor s i access level mode kind

/-- A user outside virtualization, with `cycle` enabled in `mcounteren` only. -/
def enabledByMachine : Regs cv64a6Imafdch :=
  { reset cv64a6Imafdch with privLvl := .u, mcounteren := 1 }

def readCycle : Input cv64a6Imafdch := { csrOp := .csrRead, csrAddr := 0xC00 }

/-- With both enables the read is allowed. -/
theorem csrException_prescribed_readCycle :
    csrExceptionO { enabledByMachine with scounteren := 1 } readCycle =
      prescribed { enabledByMachine with scounteren := 1 } readCycle :=
  (csrException_prescribed_iff rfl rfl (fun _ => rfl) (fun _ => rfl) _ readCycle (by decide)
    rfl).mpr (by decide)

/-- One enable is enough for the code. -/
theorem readCycle_misjudged :
    csrAccess readCycle.csrOp = true ∧ implemented cv64a6Imafdch enabledByMachine.privLvl = true ∧
      csrExceptionO enabledByMachine readCycle = .nothing ∧
      prescribed enabledByMachine readCycle = .illegalInstr := by
  decide

end Cva6.CsrRegfile
