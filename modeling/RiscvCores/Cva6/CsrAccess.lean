import RiscvCores.Cva6.CsrPrivilege

/-!
# The exception of an access

`exception_ctrl`: a register that is not there, is read-only or is hindered by
`fs`, `tvm` or `vtvm` is refused by the read and the write themselves, the rest
by `privilege_check`.
-/

set_option autoImplicit false

namespace Cva6.CsrRegfile

open BitField
open Cva6.Pmp (PrivLvl)

variable {cfg : CsrCfg}

/-- What an access raises. -/
inductive Raised where
  | nothing
  | illegalInstr
  | virtualInstruction
  deriving DecidableEq, Repr

/-- `update_access_exception`, `read_access_exception` and `privilege_violation`. -/
def raisesIllegal (s : Regs cfg) (i : Input cfg) : Bool :=
  (csrWrite s i).updateAccessException || (csrReadProcess s i).readAccessException ||
    privilegeViolation s i

/-- The exceptions that only exist with the hypervisor extension. -/
def raisesVirtual (s : Regs cfg) (i : Input cfg) : Bool :=
  cfg.rvh && ((csrWrite s i).virtualUpdateAccessException ||
    (csrReadProcess s i).virtualReadAccessException || virtualPrivilegeViolation s i)

/-- `csr_exception_o`: the last assignment wins. -/
def csrExceptionO (s : Regs cfg) (i : Input cfg) : Raised :=
  if raisesVirtual s i then .virtualInstruction
  else if raisesIllegal s i then .illegalInstr
  else .nothing

/-! ## The registers behind an address -/

/-- The registers of a configuration. -/
def registerThere (cfg : CsrCfg) (csrAddr : BitVec 12) : Csr → Bool
  | .fflags | .frm | .fcsr | .ftran => cfg.fpPresent
  | .jvt => cfg.rvzcmt
  | .dcsr | .dpc | .dscratch0 | .dscratch1 => cfg.debugEn
  | .tselect | .tdata1 | .tdata2 | .tdata3 => false
  | .vsstatus | .vsie | .vsip | .vstvec | .vsscratch | .vsepc | .vscause | .vstval | .vsatp
  | .hstatus | .hedeleg | .hideleg | .hie | .hip | .hvip | .hcounteren | .htval | .htinst
  | .hgeie | .hgeip | .henvcfg | .hgatp | .mtinst | .mtval2 => cfg.rvh
  | .sstatus | .sie | .sip | .stvec | .scounteren | .sscratch | .sepc | .scause | .stval | .satp
  | .senvcfg | .medeleg | .mideleg => cfg.rvs
  | .mcounteren | .menvcfg => cfg.rvu
  | .menvcfgh => cfg.rvu && !cfg.isXlen64
  | .mstatush | .mcycleh | .minstreth | .mhpmCounterH => !cfg.isXlen64
  | .cycle | .instret => cfg.rvzicntr
  | .cycleh | .instreth => cfg.rvzicntr && !cfg.isXlen64
  | .hpmCounter => cfg.rvzihpm
  | .hpmCounterH => cfg.rvzihpm && !cfg.isXlen64
  | .accCons => cfg.enableAccelerator
  | .pmpcfg => !(cfg.isXlen64 && pmpcfgIndex csrAddr % 2 == 1)
  | .mstatus | .misa | .mie | .mtvec | .mscratch | .mepc | .mcause | .mtval | .mip | .mvendorid
  | .marchid | .mimpid | .mhartid | .mconfigptr | .mcountinhibit | .mcycle | .minstret
  | .mhpmEvent | .mhpmCounter | .dcache | .icache | .pmpaddr => true
  | .other => false

/-- The floating-point registers. -/
def isFp : Csr → Bool
  | .fflags | .frm | .fcsr | .ftran => true
  | _ => false

/-- The top two bits of an address say that the register is read-only. -/
def readOnlyAddr (csrAddr : BitVec 12) : Bool := field csrAddr 10 2 == 3#2

/-- The registers of debug mode. -/
def debugAddr (csrAddr : BitVec 12) : Bool := field csrAddr 4 8 == 0x7B#8

/-- The counters of `Zicntr` and `Zihpm` and their upper halves. -/
def counterRegister (csrAddr : BitVec 12) : Bool := field csrAddr 5 7 == 0x60#7 ||
  field csrAddr 5 7 == 0x64#7

/-- An access that may change the register. -/
def writesCsr (op : FuOp) : Bool := op ∈ [.csrWrite, .csrSet, .csrClear]

/-- The register is there, and the access does not write a read-only register. -/
def meaningful (cfg : CsrCfg) (i : Input cfg) : Bool :=
  registerThere cfg i.csrAddr (csrReg i.csrAddr) && !(writesCsr i.csrOp && readOnlyAddr i.csrAddr)

/-- The registers that no write reaches. -/
def readOnlyCsr : Csr → Bool
  | .cycle | .cycleh | .instret | .instreth | .hpmCounter | .hpmCounterH | .hgeip | .mvendorid
  | .marchid | .mimpid | .mhartid | .mconfigptr => true
  | _ => false

/-- What stands in the way of a register that is there. -/
def hindered (s : Regs cfg) : Csr → Bool
  | .fflags | .frm | .fcsr | .ftran => !fpAccess s
  | .satp => satpIntercepted s
  | .hgatp => hgatpIntercepted s
  | _ => false

theorem read_exception (s : Regs cfg) (pins : Pins cfg) (csrAddr : BitVec 12) (csr : Csr) :
    (csrReadCase s pins csrAddr csr).readAccessException =
      !(registerThere cfg csrAddr csr && !hindered s csr) := by
  have plain (present : Bool) (x : BitVec cfg.xlen) :
      (Read.when present x).readAccessException = !present := by cases present <;> rfl
  cases csr with
  | fflags | frm | fcsr | ftran =>
      refine (plain _ _).trans ?_
      simp only [registerThere, hindered, fpAccess]
      cases cfg.fpPresent <;> simp
  | vsatp =>
      have read : csrReadCase s pins csrAddr .vsatp = if cfg.rvh then
          if vsatpIntercepted s then { virtualReadAccessException := true } else .value s.vsatp
          else .when false 0 := rfl
      rw [read]
      change _ = !(cfg.rvh && !false)
      cases cfg.rvh with
      | false => rfl
      | true => cases vsatpIntercepted s <;> rfl
  | satp =>
      have read : csrReadCase s pins csrAddr .satp =
          if cfg.rvs then .when (!satpIntercepted s) s.satp else .when false 0 := rfl
      rw [read]
      change _ = !(cfg.rvs && !satpIntercepted s)
      cases cfg.rvs with
      | false => rfl
      | true => exact plain _ _
  | hgatp =>
      have read : csrReadCase s pins csrAddr .hgatp =
          if cfg.rvh then .when (!hgatpIntercepted s) s.hgatp else .when false 0 := rfl
      rw [read]
      change _ = !(cfg.rvh && !hgatpIntercepted s)
      cases cfg.rvh with
      | false => rfl
      | true => exact plain _ _
  | _ =>
      first
        | rfl
        | exact (plain _ _).trans (congrArg _ (Bool.and_true _).symm)

theorem read_virtual (s : Regs cfg) (pins : Pins cfg) (csrAddr : BitVec 12) (csr : Csr) :
    (csrReadCase s pins csrAddr csr).virtualReadAccessException =
      (csr == .vsatp && cfg.rvh && vsatpIntercepted s) := by
  have plain (present : Bool) (x : BitVec cfg.xlen) :
      (Read.when present x).virtualReadAccessException = false := by cases present <;> rfl
  cases csr with
  | vsatp =>
      have read : csrReadCase s pins csrAddr .vsatp = if cfg.rvh then
          if vsatpIntercepted s then { virtualReadAccessException := true } else .value s.vsatp
          else .when false 0 := rfl
      rw [read]
      cases cfg.rvh with
      | false => rfl
      | true => cases vsatpIntercepted s <;> rfl
  | satp =>
      have read : csrReadCase s pins csrAddr .satp =
          if cfg.rvs then .when (!satpIntercepted s) s.satp else .when false 0 := rfl
      rw [read]
      cases cfg.rvs with
      | false => rfl
      | true => exact plain _ _
  | hgatp =>
      have read : csrReadCase s pins csrAddr .hgatp =
          if cfg.rvh then .when (!hgatpIntercepted s) s.hgatp else .when false 0 := rfl
      rw [read]
      cases cfg.rvh with
      | false => rfl
      | true => exact plain _ _
  | _ => first | rfl | exact plain _ _

theorem write_exception (s : Regs cfg) (csrAddr : BitVec 12) (csr : Csr) (wdata : BitVec cfg.xlen)
    (w : Update cfg) (users : cfg.rvs = true → cfg.rvu = true)
    (clean : w.updateAccessException = false)
    (there : registerThere cfg csrAddr csr = true) (free : hindered s csr = false) :
    (csrWriteCase s csrAddr csr wdata w).updateAccessException =
      (readOnlyCsr csr || (csr == .stval && !cfg.tvalEn)) := by
  have plain {present : Bool} (d : Regs cfg) (on : present = true) :
      (w.when present d).updateAccessException = false := by rw [on]; exact clean
  have flushes {present : Bool} (d : Regs cfg) (on : present = true) :
      (w.flushWhen present d).updateAccessException = false := by rw [on]; exact clean
  have fp {present : Bool} (fcsr : BitVec 32) (on : present = true) :
      (w.fpWhen present fcsr).updateAccessException = false := by rw [on]; exact clean
  have translates (refused : Update cfg) {present intercepted : Bool} (supported : Bool)
      (d : Regs cfg) (on : present = true) (granted : intercepted = false) :
      (w.translation refused present intercepted supported d).updateAccessException = false := by
    rw [on, granted]
    cases supported <;> exact clean
  cases csr with
  | fflags | frm | fcsr | ftran => exact fp _ (by simpa [hindered] using free)
  | vsstatus | sstatus | hstatus => exact flushes _ there
  | mstatus => exact flushes _ rfl
  | satp | hgatp => exact translates _ _ _ there free
  | vsatp =>
      have on : cfg.rvh = true := there
      have same : csrWriteCase s csrAddr .vsatp wdata w =
          w.translation { w with virtualUpdateAccessException := true } cfg.rvh (vsatpIntercepted s)
            (modeSupported cfg (satpOf wdata)) { w.d with vsatp := satpOf wdata } := rfl
      rw [same, on]
      cases vsatpIntercepted s with
      | true => exact clean
      | false => exact translates _ _ _ rfl rfl
  | stval =>
      have on : cfg.rvs = true := there
      have same : csrWriteCase s csrAddr .stval wdata w =
          w.when (cfg.rvs && cfg.tvalEn) { w.d with stval := wdata } := rfl
      rw [same, on]
      cases tval : cfg.tvalEn with
      | true => exact plain _ rfl
      | false => rfl
  | senvcfg => exact plain _ (users there)
  | pmpcfg =>
      have same : csrWriteCase s csrAddr .pmpcfg wdata w =
          if cfg.isXlen64 && pmpcfgIndex csrAddr % 2 == 1 then w.reject
          else { w with d := { w.d with
            pmpcfg := pmpcfgWrite s w.d.pmpcfg (pmpcfgIndex csrAddr) wdata } } := rfl
      have even : (cfg.isXlen64 && pmpcfgIndex csrAddr % 2 == 1) = false :=
        (Bool.not_eq_true' _).mp there
      rw [same, even]
      exact clean
  | hgeie =>
      have same : csrWriteCase s csrAddr .hgeie wdata w = if cfg.rvh then w else w.reject := rfl
      have on : cfg.rvh = true := there
      rw [same, if_pos on]
      exact clean
  | mstatush =>
      have same : csrWriteCase s csrAddr .mstatush wdata w =
          if cfg.isXlen64 then w.reject else w := rfl
      have narrow : cfg.isXlen64 = false := by simpa [registerThere] using there
      rw [same, narrow]
      exact clean
  | menvcfgh =>
      have same : csrWriteCase s csrAddr .menvcfgh wdata w =
          if cfg.rvu && !cfg.isXlen64 then w else w.reject := rfl
      have on : (cfg.rvu && !cfg.isXlen64) = true := there
      rw [same, if_pos on]
      exact clean
  | mhpmCounterH =>
      have same : csrWriteCase s csrAddr .mhpmCounterH wdata w =
          if cfg.isXlen64 then { w.reject with perfWe := true }
          else { w with perfWe := true, perfData := wdata } := rfl
      have narrow : cfg.isXlen64 = false := by simpa [registerThere] using there
      rw [same, narrow]
      exact clean
  | mtval =>
      have same : csrWriteCase s csrAddr .mtval wdata w =
          if cfg.tvalEn then { w with d := { w.d with mtval := wdata } } else w := rfl
      rw [same]
      cases cfg.tvalEn <;> exact clean
  | menvcfg =>
      have same : csrWriteCase s csrAddr .menvcfg wdata w =
          if cfg.rvu then { w with d := { w.d with fiom := flag wdata 0 } } else w := rfl
      rw [same]
      cases cfg.rvu <;> exact clean
  | misa | mhpmEvent | mhpmCounter | pmpaddr => exact clean
  | mie | mtvec | mscratch | mepc | mcause | mip | mcountinhibit | mcycle | minstret | dcache
  | icache => exact plain _ rfl
  | tselect | tdata1 | tdata2 | tdata3 | other => exact Bool.noConfusion (there : false = true)
  | _ => first | rfl | exact plain _ there

theorem write_virtual (s : Regs cfg) (csrAddr : BitVec 12) (csr : Csr) (wdata : BitVec cfg.xlen)
    (w : Update cfg) (clean : w.virtualUpdateAccessException = false) :
    (csrWriteCase s csrAddr csr wdata w).virtualUpdateAccessException =
      (csr == .vsatp && cfg.rvh && vsatpIntercepted s) := by
  have plain (present : Bool) (d : Regs cfg) :
      (w.when present d).virtualUpdateAccessException = false := by cases present <;> exact clean
  have flushes (present : Bool) (d : Regs cfg) :
      (w.flushWhen present d).virtualUpdateAccessException = false := by
    cases present <;> exact clean
  have fp (present : Bool) (fcsr : BitVec 32) :
      (w.fpWhen present fcsr).virtualUpdateAccessException = false := by
    cases present <;> exact clean
  have translates (present intercepted supported : Bool) (d : Regs cfg) :
      (w.translation w.reject present intercepted supported d).virtualUpdateAccessException =
        false := by
    cases present <;> cases intercepted <;> cases supported <;> exact clean
  have either (present : Bool) {one other : Update cfg}
      (first : one.virtualUpdateAccessException = false)
      (second : other.virtualUpdateAccessException = false) :
      (if present then one else other).virtualUpdateAccessException = false := by
    cases present
    · exact second
    · exact first
  cases csr with
  | fflags | frm | fcsr | ftran => exact fp _ _
  | vsstatus | sstatus | hstatus | mstatus => exact flushes _ _
  | satp | hgatp => exact translates _ _ _ _
  | vsatp =>
      have same : csrWriteCase s csrAddr .vsatp wdata w =
          w.translation { w with virtualUpdateAccessException := true } cfg.rvh (vsatpIntercepted s)
            (modeSupported cfg (satpOf wdata)) { w.d with vsatp := satpOf wdata } := rfl
      rw [same]
      cases cfg.rvh with
      | false => exact clean
      | true =>
          cases vsatpIntercepted s with
          | true => rfl
          | false => cases modeSupported cfg (satpOf wdata) <;> exact clean
  | pmpcfg | hgeie | mstatush | menvcfgh | mhpmCounterH | mtval | menvcfg =>
      exact either _ clean clean
  | _ => first | exact clean | exact plain _ _

/-! ## The address map -/

/-- The register that a guest reaches by a supervisor's address. -/
def virtualCsr : Csr → Csr
  | .sstatus => .vsstatus
  | .sie => .vsie
  | .sip => .vsip
  | .stvec => .vstvec
  | .sscratch => .vsscratch
  | .sepc => .vsepc
  | .scause => .vscause
  | .stval => .vstval
  | .satp => .vsatp
  | csr => csr

theorem readOnlyAddr_eq (a : BitVec 12) : readOnlyAddr a = decide (0xC00 ≤ a.toNat) := by
  have bound := a.isLt
  rw [readOnlyAddr, field_beq a 10 3 (by decide), decide_eq_decide]
  omega

theorem debugAddr_eq (a : BitVec 12) :
    debugAddr a = decide (0x7B0 ≤ a.toNat ∧ a.toNat < 0x7C0) := by
  have bound := a.isLt
  rw [debugAddr, field_beq a 4 0x7B (by decide), decide_eq_decide]
  omega

theorem counterRegister_eq (a : BitVec 12) : counterRegister a =
    decide (0xC00 ≤ a.toNat ∧ a.toNat < 0xC20 ∨ 0xC80 ≤ a.toNat ∧ a.toNat < 0xCA0) := by
  have bound := a.isLt
  rw [counterRegister, field_beq a 5 0x60 (by decide), field_beq a 5 0x64 (by decide),
    ← Bool.decide_or, decide_eq_decide]
  omega

theorem csrPriv_beq (a : BitVec 12) (k : Nat) (small : k < 4) :
    (csrPriv a == BitVec.ofNat 2 k) = decide (a.toNat / 256 % 4 = k) :=
  field_beq a 8 k small

/-- Where the registers that the verdict tells apart are. -/
theorem csrReg_place (a : BitVec 12) :
    (csrReg a = .other ∨ readOnlyCsr (csrReg a) = decide (0xC00 ≤ a.toNat)) ∧
    (isFp (csrReg a) = true → a.toNat / 256 % 4 = 0 ∧ a.toNat < 0xC00) ∧
    (csrReg a = .satp → a.toNat = 0x180) ∧ (csrReg a = .stval → a.toNat = 0x143) ∧
    (csrReg a = .hgatp → a.toNat = 0x680) ∧ (csrReg a = .vsatp → a.toNat = 0x280) ∧
    (virtualCsr (csrReg a) = csrReg a ∨ 0x100 ≤ a.toNat ∧ a.toNat ≤ 0x105 ∨
      0x140 ≤ a.toNat ∧ a.toNat ≤ 0x180) := by
  unfold csrReg
  split
  any_goals
    rename_i place
    simp only [place, readOnlyCsr, isFp, virtualCsr]
    decide
  unfold csrRange
  split_ifs <;> simp [readOnlyCsr, isFp, virtualCsr] <;> omega

/-- A guest's access to a supervisor register goes to its counterpart. -/
theorem csrReg_convert (a : BitVec 12) :
    csrReg (convertVsAccessCsr a true) = virtualCsr (csrReg a) := by
  have low : ∀ k : Fin 6, csrReg (convertVsAccessCsr (BitVec.ofNat 12 (0x100 + k)) true) =
      virtualCsr (csrReg (BitVec.ofNat 12 (0x100 + k))) := by decide
  have high : ∀ k : Fin 65, csrReg (convertVsAccessCsr (BitVec.ofNat 12 (0x140 + k)) true) =
      virtualCsr (csrReg (BitVec.ofNat 12 (0x140 + k))) := by decide
  have whole {k start : Nat} (place : a.toNat = start + k) :
      BitVec.ofNat 12 (start + k) = a := by rw [← place, BitVec.ofNat_toNat, BitVec.setWidth_eq]
  by_cases inLow : 0x100 ≤ a.toNat ∧ a.toNat ≤ 0x105
  · have at' := low ⟨a.toNat - 0x100, by omega⟩
    rwa [whole (by omega : a.toNat = 0x100 + (a.toNat - 0x100))] at at'
  · by_cases inHigh : 0x140 ≤ a.toNat ∧ a.toNat ≤ 0x180
    · have at' := high ⟨a.toNat - 0x140, by omega⟩
      rwa [whole (by omega : a.toNat = 0x140 + (a.toNat - 0x140))] at at'
    · obtain same | converted := (csrReg_place a).2.2.2.2.2.2
      · rw [same, convertVsAccessCsr, if_neg]
        rw [BitVec.le_def, BitVec.le_def, BitVec.le_def, BitVec.le_def]
        exact not_or.mpr ⟨inLow, inHigh⟩
      · exact absurd converted (not_or.mpr ⟨inLow, inHigh⟩)

/-! ## What an access raises -/

/-- The register file itself refuses the access. -/
def refused (s : Regs cfg) (i : Input cfg) : Bool :=
  !registerThere cfg i.csrAddr (selected s i) || hindered s (selected s i) ||
    (writesCsr i.csrOp && (readOnlyCsr (selected s i) || (selected s i == .stval && !cfg.tvalEn)))

/-- `vtvm` traps the access. -/
def vtvmTraps (s : Regs cfg) (i : Input cfg) : Bool :=
  selected s i == .vsatp && cfg.rvh && vsatpIntercepted s

/-- An access below its level neither reads nor writes. -/
theorem access_violating (s : Regs cfg) (i : Input cfg)
    (violating : privilegeViolation s i = true) :
    csrReadProcess s i = {} ∧ csrWrite s i = defaults s i.pins := by
  constructor
  · rw [csrReadProcess, csrRead, violating, Bool.not_true, Bool.and_false,
      if_neg Bool.false_ne_true]
  · rw [csrWrite, csrWe, violating, Bool.not_true, Bool.and_false, if_neg Bool.false_ne_true]

theorem access_permitted (s : Regs cfg) (i : Input cfg) (access : csrAccess i.csrOp = true)
    (permitted : privilegeViolation s i = false) :
    csrReadProcess s i = csrReadCase s i.pins i.csrAddr (selected s i) ∧
      csrWrite s i =
        if writesCsr i.csrOp then
          csrWriteCase s i.csrAddr (selected s i) (csrWdata s i) (defaults s i.pins)
        else defaults s i.pins := by
  constructor
  · rw [csrReadProcess, csrRead, access, permitted, Bool.not_false, Bool.and_true, if_pos rfl]
  · rw [csrWrite, csrWe, permitted, Bool.not_false, Bool.and_true]
    rfl

theorem raisesIllegal_eq (s : Regs cfg) (i : Input cfg) (access : csrAccess i.csrOp = true)
    (users : cfg.rvs = true → cfg.rvu = true) :
    raisesIllegal s i = (privilegeViolation s i || refused s i) := by
  cases violation : privilegeViolation s i with
  | true => rw [raisesIllegal, violation, Bool.or_true, Bool.true_or]
  | false =>
      obtain ⟨reads, writes⟩ := access_permitted s i access violation
      rw [raisesIllegal, violation, reads, writes, read_exception, refused, Bool.or_false,
        Bool.false_or]
      by_cases granted : registerThere cfg i.csrAddr (selected s i) = true ∧
          hindered s (selected s i) = false
      · obtain ⟨there, free⟩ := granted
        rw [there, free]
        cases writesCsr i.csrOp with
        | false => rfl
        | true =>
            rw [if_pos rfl, write_exception s _ _ _ _ users rfl there free]
            exact Bool.or_false _
      · have hinders : (!registerThere cfg i.csrAddr (selected s i) ||
            hindered s (selected s i)) = true := by
          cases there : registerThere cfg i.csrAddr (selected s i) with
          | false => rfl
          | true => exact (Bool.not_eq_false _).mp fun free => granted ⟨there, free⟩
        have refuses : (!(registerThere cfg i.csrAddr (selected s i) &&
            !hindered s (selected s i))) = true := by
          rw [Bool.not_and, Bool.not_not]
          exact hinders
        rw [refuses, hinders, Bool.or_true, Bool.true_or]

theorem raisesVirtual_eq (s : Regs cfg) (i : Input cfg) (access : csrAccess i.csrOp = true) :
    raisesVirtual s i = (cfg.rvh &&
      (virtualPrivilegeViolation s i || (!privilegeViolation s i && vtvmTraps s i))) := by
  rw [raisesVirtual]
  congr 1
  cases violation : privilegeViolation s i with
  | true =>
      obtain ⟨reads, writes⟩ := access_violating s i violation
      rw [reads, writes, Bool.not_true, Bool.false_and]
      exact Bool.or_comm false _
  | false =>
      obtain ⟨reads, writes⟩ := access_permitted s i access violation
      rw [reads, writes, read_virtual, Bool.not_false, Bool.true_and, Bool.or_comm, vtvmTraps]
      congr 1
      split
      · rw [write_virtual s _ _ _ _ rfl, Bool.or_self]
      · exact Bool.false_or _

theorem csrExceptionO_eq (s : Regs cfg) (i : Input cfg) (access : csrAccess i.csrOp = true)
    (users : cfg.rvs = true → cfg.rvu = true) :
    csrExceptionO s i =
      if cfg.rvh && (virtualPrivilegeViolation s i || (!privilegeViolation s i && vtvmTraps s i))
      then .virtualInstruction
      else if privilegeViolation s i || refused s i then .illegalInstr
      else .nothing := by
  rw [csrExceptionO, raisesIllegal_eq s i access users, raisesVirtual_eq s i access]

/-! ## The registers that are told apart -/

/-- What the address says about the register. -/
theorem register_facts (a : BitVec 12) :
    (isFp (csrReg a) = true → csrPriv a = 0 ∧ readOnlyAddr a = false ∧ debugAddr a = false) ∧
    (csrReg a = .satp → csrPriv a = 1 ∧ readOnlyAddr a = false ∧ debugAddr a = false) ∧
    (csrReg a = .stval → csrPriv a = 1 ∧ readOnlyAddr a = false ∧ debugAddr a = false) ∧
    (csrReg a = .hgatp → csrPriv a = 2 ∧ readOnlyAddr a = false ∧ debugAddr a = false) ∧
    (csrReg a = .vsatp → csrPriv a = 2 ∧ readOnlyAddr a = false ∧ debugAddr a = false) ∧
    (counterRegister a = true → csrPriv a = 0 ∧ readOnlyAddr a = true ∧ debugAddr a = false) ∧
    (debugAddr a = true → csrPriv a = 3) := by
  have level (k : Nat) (small : k < 4) : csrPriv a = BitVec.ofNat 2 k ↔ a.toNat / 256 % 4 = k := by
    rw [← beq_iff_eq, csrPriv_beq a k small, decide_eq_true_iff]
  obtain ⟨-, fp, satp, stval, hgatp, vsatp, -⟩ := csrReg_place a
  have zero : csrPriv a = 0 ↔ _ := level 0 (by decide)
  have one : csrPriv a = 1 ↔ _ := level 1 (by decide)
  have two : csrPriv a = 2 ↔ _ := level 2 (by decide)
  have three : csrPriv a = 3 ↔ _ := level 3 (by decide)
  rw [zero, one, two, three, readOnlyAddr_eq, debugAddr_eq, counterRegister_eq]
  simp only [decide_eq_true_iff, decide_eq_false_iff_not]
  refine ⟨fun is => ?_, fun is => ?_, fun is => ?_, fun is => ?_, fun is => ?_, ?_, ?_⟩
  · have := fp is
    omega
  · have := satp is
    omega
  · have := stval is
    omega
  · have := hgatp is
    omega
  · have := vsatp is
    omega
  · omega
  · omega

/-- A counter is none of the registers that are looked at apart. -/
theorem counter_facts (a : BitVec 12) (counts : counterRegister a = true) :
    csrPriv a = 0 ∧ debugAddr a = false ∧ isFp (csrReg a) = false ∧
      ∀ csr ∈ [Csr.satp, .stval, .hgatp, .vsatp], (csrReg a == csr) = false := by
  obtain ⟨fp, satp, stval, hgatp, vsatp, counter, -⟩ := register_facts a
  obtain ⟨zero, readOnly, notDebug⟩ := counter counts
  have apart {P : Prop} (writable : P → readOnlyAddr a = false) : ¬P :=
    fun holds => Bool.noConfusion (readOnly.symm.trans (writable holds))
  refine ⟨zero, notDebug, Bool.not_eq_true _ ▸ apart fun is => (fp is).2.1, fun csr mem => ?_⟩
  rw [beq_eq_false_iff_ne]
  simp only [List.mem_cons, List.not_mem_nil, or_false] at mem
  rcases mem with rfl | rfl | rfl | rfl
  · exact apart fun is => (satp is).2.1
  · exact apart fun is => (stval is).2.1
  · exact apart fun is => (hgatp is).2.1
  · exact apart fun is => (vsatp is).2.1

/-- A floating-point register is there with the unit, and any level reaches it. -/
theorem float_facts (cfg : CsrCfg) (a : BitVec 12) (isFloat : isFp (csrReg a) = true) :
    csrPriv a = 0 ∧ readOnlyAddr a = false ∧ debugAddr a = false ∧
      registerThere cfg a (csrReg a) = cfg.fpPresent ∧
      ∀ csr, isFp csr = false → (csrReg a == csr) = false := by
  obtain ⟨zero, readOnly, notDebug⟩ := (register_facts a).1 isFloat
  refine ⟨zero, readOnly, notDebug, ?_, fun csr plain => ?_⟩
  · cases reg : csrReg a <;> rw [reg] at isFloat <;> first | rfl | exact Bool.noConfusion isFloat
  · rw [beq_eq_false_iff_ne]
    rintro rfl
    exact Bool.noConfusion (isFloat.symm.trans plain)

theorem virtualCsr_facts (csr : Csr) :
    readOnlyCsr (virtualCsr csr) = readOnlyCsr csr ∧ isFp (virtualCsr csr) = isFp csr ∧
    (virtualCsr csr == .hgatp) = (csr == .hgatp) ∧ (virtualCsr csr == .satp) = false ∧
    (virtualCsr csr == .stval) = false ∧
    (virtualCsr csr == .vsatp) = (csr == .vsatp || csr == .satp) := by
  cases csr <;> decide

theorem hindered_eq (s : Regs cfg) (csr : Csr) :
    hindered s csr = ((isFp csr && !fpAccess s) || (csr == .satp && satpIntercepted s) ||
      (csr == .hgatp && hgatpIntercepted s)) := by
  unfold hindered
  generalize fpAccess s = granted, satpIntercepted s = host, hgatpIntercepted s = guest
  revert granted host guest
  cases csr <;> decide

theorem selected_facts (s : Regs cfg) (i : Input cfg)
    (hypervisor : cfg.rvh = true → cfg.rvs = true) :
    registerThere cfg i.csrAddr (selected s i) = registerThere cfg i.csrAddr (csrReg i.csrAddr) ∧
    readOnlyCsr (selected s i) = readOnlyCsr (csrReg i.csrAddr) ∧
    isFp (selected s i) = isFp (csrReg i.csrAddr) ∧
    ((selected s i == .hgatp) = (csrReg i.csrAddr == .hgatp)) ∧
    ((selected s i == .satp) = (!(cfg.rvh && s.v) && csrReg i.csrAddr == .satp)) ∧
    ((selected s i == .stval) = (!(cfg.rvh && s.v) && csrReg i.csrAddr == .stval)) ∧
    ((selected s i == .vsatp) = (csrReg i.csrAddr == .vsatp ||
      (cfg.rvh && s.v && csrReg i.csrAddr == .satp))) := by
  unfold selected convCsrAddr
  cases rvh : cfg.rvh with
  | false => simp
  | true =>
      rw [if_pos rfl]
      cases s.v with
      | false =>
          have same : convertVsAccessCsr i.csrAddr false = i.csrAddr := by
            unfold convertVsAccessCsr
            split <;> rfl
          simp [same]
      | true =>
          have supervisor := hypervisor rvh
          obtain ⟨readOnly, fp, hgatp, satp, stval, vsatp⟩ := virtualCsr_facts (csrReg i.csrAddr)
          have there : registerThere cfg i.csrAddr (virtualCsr (csrReg i.csrAddr)) =
              registerThere cfg i.csrAddr (csrReg i.csrAddr) := by
            cases csrReg i.csrAddr <;> first | rfl | exact rvh.trans supervisor.symm
          rw [csrReg_convert]
          exact ⟨there, readOnly, fp, hgatp, satp, stval, vsatp⟩

theorem refused_eq (s : Regs cfg) (i : Input cfg) (hypervisor : cfg.rvh = true → cfg.rvs = true) :
    refused s i = (!meaningful cfg i || (isFp (csrReg i.csrAddr) && !fpAccess s) ||
      (!(cfg.rvh && s.v) && csrReg i.csrAddr == .satp && satpIntercepted s) ||
      (csrReg i.csrAddr == .hgatp && hgatpIntercepted s) ||
      (writesCsr i.csrOp && !(cfg.rvh && s.v) && csrReg i.csrAddr == .stval && !cfg.tvalEn)) := by
  obtain ⟨there, readOnly, fp, hgatp, satp, stval, -⟩ := selected_facts s i hypervisor
  rw [refused, hindered_eq, there, readOnly, fp, hgatp, satp, stval, meaningful]
  obtain absent | address := (csrReg_place i.csrAddr).1
  · rw [absent]
    simp [registerThere]
  · rw [address, readOnlyAddr_eq]
    cases registerThere cfg i.csrAddr (csrReg i.csrAddr) <;> cases writesCsr i.csrOp <;>
      cases decide (0xC00 ≤ i.csrAddr.toNat) <;> simp [Bool.and_assoc]

end Cva6.CsrRegfile
