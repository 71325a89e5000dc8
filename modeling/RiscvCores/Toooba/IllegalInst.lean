import Mathlib.Tactic.IntervalCases
import RiscvCores.Lib.BitField
import RiscvCores.Toooba.Decode

/-!
# Illegal instructions at rename

`getTrap` with `checkForException`, and what the privileged specification asks.  The
enables of the counters are collected for the decoder, but nothing reads them.
-/

set_option autoImplicit false

namespace Toooba.Decode

open Toooba.CsrFile

/-! ## The code -/

/-- The fields of `FromFetchStage` that the check reads. -/
structure FromFetchStage where
  inst : Instruction
  dInst : DecodedInst
  regs : ArchRegs
  cause : Option Exception

/-- What `doDecode` hands on, without an earlier exception. -/
def fromFetchStage (b : Build) (inst : Instruction) : FromFetchStage where
  inst := inst
  dInst := (decode b inst).dInst
  regs := (decode b inst).regs
  cause := if (decode b inst).illegalInst then some .illegalInst else none

/-- The register or the immediate of a CSR instruction is not 0, or it is `CSRRW`. -/
def writesCsr (dInst : DecodedInst) (regs : ArchRegs) : Bool :=
  let rs1 : BitVec 5 := match regs.src2 with
    | some (.gpr r) => r
    | _ => 0
  decide (dInst.execFunc = .alu .csrw) || rs1 != 0 || dInst.imm.getD 0 != 0

def checkForException (dInst : DecodedInst) (regs : ArchRegs) (csrState : CsrDecodeInfo) :
    Option Exception :=
  let prv := csrState.prv
  match dInst.iType with
  | .ecall =>
      some (if prv = prvU then .envCallU
        else if prv = prvS then .envCallS
        else if prv = prvM then .envCallM
        else .illegalInst)
  | .ebreak => some .breakpoint
  | .mret => if prv < prvM then some .illegalInst else none
  | .sret =>
      if prv < prvS then some .illegalInst
      else if prv = prvS ∧ csrState.trapSret then some .illegalInst
      else none
  | .sfence => if prv = prvS ∧ csrState.trapVM then some .illegalInst else none
  | .csr =>
      let csr := (dInst.csr.getD .none).pack
      let csrHasPriv := decide (prv ≥ csr.extractLsb' 8 2)
      let exception :=
        if !csrHasPriv then some .illegalInst
        else if prv = prvS ∧ csrState.trapVM ∧ dInst.csr.getD .none = .satp then some .illegalInst
        else none
      let readOnly := csr.extractLsb' 10 2 == 0b11
      let writeDeny := writesCsr dInst regs && readOnly
      let unimplemented := csr == CSR.none.pack
      if writeDeny || !csrHasPriv || unimplemented then some .illegalInst else exception
  | .fpu =>
      match dInst.execFunc with
      | .fpu fpuF =>
          let rm := if fpuF.rm = rDyn then csrState.frm else fpuF.rm
          if rm = rne ∨ rm = rtz ∨ rm = rdn ∨ rm = rup ∨ rm = rmm then none
          else some .illegalInst
      | _ => some .illegalInst
  | _ => none

def archRegIsFpuReg : Option ArchRIndx → Bool
  | some (.fpu _) => true
  | _ => false

def fprAccess (regs : ArchRegs) : Bool :=
  archRegIsFpuReg regs.src1 || archRegIsFpuReg regs.src2 || regs.src3.isSome ||
    archRegIsFpuReg regs.dst

def csrAccessTrap (prv : BitVec 2) (x : FromFetchStage) : Bool :=
  if x.dInst.iType = .csr then
    let csrAddr : BitVec 12 := x.dInst.csr.elim 0xCFF CSR.pack
    let readOnly := csrAddr.extractLsb' 10 2 == 0b11
    let writeDeny := writesCsr x.dInst x.regs && readOnly
    let privDeny := decide (prv < csrAddr.extractLsb' 8 2)
    let unimplemented := csrAddr == 0x8FF
    writeDeny || privDeny || unimplemented
  else false

def instWFI : Instruction := 0x10500073

/-- `haltReq` is `rg_m_halt_req`, which exists with `INCLUDE_GDB_CONTROL`. -/
def getTrap (b : Build) (r : Regs) (haltReq : Option Interrupt) (x : FromFetchStage) :
    Option Trap :=
  let newException := checkForException x.dInst x.regs (decodeInfo b r)
  let mstatus := CsrFile.rd b r .mstatus
  let fsTrap := mstatus.extractLsb' 13 2 == 0 && fprAccess x.regs
  let wfiTrap := x.inst == instWFI && mstatus.getLsbD 21 && decide (r.prvReg < prvM)
  match haltReq, x.cause, pendingInterrupt r.toState b.toConfig, newException with
  | some cause, _, _, _ => some (.interrupt cause)
  | none, some cause, _, _ => some (.exception cause)
  | none, none, some interrupt, _ => some (.interrupt interrupt)
  | none, none, none, some exception => some (.exception exception)
  | none, none, none, none =>
      if fsTrap || csrAccessTrap r.prvReg x || wfiTrap then some (.exception .illegalInst)
      else none

/-! ## The specification -/

section Specification

variable (b : Build) (r : Regs) (inst : Instruction)

/-- The reserved code 100 counts as an immediate form. -/
def IsCsr : Prop := opcode inst = .system ∧ funct3 inst ≠ 0

def IsPriv : Prop := opcode inst = .system ∧ funct3 inst = 0

/-- Instructions with a rounding mode; those of `OP-FP` without one have a function code in
its place that names a mode. -/
def HasRm : Prop :=
  opcode inst = .opFp ∨ opcode inst = .fmadd ∨ opcode inst = .fmsub ∨ opcode inst = .fnmsub ∨
    opcode inst = .fnmadd

def IsFp : Prop := opcode inst = .loadFp ∨ opcode inst = .storeFp ∨ HasRm inst

/-- `CSRRW` always writes, the others unless the register is x0 or the immediate 0. -/
def Writes : Prop := (funct3 inst).extractLsb' 0 2 = 0b01 ∨ rs1 inst ≠ 0

/-- A counter that the level may not read. -/
structure CounterOff (index : BitVec 12) : Prop where
  first : 0xC00 ≤ index
  last : index ≤ 0xC1F
  off : r.prvReg ≠ prvM ∧ (counterenCsr r.mcounteren).getLsbD (index - 0xC00).toNat = false ∨
    r.prvReg = prvU ∧ (counterenCsr r.scounteren).getLsbD (index - 0xC00).toNat = false

inductive CsrIllegal : Prop
  | absent (absent : unpackCSR b.toConfig (csrField inst) = .none)
  | level (above : r.prvReg < (csrField inst).extractLsb' 8 2)
  | readOnly (writes : Writes inst) (readOnly : (csrField inst).extractLsb' 10 2 = 0b11)
  | counter (off : CounterOff r (csrField inst))
  | debugOnly (first : 0x7B0 ≤ csrField inst) (last : csrField inst ≤ 0x7BF)
  | satp (satp : csrField inst = 0x180) (supervisor : r.prvReg = prvS) (tvm : r.tvm = true)
  | fpOff (fp : csrField inst = 1 ∨ csrField inst = 2 ∨ csrField inst = 3)
      (off : fsReg b r = 0)

inductive PrivIllegal : Prop
  | sfence (sfence : funct7 inst = 0x9)
      (denied : r.prvReg = prvU ∨ r.prvReg = prvS ∧ r.tvm = true)
  | sret (sret : csrField inst = 0x102)
      (denied : r.prvReg = prvU ∨ r.prvReg = prvS ∧ r.tsr = true)
  | mret (mret : csrField inst = 0x302) (denied : r.prvReg ≠ prvM)
  | wfi (wfi : inst = instWFI) (tw : r.tw = true) (denied : r.prvReg ≠ prvM)

/-- A dynamic mode is that of `frm`. -/
def effectiveRm : RVRoundMode := if funct3 inst = 0b111 then r.frm else funct3 inst

inductive FpIllegal : Prop
  | off (off : fsReg b r = 0)
  | reserved (hasRm : HasRm inst)
      (reserved : effectiveRm r inst = 0b101 ∨ effectiveRm r inst = 0b110 ∨
        effectiveRm r inst = 0b111)

/-- The instruction has to raise an illegal-instruction exception. -/
inductive Illegal : Prop
  | csr (is_csr : IsCsr inst) (why : CsrIllegal b r inst)
  | priv (is_priv : IsPriv inst) (why : PrivIllegal r inst)
  | fp (is_fp : IsFp inst) (why : FpIllegal b r inst)

/-- The cause of an environment call. -/
def envCall : Exception :=
  if r.prvReg = prvU then .envCallU else if r.prvReg = prvS then .envCallS else .envCallM

/-- The verdict on an instruction is that of the specification. -/
structure Conforms : Prop where
  illegal : getTrap b r none (fromFetchStage b inst) = some (.exception .illegalInst) ↔
    Illegal b r inst
  ecall : IsPriv inst → csrField inst = 0 →
    getTrap b r none (fromFetchStage b inst) = some (.exception (envCall r))

end Specification

/-! ## CSR indices -/

section Quiet

variable {b : Build} {r : Regs} {inst : Instruction}

/-- What is left to check without an earlier exception or an interrupt. -/
structure Quiet (b : Build) (r : Regs) (inst : Instruction) : Prop where
  decoded : (decode b inst).illegalInst = false
  noInterrupt : pendingInterrupt r.toState b.toConfig = none

/-- Neither a rule of its own nor a floating-point register. -/
structure Plain (result : DecodeResult) : Prop where
  check : ∀ info, checkForException result.dInst result.regs info = none
  notCsr : result.dInst.iType ≠ .csr
  noFpr : fprAccess result.regs = false

end Quiet

/-! ## The verdict -/

section Verdict

variable {b : Build} {r : Regs} {inst : Instruction}

end Verdict

end Toooba.Decode
