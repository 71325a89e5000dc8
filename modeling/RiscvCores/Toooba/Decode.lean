import RiscvCores.Toooba.Amo
import RiscvCores.Toooba.CsrRegs

/-!
# `decode`

One decoder for each opcode.  Where a `case` of the source has no alternative for a
function code, the function is undefined; `add` and `single` stand for any.
-/

set_option autoImplicit false

namespace Toooba.Decode

open Toooba.Amo (AmoFunc)
open Toooba.CsrFile

abbrev Instruction : Type := BitVec 32

/-! ## Decoded instructions -/

inductive Opcode
  | invalid
  | load | loadFp | miscMem | opImm | auipc | opImm32 | store | storeFp | amo | op | lui | op32
  | fmadd | fmsub | fnmsub | fnmadd | opFp | branch | jalr | jal | system
  deriving DecidableEq

def unpackOpcode (x : BitVec 7) : Opcode :=
  match x with
  | 0b0000011 => .load
  | 0b0000111 => .loadFp
  | 0b0001111 => .miscMem
  | 0b0010011 => .opImm
  | 0b0010111 => .auipc
  | 0b0011011 => .opImm32
  | 0b0100011 => .store
  | 0b0100111 => .storeFp
  | 0b0101111 => .amo
  | 0b0110011 => .op
  | 0b0110111 => .lui
  | 0b0111011 => .op32
  | 0b1000011 => .fmadd
  | 0b1000111 => .fmsub
  | 0b1001011 => .fnmsub
  | 0b1001111 => .fnmadd
  | 0b1010011 => .opFp
  | 0b1100011 => .branch
  | 0b1100111 => .jalr
  | 0b1101111 => .jal
  | 0b1110011 => .system
  | _ => .invalid

inductive IType
  | unsupported | nop | amo | alu | ld | st | lr | sc | j | jr | br | auipc | fpu | csr
  | fence | fenceI | sfence | ecall | ebreak | sret | mret | interrupt
  deriving DecidableEq

inductive BrFunc
  | eq | neq | lt | ltu | ge | geu | at | nt
  deriving DecidableEq

inductive AluFunc
  | add | addw | sub | subw | and | or | xor | slt | sltu | sll | sllw | sra | sraw | srl | srlw
  | csrw | csrs | csrc
  deriving DecidableEq

inductive MulDivFunc
  | mul | mulh | div | rem
  deriving DecidableEq

inductive MulDivSign
  | signed | unsigned | signedUnsigned
  deriving DecidableEq

structure MulDivInst where
  func : MulDivFunc
  w : Bool
  sign : MulDivSign
  deriving DecidableEq

inductive FpuFunc
  | fAdd | fSub | fMul | fDiv | fSqrt | fSgnj | fSgnjn | fSgnjx | fMin | fMax | fCvtFF
  | fCvtWF | fCvtWUF | fCvtLF | fCvtLUF | fCvtFW | fCvtFWU | fCvtFL | fCvtFLU
  | fEq | fLt | fLe | fClass | fMvXF | fMvFX | fMAdd | fMSub | fNMSub | fNMAdd
  deriving DecidableEq

inductive FpuPrecision
  | single | double
  deriving DecidableEq

/-- The bits of an `RVRoundMode`; some name no mode. -/
abbrev RVRoundMode : Type := BitVec 3

def rne : RVRoundMode := 0b000
def rtz : RVRoundMode := 0b001
def rdn : RVRoundMode := 0b010
def rup : RVRoundMode := 0b011
def rmm : RVRoundMode := 0b100
def rDyn : RVRoundMode := 0b111

structure FpuInst where
  func : FpuFunc
  rm : RVRoundMode
  precision : FpuPrecision
  deriving DecidableEq

inductive MemFunc
  | ld | st | lr | sc | amo | fence
  deriving DecidableEq

structure MemInst where
  memFunc : MemFunc
  amoFunc : AmoFunc
  unsignedLd : Bool
  byteEn : BitVec 8
  aq : Bool
  rl : Bool
  deriving DecidableEq

inductive ExecFunc
  | alu (func : AluFunc)
  | br (func : BrFunc)
  | mem (inst : MemInst)
  | mulDiv (inst : MulDivInst)
  | fpu (inst : FpuInst)
  | other
  deriving DecidableEq

inductive ArchRIndx
  | gpr (r : BitVec 5)
  | fpu (r : BitVec 5)
  deriving DecidableEq

structure ArchRegs where
  src1 : Option ArchRIndx := none
  src2 : Option ArchRIndx := none
  src3 : Option (BitVec 5) := none
  dst : Option ArchRIndx := none
  deriving DecidableEq

structure DecodedInst where
  iType : IType := .unsupported
  execFunc : ExecFunc := .other
  csr : Option CSR := none
  imm : Option (BitVec 32) := none

structure DecodeResult where
  dInst : DecodedInst := {}
  regs : ArchRegs := {}
  illegalInst : Bool := false

/-! ## Fields -/

section Fields

variable (inst : Instruction)

def opcode : Opcode := unpackOpcode (inst.extractLsb' 0 7)
def rd : BitVec 5 := inst.extractLsb' 7 5
def funct3 : BitVec 3 := inst.extractLsb' 12 3
def rs1 : BitVec 5 := inst.extractLsb' 15 5
def rs2 : BitVec 5 := inst.extractLsb' 20 5
def rs3 : BitVec 5 := inst.extractLsb' 27 5
def funct5 : BitVec 5 := inst.extractLsb' 27 5
def funct7 : BitVec 7 := inst.extractLsb' 25 7
def fmt : BitVec 2 := inst.extractLsb' 25 2

/-- The last twelve bits of `immI`. -/
def csrField : BitVec 12 := inst.extractLsb' 20 12

def immI : BitVec 32 := (inst.extractLsb' 20 12).signExtend 32

def immS : BitVec 32 := (inst.extractLsb' 25 7 ++ inst.extractLsb' 7 5).signExtend 32

def immB : BitVec 32 :=
  (inst.extractLsb' 31 1 ++ inst.extractLsb' 7 1 ++ inst.extractLsb' 25 6 ++
    inst.extractLsb' 8 4 ++ 0#1).signExtend 32

def immU : BitVec 32 := inst.extractLsb' 12 20 ++ 0#12

def immJ : BitVec 32 :=
  (inst.extractLsb' 31 1 ++ inst.extractLsb' 12 8 ++ inst.extractLsb' 20 1 ++
    inst.extractLsb' 21 10 ++ 0#1).signExtend 32

/-- `Valid (tagged Gpr rd)`, `Valid (tagged Fpu rd)` and so on. -/
def gprD : Option ArchRIndx := some (.gpr (rd inst))
def gpr1 : Option ArchRIndx := some (.gpr (rs1 inst))
def gpr2 : Option ArchRIndx := some (.gpr (rs2 inst))
def fpuD : Option ArchRIndx := some (.fpu (rd inst))
def fpu1 : Option ArchRIndx := some (.fpu (rs1 inst))
def fpu2 : Option ArchRIndx := some (.fpu (rs2 inst))

end Fields

def fmtS : BitVec 2 := 0b00
def fmtD : BitVec 2 := 0b01

/-! ## CSRs -/

/-- The indices of the CSRs that have no name in `CSR`. -/
def namelessCsrs : List (BitVec 12) :=
  [0x001, 0x002, 0x003, 0xC00, 0xC01, 0xC02, 0x800, 0x801, 0x106, 0x320, 0x140, 0x301, 0x306,
    0x340, 0xB00, 0xB02, 0xF11, 0xF12, 0xF13, 0xF14, 0x7A0, 0x7A1, 0x7A2, 0x7A3]

/-- `hpmcounter3` to `mhpmevent31`. -/
def isHpmCsr (x : BitVec 12) : Bool :=
  decide (0xC03 ≤ x ∧ x ≤ 0xC1F) || decide (0xB03 ≤ x ∧ x ≤ 0xB1F) ||
    decide (0x323 ≤ x ∧ x ≤ 0x33F)

/-- The CSRs with `INCLUDE_GDB_CONTROL`. -/
def isDebugCsr (x : BitVec 12) : Bool := decide (0x7B0 ≤ x ∧ x ≤ 0x7B3)

/-- The CSRs with a name in `CSR`, but `dcsr`. -/
def namedCsrs : List CSR :=
  [.sstatus, .sie, .stvec, .sepc, .scause, .stval, .sip, .satp, .mstatus, .medeleg, .mideleg, .mie,
    .mtvec, .mepc, .mcause, .mtval, .mip]

def unpackCSR (cfg : Config) (x : BitVec 12) : CSR :=
  match namedCsrs.find? fun csr => csr.pack == x with
  | some csr => csr
  | none =>
      if isDebugCsr x && cfg.gdbControl then
        if x = 0x7B0 then .dcsr else .other x
      else if x ∈ namelessCsrs || isHpmCsr x then .other x
      else .none

/-! ## Decoders -/

section Decoders

variable (b : Build) (inst : Instruction)

def byteEnOf (bytes : Nat) : BitVec 8 := (BitVec.allOnes bytes).setWidth 8

def decodeMemInst : Option MemInst :=
  let amoFunc : Option AmoFunc := match funct5 inst with
    | 0b00001 => some .swap
    | 0b00000 => some .add
    | 0b00100 => some .xor
    | 0b01100 => some .and
    | 0b01000 => some .or
    | 0b10000 => some .min
    | 0b10100 => some .max
    | 0b11000 => some .minu
    | 0b11100 => some .maxu
    | _ => none
  let memFunc : Option MemFunc := match opcode inst with
    | .load | .loadFp => some .ld
    | .store | .storeFp => some .st
    | .amo =>
        if funct5 inst = 0b00010 then some .lr
        else if funct5 inst = 0b00011 then some .sc
        else amoFunc.map fun _ => .amo
    | _ => none
  let isAmo := opcode inst = .amo
  -- signedness and bytes
  let width : Option (Bool × BitVec 8) := match funct3 inst with
    | 0b000 => some (false, byteEnOf 1)
    | 0b001 => some (false, byteEnOf 2)
    | 0b010 => some (false, byteEnOf 4)
    | 0b011 => some (false, byteEnOf 8)
    | 0b100 => some (true, byteEnOf 1)
    | 0b101 => some (true, byteEnOf 2)
    | 0b110 => some (true, byteEnOf 4)
    | _ => none
  match memFunc, width with
  | some memFunc, some (unsignedLd, byteEn) => some
      { memFunc, byteEn
        amoFunc := if isAmo then amoFunc.getD .none else .none
        unsignedLd := unsignedLd || opcode inst = .loadFp
        aq := decide isAmo && inst.getLsbD 26
        rl := decide isAmo && inst.getLsbD 25 }
  | _, _ => none

/-- A memory instruction, illegal if `decodeMemInst` finds none. -/
def decodeMem (iType : IType) (imm : BitVec 32) (regs : ArchRegs) : DecodeResult where
  dInst :=
    { iType := iType
      execFunc := (decodeMemInst inst).elim .other .mem
      imm := some imm }
  regs := regs
  illegalInst := (decodeMemInst inst).isNone

def aluFunc : AluFunc :=
  match funct3 inst with
  | 0b000 => .add
  | 0b010 => .slt
  | 0b011 => .sltu
  | 0b111 => .and
  | 0b110 => .or
  | 0b100 => .xor
  | 0b001 => .sll
  | _ => .srl

def aluFunc32 : AluFunc :=
  match funct3 inst with
  | 0b000 => .addw
  | 0b001 => .sllw
  | 0b101 => .srlw
  | _ => .add

def decodeOpImm : DecodeResult where
  dInst :=
    { iType := .alu
      execFunc := .alu (if funct3 inst = 0b101 ∧ (immI inst).getLsbD 10 then .sra else aluFunc inst)
      imm := some (immI inst) }
  regs := { dst := gprD inst, src1 := gpr1 inst }

def decodeOpImm32 : DecodeResult where
  dInst :=
    { iType := .alu
      execFunc :=
        .alu (if funct3 inst = 0b101 ∧ (immI inst).getLsbD 10 then .sraw else aluFunc32 inst)
      imm := some (immI inst) }
  regs := { dst := gprD inst, src1 := gpr1 inst }

def mulDiv (w : Bool) : MulDivInst :=
  let (func, sign) : MulDivFunc × MulDivSign := match funct3 inst with
    | 0b000 => (.mul, .signed)
    | 0b001 => (.mulh, .signed)
    | 0b010 => (.mulh, .signedUnsigned)
    | 0b011 => (.mulh, .unsigned)
    | 0b100 => (.div, .signed)
    | 0b101 => (.div, .unsigned)
    | 0b110 => (.rem, .signed)
    | _ => (.rem, .unsigned)
  { func, w, sign }

/-- `Op` and `Op32`: the two tables of functions and the multiplier. -/
def decodeRegReg (w : Bool) (alu1 alu2 : AluFunc) : DecodeResult :=
  let result (execFunc : ExecFunc) (illegalInst : Bool) : DecodeResult :=
    { dInst := { iType := .alu, execFunc }
      regs := { dst := gprD inst, src1 := gpr1 inst, src2 := gpr2 inst }
      illegalInst }
  match funct7 inst with
  | 0b0000000 => result (.alu alu1) false
  | 0b0100000 => result (.alu alu2) false
  | 0b0000001 => if b.isa.m then result (.mulDiv (mulDiv inst w)) false else result .other true
  | _ => result .other false

def decodeOp : DecodeResult :=
  decodeRegReg b inst false (aluFunc inst)
    (match funct3 inst with
    | 0b000 => .sub
    | 0b101 => .sra
    | _ => .add)

def decodeOp32 : DecodeResult :=
  decodeRegReg b inst true (aluFunc32 inst)
    (match funct3 inst with
    | 0b000 => .subw
    | 0b101 => .sraw
    | _ => .add)

/-- Treated as an addition of `immU` to x0. -/
def decodeLui : DecodeResult where
  dInst := { iType := .alu, execFunc := .alu .add, imm := some (immU inst) }
  regs := { dst := gprD inst, src1 := some (.gpr 0) }

def decodeAuipc : DecodeResult where
  dInst := { iType := .auipc, execFunc := .alu .add, imm := some (immU inst) }
  regs := { dst := gprD inst }

def decodeJal : DecodeResult where
  dInst := { iType := .j, execFunc := .br .at, imm := some (immJ inst) }
  regs := { dst := gprD inst }

def decodeJalr : DecodeResult where
  dInst := { iType := .jr, execFunc := .br .at, imm := some (immI inst) }
  regs := { dst := gprD inst, src1 := gpr1 inst }
  illegalInst := funct3 inst != 0

def decodeBranch : DecodeResult :=
  let (illegalInst, func) : Bool × BrFunc := match funct3 inst with
    | 0b000 => (false, .eq)
    | 0b001 => (false, .neq)
    | 0b100 => (false, .lt)
    | 0b110 => (false, .ltu)
    | 0b101 => (false, .ge)
    | 0b111 => (false, .geu)
    | _ => (true, .eq)
  { dInst := { iType := .br, execFunc := .br func, imm := some (immB inst) }
    regs := { src1 := gpr1 inst, src2 := gpr2 inst }
    illegalInst }

def decodeAmo : DecodeResult :=
  if !b.isa.a then { illegalInst := true }
  else if funct5 inst = 0b00010 then
    decodeMem inst .lr 0 { dst := gprD inst, src1 := gpr1 inst }
  else if funct5 inst = 0b00011 then
    decodeMem inst .sc 0 { dst := gprD inst, src1 := gpr1 inst, src2 := gpr2 inst }
  else decodeMem inst .amo 0 { dst := gprD inst, src1 := gpr1 inst, src2 := gpr2 inst }

/-- The precision is not one of the two, or not built. -/
def unsupportedFmt : Bool :=
  fmt inst == fmtS && !b.isa.f || fmt inst == fmtD && !b.isa.d ||
    fmt inst != fmtS && fmt inst != fmtD

def precision : FpuPrecision := if fmt inst = fmtS then .single else .double

def fpuFunc : FpuFunc :=
  match funct5 inst with
  | 0b00000 => .fAdd
  | 0b00001 => .fSub
  | 0b00010 => .fMul
  | 0b00011 => .fDiv
  | 0b01011 => .fSqrt
  | 0b00100 => if funct3 inst = 0 then .fSgnj else if funct3 inst = 1 then .fSgnjn else .fSgnjx
  | 0b00101 => if funct3 inst = 0 then .fMin else .fMax
  | 0b10100 => if funct3 inst = 0 then .fLe else if funct3 inst = 1 then .fLt else .fEq
  | 0b11100 => if funct3 inst = 0 then .fMvXF else .fClass
  | 0b11110 => .fMvFX
  | 0b01000 => .fCvtFF
  | 0b11000 =>
      if rs2 inst = 0 then .fCvtWF else if rs2 inst = 1 then .fCvtWUF
      else if rs2 inst = 2 then .fCvtLF else .fCvtLUF
  | 0b11010 =>
      if rs2 inst = 0 then .fCvtFW else if rs2 inst = 1 then .fCvtFWU
      else if rs2 inst = 2 then .fCvtFL else .fCvtFLU
  | _ => .fAdd

def fpuRegs : ArchRegs :=
  match funct5 inst with
  | 0b01011 => { dst := fpuD inst, src1 := fpu1 inst }
  | 0b10100 => { dst := gprD inst, src1 := fpu1 inst, src2 := fpu2 inst }
  | 0b11100 => { dst := gprD inst, src1 := fpu1 inst }
  | 0b11110 => { dst := fpuD inst, src1 := gpr1 inst }
  | 0b01000 => { dst := fpuD inst, src1 := fpu1 inst }
  | 0b11000 => { dst := gprD inst, src1 := fpu1 inst }
  | 0b11010 => { dst := fpuD inst, src1 := gpr1 inst }
  | _ => { dst := fpuD inst, src1 := fpu1 inst, src2 := fpu2 inst }

def fpuInst (func : FpuFunc) : FpuInst where
  func := func
  rm := funct3 inst
  precision := precision inst

def decodeOpFp : DecodeResult :=
  if unsupportedFmt b inst then { illegalInst := true }
  else
    { dInst := { iType := .fpu, execFunc := .fpu (fpuInst inst (fpuFunc inst)) }
      regs := fpuRegs inst }

def decodeFma (func : FpuFunc) : DecodeResult :=
  if unsupportedFmt b inst then { illegalInst := true }
  else
    { dInst := { iType := .fpu, execFunc := .fpu (fpuInst inst func) }
      regs :=
        { dst := fpuD inst, src1 := fpu1 inst, src2 := fpu2 inst, src3 := some (rs3 inst) } }

def decodeLoadFp : DecodeResult :=
  if b.isa.hasFpu then decodeMem inst .ld (immI inst) { dst := fpuD inst, src1 := gpr1 inst }
  else { illegalInst := true }

def decodeStoreFp : DecodeResult :=
  if b.isa.hasFpu then decodeMem inst .st (immS inst) { src1 := gpr1 inst, src2 := fpu2 inst }
  else { illegalInst := true }

/-- A fence of `WMM`: older stores commit, younger loads reconcile. -/
def decodeMiscMem : DecodeResult :=
  match funct3 inst with
  | 0b001 => { dInst := { iType := .fenceI } }
  | 0b000 =>
      let commit := inst.getLsbD 26 || inst.getLsbD 24
      let reconcile := inst.getLsbD 23 || inst.getLsbD 21
      if reconcile || commit then
        { dInst :=
            { iType := .fence
              execFunc := .mem
                { memFunc := .fence
                  amoFunc := .none
                  unsignedLd := false
                  byteEn := 0
                  aq := reconcile
                  rl := commit } } }
      else { dInst := { iType := .nop } }
  | _ => { illegalInst := true }

def decodePriv : DecodeResult :=
  if funct7 inst = 0x9 then { dInst := { iType := .sfence } }
  else match csrField inst with
    | 0x102 => { dInst := { iType := .sret } }
    | 0x302 => { dInst := { iType := .mret } }
    | 0x000 => { dInst := { iType := .ecall } }
    | 0x001 => { dInst := { iType := .ebreak } }
    | 0x105 => { dInst := { iType := .nop } }
    | _ => { illegalInst := true }

/-- The function of the reserved code 100 is undefined. -/
def csrFunc : AluFunc :=
  match funct3 inst with
  | 0b101 | 0b001 => .csrw
  | 0b110 | 0b010 => .csrs
  | _ => .csrc

def decodeCsr : DecodeResult where
  dInst :=
    { iType := .csr
      execFunc := .alu (csrFunc inst)
      imm := if (funct3 inst).getLsbD 2 then some ((rs1 inst).setWidth 32) else none
      csr := some (unpackCSR b.toConfig (csrField inst)) }
  regs :=
    { dst := gprD inst
      src2 := if (funct3 inst).getLsbD 2 then none else gpr1 inst }

def decodeSystem : DecodeResult :=
  if funct3 inst = 0 then decodePriv inst else decodeCsr b inst

def decodeOpcode : DecodeResult :=
  match opcode inst with
  | .opImm => decodeOpImm inst
  | .opImm32 => decodeOpImm32 inst
  | .op => decodeOp b inst
  | .op32 => decodeOp32 b inst
  | .lui => decodeLui inst
  | .auipc => decodeAuipc inst
  | .jal => decodeJal inst
  | .jalr => decodeJalr inst
  | .branch => decodeBranch inst
  | .load => decodeMem inst .ld (immI inst) { dst := gprD inst, src1 := gpr1 inst }
  | .store => decodeMem inst .st (immS inst) { src1 := gpr1 inst, src2 := gpr2 inst }
  | .amo => decodeAmo b inst
  | .opFp => decodeOpFp b inst
  | .loadFp => decodeLoadFp b inst
  | .storeFp => decodeStoreFp b inst
  | .fmadd => decodeFma b inst .fMAdd
  | .fmsub => decodeFma b inst .fMSub
  | .fnmsub => decodeFma b inst .fNMSub
  | .fnmadd => decodeFma b inst .fNMAdd
  | .miscMem => decodeMiscMem inst
  | .system => decodeSystem b inst
  | .invalid => { illegalInst := true }

/-- A write to x0 is removed. -/
def ArchRegs.withoutX0 (regs : ArchRegs) : ArchRegs :=
  { regs with dst := if regs.dst = some (.gpr 0) then none else regs.dst }

def decode : DecodeResult :=
  let result := decodeOpcode b inst
  { result with regs := result.regs.withoutX0 }

end Decoders

end Toooba.Decode
