import RiscvCores.Cva6.CompressedDecoder

/-!
# `instr_scan` and the control flow of `decoder`

The scanner of the frontend looks at the fetched word itself, the decoder at its
expansion.  Of the decoder only what it sends to the branch unit is modelled; every
other opcode selects another functional unit.
-/

set_option autoImplicit false

namespace Cva6.InstrScan

open CompressedDecoder

/-! ## `instr_scan` -/

section Scan

variable (cfg : IdCfg) (i : BitVec 32)

def ujBits : BitVec 21 :=
  field i 31 31 ++ field i 19 12 ++ field i 20 20 ++ field i 30 21 ++ 0#1

def sbBits : BitVec 13 :=
  field i 31 31 ++ field i 7 7 ++ field i 30 25 ++ field i 11 8 ++ 0#1

/-- `uj_imm` -/
def ujImm : BitVec cfg.vlen := (ujBits i).signExtend cfg.vlen

/-- `sb_imm` -/
def sbImm : BitVec cfg.vlen := (sbBits i).signExtend cfg.vlen

def opcode : BitVec 7 := field i 6 0

def isC1 : Bool := field i 1 0 == opcodeC1

def rv32RvcJal : Bool := !cfg.isXlen64 && (field i 15 13 == opcodeC1Jal && isC1 i)

def isXret : Bool :=
  field i 31 30 == 0b00#2 && field i 28 0 == 0b10000001000000000000001110011#29

def rviBranchO : Bool := opcode i == opcodeBranch

def rviJalrO : Bool := opcode i == opcodeJalr

def rviJumpO : Bool := opcode i == opcodeJal || isXret i

/-- x1 or x5. -/
def isLink (r : BitVec 5) : Bool := r == 1 || r == 5

def rviReturnO : Bool := rviJalrO i && isLink (field i 19 15) && field i 19 15 != field i 11 7

def rviCallO : Bool := (rviJalrO i || rviJumpO i) && isLink (field i 11 7)

def rviImmO : BitVec cfg.vlen :=
  if isXret i then 0 else if field i 3 3 = 1 then ujImm cfg i else sbImm cfg i

def rvcJumpO : Bool := field i 15 13 == opcodeC1J && isC1 i || rv32RvcJal cfg i

def isJalR : Bool :=
  field i 15 13 == opcodeC2JalrMvAdd && field i 6 2 == 0 && field i 1 0 == opcodeC2

def rvcJrO : Bool := isJalR i && field i 12 12 == 0

def rvcJalrO : Bool := isJalR i && field i 12 12 == 1

def rvcCallO : Bool := rvcJalrO i || rv32RvcJal cfg i

def rvcBranchO : Bool :=
  (field i 15 13 == opcodeC1Beqz || field i 15 13 == opcodeC1Bnez) && isC1 i

def rvcReturnO : Bool := isLink (field i 11 7) && rvcJrO i

def rvcBranchBits : BitVec 9 :=
  field i 12 12 ++ field i 6 5 ++ field i 2 2 ++ field i 11 10 ++ field i 4 3 ++ 0#1

def rvcJumpBits : BitVec 12 :=
  field i 12 12 ++ field i 8 8 ++ field i 10 9 ++ field i 6 6 ++ field i 7 7 ++ field i 2 2 ++
    field i 11 11 ++ field i 5 3 ++ 0#1

def rvcImmO : BitVec cfg.vlen :=
  if field i 14 14 = 1 then (rvcBranchBits i).signExtend cfg.vlen
  else (rvcJumpBits i).signExtend cfg.vlen

/-! ### What the frontend makes of the outputs -/

/-- `is_jump`, `is_branch`, a register jump, `is_call` and `is_return` of a valid word. -/
structure Scanned where
  jump : Bool
  branch : Bool
  registerJump : Bool
  call : Bool
  ret : Bool
  deriving DecidableEq

def scan : Scanned where
  jump := rviJumpO i || rvcJumpO cfg i
  branch := rviBranchO i || rvcBranchO i
  registerJump := rviJalrO i || rvcJrO i || rvcJalrO i
  call := rviCallO i || rvcCallO cfg i
  ret := rviReturnO i || rvcReturnO i

/-- The offset added to the address of a predicted jump or branch. -/
def scannedImm : BitVec cfg.vlen :=
  if rvcJumpO cfg i || rvcBranchO i then rvcImmO cfg i else rviImmO cfg i

end Scan

/-! ## The control flow of `decoder` -/

/-- `fu_op` of the branch unit; `add` is a `jal`. -/
inductive Op where
  | add | jalr | eq | ne | lts | ges | ltu | geu
  deriving DecidableEq

section Decode

variable (cfg : IdCfg)

def xlen : Nat := if cfg.isXlen64 then 64 else 32

/-- The entry for the branch unit (`CTRL_FLOW`). -/
structure Entry where
  pc : BitVec cfg.vlen
  op : Op
  rs1 : BitVec 5
  rs2 : BitVec 5
  rd : BitVec 5
  result : BitVec (xlen cfg)
  isControlFlowInstr : Bool
  illegalInstr : Bool

variable (pc : BitVec cfg.vlen) (w : BitVec 32)

/-- An unknown condition leaves the default operation. -/
def branchOp (funct3 : BitVec 3) : Option Op :=
  if funct3 = 0b000 then some .eq
  else if funct3 = 0b001 then some .ne
  else if funct3 = 0b100 then some .lts
  else if funct3 = 0b101 then some .ges
  else if funct3 = 0b110 then some .ltu
  else if funct3 = 0b111 then some .geu
  else none

def immUjType (isZcmt : Bool) (jumpAddress : BitVec 32) : BitVec (xlen cfg) :=
  if cfg.rvzcmt && isZcmt then jumpAddress.signExtend (xlen cfg)
  else (ujBits w).signExtend (xlen cfg)

/-- The entry in front of the co-processor interface; other opcodes go to other units. -/
def controlFlow (isIllegal isZcmt : Bool) (jumpAddress : BitVec 32) : Option (Entry cfg) :=
  if opcode w = opcodeBranch then
    some
      { pc := pc
        op := (branchOp (field w 14 12)).getD .add
        rs1 := field w 19 15
        rs2 := field w 24 20
        rd := 0
        result := (sbBits w).signExtend (xlen cfg)
        isControlFlowInstr := (branchOp (field w 14 12)).isSome
        illegalInstr := isIllegal || (branchOp (field w 14 12)).isNone }
  else if opcode w = opcodeJalr then
    some
      { pc := pc
        op := .jalr
        rs1 := field w 19 15
        rs2 := 0
        rd := field w 11 7
        result := (field w 31 20).signExtend (xlen cfg)
        isControlFlowInstr := true
        illegalInstr := isIllegal || field w 14 12 != 0 }
  else if opcode w = opcodeJal then
    some
      { pc := pc
        op := .add
        rs1 := 0
        rs2 := 0
        rd := field w 11 7
        result := immUjType cfg w isZcmt jumpAddress
        isControlFlowInstr := true
        illegalInstr := isIllegal }
  else none

/-- With the co-processor interface an illegal instruction goes to it. -/
def decode (isIllegal isZcmt : Bool) (jumpAddress : BitVec 32) : Option (Entry cfg) :=
  (controlFlow cfg pc w isIllegal isZcmt jumpAddress).filter fun e =>
    !(cfg.cvxifEn && e.illegalInstr)

/-- `compressed_decoder` in front of `decoder`. -/
def decoded (jumpAddress : BitVec 32) : Option (Entry cfg) :=
  let out := expand cfg w
  decode cfg pc out.instrO out.illegalInstrO out.isZcmtInstrO jumpAddress

end Decode

end Cva6.InstrScan
