import Mathlib.Tactic.Common

/-!
# `compressed_decoder`

The expansion of a 16-bit instruction.  The module is combinatorial; a word whose two
low bits are set goes through as it is.
-/

set_option autoImplicit false

namespace Cva6.CompressedDecoder

/-- The parameters that `compressed_decoder`, `instr_scan` and `decoder` read. -/
structure IdCfg where
  isXlen64 : Bool
  vlen : Nat
  fpPresent : Bool
  rvb : Bool
  rvzcb : Bool
  rvzcmp : Bool
  rvzcmt : Bool
  cvxifEn : Bool
  vlenLe : vlen ≤ if isXlen64 then 64 else 32

/-! ## Opcodes of `riscv_pkg` -/

def opcodeLoad : BitVec 7 := 0b0000011
def opcodeLoadFp : BitVec 7 := 0b0000111
def opcodeOpImm : BitVec 7 := 0b0010011
def opcodeOpImm32 : BitVec 7 := 0b0011011
def opcodeStore : BitVec 7 := 0b0100011
def opcodeStoreFp : BitVec 7 := 0b0100111
def opcodeOp : BitVec 7 := 0b0110011
def opcodeLui : BitVec 7 := 0b0110111
def opcodeOp32 : BitVec 7 := 0b0111011
def opcodeBranch : BitVec 7 := 0b1100011
def opcodeJalr : BitVec 7 := 0b1100111
def opcodeJal : BitVec 7 := 0b1101111

def opcodeC0 : BitVec 2 := 0b00
def opcodeC0Addi4spn : BitVec 3 := 0b000
def opcodeC0Fld : BitVec 3 := 0b001
def opcodeC0Lw : BitVec 3 := 0b010
def opcodeC0Ld : BitVec 3 := 0b011
def opcodeC0Zcb : BitVec 3 := 0b100
def opcodeC0Fsd : BitVec 3 := 0b101
def opcodeC0Sw : BitVec 3 := 0b110
def opcodeC0Sd : BitVec 3 := 0b111

def opcodeC1 : BitVec 2 := 0b01
def opcodeC1Addi : BitVec 3 := 0b000
def opcodeC1Addiw : BitVec 3 := 0b001
def opcodeC1Jal : BitVec 3 := 0b001
def opcodeC1Li : BitVec 3 := 0b010
def opcodeC1LuiAddi16sp : BitVec 3 := 0b011
def opcodeC1MiscAlu : BitVec 3 := 0b100
def opcodeC1J : BitVec 3 := 0b101
def opcodeC1Beqz : BitVec 3 := 0b110
def opcodeC1Bnez : BitVec 3 := 0b111

def opcodeC2 : BitVec 2 := 0b10
def opcodeC2Slli : BitVec 3 := 0b000
def opcodeC2Fldsp : BitVec 3 := 0b001
def opcodeC2Lwsp : BitVec 3 := 0b010
def opcodeC2Ldsp : BitVec 3 := 0b011
def opcodeC2JalrMvAdd : BitVec 3 := 0b100
def opcodeC2Fsdsp : BitVec 3 := 0b101
def opcodeC2Swsp : BitVec 3 := 0b110
def opcodeC2Sdsp : BitVec 3 := 0b111

/-! ## Expansions -/

/-- What a quadrant makes of an instruction; `macroInstr` and `zcmt` pass it on to their
decoders. -/
inductive Expansion where
  | word (instr : BitVec 32)
  | illegal
  | macroInstr
  | zcmt
  deriving DecidableEq

open Expansion

section Quadrants

variable (cfg : IdCfg) (i : BitVec 32)

/-- A field that the SystemVerilog names by its bounds. -/
abbrev field (hi lo : Nat) : BitVec (hi - lo + 1) := i.extractLsb hi lo

/-- A repeated bit. -/
abbrev copies (n bit : Nat) : BitVec n := (i.extractLsb' bit 1).signExtend n

def zcbLoadStore : Expansion :=
  let rs1 := 0b01#2 ++ field i 9 7
  let rd := 0b01#2 ++ field i 4 2
  if field i 12 10 = 0b000 then
    -- c.lbu -> lbu rd', uimm(rs1')
    word (0#10 ++ field i 5 5 ++ field i 6 6 ++ rs1 ++ 0b100#3 ++ rd ++ opcodeLoad)
  else if field i 12 10 = 0b001 then
    if field i 6 6 = 1 then
      -- c.lh -> lh rd', uimm(rs1')
      word (0#10 ++ field i 5 5 ++ 0#1 ++ rs1 ++ 0b001#3 ++ rd ++ opcodeLoad)
    else
      -- c.lhu -> lhu rd', uimm(rs1')
      word (0#10 ++ field i 5 5 ++ 0#1 ++ rs1 ++ 0b101#3 ++ rd ++ opcodeLoad)
  else if field i 12 10 = 0b010 then
    -- c.sb -> sb rs2', uimm(rs1')
    word (0#7 ++ rd ++ rs1 ++ 0b000#3 ++ 0#3 ++ field i 5 5 ++ field i 6 6 ++ opcodeStore)
  else if field i 12 10 = 0b011 then
    -- c.sh -> sh rs2', uimm(rs1')
    word (0#7 ++ rd ++ rs1 ++ 0b001#3 ++ 0#3 ++ field i 5 5 ++ 0#1 ++ opcodeStore)
  else illegal

def c0 : Expansion :=
  let rs1 := 0b01#2 ++ field i 9 7
  let rd := 0b01#2 ++ field i 4 2
  if field i 15 13 = opcodeC0Addi4spn then
    -- c.addi4spn -> addi rd', x2, imm
    if field i 12 5 = 0 then illegal
    else word (0#2 ++ field i 10 7 ++ field i 12 11 ++ field i 5 5 ++ field i 6 6 ++ 0#2 ++
      2#5 ++ 0b000#3 ++ rd ++ opcodeOpImm)
  else if field i 15 13 = opcodeC0Fld then
    -- c.fld -> fld rd', imm(rs1')
    if cfg.fpPresent then
      word (0#4 ++ field i 6 5 ++ field i 12 10 ++ 0#3 ++ rs1 ++ 0b011#3 ++ rd ++ opcodeLoadFp)
    else illegal
  else if field i 15 13 = opcodeC0Lw then
    -- c.lw -> lw rd', imm(rs1')
    word (0#5 ++ field i 5 5 ++ field i 12 10 ++ field i 6 6 ++ 0#2 ++ rs1 ++ 0b010#3 ++ rd ++
      opcodeLoad)
  else if field i 15 13 = opcodeC0Ld then
    -- c.ld -> ld rd', imm(rs1'), or c.flw -> flw fprd', imm(rs1')
    if cfg.isXlen64 then
      word (0#4 ++ field i 6 5 ++ field i 12 10 ++ 0#3 ++ rs1 ++ 0b011#3 ++ rd ++ opcodeLoad)
    else if cfg.fpPresent then
      word (0#5 ++ field i 5 5 ++ field i 12 10 ++ field i 6 6 ++ 0#2 ++ rs1 ++ 0b010#3 ++ rd ++
        opcodeLoadFp)
    else illegal
  else if field i 15 13 = opcodeC0Zcb then
    if cfg.rvzcb then zcbLoadStore i else illegal
  else if field i 15 13 = opcodeC0Fsd then
    -- c.fsd -> fsd rs2', imm(rs1')
    if cfg.fpPresent then
      word (0#4 ++ field i 6 5 ++ field i 12 12 ++ rd ++ rs1 ++ 0b011#3 ++ field i 11 10 ++ 0#3 ++
        opcodeStoreFp)
    else illegal
  else if field i 15 13 = opcodeC0Sw then
    -- c.sw -> sw rs2', imm(rs1')
    word (0#5 ++ field i 5 5 ++ field i 12 12 ++ rd ++ rs1 ++ 0b010#3 ++ field i 11 10 ++
      field i 6 6 ++ 0#2 ++ opcodeStore)
  else if field i 15 13 = opcodeC0Sd then
    -- c.sd -> sd rs2', imm(rs1'), or c.fsw -> fsw fprs2', imm(rs1')
    if cfg.isXlen64 then
      word (0#4 ++ field i 6 5 ++ field i 12 12 ++ rd ++ rs1 ++ 0b011#3 ++ field i 11 10 ++ 0#3 ++
        opcodeStore)
    else if cfg.fpPresent then
      word (0#5 ++ field i 5 5 ++ field i 12 12 ++ rd ++ rs1 ++ 0b010#3 ++ field i 11 10 ++
        field i 6 6 ++ 0#2 ++ opcodeStoreFp)
    else illegal
  else illegal

/-- The unary operations of Zcb. -/
def zcbUnary : Expansion :=
  let rd := 0b01#2 ++ field i 9 7
  if field i 4 2 = 0b000 then
    -- c.zext.b -> andi rd', rd', 0xff
    word (0#4 ++ 0xFF#8 ++ rd ++ 0b111#3 ++ rd ++ opcodeOpImm)
  else if field i 4 2 = 0b001 then
    -- c.sext.b -> sext.b rd', rd'
    if cfg.rvb then word (0x30#7 ++ 4#5 ++ rd ++ 0b001#3 ++ rd ++ opcodeOpImm) else illegal
  else if field i 4 2 = 0b010 then
    -- c.zext.h -> zext.h rd', rd'
    if cfg.rvb then
      if cfg.isXlen64 then word (4#7 ++ 0#5 ++ rd ++ 0b100#3 ++ rd ++ opcodeOp32)
      else word (4#7 ++ 0#5 ++ rd ++ 0b100#3 ++ rd ++ opcodeOp)
    else illegal
  else if field i 4 2 = 0b011 then
    -- c.sext.h -> sext.h rd', rd'
    if cfg.rvb then word (0x30#7 ++ 5#5 ++ rd ++ 0b001#3 ++ rd ++ opcodeOpImm) else illegal
  else if field i 4 2 = 0b100 then
    -- c.zext.w -> add.uw
    if cfg.rvb then
      if cfg.isXlen64 then word (4#7 ++ 0#5 ++ rd ++ 0b000#3 ++ rd ++ opcodeOp32) else illegal
    else illegal
  else if field i 4 2 = 0b101 then
    -- c.not -> xori rd', rd', -1
    word (0xFFF#12 ++ rd ++ 0b100#3 ++ rd ++ opcodeOpImm)
  else illegal

/-- `instr_o` keeps the instruction where no branch assigns it. -/
def miscAluReg : Expansion :=
  let rd := 0b01#2 ++ field i 9 7
  let rs2 := 0b01#2 ++ field i 4 2
  let select : BitVec 3 := field i 12 12 ++ field i 6 5
  if select = 0b000 then
    -- c.sub -> sub rd', rd', rs2'
    word (0b01#2 ++ 0#5 ++ rs2 ++ rd ++ 0b000#3 ++ rd ++ opcodeOp)
  else if select = 0b001 then
    -- c.xor -> xor rd', rd', rs2'
    word (0#7 ++ rs2 ++ rd ++ 0b100#3 ++ rd ++ opcodeOp)
  else if select = 0b010 then
    -- c.or  -> or  rd', rd', rs2'
    word (0#7 ++ rs2 ++ rd ++ 0b110#3 ++ rd ++ opcodeOp)
  else if select = 0b011 then
    -- c.and -> and rd', rd', rs2'
    word (0#7 ++ rs2 ++ rd ++ 0b111#3 ++ rd ++ opcodeOp)
  else if select = 0b100 then
    -- c.subw -> subw rd', rd', rs2'
    if cfg.isXlen64 then word (0b01#2 ++ 0#5 ++ rs2 ++ rd ++ 0b000#3 ++ rd ++ opcodeOp32)
    else illegal
  else if select = 0b101 then
    -- c.addw -> addw rd', rd', rs2'
    if cfg.isXlen64 then word (0b00#2 ++ 0#5 ++ rs2 ++ rd ++ 0b000#3 ++ rd ++ opcodeOp32)
    else illegal
  else if select = 0b110 then
    -- c.mul -> mul rd', rd', rs2'
    if cfg.rvzcb then word (0#6 ++ 1#1 ++ rs2 ++ rd ++ 0b000#3 ++ rd ++ opcodeOp) else illegal
  else if cfg.rvzcb then zcbUnary cfg i else word i

def miscAlu : Expansion :=
  let rd := 0b01#2 ++ field i 9 7
  if field i 11 10 = 0b00 ∨ field i 11 10 = 0b01 then
    -- c.srli -> srli rd, rd, shamt and c.srai -> srai rd, rd, shamt
    word (0#1 ++ field i 10 10 ++ 0#4 ++ field i 12 12 ++ field i 6 2 ++ rd ++ 0b101#3 ++ rd ++
      opcodeOpImm)
  else if field i 11 10 = 0b10 then
    -- c.andi -> andi rd, rd, imm
    word (copies i 6 12 ++ field i 12 12 ++ field i 6 2 ++ rd ++ 0b111#3 ++ rd ++ opcodeOpImm)
  else miscAluReg cfg i

/-- The offset of `c.j` and `c.jal`, as it lies in a `jal`. -/
def jumpOffset : BitVec 20 :=
  field i 12 12 ++ field i 8 8 ++ field i 10 9 ++ field i 6 6 ++ field i 7 7 ++ field i 2 2 ++
    field i 11 11 ++ field i 5 3 ++ copies i 9 12

def branchWord : BitVec 32 :=
  copies i 4 12 ++ field i 6 5 ++ field i 2 2 ++ 0#5 ++ 0b01#2 ++ field i 9 7 ++ 0b00#2 ++
    field i 13 13 ++ field i 11 10 ++ field i 4 3 ++ field i 12 12 ++ opcodeBranch

def c1 : Expansion :=
  let rd := field i 11 7
  if field i 15 13 = opcodeC1Addi then
    -- c.addi -> addi rd, rd, nzimm and c.nop -> addi 0, 0, 0
    word (copies i 6 12 ++ field i 12 12 ++ field i 6 2 ++ rd ++ 0b000#3 ++ rd ++ opcodeOpImm)
  else if field i 15 13 = opcodeC1Addiw then
    if cfg.isXlen64 then
      -- c.addiw -> addiw rd, rd, nzimm for RV64IC
      if rd ≠ 0 then
        word (copies i 6 12 ++ field i 12 12 ++ field i 6 2 ++ rd ++ 0b000#3 ++ rd ++
          opcodeOpImm32)
      else illegal
    else
      -- c.jal -> jal x1, imm for RV32IC only
      word (jumpOffset i ++ 1#5 ++ opcodeJal)
  else if field i 15 13 = opcodeC1Li then
    -- c.li -> addi rd, x0, nzimm
    word (copies i 6 12 ++ field i 12 12 ++ field i 6 2 ++ 0#5 ++ 0b000#3 ++ rd ++ opcodeOpImm)
  else if field i 15 13 = opcodeC1LuiAddi16sp then
    if field i 12 12 ++ field i 6 2 = 0#6 then illegal
    else if rd = 2 then
      -- c.addi16sp -> addi x2, x2, nzimm
      word (copies i 3 12 ++ field i 4 3 ++ field i 5 5 ++ field i 2 2 ++ field i 6 6 ++ 0#4 ++
        2#5 ++ 0b000#3 ++ 2#5 ++ opcodeOpImm)
    else
      -- c.lui -> lui rd, imm
      word (copies i 15 12 ++ field i 6 2 ++ rd ++ opcodeLui)
  else if field i 15 13 = opcodeC1MiscAlu then miscAlu cfg i
  else if field i 15 13 = opcodeC1J then
    -- c.j -> jal x0, imm
    word (jumpOffset i ++ 0#4 ++ ~~~field i 15 15 ++ opcodeJal)
  else
    -- c.beqz -> beq rs1', x0, imm and c.bnez -> bne rs1', x0, imm
    word (branchWord i)

def jalrMvAdd : Expansion :=
  let rd := field i 11 7
  if field i 12 12 = 0 then
    if field i 6 2 = 0 then
      -- c.jr -> jalr x0, rd/rs1, 0
      if rd ≠ 0 then word (0#12 ++ rd ++ 0b000#3 ++ 0#5 ++ opcodeJalr) else illegal
    else
      -- c.mv -> add rd/rs1, x0, rs2
      word (0#7 ++ field i 6 2 ++ 0#5 ++ 0b000#3 ++ rd ++ opcodeOp)
  else if field i 6 2 = 0 then
    -- c.ebreak -> ebreak
    if rd = 0 then word 0x00100073
    -- c.jalr -> jalr x1, rs1, 0
    else word (0#12 ++ rd ++ 0b000#3 ++ 1#5 ++ opcodeJalr)
  else
    -- c.add -> add rd, rd, rs2
    word (0#7 ++ field i 6 2 ++ rd ++ 0b000#3 ++ rd ++ opcodeOp)

def c2 : Expansion :=
  let rd := field i 11 7
  if field i 15 13 = opcodeC2Slli then
    -- c.slli -> slli rd, rd, shamt
    word (0#6 ++ field i 12 12 ++ field i 6 2 ++ rd ++ 0b001#3 ++ rd ++ opcodeOpImm)
  else if field i 15 13 = opcodeC2Fldsp then
    -- c.fldsp -> fld rd, imm(x2)
    if cfg.fpPresent then
      word (0#3 ++ field i 4 2 ++ field i 12 12 ++ field i 6 5 ++ 0#3 ++ 2#5 ++ 0b011#3 ++ rd ++
        opcodeLoadFp)
    else illegal
  else if field i 15 13 = opcodeC2Lwsp then
    -- c.lwsp -> lw rd, imm(x2)
    if rd = 0 then illegal
    else word (0#4 ++ field i 3 2 ++ field i 12 12 ++ field i 6 4 ++ 0#2 ++ 2#5 ++ 0b010#3 ++
      rd ++ opcodeLoad)
  else if field i 15 13 = opcodeC2Ldsp then
    -- c.ldsp -> ld rd, imm(x2), or c.flwsp -> flw fprd, imm(x2)
    if cfg.isXlen64 then
      if rd = 0 then illegal
      else word (0#3 ++ field i 4 2 ++ field i 12 12 ++ field i 6 5 ++ 0#3 ++ 2#5 ++ 0b011#3 ++
        rd ++ opcodeLoad)
    else if cfg.fpPresent then
      word (0#4 ++ field i 3 2 ++ field i 12 12 ++ field i 6 4 ++ 0#2 ++ 2#5 ++ 0b010#3 ++ rd ++
        opcodeLoadFp)
    else illegal
  else if field i 15 13 = opcodeC2JalrMvAdd then jalrMvAdd i
  else if field i 15 13 = opcodeC2Fsdsp then
    if cfg.fpPresent then
      -- c.fsdsp -> fsd rs2, imm(x2)
      word (0#3 ++ field i 9 7 ++ field i 12 12 ++ field i 6 2 ++ 2#5 ++ 0b011#3 ++
        field i 11 10 ++ 0#3 ++ opcodeStoreFp)
    else if cfg.rvzcmp ∧
        (field i 12 10 = 0b110 ∨ field i 12 10 = 0b111 ∨ field i 12 10 = 0b011) then macroInstr
    else if cfg.rvzcmt ∧ field i 12 10 = 0b000 then zcmt
    else illegal
  else if field i 15 13 = opcodeC2Swsp then
    -- c.swsp -> sw rs2, imm(x2)
    word (0#4 ++ field i 8 7 ++ field i 12 12 ++ field i 6 2 ++ 2#5 ++ 0b010#3 ++ field i 11 9 ++
      0#2 ++ opcodeStore)
  else
    -- c.sdsp -> sd rs2, imm(x2), or c.fswsp -> fsw fprs2, imm(x2)
    if cfg.isXlen64 then
      word (0#3 ++ field i 9 7 ++ field i 12 12 ++ field i 6 2 ++ 2#5 ++ 0b011#3 ++
        field i 11 10 ++ 0#3 ++ opcodeStore)
    else if cfg.fpPresent then
      word (0#4 ++ field i 8 7 ++ field i 12 12 ++ field i 6 2 ++ 2#5 ++ 0b010#3 ++
        field i 11 9 ++ 0#2 ++ opcodeStoreFp)
    else illegal

end Quadrants

/-! ## The outputs -/

structure Output where
  instrO : BitVec 32
  illegalInstrO : Bool
  isMacroInstrO : Bool
  isCompressedO : Bool
  isZcmtInstrO : Bool
  deriving DecidableEq

/-- An illegal instruction is passed on as it is. -/
def Expansion.output (i : BitVec 32) : Expansion → Output
  | word w => ⟨w, false, false, true, false⟩
  | illegal => ⟨i, true, false, true, false⟩
  | macroInstr => ⟨i, false, true, true, false⟩
  | zcmt => ⟨i, false, false, true, true⟩

def expand (cfg : IdCfg) (i : BitVec 32) : Output :=
  if field i 1 0 = opcodeC0 then (c0 cfg i).output i
  else if field i 1 0 = opcodeC1 then (c1 cfg i).output i
  else if field i 1 0 = opcodeC2 then (c2 cfg i).output i
  else ⟨i, false, false, false, false⟩

/-- c.addi4spn x8, x2, 4 -/
example (cfg : IdCfg) : (expand cfg 0x0040#32).instrO = 0x00410413#32 := rfl

end Cva6.CompressedDecoder
