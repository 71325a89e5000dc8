import Mathlib.Tactic.Common
import RiscvCores.Lib.Clocked

/-!
# Zcmp macro instructions in the single-issue `id_stage`

`macro_decoder` expands a macro instruction into micro-operations, one for each
acknowledge of the issue stage.  Signals that `macro_decoder` leaves unassigned in
a branch are latches; their values are inputs of the model.  The ID/ISSUE register
keeps the input of `decoder` in place of its output.
-/

set_option autoImplicit false

namespace Cva6

namespace Zcmp

/-! ## The compressed decoder -/

/-- The outputs of `compressed_decoder`. -/
structure Expanded where
  instr : BitVec 32
  illegal : Bool
  isCompressed : Bool
  isMacro : Bool
  deriving DecidableEq, Repr

/-- The encodings `compressed_decoder` passes on as macro instructions. -/
def isMacroInstr (instr : BitVec 32) : Bool :=
  instr.extractLsb' 0 2 == 2#2 && instr.extractLsb' 13 3 == 5#3 &&
    (instr.extractLsb' 10 3 == 6#3 || instr.extractLsb' 10 3 == 7#3 ||
      instr.extractLsb' 10 3 == 3#3)

/-- The parameters of the stage; `expandOther` is `compressed_decoder` on all other
encodings. -/
structure IdCfg where
  xlen64 : Bool
  expandOther : BitVec 32 → BitVec 32 × Bool × Bool

def compressedDecoder (cfg : IdCfg) (instr : BitVec 32) : Expanded :=
  if isMacroInstr instr then
    { instr := instr, illegal := false, isCompressed := true, isMacro := true }
  else
    let (expanded, illegal, isCompressed) := cfg.expandOther instr
    { instr := expanded, illegal := illegal, isCompressed := isCompressed, isMacro := false }

/-! ## `macro_decoder` -/

inductive MacroState where
  | idle | init | pushAddi | popretz1 | move | pushPopInstr2
  deriving DecidableEq, Repr

inductive MacroInstrType where
  | push | pop | popretz | popret | mva01s | mvsa01
  deriving DecidableEq, Repr

structure MacroRegs where
  state : MacroState
  offsetQ : BitVec 12
  popretzInstQ : BitVec 2
  regNumbersQ : BitVec 4
  storeRegQ : BitVec 5
  deriving DecidableEq, Repr

/-- What the latches show where a branch does not assign them. -/
structure Latched where
  macroInstrType : MacroInstrType
  instrOReg : BitVec 32
  xreg1 : BitVec 5
  xreg2 : BitVec 5

structure MacroOut where
  instr : BitVec 32
  illegal : Bool
  isCompressed : Bool
  fetchStall : Bool
  isLast : Bool
  isDoubleRd : Bool
  deriving DecidableEq, Repr

def opcodeLoad : BitVec 7 := 0b0000011

def opcodeOpImm : BitVec 7 := 0b0010011

def opcodeStore : BitVec 7 := 0b0100011

def opcodeLui : BitVec 7 := 0b0110111

def opcodeJalr : BitVec 7 := 0b1100111

section Fields

variable (instr : BitVec 32)

/-- `macro_instr_type`, where it is assigned. -/
def macroInstrType : Option MacroInstrType :=
  let kind := instr.extractLsb' 8 2
  let moveKind := instr.extractLsb' 5 2
  if instr.extractLsb' 10 3 = 6#3 then
    if kind = 0#2 then some .push else if kind = 2#2 then some .pop else none
  else if instr.extractLsb' 10 3 = 7#3 then
    if kind = 0#2 then some .popretz else if kind = 2#2 then some .popret else none
  else if instr.extractLsb' 10 3 = 3#3 then
    if moveKind = 1#2 then some .mvsa01 else if moveKind = 3#2 then some .mva01s else none
  else none

def MacroInstrType.isMove : MacroInstrType → Bool
  | .mva01s | .mvsa01 => true
  | _ => false

def MacroInstrType.isPop : MacroInstrType → Bool
  | .pop | .popretz | .popret => true
  | _ => false

/-- The two registers of a move are the same. -/
def sameSaved : Bool := instr.extractLsb' 7 3 == instr.extractLsb' 2 3

def xreg1 : BitVec 5 :=
  BitVec.ofBool (0#2 < instr.extractLsb' 8 2) ++ BitVec.ofBool (instr.extractLsb' 8 2 == 0#2) ++
    instr.extractLsb' 7 3

def xreg2 : BitVec 5 :=
  BitVec.ofBool (0#2 < instr.extractLsb' 3 2) ++ BitVec.ofBool (instr.extractLsb' 3 2 == 0#2) ++
    instr.extractLsb' 2 3

def regNumbers : BitVec 4 :=
  if 4#4 ≤ instr.extractLsb' 4 4 then instr.extractLsb' 4 4 - 3#4 else 0#4

/-- `stack_adj`: the frame of the register list and 16 bytes for each step of `[3:2]`. -/
def stackAdj (xlen64 : Bool) : BitVec 12 :=
  let rlist := (instr.extractLsb' 4 4).toNat
  let base : Nat :=
    if rlist < 4 then 0
    else if xlen64 then
      if rlist < 6 then 16 else if rlist < 8 then 32 else if rlist < 10 then 48
      else if rlist < 12 then 64 else if rlist < 14 then 80 else if rlist = 14 then 96 else 112
    else if rlist < 8 then 16 else if rlist < 12 then 32 else if rlist < 15 then 48 else 64
  if rlist < 4 then 0 else BitVec.ofNat 12 (base + 16 * (instr.extractLsb' 2 2).toNat)

end Fields

/-- `itype_inst.imm` -/
def itypeImm (xlen64 : Bool) (type : MacroInstrType) (instr : BitVec 32) : BitVec 12 :=
  if type = .push then ~~~stackAdj instr xlen64 + 1 else stackAdj instr xlen64 - 4

/-- The register saved or restored for a register number; none beyond the list. -/
def savedReg (number : BitVec 4) (storeReg : BitVec 5) : Option (BitVec 5) :=
  if number = 1 then some 1
  else if number = 2 then some 8
  else if number = 3 then some 9
  else if 4 ≤ number ∧ number ≤ 12 then some storeReg
  else none

/-- The first store: at `-8(sp)` or `-4(sp)`. -/
def firstStore (xlen64 : Bool) (reg : BitVec 5) : BitVec 32 :=
  if xlen64 then 0b1111111#7 ++ reg ++ 2#5 ++ 3#3 ++ 0b11000#5 ++ opcodeStore
  else 0b1111111#7 ++ reg ++ 2#5 ++ 2#3 ++ 0b11100#5 ++ opcodeStore

def laterStore (xlen64 : Bool) (offset : BitVec 12) (reg : BitVec 5) : BitVec 32 :=
  if xlen64 then
    offset.extractLsb' 5 7 ++ reg ++ 2#5 ++ 3#3 ++ offset.extractLsb' 3 2 ++ 0#1 ++
      offset.extractLsb' 0 2 ++ opcodeStore
  else
    offset.extractLsb' 5 7 ++ reg ++ 2#5 ++ 2#3 ++ offset.extractLsb' 0 5 ++ opcodeStore

def firstLoad (xlen64 : Bool) (offset : BitVec 12) (reg : BitVec 5) : BitVec 32 :=
  if xlen64 then (offset - 4) ++ 2#5 ++ 3#3 ++ reg ++ opcodeLoad
  else offset ++ 2#5 ++ 2#3 ++ reg ++ opcodeLoad

def laterLoad (xlen64 : Bool) (offset : BitVec 12) (reg : BitVec 5) : BitVec 32 :=
  if xlen64 then
    offset.extractLsb' 3 9 ++ 0#1 ++ offset.extractLsb' 0 2 ++ 2#5 ++ 3#3 ++ reg ++ opcodeLoad
  else offset ++ 2#5 ++ 2#3 ++ reg ++ opcodeLoad

def addi (imm : BitVec 12) (rs1 rd : BitVec 5) : BitVec 32 :=
  imm ++ rs1 ++ 0#3 ++ rd ++ opcodeOpImm

/-- What `macro_decoder` reads in one cycle. -/
structure MacroIn where
  expanded : Expanded
  issueAck : Bool
  latched : Latched

section Decoder

variable (xlen64 : Bool) (r : MacroRegs) (i : MacroIn)

def currentType : MacroInstrType :=
  if i.expanded.isMacro then (macroInstrType i.expanded.instr).getD i.latched.macroInstrType
  else i.latched.macroInstrType

/-- `illegal_instr_o` in front of the state machine. -/
def illegalBefore : Bool :=
  if i.expanded.isMacro then
    (macroInstrType i.expanded.instr).isNone ||
      (currentType i).isMove && sameSaved i.expanded.instr
  else i.expanded.illegal

/-- The outputs in front of the state machine. -/
def outBefore : MacroOut where
  instr :=
    if i.expanded.isMacro && !illegalBefore i then i.latched.instrOReg else i.expanded.instr
  illegal := illegalBefore i
  isCompressed := i.expanded.isMacro || i.expanded.isCompressed
  fetchStall := false
  isLast := false
  isDoubleRd := false

def currentXreg1 : BitVec 5 :=
  if sameSaved i.expanded.instr then i.latched.xreg1 else xreg1 i.expanded.instr

def currentXreg2 : BitVec 5 :=
  if sameSaved i.expanded.instr then i.latched.xreg2 else xreg2 i.expanded.instr

/-- Show an instruction, or what the latch holds. -/
def MacroOut.show (out : MacroOut) (instr : Option (BitVec 32)) : MacroOut :=
  { out with instr := instr.getD out.instr }

/-- The state after the last register of a list. -/
def afterRegisters (type : MacroInstrType) : MacroState :=
  if type = .popretz then .popretz1 else .pushAddi

def stepIdle : MacroOut × MacroRegs :=
  let instr := i.expanded.instr
  let type := currentType i
  let imm := itypeImm xlen64 type instr
  let number := regNumbers instr
  let wide : BitVec 5 := number.setWidth 5
  let storeReg : BitVec 5 := if number = 12 then 15 + wide else 14 + wide
  let out := outBefore i
  let regs : MacroRegs := {
    state := if i.issueAck then .init else .idle
    offsetQ :=
      if type = .push then 0xffc + 0xffc else if type.isPop then imm + 0xffc else r.offsetQ
    popretzInstQ :=
      if type = .popretz then 3 else if type = .popret then 1 else if type = .pop then 0
      else r.popretzInstQ
    regNumbersQ := number - 1
    storeRegQ := storeReg - 1 }
  let listState : MacroState :=
    if number = 1 then afterRegisters type
    else if number = 12 then .pushPopInstr2
    else regs.state
  if !i.expanded.isMacro then (out, r)
  else if type = .mvsa01 then
    ({ out with
        instr := addi 0 10 (currentXreg1 i), fetchStall := true, isDoubleRd := true },
      { regs with state := .move })
  else if type = .mva01s then
    ({ out with
        instr := addi 0 (currentXreg1 i) 10, fetchStall := true, isDoubleRd := true },
      { regs with state := .move })
  else if type = .push then
    ({ out.show ((savedReg number storeReg).map (firstStore xlen64)) with fetchStall := true },
      { regs with state := listState })
  else
    ({ out.show ((savedReg number storeReg).map (firstLoad xlen64 imm)) with
        fetchStall := true },
      { regs with state := listState })

/-- One further register of the list. -/
def stepInit : MacroOut × MacroRegs :=
  let type := currentType i
  let out := { outBefore i with fetchStall := i.expanded.isMacro }
  if i.issueAck && i.expanded.isMacro && !type.isMove then
    let reg := savedReg r.regNumbersQ r.storeRegQ
    let shown := out.show (reg.map fun reg =>
      if type = .push then laterStore xlen64 r.offsetQ reg else laterLoad xlen64 r.offsetQ reg)
    if r.regNumbersQ = 1 then (shown, { r with state := afterRegisters type })
    else if r.regNumbersQ = 2 ∨ r.regNumbersQ = 3 then
      (shown, { r with regNumbersQ := r.regNumbersQ - 1, offsetQ := r.offsetQ + 0xffc })
    else if 4 ≤ r.regNumbersQ ∧ r.regNumbersQ ≤ 12 then
      (shown,
        { r with
          regNumbersQ := r.regNumbersQ - 1
          storeRegQ := r.storeRegQ - 1
          offsetQ := r.offsetQ + 0xffc
          state := if r.regNumbersQ = 12 then .pushPopInstr2 else r.state })
    else (out, r)
  else (out, r)

/-- The second half of a move. -/
def stepMove : MacroOut × MacroRegs :=
  let type := currentType i
  let out := outBefore i
  if type.isMove then
    if i.issueAck then
      ({ out with
          instr :=
            if type = .mvsa01 then addi 0 11 (currentXreg2 i) else addi 0 (currentXreg2 i) 11
          fetchStall := false
          isLast := true
          isDoubleRd := true },
        { r with state := .idle })
    else (out, r)
  else ({ out with illegal := true, instr := i.expanded.instr }, r)

/-- The stack pointer adjustment. -/
def stepPushAddi : MacroOut × MacroRegs :=
  let type := currentType i
  let out := outBefore i
  let short : BitVec 12 := if xlen64 then 4 else 0
  let adjust :=
    if i.expanded.isMacro && decide (type = .push) then
      itypeImm xlen64 type i.expanded.instr - short
    else (if i.expanded.isMacro then stackAdj i.expanded.instr xlen64 else 0) - short
  if i.issueAck then
    if i.expanded.isMacro && (decide (type = .popretz) || decide (type = .popret)) then
      ({ out with instr := addi adjust 2 2, fetchStall := true }, { r with state := .popretz1 })
    else
      ({ out with instr := addi adjust 2 2, fetchStall := false, isLast := true },
        { r with state := .idle })
  else ({ out with fetchStall := true }, r)

/-- The second register of a full list. -/
def stepPushPopInstr2 : MacroOut × MacroRegs :=
  let type := currentType i
  let out := { outBefore i with fetchStall := true }
  if type.isMove then ({ out with illegal := true, instr := i.expanded.instr }, r)
  else if i.issueAck then
    ({ out with
        instr :=
          if type = .push then laterStore xlen64 r.offsetQ r.storeRegQ
          else laterLoad xlen64 r.offsetQ r.storeRegQ },
      { r with
        offsetQ := r.offsetQ + 0xffc, storeRegQ := r.storeRegQ - 1, state := .init })
  else (out, r)

/-- The return value and the return. -/
def stepPopretz1 : MacroOut × MacroRegs :=
  let out := outBefore i
  if r.popretzInstQ = 3 then
    let out := { out with fetchStall := true }
    if i.issueAck then
      ({ out with instr := 0#20 ++ 10#5 ++ opcodeLui },
        { r with popretzInstQ := r.popretzInstQ - 1 })
    else (out, r)
  else if r.popretzInstQ = 2 then
    let out := { out with fetchStall := true }
    if i.issueAck then
      ({ out with instr := addi 0 10 10 },
        { r with popretzInstQ := r.popretzInstQ - 1, state := .pushAddi })
    else (out, r)
  else if r.popretzInstQ = 1 then
    if i.issueAck then
      ({ out with
          instr := 0#12 ++ 1#5 ++ 0#3 ++ 0#5 ++ opcodeJalr
          fetchStall := false
          isLast := true },
        { r with popretzInstQ := r.popretzInstQ - 1, state := .idle })
    else (out, r)
  else ({ out with illegal := true, instr := i.expanded.instr }, r)

/-- The outputs and the next registers. -/
def macroDecoder : MacroOut × MacroRegs :=
  match r.state with
  | .idle => stepIdle xlen64 r i
  | .init => stepInit xlen64 r i
  | .move => stepMove r i
  | .pushAddi => stepPushAddi xlen64 r i
  | .pushPopInstr2 => stepPushPopInstr2 xlen64 r i
  | .popretz1 => stepPopretz1 r i

end Decoder

/-! ## `id_stage` -/

/-- The input of `decoder`, as it enters the ID/ISSUE register. -/
structure MicroOp where
  instr : BitVec 32
  illegal : Bool
  isCompressed : Bool
  isMacro : Bool
  isLast : Bool
  isDoubleRd : Bool
  deriving DecidableEq, Repr

structure State where
  macroRegs : MacroRegs
  issueValid : Bool
  issueOp : MicroOp
  deriving DecidableEq

structure Input where
  flush : Bool
  fetchEntryValid : Bool
  instruction : BitVec 32
  issueInstrAck : Bool
  latched : Latched

section Stage

variable (cfg : IdCfg) (s : State) (i : Input)

def macroIn : MacroIn where
  expanded := compressedDecoder cfg i.instruction
  issueAck := i.issueInstrAck
  latched := i.latched

def decoded : MacroOut × MacroRegs := macroDecoder cfg.xlen64 s.macroRegs (macroIn cfg i)

def MacroOut.microOp (out : MacroOut) (isMacro : Bool) : MicroOp where
  instr := out.instr
  illegal := out.illegal
  isCompressed := out.isCompressed
  isMacro := isMacro
  isLast := out.isLast
  isDoubleRd := out.isDoubleRd

def decodedOp : MicroOp :=
  (decoded cfg s i).1.microOp (compressedDecoder cfg i.instruction).isMacro

/-- The ID/ISSUE register takes the decoded instruction. -/
def loads : Bool := !(s.issueValid && !i.issueInstrAck) && i.fetchEntryValid

/-- `fetch_entry_ready_o` -/
def fetchEntryReady : Bool := loads s i && !(decoded cfg s i).1.fetchStall

def next : State where
  macroRegs := (decoded cfg s i).2
  issueValid := !i.flush && (loads s i || s.issueValid && !i.issueInstrAck)
  issueOp := if loads s i then decodedOp cfg s i else s.issueOp

end Stage

def resetRegs : MacroRegs where
  state := .idle
  offsetQ := 0
  popretzInstQ := 0
  regNumbersQ := 0
  storeRegQ := 0

def reset : State where
  macroRegs := resetRegs
  issueValid := false
  issueOp :=
    { instr := 0, illegal := false, isCompressed := false, isMacro := false, isLast := false
      isDoubleRd := false }

/-- The instruction the fetch stage offers and `id_stage` has not consumed yet. -/
def offered (cfg : IdCfg) (cycles : List (State × Input)) : Option (BitVec 32) :=
  cycles.foldl (fun held now =>
    if now.2.flush then none
    else if now.2.fetchEntryValid then
      if fetchEntryReady cfg now.1 now.2 then none else some now.2.instruction
    else held) none

/-- An acknowledge answers a valid entry, and an offered instruction stays until it is
consumed or flushed. -/
def Driven (cfg : IdCfg) (cycles : List (State × Input)) (s : State) (i : Input) : Prop :=
  (i.issueInstrAck = true → s.issueValid = true) ∧
    ∀ held ∈ offered cfg cycles, i.fetchEntryValid = true → i.instruction = held

instance (cfg : IdCfg) (cycles : List (State × Input)) (s : State) (i : Input) :
    Decidable (Driven cfg cycles s i) :=
  -- not by trying all instructions
  let _ : Decidable (∀ held ∈ offered cfg cycles, i.fetchEntryValid = true →
      i.instruction = held) := Option.decidableForallMem _
  inferInstanceAs (Decidable (_ ∧ _))

def machine (cfg : IdCfg) : Clocked.Machine State Input where
  reset := reset
  next := next cfg
  allowed := Driven cfg

instance (cfg : IdCfg) (cycles : List (State × Input)) (s : State) (i : Input) :
    Decidable ((machine cfg).allowed cycles s i) :=
  inferInstanceAs (Decidable (Driven cfg cycles s i))

end Zcmp

end Cva6
