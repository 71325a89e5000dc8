import RiscvCores.Lib.Clocked
import Mathlib.Data.BitVec

/-!
# Table jumps in the single-issue `id_stage`

`zcmt_decoder` reads the jump table through a port of the data cache and shows a `JAL`
to `decoder`.  This is `XLEN = 32`, without an MMU.  As `instr_o` is not assigned in
every branch it is a latch, whose value is an input of the model; so are the outputs of
the macro decoder, which stand for every other instruction.  The ID/ISSUE register keeps
the inputs of `decoder` in place of its outputs.
-/

set_option autoImplicit false

namespace Cva6.Zcmt

def opcodeJal : BitVec 7 := 0b1101111

/-- `is_zcmt_instr_o` of `compressed_decoder`, which leaves the instruction as it is. -/
def isZcmtInstr (instr : BitVec 32) : Bool :=
  instr.extractLsb' 0 2 == 2#2 && instr.extractLsb' 13 3 == 5#3 && instr.extractLsb' 10 3 == 0#3

/-- The index that `cm.jt` and `cm.jalt` encode. -/
def tableIndex (instr : BitVec 32) : BitVec 8 := instr.extractLsb' 2 8

/-! ## `zcmt_decoder` -/

inductive TableState where
  | idle | tableJump
  deriving DecidableEq, Repr

/-- The fields of `req_port_o` that depend on the branch. -/
structure DcacheReq where
  dataReq : Bool
  addressIndex : BitVec 10
  addressTag : BitVec 22
  dataWe : Bool
  dataSize : BitVec 2
  tagValid : Bool
  killReq : Bool
  deriving DecidableEq, Repr

/-- The address that index and tag make up. -/
def DcacheReq.address (req : DcacheReq) : BitVec 32 := req.addressTag ++ req.addressIndex

structure DecoderIn where
  instr : BitVec 32
  pc : BitVec 32
  isZcmt : Bool
  illegal : Bool
  isCompressed : Bool
  jvtBase : BitVec 26
  dataRvalid : Bool
  dataRdata : BitVec 32
  /-- What the latch of `instr_o` shows. -/
  latched : BitVec 32

structure DecoderOut where
  instr : BitVec 32
  illegal : Bool
  isCompressed : Bool
  fetchStall : Bool
  jumpAddress : BitVec 32
  req : DcacheReq
  deriving DecidableEq, Repr

def tableAddress (jvtBase : BitVec 26) (instr : BitVec 32) : BitVec 32 :=
  (jvtBase ++ 0#6) + (0#24 ++ instr.extractLsb' 2 6 ++ 0#2)

/-- The port at rest; index and tag are not read then. -/
def noReq : DcacheReq where
  dataReq := false
  addressIndex := 0
  addressTag := 0
  dataWe := false
  dataSize := 2#2
  tagValid := true
  killReq := false

def tableReq (address : BitVec 32) : DcacheReq :=
  { noReq with
    dataReq := true
    addressIndex := address.extractLsb' 0 10
    addressTag := address.extractLsb' 10 22 }

/-- The `JAL` shown to `decoder`, which takes its offset from `jump_address_o`. -/
def jalWithLink (link : BitVec 5) : BitVec 32 := 0#20 ++ link ++ opcodeJal

def zcmtDecoder (state : TableState) (i : DecoderIn) : DecoderOut × TableState :=
  let out : DecoderOut :=
    { instr := i.latched, illegal := false, isCompressed := i.isZcmt || i.isCompressed
      fetchStall := false, jumpAddress := 0, req := noReq }
  match state with
  | .idle =>
      if i.isZcmt then
        ({ out with fetchStall := true, req := tableReq (tableAddress i.jvtBase i.instr) },
          .tableJump)
      else ({ out with illegal := i.illegal, instr := i.instr }, .idle)
  | .tableJump =>
      if i.dataRvalid then
        let jumpAddress := i.dataRdata - i.pc
        if tableIndex i.instr < 32 then
          ({ out with jumpAddress := jumpAddress, instr := jalWithLink 0 }, .idle)
        else
          ({ out with jumpAddress := jumpAddress, instr := jalWithLink 1 }, .idle)
      else (out, .tableJump)

/-! ## The stage around it -/

/-- The inputs of `decoder` that an entry of the ID/ISSUE register was made from. -/
structure Decoded where
  pc : BitVec 32
  isZcmt : Bool
  jumpAddress : BitVec 32
  illegal : Bool
  isCompressed : Bool
  instr : BitVec 32
  deriving DecidableEq, Repr

/-- `rd` and the immediate of a jump, as `decoder` selects them. -/
def Decoded.jump (d : Decoded) : Option (BitVec 5 × BitVec 32) :=
  if d.instr.extractLsb' 0 7 = opcodeJal then
    some (d.instr.extractLsb' 7 5,
      if d.isZcmt then d.jumpAddress
      else (BitVec.ofBool (d.instr.getLsbD 31) ++ d.instr.extractLsb' 12 8 ++
        d.instr.extractLsb' 20 1 ++ d.instr.extractLsb' 21 10 ++ 0#1).signExtend 32)
  else none

/-- `rd` and the `target_address` of `branch_unit`. -/
def Decoded.linkAndTarget (d : Decoded) : Option (BitVec 5 × BitVec 32) :=
  d.jump.map fun (link, imm) => (link, d.pc + imm)

structure IdRegs where
  decoder : TableState
  issueValid : Bool
  issue : Decoded
  /-- The reads the data cache has granted and not answered, the oldest one in front. -/
  pending : List (BitVec 32)
  deriving DecidableEq, Repr

/-- What the macro decoder and the coprocessor answer for other instructions. -/
structure OtherIn where
  instr : BitVec 32
  illegal : Bool
  isCompressed : Bool
  stall : Bool
  compressedReady : Bool
  compressedAccept : Bool
  compressedInstr : BitVec 32

structure IdIn where
  flush : Bool
  fetchValid : Bool
  fetchInstr : BitVec 32
  fetchPc : BitVec 32
  issueAck : Bool
  jvtBase : BitVec 26
  dataGnt : Bool
  dataRvalid : Bool
  dataRdata : BitVec 32
  latched : BitVec 32
  /-- `is_illegal_rvc`, `is_compressed_rvc` and the instruction for other encodings. -/
  rvcInstr : BitVec 32
  rvcIllegal : Bool
  rvcIsCompressed : Bool
  other : OtherIn

variable (cvxifEn : Bool) (s : IdRegs) (i : IdIn)

def IdIn.isZcmt : Bool := isZcmtInstr i.fetchInstr

def decoderIn : DecoderIn where
  instr := if i.isZcmt then i.fetchInstr else i.rvcInstr
  pc := i.fetchPc
  isZcmt := i.isZcmt
  illegal := !i.isZcmt && i.rvcIllegal
  isCompressed := i.isZcmt || i.rvcIsCompressed
  jvtBase := i.jvtBase
  dataRvalid := i.dataRvalid
  dataRdata := i.dataRdata
  latched := i.latched

def decoderOut : DecoderOut := (zcmtDecoder s.decoder (decoderIn i)).1

/-- `instruction_cvxif_i`, `is_illegal_cvxif_i`, `is_compressed_cvxif_i` and
`stall_macro_deco`. -/
def selected : BitVec 32 × Bool × Bool × Bool :=
  if i.isZcmt then
    let out := decoderOut s i
    (out.instr, out.illegal, out.isCompressed, out.fetchStall)
  else (i.other.instr, i.other.illegal, i.other.isCompressed, i.other.stall)

/-- The outputs of `cvxif_compressed_if_driver`, or its inputs without it; the last one is
`stall_instr_fetch`. -/
def driven : BitVec 32 × Bool × Bool × Bool :=
  let (instr, illegal, isCompressed, stall) := selected s i
  if cvxifEn && illegal then
    (if i.other.compressedAccept then i.other.compressedInstr else instr,
      !i.other.compressedAccept, if i.other.compressedAccept then false else isCompressed,
      if stall then true else !i.other.compressedReady)
  else (instr, illegal, isCompressed, stall)

def stallInstrFetch : Bool := (driven cvxifEn s i).2.2.2

def decodedInstructionValid : Bool :=
  !(i.isZcmt && (decoderOut s i).fetchStall ||
    cvxifEn && (selected s i).2.1 && !(selected s i).2.2.2 && stallInstrFetch cvxifEn s i)

def decoded : Decoded where
  pc := i.fetchPc
  isZcmt := i.isZcmt
  jumpAddress := (decoderOut s i).jumpAddress
  illegal := (driven cvxifEn s i).2.1
  isCompressed := (driven cvxifEn s i).2.2.1
  instr := (driven cvxifEn s i).1

/-- The ID/ISSUE register can take an entry. -/
def free : Bool := !s.issueValid || i.issueAck

/-- The entry of the fetch queue is put into the ID/ISSUE register. -/
def takes : Bool := free s i && i.fetchValid

/-- `fetch_entry_ready_o` -/
def fetchEntryReady : Bool := takes s i && !stallInstrFetch cvxifEn s i

/-- The data cache performs the read that is requested. -/
def granted : Bool := (decoderOut s i).req.dataReq && i.dataGnt

def next : IdRegs where
  decoder := (zcmtDecoder s.decoder (decoderIn i)).2
  issueValid :=
    if i.flush then false
    else if takes s i then decodedInstructionValid cvxifEn s i
    else s.issueValid && !i.issueAck
  issue := if takes s i then decoded cvxifEn s i else s.issue
  pending :=
    (if i.dataRvalid then s.pending.tail else s.pending) ++
      if granted s i then [(decoderOut s i).req.address] else []

def IdRegs.reset : IdRegs where
  decoder := .idle
  issueValid := false
  issue := { pc := 0, isZcmt := false, jumpAddress := 0, illegal := false
             isCompressed := false, instr := 0 }
  pending := []

/-- The fetch queue keeps an entry that was neither taken nor flushed. -/
def keepsEntry (cycles : List (IdRegs × IdIn)) : Prop :=
  ∀ last ∈ cycles.getLast?, last.2.fetchValid = true →
    fetchEntryReady cvxifEn last.1 last.2 = false → last.2.flush = false →
    i.fetchValid = true ∧ i.fetchInstr = last.2.fetchInstr ∧ i.fetchPc = last.2.fetchPc

instance (cycles : List (IdRegs × IdIn)) : Decidable (keepsEntry cvxifEn i cycles) := by
  unfold keepsEntry
  infer_instance

/-- The stage over a data cache that answers each granted read once, in order, with the
word of the table at its address, whenever it likes. -/
def machine (table : BitVec 32 → BitVec 32) : Clocked.Machine IdRegs IdIn where
  reset := IdRegs.reset
  next := next cvxifEn
  allowed cycles s i :=
    (i.issueAck = true → s.issueValid = true) ∧
      (i.dataRvalid = true → s.pending.head?.map table = some i.dataRdata) ∧
      keepsEntry cvxifEn i cycles

instance (table : BitVec 32 → BitVec 32) (cycles : List (IdRegs × IdIn)) (s : IdRegs)
    (i : IdIn) : Decidable ((machine cvxifEn table).allowed cycles s i) :=
  inferInstanceAs (Decidable (_ ∧ _ ∧ _))

end Cva6.Zcmt
