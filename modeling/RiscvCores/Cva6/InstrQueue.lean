import RiscvCores.CommonCells.Lzc
import RiscvCores.Cva6.FifoV3
import RiscvCores.Lib.Clocked

/-!
# The instruction queue `instr_queue`, with compressed instructions

A fetch packet is spread over one queue for each lane, from `idx_is_q` on.  The read
select `idx_ds_q` rotates over the queues, and a queue of target addresses serves all
control flow instructions.  `INSTR_PER_FETCH` is a power of two, so the index
arithmetic of the source is that of `Fin`.
-/

set_option autoImplicit false

namespace Cva6

/-- `cf_t` -/
inductive CfType where
  | noCF | branch | jump | jumpR | ret
  deriving DecidableEq, Repr

/-- `frontend_exception_t` -/
inductive FrontendException where
  | none | instrAccessFault | instrPageFault | instrGuestPageFault
  deriving DecidableEq, Repr

namespace InstrQueue

structure Cfg where
  log2InstrPerFetch : Nat
  several : 0 < log2InstrPerFetch
  vlen : Nat
  xlen : Nat
  gplen : Nat
  superscalarEn : Bool
  rvh : Bool
  tvalEn : Bool
  fpgaEn : Bool
  fpgaAlteraEn : Bool

/-- `INSTR_PER_FETCH` -/
def Cfg.instrPerFetch (cfg : Cfg) : Nat := 2 ^ cfg.log2InstrPerFetch

instance (cfg : Cfg) : NeZero cfg.instrPerFetch :=
  ⟨Nat.ne_of_gt (Nat.two_pow_pos _)⟩

abbrev Lane (cfg : Cfg) : Type := Fin cfg.instrPerFetch

/-- The parameters of the queues inside. -/
def Cfg.fifo (cfg : Cfg) : FifoCfg where
  fallThrough := false
  fpgaEn := cfg.fpgaEn
  fpgaAltera := cfg.fpgaAlteraEn

/-- `instr_data_t` -/
structure InstrData (cfg : Cfg) where
  instr : BitVec 32
  cf : CfType
  ex : FrontendException
  exVaddr : BitVec cfg.vlen
  exGpaddr : BitVec cfg.gplen
  exTinst : BitVec 32
  exGva : Bool
  deriving DecidableEq

def InstrData.zero (cfg : Cfg) : InstrData cfg where
  instr := 0
  cf := .noCF
  ex := .none
  exVaddr := 0
  exGpaddr := 0
  exTinst := 0
  exGva := false

/-- `FETCH_FIFO_DEPTH` -/
def fetchFifoDepth : Nat := 4

/-- `FETCH_ADDR_FIFO_DEPTH` -/
def fetchAddrFifoDepth : Nat := 2

instance : NeZero fetchFifoDepth := ⟨by decide⟩

instance : NeZero fetchAddrFifoDepth := ⟨by decide⟩

structure State (cfg : Cfg) where
  fifoInstrData : Lane cfg → Fifo fetchFifoDepth (InstrData cfg)
  fifoAddress : Fifo fetchAddrFifoDepth (BitVec cfg.vlen)
  idxIs : Lane cfg
  idxDs : Lane cfg → Bool
  pc : BitVec cfg.vlen
  resetAddress : Bool

structure Input (cfg : Cfg) where
  flush : Bool
  instr : Lane cfg → BitVec 32
  addr : Lane cfg → BitVec cfg.vlen
  valid : Lane cfg → Bool
  exception : FrontendException
  exceptionAddr : BitVec cfg.vlen
  exceptionGpaddr : BitVec cfg.gplen
  exceptionTinst : BitVec 32
  exceptionGva : Bool
  predictAddress : BitVec cfg.vlen
  cfType : Lane cfg → CfType
  fetchEntryReady : Fin 2 → Bool

variable {cfg : Cfg}

/-- One of the lanes has the property. -/
def anyLane (p : Lane cfg → Bool) : Bool := (List.finRange cfg.instrPerFetch).any p

section Upstream

variable (s : State cfg) (i : Input cfg)

def instrQueueFull (lane : Lane cfg) : Bool := (s.fifoInstrData lane).full

def instrQueueEmpty (lane : Lane cfg) : Bool :=
  (s.fifoInstrData lane).empty cfg.fifo false

def fullAddress : Bool := s.fifoAddress.full

/-- `ready_o` -/
def ready : Bool := !anyLane (instrQueueFull s) && !fullAddress s

def taken (lane : Lane cfg) : Bool := i.cfType lane != .noCF

/-- The first taken lane, or the last lane. -/
def branchIndex : Nat :=
  CommonCells.lzcCnt cfg.instrPerFetch fun k => taken i (Fin.ofNat cfg.instrPerFetch k)

/-- The upper bits of the lanes' ones, shifted by the branch index. -/
def branchMask (lane : Lane cfg) : Bool :=
  let bit := cfg.instrPerFetch - 1 + lane.val
  decide (branchIndex i ≤ bit ∧ bit - branchIndex i < cfg.instrPerFetch)

/-- `valid` -/
def unmasked (lane : Lane cfg) : Bool := i.valid lane && branchMask i lane

/-- Lanes rotated left by the current position. -/
def fifoPos (fifo : Lane cfg) : Bool := unmasked i (fifo - s.idxIs)

def pushInstr (fifo : Lane cfg) : Bool := fifoPos s i fifo && !instrQueueFull s fifo

/-- What is recorded of an instruction. -/
def laneData (lane : Lane cfg) : InstrData cfg where
  instr := i.instr lane
  cf := i.cfType lane
  ex := i.exception
  exVaddr := i.exceptionAddr
  exGpaddr := if cfg.rvh then i.exceptionGpaddr else 0
  exTinst := if cfg.rvh then i.exceptionTinst else 0
  exGva := cfg.rvh && i.exceptionGva

def instrDataIn (fifo : Lane cfg) : InstrData cfg := laneData i (fifo - s.idxIs)

def pushAddress : Bool :=
  anyLane fun fifo => pushInstr s i fifo && (instrDataIn s i fifo).cf != .noCF

def addressOverflow : Bool := fullAddress s && pushAddress s i

def pushInstrFifo (fifo : Lane cfg) : Bool := pushInstr s i fifo && !addressOverflow s i

/-- `consumed_o` -/
def consumed (lane : Lane cfg) : Bool := pushInstrFifo s i (lane + s.idxIs)

def popcount : Nat := (List.finRange cfg.instrPerFetch).countP (pushInstrFifo s i)

def shamt : Lane cfg := Fin.ofNat cfg.instrPerFetch (popcount s i)

def instrOverflow : Bool := anyLane fun fifo => instrQueueFull s fifo && fifoPos s i fifo

/-- `replay_o` -/
def replay : Bool := instrOverflow s i || addressOverflow s i

/-- `replay_addr_o` -/
def replayAddr : BitVec cfg.vlen :=
  if addressOverflow s i then i.addr 0 else i.addr (shamt s i)

end Upstream

/-- `exception_t` -/
structure Exception (cfg : Cfg) where
  valid : Bool
  cause : BitVec cfg.xlen
  tval : BitVec cfg.xlen
  tval2 : BitVec cfg.gplen
  tinst : BitVec 32
  gva : Bool
  deriving DecidableEq

/-- `fetch_entry_t` -/
structure FetchEntry (cfg : Cfg) where
  address : BitVec cfg.vlen
  instruction : BitVec 32
  predictAddress : BitVec cfg.vlen
  cf : CfType
  ex : Exception cfg
  deriving DecidableEq

def instrAccessFault (cfg : Cfg) : BitVec cfg.xlen := 1

def instrPageFault (cfg : Cfg) : BitVec cfg.xlen := 12

def instrGuestPageFault (cfg : Cfg) : BitVec cfg.xlen := 20

/-- `'d2` or `'d4` -/
def instrLength (cfg : Cfg) (instr : BitVec 32) : BitVec cfg.vlen :=
  if instr.extractLsb' 0 2 ≠ 3#2 then 2 else 4

section Downstream

variable (s : State cfg)

def rotateLeft (select : Lane cfg → Bool) : Lane cfg → Bool := fun lane => select (lane - 1)

/-- `idx_ds[1]` -/
def idxDs1 : Lane cfg → Bool := rotateLeft s.idxDs

/-- `idx_ds[2]` -/
def idxDs2 : Lane cfg → Bool := rotateLeft (idxDs1 s)

/-- `data_o` of a queue that does not fall through. -/
def instrDataOut (fifo : Lane cfg) : InstrData cfg := (s.fifoInstrData fifo).stored cfg.fifo

def addressOut : BitVec cfg.vlen := s.fifoAddress.stored cfg.fifo

/-- The queue whose assignment comes last in the output mux. -/
def selected (select : Lane cfg → Bool) : Option (Lane cfg) :=
  ((List.finRange cfg.instrPerFetch).filter select).getLast?

/-- A fetch entry in front of the output mux. -/
def emptyEntry (address : BitVec cfg.vlen) : FetchEntry cfg where
  address := address
  instruction := 0
  predictAddress := addressOut s
  cf := .noCF
  ex := { valid := false, cause := 0, tval := 0, tval2 := 0, tinst := 0, gva := false }

/-- `fetch_entry_o[0]` -/
def fetchEntry0 : FetchEntry cfg :=
  match selected s.idxDs with
  | none => emptyEntry s s.pc
  | some fifo =>
      let data := instrDataOut s fifo
      { emptyEntry s s.pc with
        instruction := data.instr
        cf := data.cf
        ex := {
          valid := data.ex != .none
          cause :=
            if data.ex = .instrAccessFault then instrAccessFault cfg
            else if cfg.rvh ∧ data.ex = .instrGuestPageFault then instrGuestPageFault cfg
            else instrPageFault cfg
          tval := if cfg.tvalEn then data.exVaddr.setWidth cfg.xlen else 0
          tval2 := if cfg.rvh then data.exGpaddr else 0
          tinst := if cfg.rvh then data.exTinst else 0
          gva := cfg.rvh && data.exGva } }

def isCf0 : Bool := (fetchEntry0 s).cf != .noCF

/-- `pc_j[1]` -/
def pcJ1 : BitVec cfg.vlen :=
  if isCf0 s then addressOut s else s.pc + instrLength cfg (fetchEntry0 s).instruction

/-- `fetch_entry_o[1]` of two issue ports; the exception carries no guest information. -/
def fetchEntry1 : FetchEntry cfg :=
  match selected (idxDs1 s) with
  | none => emptyEntry s (pcJ1 s)
  | some fifo =>
      let data := instrDataOut s fifo
      { emptyEntry s (pcJ1 s) with
        instruction := data.instr
        cf := data.cf
        ex := {
          valid := data.ex != .none
          cause :=
            if data.ex = .instrAccessFault then instrAccessFault cfg else instrPageFault cfg
          tval := data.exVaddr.setWidth cfg.xlen
          tval2 := 0
          tinst := 0
          gva := false } }

def isCf1 : Bool := (fetchEntry1 s).cf != .noCF

/-- `pc_j[2]` -/
def pcJ2 : BitVec cfg.vlen :=
  if isCf1 s then addressOut s else pcJ1 s + instrLength cfg (fetchEntry1 s).instruction

/-- `fetch_entry_valid_o[0]` -/
def fetchEntryValid0 : Bool := anyLane fun fifo => !instrQueueEmpty s fifo

/-- `fetch_entry_valid_o[1]` -/
def fetchEntryValid1 : Bool :=
  cfg.superscalarEn && !(anyLane fun fifo => instrQueueEmpty s fifo && idxDs1 s fifo) &&
    !(isCf0 s && isCf1 s)

variable (i : Input cfg)

def fire0 : Bool := fetchEntryValid0 s && i.fetchEntryReady 0

def fire1 : Bool := fetchEntryValid1 s && i.fetchEntryReady 1

def popInstr (fifo : Lane cfg) : Bool :=
  if cfg.superscalarEn && idxDs1 s fifo then fire1 s i
  else if s.idxDs fifo then fire0 s i
  else false

def popAddress : Bool := isCf0 s && fire0 s i || isCf1 s && fire1 s i

end Downstream

section Registers

variable (s : State cfg) (i : Input cfg)

def idxDsD : Lane cfg → Bool :=
  if fire0 s i then if fire1 s i then idxDs2 s else idxDs1 s else s.idxDs

/-- The first instruction behind a flush arrives. -/
def basing : Bool := i.valid 0 && s.resetAddress

def pcD : BitVec cfg.vlen :=
  if basing s i then i.addr 0
  else if fire0 s i then if fire1 s i then pcJ2 s else pcJ1 s
  else s.pc

def resetAddressD : Bool := !basing s i && (i.flush || s.resetAddress)

/-- The inputs of the queue of a lane. -/
def fifoIn (fifo : Lane cfg) : FifoIn (InstrData cfg) where
  flush := i.flush
  push := pushInstrFifo s i fifo
  data := instrDataIn s i fifo
  pop := popInstr s i fifo

/-- The inputs of the queue of addresses. -/
def addressIn : FifoIn (BitVec cfg.vlen) where
  flush := i.flush
  push := pushAddress s i && !fullAddress s
  data := i.predictAddress
  pop := popAddress s i

def onlyFirst : Lane cfg → Bool := fun lane => lane == 0

def next : State cfg where
  fifoInstrData fifo :=
    (s.fifoInstrData fifo).cycle cfg.fifo (fifoIn s i fifo) (InstrData.zero cfg)
  fifoAddress := s.fifoAddress.cycle cfg.fifo (addressIn s i) 0
  idxIs := if i.flush then 0 else s.idxIs + shamt s i
  idxDs := if i.flush then onlyFirst else idxDsD s i
  pc := pcD s i
  resetAddress := i.flush || resetAddressD s i

end Registers

def reset (cfg : Cfg) : State cfg where
  fifoInstrData _ := Fifo.reset (InstrData.zero cfg)
  fifoAddress := Fifo.reset 0
  idxIs := 0
  idxDs := onlyFirst
  pc := 0
  resetAddress := true

/-! ## The stream of instructions -/

/-- An instruction as it is consumed. -/
structure Consumed (cfg : Cfg) where
  address : BitVec cfg.vlen
  data : InstrData cfg
  target : BitVec cfg.vlen

/-- The address of the instruction that follows on the predicted path. -/
def Consumed.follower (c : Consumed cfg) : BitVec cfg.vlen :=
  if c.data.cf ≠ .noCF then c.target else c.address + instrLength cfg c.data.instr

def laneConsumed (i : Input cfg) (lane : Lane cfg) : Consumed cfg where
  address := i.addr lane
  data := laneData i lane
  target := i.predictAddress

/-- The instructions a cycle consumes, in program order. -/
def consumedNow (s : State cfg) (i : Input cfg) : List (Consumed cfg) :=
  ((List.finRange cfg.instrPerFetch).filter (consumed s i)).map (laneConsumed i)

/-- The entries a cycle pops, in program order. -/
def poppedNow (s : State cfg) (i : Input cfg) : List (FetchEntry cfg) :=
  (if fire0 s i then [fetchEntry0 s] else []) ++ if fire1 s i then [fetchEntry1 s] else []

/-- The address the next packet starts at; none behind a flush. -/
def expected (cycles : List (State cfg × Input cfg)) : Option (BitVec cfg.vlen) :=
  cycles.foldl (fun at? now =>
    if now.2.flush then none
    else if replay now.1 now.2 then some (replayAddr now.1 now.2)
    else (((consumedNow now.1 now.2).getLast?).map Consumed.follower).or at?) none

/-- The packets continue the consumed path, lane behind lane, and the second port is
ready only with the first one. -/
structure Driven (cycles : List (State cfg × Input cfg)) (i : Input cfg) : Prop where
  contiguous : ∀ lane, i.valid lane = true → ∀ earlier ≤ lane, i.valid earlier = true
  starts : i.valid 0 = true → ∀ address ∈ expected cycles, i.addr 0 = address
  lanes : ∀ lane : Lane cfg, lane ≠ 0 → i.valid lane = true →
    i.addr lane = i.addr (lane - 1) + instrLength cfg (i.instr (lane - 1))
  together : i.fetchEntryReady 1 = true → i.fetchEntryReady 0 = true

def machine (cfg : Cfg) : Clocked.Machine (State cfg) (Input cfg) where
  reset := reset cfg
  next := next
  allowed cycles _ i := Driven cycles i

end InstrQueue

end Cva6
