import Mathlib.Data.Nat.Log
import Mathlib.Data.Fintype.Pi
import RiscvCores.Lib.BoundedCount
import RiscvCores.Lib.Clocked

/-!
# The AXI adapter of the write-back cache

`axi_adapter` with `CRITICAL_WORD_FIRST = 0`: one function for each state, and the responses
to earlier writes, which any state takes.  The constant fields of the AXI channels are left
out.
-/

set_option autoImplicit false

namespace Cva6.LineAdapter

structure Cfg where
  /-- `DATA_WIDTH / AxiDataWidth`. -/
  words : Nat
  words_pos : 0 < words
  axiDataWidth : Nat
  axiIdWidth : Nat
  xlen : Nat
  cachelineByteOffset : Nat
  /-- `MAX_OUTSTANDING_AW`. -/
  maxOutstandingAw : Nat

namespace Cfg

variable (cfg : Cfg)

/-- `BURST_SIZE`. -/
def burstSize : Nat := cfg.words - 1

/-- `ADDR_INDEX`. -/
def addrIndex : Nat := if 0 < Nat.clog 2 cfg.words then Nat.clog 2 cfg.words else 1

/-- `BURST_SIZE[ADDR_INDEX-1:0]`. -/
def burst : BitVec cfg.addrIndex := BitVec.ofNat _ cfg.burstSize

/-- `BURST_SIZE[7:0]`. -/
def burstLen : BitVec 8 := BitVec.ofNat 8 cfg.burstSize

abbrev Word : Type := BitVec cfg.axiDataWidth

abbrev Strb : Type := BitVec (cfg.axiDataWidth / 8)

abbrev Id : Type := BitVec cfg.axiIdWidth

end Cfg

/-- `ad_req_t`. -/
inductive AdReq
  | singleReq
  | cacheLineReq
  deriving DecidableEq, Repr

/-- `amo_t`. -/
inductive Amo
  | none | lr | sc | swap | add | and | or | xor | max | maxu | min | minu | cas1 | cas2
  deriving DecidableEq, Repr

/-- `atop_from_amo`. -/
def atopFromAmo : Amo → BitVec 6
  | .swap => 0b110000#6
  | .add => 0b100000#6
  | .and => 0b100001#6
  | .or => 0b100011#6
  | .xor => 0b100010#6
  | .max => 0b100100#6
  | .maxu => 0b100110#6
  | .min => 0b100101#6
  | .minu => 0b100111#6
  | .none | .lr | .sc | .cas1 | .cas2 => 0b000000#6

/-- `amo_returns_data`. -/
def amoReturnsData (amo : Amo) : Bool :=
  let atop := atopFromAmo amo
  atop.extractLsb' 4 2 == 0b10#2 || atop.extractLsb' 4 2 == 0b11#2

/-- What the requester drives beside `req_i`. -/
structure Request (cfg : Cfg) where
  type : AdReq
  amo : Amo
  addr : BitVec cfg.xlen
  we : Bool
  wdata : Fin cfg.words → cfg.Word
  be : Fin cfg.words → cfg.Strb
  size : BitVec 2
  id : cfg.Id
  deriving DecidableEq

structure Aw (cfg : Cfg) where
  addr : BitVec cfg.xlen
  len : BitVec 8
  size : BitVec 2
  id : cfg.Id
  atop : BitVec 6
  deriving DecidableEq

structure Ar (cfg : Cfg) where
  addr : BitVec cfg.xlen
  len : BitVec 8
  size : BitVec 2
  id : cfg.Id
  lock : Bool
  deriving DecidableEq

structure W (cfg : Cfg) where
  data : cfg.Word
  strb : cfg.Strb
  last : Bool
  deriving DecidableEq

structure R (cfg : Cfg) where
  id : cfg.Id
  data : cfg.Word
  last : Bool

structure B (cfg : Cfg) where
  id : cfg.Id
  resp : BitVec 2

structure Input (cfg : Cfg) where
  req : Bool
  request : Request cfg
  awReady : Bool
  wReady : Bool
  arReady : Bool
  rValid : Bool
  r : R cfg
  bValid : Bool
  b : B cfg

inductive State
  | idle
  | waitBValid
  | waitAwReady
  | waitLastWReady
  | waitLastWReadyAwReady
  | waitAwReadyBurst
  | waitRValid
  | waitRValidMultiple
  | completeRead
  | waitAmoRValid
  deriving DecidableEq, Repr

structure Regs (cfg : Cfg) where
  state : State
  cnt : BitVec cfg.addrIndex
  cacheLine : Fin cfg.words → cfg.Word
  addrOffset : BitVec cfg.addrIndex
  id : cfg.Id
  amo : Amo
  size : BitVec 2
  outstandingAwCnt : Nat

structure Out (cfg : Cfg) where
  awValid : Bool
  aw : Aw cfg
  awLock : Bool
  arValid : Bool
  ar : Ar cfg
  wValid : Bool
  w : W cfg
  bReady : Bool
  rReady : Bool
  gnt : Bool
  valid : Bool
  rdata : Fin cfg.words → cfg.Word
  id : cfg.Id
  criticalWord : cfg.Word
  criticalWordValid : Bool

/-- The outputs of a cycle and the next registers. -/
structure Step (cfg : Cfg) where
  next : Regs cfg
  out : Out cfg

variable {cfg : Cfg}

/-- A word of a packed vector; an index past its end reads no defined value. -/
def word {n w : Nat} (xs : Fin n → BitVec w) (k : Nat) : BitVec w :=
  if inside : k < n then xs ⟨k, inside⟩ else 0

/-- Writing past the end of a packed vector has no effect. -/
def setWord {n w : Nat} (xs : Fin n → BitVec w) (k : Nat) (x : BitVec w) : Fin n → BitVec w :=
  fun j => if j.val = k then x else xs j

/-- The address of a line read starts the line. -/
def Request.arAddr (r : Request cfg) : BitVec cfg.xlen :=
  if r.type = .singleReq then r.addr
  else (r.addr >>> cfg.cachelineByteOffset) <<< cfg.cachelineByteOffset

/-- `addr_i[ADDR_INDEX-1+3:3]`. -/
def Request.offset (r : Request cfg) : BitVec cfg.addrIndex := r.addr.extractLsb' 3 cfg.addrIndex

/-- The default assignments. -/
def defaults (s : Regs cfg) (i : Input cfg) : Step cfg where
  next := s
  out :=
    { awValid := false
      aw :=
        { addr := i.request.addr, len := 0, size := i.request.size, id := i.request.id
          atop := atopFromAmo i.request.amo }
      awLock := false
      arValid := false
      ar :=
        { addr := i.request.arAddr, len := 0, size := i.request.size, id := i.request.id
          lock := false }
      wValid := false
      w := { data := word i.request.wdata 0, strb := word i.request.be 0, last := false }
      bReady := false
      rReady := false
      gnt := false
      valid := false
      rdata := s.cacheLine
      id := i.r.id
      criticalWord := i.r.data
      criticalWordValid := false }

/-- A write may follow outstanding ones only in their order. -/
def mayWrite (s : Regs cfg) (r : Request cfg) : Bool :=
  s.outstandingAwCnt == 0 || r.id == s.id && r.amo == .none

/-- `IDLE` with a write that may be sent. -/
def idleWrite (s : Regs cfg) (i : Input cfg) : Step cfg :=
  let c := defaults s i
  let out := { c.out with awValid := true, wValid := true, awLock := i.request.amo == Amo.sc }
  match i.request.type with
  | .singleReq =>
      { next :=
          { s with
            cnt := 0
            state :=
              match i.awReady, i.wReady with
              | true, true => .waitBValid
              | false, true => .waitAwReady
              | true, false => .waitLastWReady
              | false, false => .idle
            id := if i.awReady then i.request.id else s.id
            amo := if i.awReady then i.request.amo else s.amo
            size := if i.awReady then i.request.size else s.size }
        out := { out with w := { out.w with last := true }, gnt := i.awReady && i.wReady } }
  | .cacheLineReq =>
      { next :=
          { s with
            cnt := if i.wReady then cfg.burst - 1 else cfg.burst
            state :=
              match i.awReady, i.wReady with
              | true, true => .waitLastWReady
              | false, true => .waitLastWReadyAwReady
              | true, false => .waitLastWReady
              | false, false => .idle }
        out := { out with aw := { out.aw with len := cfg.burstLen } } }

/-- `IDLE` with a read that may be sent. -/
def idleRead (s : Regs cfg) (i : Input cfg) : Step cfg :=
  let c := defaults s i
  let line := i.request.type != .singleReq
  { next :=
      { s with
        cnt := if line then cfg.burst else 0
        state :=
          if i.arReady then (if line then .waitRValidMultiple else .waitRValid) else .idle
        addrOffset := if i.arReady then i.request.offset else s.addrOffset }
    out :=
      { c.out with
        arValid := true
        ar :=
          { c.out.ar with
            lock := i.request.amo == .lr, len := if line then cfg.burstLen else 0 }
        gnt := i.arReady } }

def idle (s : Regs cfg) (i : Input cfg) : Step cfg :=
  let rest : Step cfg := { defaults s i with next := { s with cnt := 0 } }
  if i.req then
    if i.request.we then
      if mayWrite s i.request then idleWrite s i else rest
    else if s.outstandingAwCnt == 0 then idleRead s i
    else rest
  else rest

/-- The beat of a line at the current count. -/
def lineBeat (s : Regs cfg) (r : Request cfg) (last : Bool) : W cfg where
  data := word r.wdata (cfg.burst - s.cnt).toNat
  strb := word r.be (cfg.burst - s.cnt).toNat
  last := last

def waitAwReady (s : Regs cfg) (i : Input cfg) : Step cfg :=
  let c := defaults s i
  { next :=
      if i.awReady then
        { s with
          state := .waitBValid, id := i.request.id, amo := i.request.amo
          size := i.request.size }
      else s
    out := { c.out with awValid := true, gnt := i.awReady } }

def waitLastWReadyAwReady (s : Regs cfg) (i : Input cfg) : Step cfg :=
  let c := defaults s i
  let last := s.cnt == 0
  { next :=
      match i.awReady, i.wReady with
      | false, true =>
          if last then { s with state := .waitAwReadyBurst } else { s with cnt := s.cnt - 1 }
      | true, false => { s with state := .waitLastWReady }
      | true, true =>
          if last then { s with state := .waitBValid }
          else { s with state := .waitLastWReady, cnt := s.cnt - 1 }
      | false, false => s
    out :=
      { c.out with
        wValid := true
        w :=
          if i.request.type = .singleReq then { c.out.w with last := last }
          else lineBeat s i.request last
        awValid := true
        aw := { c.out.aw with len := cfg.burstLen }
        gnt := i.awReady && i.wReady && last } }

def waitAwReadyBurst (s : Regs cfg) (i : Input cfg) : Step cfg :=
  let c := defaults s i
  { next := if i.awReady then { s with state := .waitBValid } else s
    out :=
      { c.out with
        awValid := true, aw := { c.out.aw with len := cfg.burstLen }, gnt := i.awReady } }

def waitLastWReady (s : Regs cfg) (i : Input cfg) : Step cfg :=
  let c := defaults s i
  let last := s.cnt == 0
  { next :=
      if i.wReady then
        (if last then { s with state := .waitBValid } else { s with cnt := s.cnt - 1 })
      else s
    out :=
      { c.out with
        wValid := true
        w :=
          if i.request.type = .singleReq then { c.out.w with last := last }
          else lineBeat s i.request last
        gnt := last && i.wReady } }

/-- The vector that a word fills from below. -/
def zeroExtended (x : Nat) : Fin cfg.words → cfg.Word :=
  fun k => BitVec.ofNat _ (x >>> (cfg.axiDataWidth * k.val))

/-- What a store-conditional returns. -/
def scResult (s : Regs cfg) (b : B cfg) : Nat :=
  if b.resp = 0b01#2 then 0 else if s.size = 0b10#2 then 2 ^ 32 + 1 else 1

def waitBValid (s : Regs cfg) (i : Input cfg) : Step cfg :=
  let c := defaults s i
  let out := { c.out with id := i.b.id }
  if i.bValid && s.outstandingAwCnt == 0 then
    if amoReturnsData s.amo then
      if i.rValid then
        { next := { s with state := .idle }
          out :=
            { out with
              bReady := true, valid := true, rReady := true
              rdata := zeroExtended i.r.data.toNat } }
      else
        { next := { s with state := .waitAmoRValid }, out := { out with bReady := true } }
    else
      { next := { s with state := .idle }
        out :=
          { out with
            bReady := true, valid := true
            rdata := if s.amo = .sc then zeroExtended (scResult s i.b) else out.rdata } }
  else if s.amo == .none && s.outstandingAwCnt != cfg.maxOutstandingAw then
    { next :=
        { s with
          state := .idle
          outstandingAwCnt := BoundedCount.incr cfg.maxOutstandingAw s.outstandingAwCnt }
      out := out }
  else { next := s, out := out }

def waitAmoRValid (s : Regs cfg) (i : Input cfg) : Step cfg :=
  let c := defaults s i
  if i.rValid then
    { next := { s with state := .idle }
      out :=
        { c.out with rReady := true, valid := true, rdata := zeroExtended i.r.data.toNat } }
  else c

/-- `WAIT_R_VALID_MULTIPLE` and `WAIT_R_VALID`. -/
def waitRValid (s : Regs cfg) (i : Input cfg) : Step cfg :=
  let c := defaults s i
  let index := cfg.burst - s.cnt
  let out := { c.out with rReady := true }
  if i.rValid then
    { next :=
        { s with
          id := if i.r.last then i.r.id else s.id
          state := if i.r.last then .completeRead else s.state
          cacheLine :=
            if s.state = .waitRValidMultiple then setWord s.cacheLine index.toNat i.r.data
            else setWord s.cacheLine 0 i.r.data
          cnt := s.cnt - 1 }
      out := { out with criticalWordValid := index == s.addrOffset } }
  else { next := s, out := out }

def completeRead (s : Regs cfg) (i : Input cfg) : Step cfg :=
  let c := defaults s i
  { next := { s with state := .idle }, out := { c.out with valid := true, id := s.id } }

def fsm (s : Regs cfg) (i : Input cfg) : Step cfg :=
  match s.state with
  | .idle => idle s i
  | .waitBValid => waitBValid s i
  | .waitAwReady => waitAwReady s i
  | .waitLastWReady => waitLastWReady s i
  | .waitLastWReadyAwReady => waitLastWReadyAwReady s i
  | .waitAwReadyBurst => waitAwReadyBurst s i
  | .waitRValid | .waitRValidMultiple => waitRValid s i
  | .completeRead => completeRead s i
  | .waitAmoRValid => waitAmoRValid s i

/-- A response to an outstanding write is taken. -/
def takesB (s : Regs cfg) (i : Input cfg) : Bool := s.outstandingAwCnt != 0 && i.bValid

/-- A cycle, with the responses to outstanding writes. -/
def step (s : Regs cfg) (i : Input cfg) : Step cfg :=
  let c := fsm s i
  if takesB s i then
    { next :=
        { c.next with
          outstandingAwCnt :=
            BoundedCount.decr cfg.maxOutstandingAw c.next.outstandingAwCnt }
      out := { c.out with bReady := true, valid := true } }
  else c

def reset (cfg : Cfg) : Regs cfg where
  state := .idle
  cnt := 0
  cacheLine := fun _ => 0
  addrOffset := 0
  id := 0
  amo := .none
  size := 0
  outstandingAwCnt := 0

end Cva6.LineAdapter
