import RiscvCores.Lib.BitField
import RiscvCores.Lib.Clocked
import Mathlib.Data.Nat.Log
import Mathlib.Data.List.FinRange
import Mathlib.Logic.Function.Basic

/-!
# The platform-level interrupt controller

`mkPLIC` between two soft resets.  In a cycle the source inputs come first, then
`rl_process_rd_req`, then `rl_process_wr_req`; the pending bits are configuration
registers, so every rule reads them as they were at the start of the cycle.
-/

set_option autoImplicit false

namespace Toooba.Plic

open BitField (pack)

/-- The parameters of `mkPLIC` under its provisos and assertions, and `Wd_Data`. -/
structure Params where
  nExternalSources : Nat
  nTargets : Nat
  maxPriority : Nat
  wdData : Nat
  sourcesFit : nExternalSources + 1 ≤ 2 ^ 10
  someTarget : 0 < nTargets
  targetsFit : nTargets ≤ 2 ^ 5
  prioritiesFit : Nat.clog 2 (maxPriority + 1) ≤ 64
  bus : wdData = 32 ∨ wdData = 64

/-- Source 0 is reserved for "no source". -/
abbrev SourceId (p : Params) := Fin (p.nExternalSources + 1)

instance (priority := high) (p : Params) : NeZero (p.nExternalSources + 1) := ⟨Nat.succ_ne_zero _⟩

abbrev TargetId (p : Params) := Fin p.nTargets

abbrev Priority (p : Params) := BitVec (Nat.clog 2 (p.maxPriority + 1))

abbrev Addr := BitVec 64

structure State (p : Params) where
  sourceIp : SourceId p → Bool
  sourceBusy : SourceId p → Bool
  sourcePrio : SourceId p → Priority p
  targetThreshold : TargetId p → Priority p
  ie : TargetId p → SourceId p → Bool

inductive Axi4Resp
  | okay
  | slverr
  | decerr
  deriving DecidableEq

structure RdAddr where
  arid : BitVec 4
  araddr : Addr

structure RdData (p : Params) where
  rid : BitVec 4
  rdata : BitVec p.wdData
  rresp : Axi4Resp
  deriving DecidableEq

/-- An entry of the write-address channel with the one of the data channel. -/
structure WrReq (p : Params) where
  awid : BitVec 4
  awaddr : Addr
  wdata : BitVec p.wdData

structure WrResp where
  bid : BitVec 4
  bresp : Axi4Resp
  deriving DecidableEq

/-- The source levels, and the requests that the two rules take in this cycle. -/
structure Inputs (p : Params) where
  setNotClear : Fin p.nExternalSources → Bool
  rdAddr : Option RdAddr
  wrReq : Option (WrReq p)

variable {p : Params}

/-- `source_id <= n_sources - 1`, with the index it allows. -/
def sourceAt (p : Params) (k : Nat) : Option (SourceId p) :=
  if inRange : k < p.nExternalSources + 1 then some ⟨k, inRange⟩ else none

def targetAt (p : Params) (k : Nat) : Option (TargetId p) :=
  if inRange : k < p.nTargets then some ⟨k, inRange⟩ else none

/-- The body of the loop over the sources. -/
def scanSource (s : State p) (t : TargetId p) (best : Priority p × SourceId p)
    (id : SourceId p) : Priority p × SourceId p :=
  if s.sourceIp id && decide (s.sourcePrio id > best.1) && s.ie t id then
    (s.sourcePrio id, id)
  else best

def fnTargetMaxPrioAndMaxId (s : State p) (t : TargetId p) : Priority p × SourceId p :=
  ((List.finRange p.nExternalSources).map Fin.succ).foldl (scanSource s t) (0, 0)

def mEip (s : State p) (t : TargetId p) : Bool :=
  decide ((fnTargetMaxPrioAndMaxId s t).1 > s.targetThreshold t)

/-! ## The address decoder of the two rules -/

/-- What the tests and bit slices of an offset select, before the range checks. -/
inductive Selected
  | priority (sourceId : BitVec 10)
  | pending (sourceIdBase : BitVec 10)
  | enable (targetId : BitVec 5) (sourceIdBase : BitVec 10)
  | threshold (targetId : BitVec 5)
  | claim (targetId : BitVec 5)

def select (addrOffset : Addr) : Option Selected :=
  if addrOffset < 0x1000#64 then
    some (.priority (addrOffset.extractLsb' 2 10))
  else if 0x1000#64 ≤ addrOffset ∧ addrOffset < 0x2000#64 then
    some (.pending ((addrOffset.extractLsb' 0 12 ++ 0#5).setWidth 10))
  else if 0x2000#64 ≤ addrOffset ∧ addrOffset < 0x3000#64 then
    some (.enable (addrOffset.extractLsb' 7 5)
      ((addrOffset.extractLsb' 0 7 ++ 0#5).setWidth 10))
  else if addrOffset.extractLsb' 0 32 &&& 0xFFFF0FFF#32 = 0x00200000#32 then
    some (.threshold ((addrOffset.extractLsb' 12 9).setWidth 5))
  else if addrOffset.extractLsb' 0 32 &&& 0xFFFF0FFF#32 = 0x00200004#32 then
    some (.claim ((addrOffset.extractLsb' 12 9).setWidth 5))
  else none

/-! ## Reads -/

/-- `genWith` over 32 sources from `base` on, sources out of range giving `False`. -/
def word (v : SourceId p → Bool) (base : BitVec 10) : BitVec 32 :=
  pack fun k : Fin 32 =>
    match sourceAt p (base + BitVec.ofNat 10 k).toNat with
    | some id => v id
    | none => false

/-- A read of what was selected: the registers and `rdata`, or nothing for `slverr`.
`s` are the registers at the start of the cycle, `now` those the rule writes to. -/
def readSelected (s now : State p) : Selected → Option (State p × BitVec 64)
  | .priority sourceId =>
      match sourceAt p sourceId.toNat with
      | some id => if 0 < sourceId then some (now, (s.sourcePrio id).setWidth 64) else none
      | none => none
  | .pending sourceIdBase =>
      match sourceAt p sourceIdBase.toNat with
      | some _ => some (now, (word s.sourceIp sourceIdBase).setWidth 64)
      | none => none
  | .enable targetId sourceIdBase =>
      match sourceAt p sourceIdBase.toNat, targetAt p targetId.toNat with
      | some _, some t => some (now, (word (s.ie t) sourceIdBase).setWidth 64)
      | _, _ => none
  | .threshold targetId =>
      match targetAt p targetId.toNat with
      | some t => some (now, (s.targetThreshold t).setWidth 64)
      | none => none
  | .claim targetId =>
      match targetAt p targetId.toNat with
      | some t =>
          let maxId := (fnTargetMaxPrioAndMaxId s t).2
          if maxId ≠ 0 then
            some ({ now with
              sourceIp := Function.update now.sourceIp maxId false
              sourceBusy := Function.update now.sourceBusy maxId true },
              BitVec.ofNat 64 maxId.val)
          else some (now, 0)
      | none => none

/-- The upper half of a 64-bit bus carries the word. -/
def upperLane (p : Params) (addrOffset : Addr) : Bool :=
  p.wdData == 64 && addrOffset &&& 7 == 4

def rlProcessRdReq (base : Addr) (s now : State p) (rda : RdAddr) : State p × RdData p :=
  let addrOffset := rda.araddr - base
  let respond (rdata : BitVec 64) (rresp : Axi4Resp) : RdData p :=
    { rid := rda.arid
      rdata := (if upperLane p addrOffset then rdata.extractLsb' 0 32 ++ 0#32
        else rdata).setWidth p.wdData
      rresp := rresp }
  if rda.araddr < base then (now, respond 0 .decerr)
  else
    match (select addrOffset).bind (readSelected s now) with
    | some (next, rdata) => (next, respond rdata .okay)
    | none => (now, respond 0 .slverr)

/-! ## Writes -/

/-- The body of the loop that writes 32 enable bits. -/
def writeBit (base : BitVec 10) (wdata32 : BitVec 32) (v : SourceId p → Bool) (k : Nat) :
    SourceId p → Bool :=
  match sourceAt p (base + BitVec.ofNat 10 k).toNat with
  | some id => Function.update v id (wdata32.getLsbD k)
  | none => v

def writeWord (v : SourceId p → Bool) (base : BitVec 10) (wdata32 : BitVec 32) :
    SourceId p → Bool :=
  (List.range 32).foldl (writeBit base wdata32) v

/-- A write to what was selected, or nothing for `slverr`. -/
def writeSelected (s : State p) (wdata32 : BitVec 32) : Selected → Option (State p)
  | .priority sourceId =>
      match sourceAt p sourceId.toNat with
      | some id =>
          if 0 < sourceId then
            some { s with sourcePrio := Function.update s.sourcePrio id (wdata32.setWidth _) }
          else none
      | none => none
  | .pending sourceIdBase =>
      match sourceAt p sourceIdBase.toNat with
      | some _ => some s
      | none => none
  | .enable targetId sourceIdBase =>
      match sourceAt p sourceIdBase.toNat, targetAt p targetId.toNat with
      | some _, some t =>
          some { s with ie := Function.update s.ie t (writeWord (s.ie t) sourceIdBase wdata32) }
      | _, _ => none
  | .threshold targetId =>
      match targetAt p targetId.toNat with
      | some t =>
          some { s with
            targetThreshold := Function.update s.targetThreshold t (wdata32.setWidth _) }
      | none => none
  | .claim targetId =>
      match targetAt p targetId.toNat with
      | some t =>
          -- The source's bound is `n_sources`; at `n_sources` itself there is no busy
          -- bit to clear.
          match sourceAt p (wdata32.setWidth 10 : BitVec 10).toNat with
          | some id =>
              if s.ie t id then
                some { s with sourceBusy := Function.update s.sourceBusy id false }
              else some s
          | none => some s
      | none => none

def rlProcessWrReq (base : Addr) (s : State p) (wr : WrReq p) : State p × WrResp :=
  let addrOffset := wr.awaddr - base
  let wdata32 :=
    if upperLane p addrOffset then wr.wdata.extractLsb' 32 32 else wr.wdata.extractLsb' 0 32
  if wr.awaddr < base then (s, { bid := wr.awid, bresp := .decerr })
  else
    match (select addrOffset).bind (writeSelected s wdata32) with
    | some next => (next, { bid := wr.awid, bresp := .okay })
    | none => (s, { bid := wr.awid, bresp := .slverr })

/-! ## Cycles -/

/-- `m_interrupt_req` of every source. -/
def interruptReq (s : State p) (setNotClear : Fin p.nExternalSources → Bool) : State p :=
  { s with
    sourceIp := Fin.cases (s.sourceIp 0) fun k =>
      if s.sourceBusy k.succ then s.sourceIp k.succ else setNotClear k }

/-- The registers after the source inputs and the read rule. -/
def afterRead (base : Addr) (s : State p) (i : Inputs p) : State p :=
  let now := interruptReq s i.setNotClear
  match i.rdAddr with
  | some rda => (rlProcessRdReq base s now rda).1
  | none => now

def next (base : Addr) (s : State p) (i : Inputs p) : State p :=
  match i.wrReq with
  | some wr => (rlProcessWrReq base (afterRead base s i) wr).1
  | none => afterRead base s i

def rdData (base : Addr) (s : State p) (i : Inputs p) : Option (RdData p) :=
  i.rdAddr.map fun rda => (rlProcessRdReq base s (interruptReq s i.setNotClear) rda).2

def wrResp (base : Addr) (s : State p) (i : Inputs p) : Option WrResp :=
  i.wrReq.map fun wr => (rlProcessWrReq base (afterRead base s i) wr).2

/-- Every access is 4-byte aligned. -/
def Inputs.Aligned (i : Inputs p) : Prop :=
  (∀ rda ∈ i.rdAddr, 4 ∣ rda.araddr.toNat) ∧ ∀ wr ∈ i.wrReq, 4 ∣ wr.awaddr.toNat

def reset (p : Params) : State p where
  sourceIp _ := false
  sourceBusy _ := false
  sourcePrio _ := 0
  targetThreshold _ := BitVec.allOnes _
  ie _ _ := false

def machine (p : Params) (base : Addr) : Clocked.Machine (State p) (Inputs p) where
  reset := reset p
  next := next base
  allowed _ _ i := i.Aligned

end Toooba.Plic
