import Mathlib
import Mathlib.Data.List.FinRange
import RiscvCores.Lib.Clocked
import RiscvCores.Toooba.Amo

/-!
# `mkMMIOPlatform`

The platform serves one request or timer interrupt at a time.  A step is one rule or
method; what it takes from the FIFOs of the cores and of the fabric adapter comes with
it, what it sends is its effect.
-/

set_option autoImplicit false

namespace Toooba.MMIOPlatform

open Toooba.Amo

abbrev Addr : Type := BitVec 64
abbrev DataAlignedAddr : Type := BitVec 61
abbrev ByteEn : Type := BitVec 8

def getDataAlignedAddr (a : Addr) : DataAlignedAddr := a.extractLsb 63 3

/-- Cores, half-words of a fetch, time and the address map. -/
structure PlatformCfg where
  coreNum : Nat
  someCore : 0 < coreNum
  supSizeX2 : Nat
  cyclesPerTimeInc : Nat
  ticksPerTimeInc : Data
  msipBaseAddr : DataAlignedAddr
  mtimecmpBaseAddr : DataAlignedAddr
  mtimeBaseAddr : DataAlignedAddr

/-- One double word for two cores. -/
def PlatformCfg.msipBoundAddr (c : PlatformCfg) : DataAlignedAddr :=
  c.msipBaseAddr + BitVec.ofNat 61 ((c.coreNum + 1) / 2)

def PlatformCfg.mtimecmpBoundAddr (c : PlatformCfg) : DataAlignedAddr :=
  c.mtimecmpBaseAddr + BitVec.ofNat 61 c.coreNum

variable {c : PlatformCfg}

abbrev CoreId (c : PlatformCfg) : Type := Fin c.coreNum

/-- The core of a number that was cut to the width of `CoreId`. -/
def core (c : PlatformCfg) (k : Nat) : CoreId c := ⟨k % c.coreNum, Nat.mod_lt _ c.someCore⟩

/-! ## Messages -/

inductive MMIOFunc where
  | inst (maxWay : Nat)
  | ld
  | st
  | amo (func : AmoFunc)
  deriving DecidableEq

structure MMIOCRq where
  addr : Addr
  func : MMIOFunc
  byteEn : ByteEn
  data : Data
  deriving DecidableEq

structure MMIODataPRs where
  valid : Bool
  data : Data
  deriving DecidableEq

inductive MMIOPRs where
  | instFetch (insts : List (Option (BitVec 16)))
  | dataAccess (rs : MMIODataPRs)
  deriving DecidableEq

inductive MMIOPRqTarget where
  | msip | mtip
  deriving DecidableEq

structure MMIOPRq where
  target : MMIOPRqTarget
  func : MMIOFunc
  data : BitVec 32
  deriving DecidableEq

/-! ## State -/

inductive MMIOPlatformState where
  | init | selectReq | processReq | waitResp
  deriving DecidableEq

/-- The device of a request with the offset within it. -/
inductive MMIOPlatformReq where
  | invalid
  | timerInterrupt
  | msip (offset : Nat)
  | mTimeCmp (offset : Nat)
  | mTime
  | toHost
  | fromHost
  | mmioFabricAdapter (addr : Addr)
  deriving DecidableEq

structure Platform (c : PlatformCfg) where
  mtimecmp : CoreId c → Data
  mtime : Data
  toHostQ : Option Data
  fromHostQ : Option Data
  toHostAddr : DataAlignedAddr
  fromHostAddr : DataAlignedAddr
  state : MMIOPlatformState
  curReq : MMIOPlatformReq
  reqCore : CoreId c
  reqFunc : MMIOFunc
  reqAmofunc : AmoFunc
  reqBE : ByteEn
  reqSz : BitVec 2
  reqData : Data
  instSel : BitVec 2
  fetchingWay : Nat
  fetchedInsts : List (BitVec 16)
  waitMTIPCRs : CoreId c → Bool
  waitLowerMSIPCRs : Option (CoreId c)
  waitUpperMSIPCRs : Option (CoreId c)
  amoResp : Data
  amoWaitWriteResp : Bool
  cycle : Nat
  mtip : CoreId c → Bool

/-- What a step sends to the cores and to the fabric adapter. -/
structure Effects (c : PlatformCfg) where
  posts : List (CoreId c × MMIOPRq) := []
  response : Option (CoreId c × MMIOPRs) := none
  fabric : Option MMIOCRq := none

inductive Rule (c : PlatformCfg) where
  | start (toHost fromHost : Addr)
  | toHost
  | fromHost (x : Data)
  | incCycle
  | incTime
  | selectReq (cRq : CoreId c → Option MMIOCRq)
  | waitTimerInterruptDone
  | processMSIP
  | waitMSIPDone (cRs : CoreId c → BitVec 1)
  | processMTimeCmp
  | waitMTimeCmpDone
  | processMTime
  | waitMTimeDone
  | processToHost
  | processFromHost
  | toFabricReq
  | fromFabricRsp (dprs : MMIODataPRs)
  | toFabricAmoReq
  | fromFabricAmoRsp (dprs : MMIODataPRs)
  | toFabricIFetchReq
  | fromFabricIFetchRsp (dprs : MMIODataPRs)

/-! ## Functions of the rules -/

def MMIOFunc.isInstFetch : MMIOFunc → Bool
  | .inst _ => true
  | _ => false

def MMIOFunc.isAmo : MMIOFunc → Bool
  | .amo _ => true
  | _ => false

def postMTIP (value : Bool) : MMIOPRq :=
  { target := .mtip, func := .st, data := if value then 1 else 0 }

def accessFault : MMIOPRs := .dataAccess { valid := false, data := 0 }

/-- Eight copies of the enable of each byte. -/
def byteMask (be : ByteEn) : Data :=
  let byte (i : Nat) : BitVec 8 := if be.getLsbD i then BitVec.allOnes 8 else 0
  byte 7 ++ byte 6 ++ byte 5 ++ byte 4 ++ byte 3 ++ byte 2 ++ byte 1 ++ byte 0

/-- The bytes of `wr` that are enabled, over those of `orig`. -/
def updateBytes (be : ByteEn) (orig wr : Data) : Data :=
  orig &&& ~~~byteMask be ||| wr &&& byteMask be

namespace Platform

variable (s : Platform c)

/-- The answer to the core whose request is served, which ends the service. -/
def respond (rs : MMIOPRs) : Platform c × Effects c :=
  ({ s with state := .selectReq }, { response := some (s.reqCore, rs) })

def respondData (data : Data) : Platform c × Effects c :=
  s.respond (.dataAccess { valid := true, data := data })

/-- No device but the fabric can be fetched from. -/
def noInstFetch : Platform c × Effects c :=
  s.respond (.instFetch (List.replicate c.supSizeX2 none))

def getWriteData (orig : Data) : Data :=
  match s.reqFunc with
  | .amo func =>
      amoExec
        { func := func
          doubleWord := s.reqBE.getLsbD 4 && s.reqBE.getLsbD 0
          aq := false
          rl := false }
        orig s.reqData (s.reqBE.getLsbD 4 && !s.reqBE.getLsbD 0)
  | _ => updateBytes s.reqBE orig s.reqData

def getAmoResp (orig : Data) : Data :=
  if s.reqBE.getLsbD 4 && s.reqBE.getLsbD 0 then orig
  else if s.reqBE.getLsbD 4 then (upper orig).signExtend 64
  else (lower orig).signExtend 64

def classify (addr : Addr) : MMIOPlatformReq :=
  let a := getDataAlignedAddr addr
  if c.msipBaseAddr ≤ a ∧ a < c.msipBoundAddr then .msip (a - c.msipBaseAddr).toNat
  else if c.mtimecmpBaseAddr ≤ a ∧ a < c.mtimecmpBoundAddr then
    .mTimeCmp (a - c.mtimecmpBaseAddr).toNat
  else if a = c.mtimeBaseAddr then .mTime
  else if a = s.toHostAddr then .toHost
  else if a = s.fromHostAddr then .fromHost
  else .mmioFabricAdapter addr

/-- Records a request; the size is not taken from it. -/
def record (i : CoreId c) (req : MMIOCRq) : Platform c :=
  { s with
    reqCore := i
    reqFunc := req.func
    reqAmofunc := match req.func with
      | .amo f => f
      | _ => .none
    reqBE := req.byteEn
    reqData := req.data
    reqSz := szD
    instSel := req.addr.extractLsb 2 1
    fetchingWay := 0
    curReq := s.classify req.addr
    state := .processReq }

def needTimerInt (i : CoreId c) : Bool := !s.mtip i && decide (s.mtimecmp i ≤ s.mtime)

/-! ## Rules -/

def selectReq (cRq : CoreId c → Option MMIOCRq) : Platform c × Effects c :=
  let cores := List.finRange c.coreNum
  if cores.any s.needTimerInt then
    ({ s with
        mtip := fun i => s.mtip i || s.needTimerInt i
        state := .waitResp
        curReq := .timerInterrupt
        waitMTIPCRs := s.needTimerInt },
      { posts := (cores.filter s.needTimerInt).map fun i => (i, postMTIP true) })
  else
    match cores.find? fun i => (cRq i).isSome with
    | some i => ((cRq i).elim s (s.record i), {})
    | none => (s, {})

def postMSIP (i : CoreId c) (data : BitVec 32) : CoreId c × MMIOPRq :=
  (i, { target := .msip, func := s.reqFunc, data := data })

def processMSIP (offset : Nat) : Platform c × Effects c :=
  let lowerCore := core c (2 * offset)
  let lowerEn := s.reqBE.getLsbD 0
  let upperCore := core c (2 * offset + 1)
  let upperValid := decide (2 * offset + 1 ≤ c.coreNum - 1)
  let upperEn := s.reqBE.getLsbD 4
  if s.reqFunc.isInstFetch then s.noInstFetch
  else if upperEn && !upperValid then s.respond accessFault
  else if s.reqFunc.isAmo then
    -- the accessed core is treated as the lower one
    if lowerEn && upperEn then s.respond accessFault
    else if lowerEn then
      ({ s with waitLowerMSIPCRs := some lowerCore, waitUpperMSIPCRs := none, state := .waitResp },
        { posts := [s.postMSIP lowerCore (lower s.reqData)] })
    else if upperEn then
      ({ s with waitLowerMSIPCRs := some upperCore, waitUpperMSIPCRs := none, state := .waitResp },
        { posts := [s.postMSIP upperCore (lower s.reqData)] })
    else s.respond accessFault
  else
    ({ s with
        waitLowerMSIPCRs := if lowerEn then some lowerCore else none
        waitUpperMSIPCRs := if upperEn then some upperCore else none
        state := .waitResp },
      { posts :=
          (if lowerEn then
            [s.postMSIP lowerCore (if s.reqData.getLsbD 0 then 1 else 0)] else []) ++
          (if upperEn then
            [s.postMSIP upperCore (if s.reqData.getLsbD 32 then 1 else 0)] else []) })

/-- A core that both words wait for answers the lower one. -/
def waitMSIPDone (cRs : CoreId c → BitVec 1) : Platform c × Effects c :=
  let lowerData : BitVec 32 := s.waitLowerMSIPCRs.elim 0 fun i => (cRs i).setWidth 32
  let upperData : BitVec 32 := s.waitUpperMSIPCRs.elim 0 fun i =>
    if s.waitLowerMSIPCRs = some i then 0 else (cRs i).setWidth 32
  s.respondData (upperData ++ lowerData)

def processMTimeCmp (offset : Nat) : Platform c × Effects c :=
  if s.reqFunc.isInstFetch then s.noInstFetch
  else if offset > c.coreNum - 1 then s.respond accessFault
  else
    let i := core c offset
    let oldMTimeCmp := s.mtimecmp i
    if s.reqFunc = .ld then s.respondData oldMTimeCmp
    else
      let newData := s.getWriteData oldMTimeCmp
      let respData := s.getAmoResp oldMTimeCmp
      let s := { s with mtimecmp := Function.update s.mtimecmp i newData, amoResp := respData }
      if newData ≤ s.mtime ∧ s.mtip i = false then
        ({ s with mtip := Function.update s.mtip i true, state := .waitResp },
          { posts := [(i, postMTIP true)] })
      else if s.mtime < newData ∧ s.mtip i = true then
        ({ s with mtip := Function.update s.mtip i false, state := .waitResp },
          { posts := [(i, postMTIP false)] })
      else s.respondData respData

/-- Where a new time raises or clears MTIP. -/
def changeMTIP (newData : Data) (i : CoreId c) : Bool :=
  decide (s.mtimecmp i ≤ newData) && !s.mtip i || decide (newData < s.mtimecmp i) && s.mtip i

def processMTime : Platform c × Effects c :=
  if s.reqFunc.isInstFetch then s.noInstFetch
  else if s.reqFunc = .ld then s.respondData s.mtime
  else
    let newData := s.getWriteData s.mtime
    let respData := s.getAmoResp s.mtime
    let change := s.changeMTIP newData
    let cores := List.finRange c.coreNum
    let s := { s with mtime := newData, amoResp := respData }
    if cores.any change then
      ({ s with waitMTIPCRs := change, state := .waitResp },
        { posts := (cores.filter change).map fun i => (i, postMTIP !s.mtip i) })
    else s.respondData respData

def processToHost : Platform c × Effects c :=
  if s.reqFunc.isInstFetch then s.noInstFetch
  else match s.reqFunc with
    | .st =>
        if s.toHostQ.isSome then s.respond accessFault
        else
          let data := s.getWriteData 0
          -- 0 means nothing for tohost
          { s with toHostQ := if data = 0 then none else some data }.respondData 0
    | .ld => s.respondData (s.toHostQ.getD 0)
    | _ => s.respond accessFault

def processFromHost : Platform c × Effects c :=
  if s.reqFunc.isInstFetch then s.noInstFetch
  else match s.reqFunc with
    | .st =>
        -- only 0 can be written to fromhost
        if s.getWriteData (s.fromHostQ.getD 0) = 0 then
          { s with fromHostQ := none }.respondData 0
        else s.respond accessFault
    | .ld => s.respondData (s.fromHostQ.getD 0)
    | _ => s.respond accessFault

def fabricLoad (addr : Addr) : MMIOCRq := { addr := addr, func := .ld, byteEn := 0, data := 0 }

def toFabricReq (addr : Addr) : Platform c × Effects c :=
  ({ s with state := .waitResp },
    { fabric := some { addr := addr, func := s.reqFunc, byteEn := s.reqBE, data := s.reqData } })

/-- The load is sent to the address itself, not to the aligned one. -/
def toFabricAmoReq (addr : Addr) : Platform c × Effects c :=
  ({ s with state := .waitResp, amoWaitWriteResp := false },
    { fabric := some (fabricLoad addr) })

def fromFabricAmoRsp (addr : Addr) (dprs : MMIODataPRs) : Platform c × Effects c :=
  if s.amoWaitWriteResp then ({ s with state := .selectReq }, {})
  else if !dprs.valid then s.respond (.dataAccess dprs)
  else
    ({ s with amoWaitWriteResp := true },
      { response := some (s.reqCore, .dataAccess { valid := true, data := dprs.data })
        fabric := some
          { addr := addr
            func := .st
            byteEn := s.reqBE
            data := fnAmoOp s.reqSz s.reqAmofunc addr dprs.data s.reqData } })

def toFabricIFetchReq (addr : Addr) : Platform c × Effects c :=
  ({ s with state := .waitResp },
    { fabric := some (fabricLoad (getDataAlignedAddr addr ++ 0#3)) })

/-- The half-words fetched so far with what the last one gives. -/
def fetched (last : Option (BitVec 16)) : MMIOPRs :=
  .instFetch <| (List.range c.supSizeX2).map fun i =>
    if i < s.fetchingWay then s.fetchedInsts[i]?
    else if i = s.fetchingWay then last
    else none

def fromFabricIFetchRsp (addr : Addr) (dprs : MMIODataPRs) : Platform c × Effects c :=
  if !dprs.valid then s.respond (s.fetched none)
  else
    let maxWay := match s.reqFunc with
      | .inst w => w
      | _ => 0
    let inst : BitVec 16 := dprs.data.extractLsb' (16 * s.instSel.toNat) 16
    if s.fetchingWay ≥ maxWay then s.respond (s.fetched (some inst))
    else
      ({ s with
          fetchedInsts := s.fetchedInsts.take s.fetchingWay ++ [inst]
          fetchingWay := s.fetchingWay + 1
          instSel := s.instSel + 1
          curReq := .mmioFabricAdapter (addr + 2)
          state := .processReq },
        {})

/-! ## Steps -/

def exec : Rule c → Platform c × Effects c
  | .start toHost fromHost =>
      ({ s with
          toHostAddr := getDataAlignedAddr toHost
          fromHostAddr := getDataAlignedAddr fromHost
          state := .selectReq },
        {})
  | .toHost => ({ s with toHostQ := none }, {})
  | .fromHost x => ({ s with fromHostQ := some x }, {})
  | .incCycle => ({ s with cycle := s.cycle + 1 }, {})
  | .incTime => ({ s with cycle := 0, mtime := s.mtime + c.ticksPerTimeInc }, {})
  | .selectReq cRq => s.selectReq cRq
  | .waitTimerInterruptDone => ({ s with state := .selectReq }, {})
  | .processMSIP =>
      match s.curReq with
      | .msip offset => s.processMSIP offset
      | _ => (s, {})
  | .waitMSIPDone cRs => s.waitMSIPDone cRs
  | .processMTimeCmp =>
      match s.curReq with
      | .mTimeCmp offset => s.processMTimeCmp offset
      | _ => (s, {})
  | .waitMTimeCmpDone => s.respondData s.amoResp
  | .processMTime => s.processMTime
  | .waitMTimeDone => s.respondData s.amoResp
  | .processToHost => s.processToHost
  | .processFromHost => s.processFromHost
  | .toFabricReq =>
      match s.curReq with
      | .mmioFabricAdapter addr => s.toFabricReq addr
      | _ => (s, {})
  | .fromFabricRsp dprs => s.respond (.dataAccess dprs)
  | .toFabricAmoReq =>
      match s.curReq with
      | .mmioFabricAdapter addr => s.toFabricAmoReq addr
      | _ => (s, {})
  | .fromFabricAmoRsp dprs =>
      match s.curReq with
      | .mmioFabricAdapter addr => s.fromFabricAmoRsp addr dprs
      | _ => (s, {})
  | .toFabricIFetchReq =>
      match s.curReq with
      | .mmioFabricAdapter addr => s.toFabricIFetchReq addr
      | _ => (s, {})
  | .fromFabricIFetchRsp dprs =>
      match s.curReq with
      | .mmioFabricAdapter addr => s.fromFabricIFetchRsp addr dprs
      | _ => (s, {})

def isMSIP : MMIOPlatformReq → Bool
  | .msip _ => true
  | _ => false

def isMTimeCmp : MMIOPlatformReq → Bool
  | .mTimeCmp _ => true
  | _ => false

def isFabric : MMIOPlatformReq → Bool
  | .mmioFabricAdapter _ => true
  | _ => false

/-- A request of a kind for the fabric. -/
def fabricIn (state : MMIOPlatformState) (kind : MMIOFunc → Bool) : Bool :=
  isFabric s.curReq && decide (s.state = state) && kind s.reqFunc

def isLdSt (func : MMIOFunc) : Bool := decide (func = .ld ∨ func = .st)

/-- The guards of the rules; what comes from a FIFO was there. -/
def guard : Rule c → Bool
  | .start _ _ => decide (s.state = .init)
  | .toHost => s.toHostQ.isSome
  | .fromHost _ => s.fromHostQ.isNone
  | .incCycle => decide (s.state ≠ .init) && decide (s.cycle < c.cyclesPerTimeInc - 1)
  | .incTime => decide (s.state = .selectReq) && decide (c.cyclesPerTimeInc - 1 ≤ s.cycle)
  | .selectReq _ => decide (s.state = .selectReq)
  | .waitTimerInterruptDone => decide (s.state = .waitResp) && decide (s.curReq = .timerInterrupt)
  | .processMSIP => isMSIP s.curReq && decide (s.state = .processReq)
  | .waitMSIPDone _ => isMSIP s.curReq && decide (s.state = .waitResp)
  | .processMTimeCmp => isMTimeCmp s.curReq && decide (s.state = .processReq)
  | .waitMTimeCmpDone => isMTimeCmp s.curReq && decide (s.state = .waitResp)
  | .processMTime => decide (s.state = .processReq) && decide (s.curReq = .mTime)
  | .waitMTimeDone => decide (s.state = .waitResp) && decide (s.curReq = .mTime)
  | .processToHost => decide (s.state = .processReq) && decide (s.curReq = .toHost)
  | .processFromHost => decide (s.state = .processReq) && decide (s.curReq = .fromHost)
  | .toFabricReq => s.fabricIn .processReq isLdSt
  | .fromFabricRsp _ => s.fabricIn .waitResp isLdSt
  | .toFabricAmoReq => s.fabricIn .processReq MMIOFunc.isAmo
  | .fromFabricAmoRsp _ => s.fabricIn .waitResp MMIOFunc.isAmo
  | .toFabricIFetchReq => s.fabricIn .processReq MMIOFunc.isInstFetch
  | .fromFabricIFetchRsp _ => s.fabricIn .waitResp MMIOFunc.isInstFetch

end Platform

/-! ## The fabric behind the adapter -/

/-- What can be read behind the fabric adapter, and what is there before the run. -/
structure Fabric where
  readable : DataAlignedAddr → Bool
  contents : DataAlignedAddr → Data

def Fabric.put (mem : DataAlignedAddr → Data) (req : MMIOCRq) : DataAlignedAddr → Data :=
  match req.func with
  | .st =>
      let a := getDataAlignedAddr req.addr
      Function.update mem a (updateBytes req.byteEn (mem a) req.data)
  | _ => mem

abbrev History (c : PlatformCfg) : Type := List (Platform c × Rule c)

def fabricReqs (cycles : History c) : List MMIOCRq :=
  cycles.filterMap fun cycle => (cycle.1.exec cycle.2).2.fabric

def responses (cycles : History c) : List (CoreId c × MMIOPRs) :=
  cycles.filterMap fun cycle => (cycle.1.exec cycle.2).2.response

/-- The memory behind the stores of a run. -/
def Fabric.memory (fab : Fabric) (cycles : History c) : DataAlignedAddr → Data :=
  (fabricReqs cycles).foldl Fabric.put fab.contents

def Rule.fabricRsp : Rule c → Option MMIODataPRs
  | .fromFabricRsp dprs => some dprs
  | .fromFabricAmoRsp dprs => some dprs
  | .fromFabricIFetchRsp dprs => some dprs
  | _ => none

/-- The adapter answers a load with the double word around its address. -/
def Fabric.Answers (fab : Fabric) (cycles : History c) (rule : Rule c) : Prop :=
  ∀ dprs req, rule.fabricRsp = some dprs → (fabricReqs cycles).getLast? = some req →
    req.func = .ld →
    dprs.valid = fab.readable (getDataAlignedAddr req.addr) ∧
      (dprs.valid = true → dprs.data = fab.memory cycles (getDataAlignedAddr req.addr))

/-- Registers without a reset value start with any. -/
def machine (fab : Fabric) (start : Platform c) : Clocked.Machine (Platform c) (Rule c) where
  reset := start
  next s rule := (s.exec rule).1
  allowed cycles s rule := s.guard rule = true ∧ fab.Answers cycles rule

end Toooba.MMIOPlatform
