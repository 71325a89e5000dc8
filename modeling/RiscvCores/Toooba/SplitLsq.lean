import RiscvCores.Toooba.ReorderBuffer
import Mathlib.Data.List.FinRange
import Mathlib.Data.List.MinMax

/-!
# The split load-store queue

`mkSplitLSQ` as built without `TSO_MM`: a queue of loads and one of stores.
Loads issue out of order, to the cache or with data forwarded from a store, and
their results come back with the index of the load's entry only.  The methods
called in one cycle act in the order of the schedule; `incorrectSpeculation`
excludes all of them but `setAtCommit`, `updateData` and `correctSpeculation`.
`doIssueLdFromIssueQ` and `doIssueLdFromUpdate` of `MemExePipeline` decide which
load `issueLd` gets.  What only `firstLd`, `firstSt` or `getOrigBE` read is left
out, and so is the hash of the program counter that goes to the prefetchers.
-/

set_option autoImplicit false

namespace Toooba.SplitLsq

open Toooba.ReorderBuffer (Addr Data Exception LdKilledBy)

structure LsqCfg where
  ldQSize : Nat
  stQSize : Nat
  sbSize : Nat
  numSpecTags : Nat
  supSize : Nat
  numPhyReg : Nat
  multicore : Bool
  someLds : ldQSize ≠ 0
  someSts : stQSize ≠ 0

namespace LsqCfg

variable (c : LsqCfg)

abbrev LdQTag := Fin c.ldQSize

abbrev StQTag := Fin c.stQSize

abbrev SBIndex := Fin c.sbSize

abbrev SpecTag := Fin c.numSpecTags

abbrev SpecBits := c.SpecTag → Bool

abbrev PhyRIndx := BitVec (tLog c.numPhyReg)

instance : NeZero c.ldQSize := ⟨c.someLds⟩

instance : NeZero c.stQSize := ⟨c.someSts⟩

end LsqCfg

/-- One bit for each byte, the lowest byte first. -/
abbrev ByteEn := BitVec 8

inductive LdQMemFunc
  | ld | lr
deriving DecidableEq

inductive StQMemFunc
  | st | sc | amo | fence
deriving DecidableEq

variable (c : LsqCfg)

structure PhyDst where
  indx : c.PhyRIndx
  isFpuReg : Bool
deriving DecidableEq

inductive LdStQTag
  | ld (tag : c.LdQTag)
  | st (tag : c.StQTag)
deriving DecidableEq

structure LdQEntry where
  valid : Bool
  memFunc : LdQMemFunc
  unsignedLd : Bool
  byteEn : ByteEn
  acq : Bool
  dst : Option (PhyDst c)
  paddr : Addr
  isMmio : Bool
  shiftedBE : ByteEn
  fault : Option Exception
  computed : Bool
  executing : Bool
  done : Bool
  killed : Option LdKilledBy
  olderSt : Option c.StQTag
  olderStVerified : Bool
  readFrom : Option c.StQTag
  depLdQDeq : Option c.LdQTag
  depStQDeq : Option c.StQTag
  depLdEx : Option c.LdQTag
  depSBDeq : Option c.SBIndex
  specBits : c.SpecBits
  atCommit : Bool
  waitWPResp : Bool

structure StQEntry where
  valid : Bool
  memFunc : StQMemFunc
  acq : Bool
  paddr : Addr
  isMmio : Bool
  shiftedBE : ByteEn
  stData : Data
  fault : Option Exception
  computed : Bool
  verified : Bool
  specBits : c.SpecBits
  atCommit : Bool

structure State where
  ld : c.LdQTag → LdQEntry c
  ldEnqP : c.LdQTag
  ldDeqP : c.LdQTag
  st : c.StQTag → StQEntry c
  stEnqP : c.StQTag
  stDeqP : c.StQTag
  stVerifyP : c.StQTag

structure SBSearchRes where
  matchIdx : Option c.SBIndex
  forwardData : Option Data

/-- What `issueLd` finds in the two queues. -/
inductive IssueMatch
  | ldQ (tag : c.LdQTag)
  | stQ (tag : c.StQTag)
  | nothing

structure LSQForwardResult where
  dst : Option (PhyDst c)
  data : Data

inductive LdStalledBy
  | ldQ | stQ | sb
deriving DecidableEq

inductive LSQIssueLdResult
  | toCache
  | stall (cause : LdStalledBy)
  | forward (res : LSQForwardResult c)

structure LSQIssueLdInfo where
  tag : c.LdQTag
  paddr : Addr
  shiftedBE : ByteEn

/-- `data` is the undefined value where it is `none`. -/
structure LSQRespLdResult where
  wrongPath : Bool
  dst : Option (PhyDst c)
  data : Option Data

structure EnqLd where
  memFunc : LdQMemFunc
  byteEn : ByteEn
  unsignedLd : Bool
  aq : Bool
  dst : Option (PhyDst c)
  specBits : c.SpecBits

structure EnqSt where
  memFunc : StQMemFunc
  aq : Bool
  specBits : c.SpecBits

/-- `enqLd` and `enqSt` conflict. -/
inductive Enq
  | ld (req : EnqLd c)
  | st (req : EnqSt c)

structure UpdateAddr where
  lsqTag : LdStQTag c
  fault : Option Exception
  paddr : Addr
  isMmio : Bool
  shiftedBE : ByteEn

inductive IssueRule
  | fromIssueQ | fromUpdate

structure IncorrectSpec where
  killAll : Bool
  specTag : c.SpecTag

/-- The methods called in one cycle.  A rule that issues brings the result of its store buffer
search. -/
structure Input where
  deqLd : Bool := false
  updateAddr : Option (UpdateAddr c) := none
  issue : Option (IssueRule × SBSearchRes c) := none
  wakeupLdStalledBySB : Option c.SBIndex := none
  deqSt : Bool := false
  setAtCommit : Fin c.supSize → Option (LdStQTag c) := fun _ => none
  respLd : Option (c.LdQTag × Data) := none
  updateData : Option (c.StQTag × Data) := none
  enq : Option (Enq c) := none
  correctSpec : Option c.SpecBits := none
  incorrectSpec : Option (IncorrectSpec c) := none

variable {c}

/-- All registers but these hold anything at power-up. -/
def reset (powerUp : State c) : State c where
  ld t := { powerUp.ld t with valid := false, waitWPResp := false }
  ldEnqP := 0
  ldDeqP := 0
  st t := { powerUp.st t with valid := false }
  stEnqP := 0
  stDeqP := 0
  stVerifyP := 0

/-! ## Addresses and data -/

def sameAlignedAddr (a b : Addr) : Bool := a.extractLsb' 3 61 == b.extractLsb' 3 61

def overlapAddr (addr1 : Addr) (shiftBE1 : ByteEn) (addr2 : Addr) (shiftBE2 : ByteEn) : Bool :=
  (shiftBE1 &&& shiftBE2) != 0 && sameAlignedAddr addr1 addr2

def be1CoverBe2 (shiftBE1 shiftBE2 : ByteEn) : Bool := (shiftBE1 &&& shiftBE2) == shiftBE2

def gatherLoad (addr : Addr) (byteEn : ByteEn) (unsignedLd : Bool) (data : Data) : Data :=
  let extend {w : Nat} (x : BitVec w) : Data :=
    if unsignedLd then x.setWidth 64 else x.signExtend 64
  let offset := (addr.extractLsb' 0 3).toNat
  if byteEn.getLsbD 7 then extend data
  else if byteEn.getLsbD 3 then extend (data.extractLsb' (32 * (offset / 4)) 32)
  else if byteEn.getLsbD 1 then extend (data.extractLsb' (16 * (offset / 2)) 16)
  else extend (data.extractLsb' (8 * offset) 8)

/-- `fv_nanbox`. -/
def nanbox (x : Data) : Data := x ||| 0xFFFFFFFF00000000#64

/-! ## Ages -/

def getNextPtr {size : Nat} [NeZero size] (t : Fin size) : Fin size :=
  if t.val = size - 1 then 0 else t + 1

/-- `getLdVirTag` and `getStVirTag`: entries before the enqueue pointer are the younger ones. -/
def getVirTag {size : Nat} (enqP i : Fin size) : Nat := if i < enqP then i.val + size else i.val

def findOldest {size : Nat} (enqP : Fin size) (pred : Fin size → Bool) : Option (Fin size) :=
  ((List.finRange size).filter pred).argmin (getVirTag enqP)

def findYoungest {size : Nat} (enqP : Fin size) (pred : Fin size → Bool) : Option (Fin size) :=
  ((List.finRange size).filter pred).argmax (getVirTag enqP)

/-- One entry of a queue is written. -/
def modify {size : Nat} {α : Type} (q : Fin size → α) (t : Fin size) (f : α → α) : Fin size → α :=
  fun i => if i = t then f (q i) else q i

section Methods

variable (s : State c)

def ldVirTag (i : c.LdQTag) : Nat := getVirTag s.ldEnqP i

def stVirTag (i : c.StQTag) : Nat := getVirTag s.stEnqP i

def olderStVirTag (i : c.LdQTag) : Option Nat := (s.ld i).olderSt.map (stVirTag s)

def readFromVirTag (i : c.LdQTag) : Option Nat := (s.ld i).readFrom.map (stVirTag s)

/-! ## Issuing -/

def canIssue (i : c.LdQTag) : Bool :=
  let e := s.ld i
  e.valid && e.memFunc = .ld && e.computed && !e.executing && e.depLdQDeq.isNone &&
    e.depLdEx.isNone && e.depSBDeq.isNone && e.depStQDeq.isNone && !e.waitWPResp && !e.isMmio

def findIssue : Option (LSQIssueLdInfo c) :=
  (findOldest s.ldEnqP (canIssue s)).map fun tag =>
    { tag := tag
      paddr := (s.ld tag).paddr
      shiftedBE := (s.ld tag).shiftedBE }

variable (info : LSQIssueLdInfo c) (sbRes : SBSearchRes c)

/-- Acquires, and in a multicore loads to the same place that have not issued. -/
def isLdNeedCheck (i : c.LdQTag) : Bool :=
  let e := s.ld i
  e.valid && ldVirTag s i < ldVirTag s info.tag &&
    (e.acq || c.multicore && e.computed && !e.executing &&
      overlapAddr info.paddr info.shiftedBE e.paddr e.shiftedBE)

def isValidOlderSt (i : c.StQTag) : Bool :=
  (s.st i).valid && (olderStVirTag s info.tag).any fun older => stVirTag s i ≤ older

def isStNeedCheck (i : c.StQTag) : Bool :=
  let e := s.st i
  isValidOlderSt s info i &&
    (e.acq || e.computed && overlapAddr info.paddr info.shiftedBE e.paddr e.shiftedBE)

/-- The younger one of the matches in the two queues. -/
def issueMatch : IssueMatch c :=
  match findYoungest s.ldEnqP (isLdNeedCheck s info),
      findYoungest s.stEnqP (isStNeedCheck s info) with
  | some ldTag, some stTag =>
    if (olderStVirTag s ldTag).any fun older => stVirTag s stTag ≤ older then .ldQ ldTag
    else .stQ stTag
  | some ldTag, none => .ldQ ldTag
  | none, some stTag => .stQ stTag
  | none, none => .nothing

def issueResult : LSQIssueLdResult c :=
  let dst := (s.ld info.tag).dst
  match issueMatch s info with
  | .ldQ _ => .stall .ldQ
  | .stQ stTag =>
    let e := s.st stTag
    if !e.acq && e.memFunc = .st && be1CoverBe2 e.shiftedBE info.shiftedBE then
      .forward { dst := dst, data := e.stData }
    else .stall .stQ
  | .nothing =>
    match sbRes.forwardData, sbRes.matchIdx with
    | some d, _ => .forward { dst := dst, data := d }
    | none, some _ => .stall .sb
    | none, none => .toCache

/-- The load's entry after `issueLd`. -/
def issuedEntry (e : LdQEntry c) : LdQEntry c :=
  match issueResult s info sbRes, issueMatch s info with
  | .stall _, .ldQ ldTag =>
    if (s.ld ldTag).acq || (s.ld ldTag).memFunc = .lr then { e with depLdQDeq := some ldTag }
    else { e with depLdEx := some ldTag }
  | .stall _, .stQ stTag => { e with depStQDeq := some stTag }
  | .stall _, .nothing => { e with depSBDeq := sbRes.matchIdx }
  | _, .stQ stTag => { e with executing := true, readFrom := some stTag }
  | _, _ => { e with executing := true, readFrom := none }

def LSQIssueLdResult.notStall : LSQIssueLdResult c → Bool
  | .stall _ => false
  | _ => true

def issueLd : State c :=
  let ld := modify s.ld info.tag (issuedEntry s info sbRes)
  if (issueResult s info sbRes).notStall then
    { s with
      ld := fun i =>
        if (ld i).depLdEx = some info.tag then { ld i with depLdEx := none } else ld i }
  else { s with ld := ld }

/-! ## Addresses -/

variable (upd : UpdateAddr c)

/-- The loads a new address may kill. -/
def youngerLd (i : c.LdQTag) : Bool :=
  match upd.lsqTag with
  | .ld tag => c.multicore && ldVirTag s tag < ldVirTag s i
  | .st tag => (olderStVirTag s i).any fun older => stVirTag s tag ≤ older

/-- The store that a younger load must not be older than. -/
def curSt : Option Nat :=
  match upd.lsqTag with
  | .ld tag => olderStVirTag s tag
  | .st tag => some (stVirTag s tag)

def readStale (i : c.LdQTag) : Bool :=
  (s.ld i).executing &&
    match readFromVirTag s i, curSt s upd with
    | some rf, some st => rf ≤ st
    | some _, none => false
    | none, _ => true

def needKill (i : c.LdQTag) : Bool :=
  (s.ld i).valid && youngerLd s upd i &&
    overlapAddr upd.paddr upd.shiftedBE (s.ld i).paddr (s.ld i).shiftedBE && readStale s upd i

def writeAddrLd (e : LdQEntry c) : LdQEntry c :=
  { e with
    fault := upd.fault
    computed := upd.fault.isNone
    paddr := upd.paddr
    isMmio := upd.isMmio
    shiftedBE := upd.shiftedBE }

def writeAddrSt (e : StQEntry c) : StQEntry c :=
  { e with
    fault := upd.fault
    computed := upd.fault.isNone
    paddr := upd.paddr
    isMmio := upd.isMmio
    shiftedBE := upd.shiftedBE }

def writeAddr : State c :=
  match upd.lsqTag with
  | .ld tag => { s with ld := modify s.ld tag (writeAddrLd upd) }
  | .st tag => { s with st := modify s.st tag (writeAddrSt upd) }

def killedBy : LdKilledBy :=
  match upd.lsqTag with
  | .ld _ => .ld
  | .st _ => .st

/-- The search for the load to kill reads the entries before the write. -/
def updateAddr : State c :=
  match findOldest s.ldEnqP (needKill s upd) with
  | none => writeAddr s upd
  | some killTag =>
    { writeAddr s upd with
      ld := modify (writeAddr s upd).ld killTag fun e => { e with killed := some (killedBy upd) } }

/-- The wire `doFinishMem` sets for `doIssueLdFromUpdate`; `mem_func` of the instruction is that of
its entry. -/
def issueFromUpdate : Option (LSQIssueLdInfo c) :=
  match upd.lsqTag with
  | .ld tag =>
    if (s.ld tag).memFunc = .ld && !upd.isMmio && upd.fault.isNone && !(s.ld tag).waitWPResp then
      some
        { tag := tag
          paddr := upd.paddr
          shiftedBE := upd.shiftedBE }
    else none
  | .st _ => none

/-! ## Responses -/

def respLdResult (t : c.LdQTag) (alignedData : Data) : LSQRespLdResult c :=
  let e := s.ld t
  if e.waitWPResp then { wrongPath := true, dst := none, data := none }
  else
    let is32BitLd := e.byteEn.getLsbD 3 && !e.byteEn.getLsbD 7
    let data := gatherLoad e.paddr e.byteEn e.unsignedLd alignedData
    { wrongPath := false
      dst := e.dst
      data := some (if e.dst.any (·.isFpuReg) && is32BitLd then nanbox data else data) }

def respLd (t : c.LdQTag) : State c :=
  { s with
    ld := modify s.ld t fun e =>
      if e.waitWPResp then { e with waitWPResp := false } else { e with done := true } }

def noWrongPathLoads : Bool := (List.finRange c.ldQSize).all fun i => !(s.ld i).waitWPResp

/-! ## Verification and dequeues -/

def verifySt : State c :=
  let verP := s.stVerifyP
  let e := s.st verP
  if e.valid && !e.verified && (e.computed || e.memFunc = .fence) then
    { s with
      st := modify s.st verP fun e => { e with verified := true }
      stVerifyP := getNextPtr verP
      ld := fun i =>
        if (s.ld i).olderSt = some verP then { s.ld i with olderStVerified := true } else s.ld i }
  else s

def deqLdGuard : Bool :=
  let e := s.ld s.ldDeqP
  e.valid && (e.fault.isSome ||
    if e.memFunc = .ld && !e.isMmio then e.done && (e.olderSt.isNone || e.olderStVerified)
    else e.computed && e.atCommit && e.olderSt.isNone)

def deqLd : State c :=
  let deqP := s.ldDeqP
  let ld := modify s.ld deqP fun e => { e with valid := false }
  { s with
    ldDeqP := getNextPtr deqP
    ld := fun i => if (ld i).depLdQDeq = some deqP then { ld i with depLdQDeq := none } else ld i }

def deqStGuard : Bool :=
  let e := s.st s.stDeqP
  e.valid && (e.fault.isSome || (e.computed || e.memFunc = .fence) && e.atCommit)

def resetSt (deqP : c.StQTag) (e : LdQEntry c) : LdQEntry c :=
  { e with
    olderSt := if e.olderSt = some deqP then none else e.olderSt
    readFrom := if e.readFrom = some deqP then none else e.readFrom
    depStQDeq := if e.depStQDeq = some deqP then none else e.depStQDeq }

def deqSt : State c :=
  let deqP := s.stDeqP
  { s with
    st := modify s.st deqP fun e => { e with valid := false }
    stDeqP := getNextPtr deqP
    stVerifyP := if (s.st deqP).verified then s.stVerifyP else getNextPtr deqP
    ld := fun i => resetSt deqP (s.ld i) }

def wakeupLdStalledBySB (sbIdx : c.SBIndex) : State c :=
  { s with
    ld := fun i =>
      if (s.ld i).depSBDeq = some sbIdx then { s.ld i with depSBDeq := none } else s.ld i }

def setAtCommit (lsqTag : LdStQTag c) : State c :=
  match lsqTag with
  | .ld tag => { s with ld := modify s.ld tag fun e => { e with atCommit := true } }
  | .st tag => { s with st := modify s.st tag fun e => { e with atCommit := true } }

def updateData (t : c.StQTag) (d : Data) : State c :=
  { s with st := modify s.st t fun e => { e with stData := d } }

/-! ## Enqueues -/

/-- The youngest store, which the next load is younger than. -/
def youngestSt : c.StQTag := s.stEnqP - 1

def enqLd (req : EnqLd c) : State c :=
  let older := s.st (youngestSt s)
  { s with
    ldEnqP := getNextPtr s.ldEnqP
    ld := modify s.ld s.ldEnqP fun e =>
      { e with
        valid := true
        memFunc := req.memFunc
        unsignedLd := req.unsignedLd
        byteEn := req.byteEn
        acq := req.aq
        dst := req.dst
        fault := none
        computed := false
        executing := false
        done := false
        killed := none
        readFrom := none
        depLdQDeq := none
        depStQDeq := none
        depLdEx := none
        depSBDeq := none
        specBits := req.specBits
        atCommit := false
        -- the wrong path filter stays what it was
        olderSt := if older.valid then some (youngestSt s) else none
        olderStVerified := older.valid && older.verified } }

def enqSt (req : EnqSt c) : State c :=
  { s with
    stEnqP := getNextPtr s.stEnqP
    st := modify s.st s.stEnqP fun e =>
      { e with
        valid := true
        memFunc := req.memFunc
        acq := req.aq
        fault := none
        computed := false
        verified := false
        specBits := req.specBits
        atCommit := false } }

/-! ## Speculation -/

def correctSpeculation (mask : c.SpecBits) : State c :=
  { s with
    ld := fun i => { s.ld i with specBits := fun tag => (s.ld i).specBits tag && mask tag }
    st := fun i => { s.st i with specBits := fun tag => (s.st i).specBits tag && mask tag } }

variable (x : IncorrectSpec c)

def isLdNeedKill (i : c.LdQTag) : Bool :=
  if x.killAll then !(s.ld i).atCommit else (s.ld i).specBits x.specTag

def isStNeedKill (i : c.StQTag) : Bool :=
  if x.killAll then !(s.st i).atCommit else (s.st i).specBits x.specTag

def killLd (e : LdQEntry c) : LdQEntry c :=
  { e with
    valid := false
    waitWPResp := e.waitWPResp || e.valid && e.executing && !e.done }

def incorrectSpeculation : State c :=
  let newStEnqP :=
    (findOldest s.stEnqP fun i => (s.st i).valid && isStNeedKill s x i).getD s.stEnqP
  { s with
    ld := fun i => if isLdNeedKill s x i then killLd (s.ld i) else s.ld i
    ldEnqP := (findOldest s.ldEnqP fun i => (s.ld i).valid && isLdNeedKill s x i).getD s.ldEnqP
    st := fun i => if isStNeedKill s x i then { s.st i with valid := false } else s.st i
    stEnqP := newStEnqP
    stVerifyP := (findOldest s.stEnqP fun i =>
      (s.st i).valid && !isStNeedKill s x i && !(s.st i).verified).getD newStEnqP }

end Methods

/-! ## A cycle -/

section Cycle

variable (s : State c) (i : Input c)

def setAtCommits (now : State c) : State c :=
  (List.finRange c.supSize).foldl (fun now port =>
    match i.setAtCommit port with
    | some lsqTag => setAtCommit now lsqTag
    | none => now) now

def dequeued : State c := if i.deqLd && deqLdGuard s then deqLd s else s

def updated : State c :=
  match i.updateAddr with
  | some upd => updateAddr (verifySt (dequeued s i)) upd
  | none => verifySt (dequeued s i)

/-- The load that `issueLd` is called for, with the store buffer's answer. -/
def issueInfo : Option (LSQIssueLdInfo c × SBSearchRes c) :=
  match i.issue with
  | some (.fromIssueQ, sbRes) => (findIssue s).map fun info => (info, sbRes)
  | some (.fromUpdate, sbRes) =>
    (i.updateAddr.bind (issueFromUpdate (dequeued s i))).map fun info => (info, sbRes)
  | none => none

def issued : State c :=
  match issueInfo s i with
  | some (info, sbRes) => issueLd (updated s i) info sbRes
  | none => updated s i

/-- What the call of `issueLd` returns. -/
def issueAnswer : Option (c.LdQTag × LSQIssueLdResult c) :=
  (issueInfo s i).map fun call => (call.1.tag, issueResult (updated s i) call.1 call.2)

def wokenBySB : State c :=
  match i.wakeupLdStalledBySB with
  | some sbIdx => wakeupLdStalledBySB (issued s i) sbIdx
  | none => issued s i

def storesDequeued : State c :=
  if i.deqSt && deqStGuard (wokenBySB s i) then deqSt (wokenBySB s i) else wokenBySB s i

/-- The registers as `respLd` reads them. -/
def beforeResp : State c := setAtCommits i (storesDequeued s i)

def responded : State c :=
  match i.respLd with
  | some (t, _) => respLd (beforeResp s i) t
  | none => beforeResp s i

def dataUpdated (now : State c) : State c :=
  match i.updateData with
  | some (t, d) => updateData now t d
  | none => now

/-- The guards of `enqLd` and `enqSt` read the entries of the start of the cycle. -/
def enqueued (now : State c) : State c :=
  match i.enq with
  | some (.ld req) => if (s.ld s.ldEnqP).valid then now else enqLd now req
  | some (.st req) => if (s.st s.stEnqP).valid then now else enqSt now req
  | none => now

def next : State c :=
  let now := match i.incorrectSpec with
    | some x => dataUpdated i (setAtCommits i (incorrectSpeculation s x))
    | none => enqueued s i (dataUpdated i (responded s i))
  match i.correctSpec with
  | some mask => correctSpeculation now mask
  | none => now

end Cycle

end Toooba.SplitLsq
