import Mathlib.Data.List.Basic
import RiscvCores.Lib.Clocked
import RiscvCores.Lib.SharedReads
import RiscvCores.Toooba.TlbCaches

/-!
# `mkL2Tlb`

The second-level TLB as a machine whose steps are its rules and the methods called on it, one
at a time: what the hardware does in a cycle is some order of the rules that fire in it.  The
memory is kept with its reads under way, which it answers in any order.
-/

set_option autoImplicit false

namespace Toooba.L2Tlb

open Tlb

/-- `L2TLB_REQ_NUM`, `L2_TLB_HUGE_SIZE`, the sets and ways of the 4KB array and
`SplitTransCacheSize`. -/
structure Params where
  l2TlbReqNum : Nat
  hugeSize : Nat
  lgSetNum : Nat
  wayNum : Nat
  transCacheSize : Nat
  someReq : 0 < l2TlbReqNum
  someWay : 0 < wayNum

variable {p : Params}

abbrev L2TlbReqIdx (p : Params) := Fin p.l2TlbReqNum

inductive TlbChild
  | I
  | D (idx : Nat)
deriving DecidableEq

structure L2TlbRqFromC where
  child : TlbChild
  vpn : Vpn
deriving DecidableEq

structure L2TlbRsToC where
  child : TlbChild
  entry : Option TlbEntry
deriving DecidableEq

structure TlbMemReq (p : Params) where
  addr : Addr
  id : L2TlbReqIdx p
deriving DecidableEq

structure TlbLdResp (p : Params) where
  data : Data
  id : L2TlbReqIdx p

/-- `WaitPeer` is the read of a peer request. -/
abbrev L2TlbWait (p : Params) := SharedReads.Wait p.l2TlbReqNum

structure State (p : Params) where
  tlb4KB : SetAssocTlb p.lgSetNum p.wayNum
  tlbMG : Fin p.hugeSize → Option TlbEntry
  tlbReqQ : Option (L2TlbReqIdx p)
  transCache : TranslationCache p.transCacheSize
  transCacheReqQ : Option (L2TlbReqIdx p)
  iFlushReq : Bool
  dFlushReq : Bool
  waitFlushDone : Bool
  flushDoneQ : Bool
  rqFromCQ : Option L2TlbRqFromC
  rsToCQ : Option L2TlbRsToC
  pendValid : L2TlbReqIdx p → Bool
  pendReq : L2TlbReqIdx p → L2TlbRqFromC
  pendWait : L2TlbReqIdx p → L2TlbWait p
  pendWalkLevel : L2TlbReqIdx p → PageWalkLevel
  pendWalkAddr : L2TlbReqIdx p → Addr
  vm_info_I : VMInfo
  vm_info_D : VMInfo
  memReqQ : List (TlbMemReq p)
  respLdQ : List (TlbLdResp p)
  respForOtherReq : Option (L2TlbReqIdx p)
  /-- The reads the memory has taken and not answered. -/
  reading : List (TlbMemReq p)
  mem : Addr → Data

namespace State

variable (s : State p)

def flushing : Bool := s.iFlushReq && s.dFlushReq

def vmInfo : TlbChild → VMInfo
  | .I => s.vm_info_I
  | .D _ => s.vm_info_D

/-! ## Flushes -/

def doStartFlush : Option (State p) :=
  if s.flushing && !s.waitFlushDone then
    s.tlb4KB.flush.map fun tlb4KB =>
      { s with
        waitFlushDone := true
        tlb4KB := tlb4KB
        tlbMG := fun _ => none
        transCache := s.transCache.flush }
  else none

def doWaitFlush : Option (State p) :=
  if s.flushing && s.waitFlushDone && decide (s.tlb4KB.state = .ready) && !s.flushDoneQ then
    some
      { s with waitFlushDone := false, flushDoneQ := true, iFlushReq := false, dFlushReq := false }
  else none

/-! ## Looking up the arrays -/

def freeSlot : Option (L2TlbReqIdx p) :=
  (List.finRange p.l2TlbReqNum).find? fun i => !s.pendValid i

def doTlbReq : Option (State p) :=
  if s.flushing || !s.respLdQ.isEmpty || s.tlbReqQ.isSome then none
  else
    match s.freeSlot, s.rqFromCQ with
    | some idx, some r =>
        (s.tlb4KB.req (.translate r.vpn (s.vmInfo r.child).asid)).map fun tlb4KB =>
          { s with
            rqFromCQ := none
            tlb4KB := tlb4KB
            tlbReqQ := some idx
            pendValid := Function.update s.pendValid idx true
            pendReq := Function.update s.pendReq idx r }
    | _, _ => none

/-- The answer leaves for the child and the slot is free again. -/
def respond (idx : L2TlbReqIdx p) (entry : Option TlbEntry) : Option (State p) :=
  if s.rsToCQ.isSome then none
  else
    some
      { s with
        rsToCQ := some { child := (s.pendReq idx).child, entry }
        pendValid := Function.update s.pendValid idx false }

def doTlbResp : Option (State p) :=
  match s.tlbReqQ, s.tlb4KB.resp with
  | some idx, some resp4KB =>
      let cRq := s.pendReq idx
      let vm_info := s.vmInfo cRq.child
      let deq := { s with tlbReqQ := none, tlb4KB := s.tlb4KB.deqResp }
      if !vm_info.sv39 then deq.respond idx none
      else
        match FullAssoc.translate s.tlbMG cRq.vpn vm_info.asid, resp4KB with
        | some entry, _ => deq.respond idx (some entry)
        | none, some entry => deq.respond idx (some entry)
        | none, none =>
            if s.transCacheReqQ.isSome then none
            else
              (s.transCache.req cRq.vpn vm_info.asid).map fun transCache =>
                { deq with transCache := transCache, transCacheReqQ := some idx }
  | _, _ => none

/-! ## Walking the tables -/

/-- Another request that has sent the read of `pteAddr`. -/
def otherReqSamePTE (idx : L2TlbReqIdx p) (pteAddr : Addr) : Option (L2TlbReqIdx p) :=
  (List.finRange p.l2TlbReqNum).find? fun i =>
    decide (i ≠ idx ∧ s.pendWait i = .waitMem ∧ s.pendWalkAddr i = pteAddr)

/-- `idx` walks on at `level` with the entry at `pteAddr`: it waits for a peer that reads that
entry, or reads it itself. -/
def walkOn (idx : L2TlbReqIdx p) (level : PageWalkLevel) (pteAddr : Addr) : Option (State p) :=
  let s' :=
    { s with
      pendWalkLevel := Function.update s.pendWalkLevel idx level
      pendWalkAddr := Function.update s.pendWalkAddr idx pteAddr }
  match s.otherReqSamePTE idx pteAddr with
  | some i => some { s' with pendWait := Function.update s.pendWait idx (.waitPeer i) }
  | none =>
      if s.memReqQ.length < 2 then
        some
          { s' with
            memReqQ := s.memReqQ ++ [{ addr := pteAddr, id := idx }]
            pendWait := Function.update s.pendWait idx .waitMem }
      else none

/-- The table the walk of `idx` starts with. -/
def startPPN (idx : L2TlbReqIdx p) (resp : TranslationCacheResp) : Ppn :=
  let vm_info := s.vmInfo (s.pendReq idx).child
  if resp.startLevel < maxPageWalkLevel then resp.ppn else vm_info.basePPN

def startPTEAddr (idx : L2TlbReqIdx p) (resp : TranslationCacheResp) : Addr :=
  getPTEAddr (getPTBaseAddr (s.startPPN idx resp)) (s.pendReq idx).vpn resp.startLevel

def doTranslationCacheResp : Option (State p) :=
  match s.transCacheReqQ, s.transCache.respQ with
  | some idx, some resp =>
      let deq := { s with transCacheReqQ := none, transCache := s.transCache.deqResp }
      deq.walkOn idx resp.startLevel (s.startPTEAddr idx resp)
  | _, _ => none

/-- A request other than `idx` that waits for the read of `id`. -/
def waitForResp (id idx : L2TlbReqIdx p) : Option (L2TlbReqIdx p) :=
  (List.finRange p.l2TlbReqNum).find? fun i => decide (s.pendWait i = .waitPeer id ∧ i ≠ idx)

/-- The response at the head is kept for the next request that waits for it, or is done. -/
def nextResp (id idx : L2TlbReqIdx p) : State p :=
  match s.waitForResp id idx with
  | some i => { s with respForOtherReq := some i }
  | none => { s with respForOtherReq := none, respLdQ := s.respLdQ.tail }

/-- The walk of `idx` ends with an answer. -/
def endWalk (idx : L2TlbReqIdx p) (entry : Option TlbEntry) : Option (State p) :=
  { s with pendWait := Function.update s.pendWait idx .none }.respond idx entry

def nextPTEAddr (idx : L2TlbReqIdx p) (pte : PTESv39) : Addr :=
  getPTEAddr (getPTBaseAddr pte.ppn) (s.pendReq idx).vpn (s.pendWalkLevel idx - 1)

/-- The level and the address move on; they do so as well when the walk ends, which does no
harm. -/
def moved (idx : L2TlbReqIdx p) (pte : PTESv39) : State p :=
  { s with
    pendWalkLevel := Function.update s.pendWalkLevel idx (s.pendWalkLevel idx - 1)
    pendWalkAddr := Function.update s.pendWalkAddr idx (s.nextPTEAddr idx pte) }

/-- A new entry goes to the array of its page size. -/
def addToTlb (entry : TlbEntry) (victimMG : Option (Fin p.hugeSize)) : Option (State p) :=
  if 0 < entry.level then
    some { s with tlbMG := FullAssoc.addEntry s.tlbMG entry victimMG }
  else (s.tlb4KB.req (.refill entry)).map fun tlb4KB => { s with tlb4KB := tlb4KB }

/-- `victimMG` and `victimTC` are the places a new entry may take in the array of mega and giga
pages and in the translation cache. -/
def usePTE (idx : L2TlbReqIdx p) (pte : PTESv39) (victimMG : Option (Fin p.hugeSize))
    (victimTC : Option (Fin p.transCacheSize)) : Option (State p) :=
  let cRq := s.pendReq idx
  let vm_info := s.vmInfo cRq.child
  let walkLevel := s.pendWalkLevel idx
  if !vm_info.sv39 then (s.moved idx pte).endWalk idx none
  else if !pte.valid then (s.moved idx pte).endWalk idx none
  else if !isLeafPTE pte.pteType then
    if walkLevel = 0 then (s.moved idx pte).endWalk idx none
    else
      (s.walkOn idx (walkLevel - 1) (s.nextPTEAddr idx pte)).bind fun s' =>
        (s.transCache.addEntry cRq.vpn walkLevel pte.ppn vm_info.asid victimTC).map
          fun transCache => { s' with transCache := transCache }
  else if !isPpnAligned pte.ppn walkLevel then (s.moved idx pte).endWalk idx none
  else
    let entry := leafEntry vm_info.asid cRq.vpn walkLevel pte
    ((s.moved idx pte).endWalk idx (some entry)).bind fun s' => s'.addToTlb entry victimMG

def doPageWalk (victimMG : Option (Fin p.hugeSize)) (victimTC : Option (Fin p.transCacheSize)) :
    Option (State p) :=
  if s.tlbReqQ.isSome || s.transCacheReqQ.isSome then none
  else
    s.respLdQ.head?.bind fun first =>
      let idx := s.respForOtherReq.getD first.id
      (s.nextResp first.id idx).usePTE idx (PTESv39.unpack first.data) victimMG victimTC

end State

/-! ## Steps -/

/-- The rules of the module and of its arrays, the calls of its methods, and what its
environment changes. -/
inductive Rule (p : Params)
  | doStartFlush
  | doWaitFlush
  | doFlush
  | doAddEntry (way : Fin p.wayNum)
  | doTlbReq
  | doTlbResp
  | doTranslationCacheResp
  | doPageWalk (victimMG : Option (Fin p.hugeSize)) (victimTC : Option (Fin p.transCacheSize))
  | rqFromC (r : L2TlbRqFromC)
  | rsToC
  | iTlbReqFlush
  | dTlbReqFlush
  | flushDone
  | memReq
  | respLd (k : Nat)
  | updateVMInfo (vmI vmD : VMInfo)
  | writeTables (mem : Addr → Data)

/-- The state after a rule; none when the rule cannot fire. -/
def fire (s : State p) : Rule p → Option (State p)
  | .doStartFlush => s.doStartFlush
  | .doWaitFlush => s.doWaitFlush
  | .doFlush => s.tlb4KB.doFlush.map fun tlb4KB => { s with tlb4KB := tlb4KB }
  | .doAddEntry way => (s.tlb4KB.doAddEntry way).map fun tlb4KB => { s with tlb4KB := tlb4KB }
  | .doTlbReq => s.doTlbReq
  | .doTlbResp => s.doTlbResp
  | .doTranslationCacheResp => s.doTranslationCacheResp
  | .doPageWalk victimMG victimTC => s.doPageWalk victimMG victimTC
  | .rqFromC r => if s.rqFromCQ.isSome then none else some { s with rqFromCQ := some r }
  | .rsToC => if s.rsToCQ.isSome then some { s with rsToCQ := none } else none
  | .iTlbReqFlush => if s.iFlushReq then none else some { s with iFlushReq := true }
  | .dTlbReqFlush => if s.dFlushReq then none else some { s with dFlushReq := true }
  | .flushDone => if s.flushDoneQ then some { s with flushDoneQ := false } else none
  | .memReq =>
      s.memReqQ.head?.map fun r =>
        { s with memReqQ := s.memReqQ.tail, reading := s.reading ++ [r] }
  | .respLd k =>
      if s.respLdQ.length < 2 then
        s.reading[k]?.map fun r =>
          { s with
            reading := s.reading.eraseIdx k
            respLdQ := s.respLdQ ++ [{ data := s.mem r.addr, id := r.id }] }
      else none
  | .updateVMInfo vmI vmD => some { s with vm_info_I := vmI, vm_info_D := vmD }
  | .writeTables mem => some { s with mem := mem }

/-! ## Runs -/

/-- What the registers and RAMs that are not reset hold at first. -/
structure PowerUp (p : Params) where
  tlbRam : BitVec p.lgSetNum → Fin p.wayNum → Option TlbEntry
  pendReq : L2TlbReqIdx p → L2TlbRqFromC
  pendWalkLevel : L2TlbReqIdx p → PageWalkLevel
  pendWalkAddr : L2TlbReqIdx p → Addr
  mem : Addr → Data

def VMInfo.defaultValue : VMInfo where
  asid := 0
  sv39 := false
  basePPN := 0

def reset (u : PowerUp p) : State p where
  tlb4KB := { tlbRam := u.tlbRam, pendReq := none, flushIdx := 0, state := .flush }
  tlbMG _ := none
  tlbReqQ := none
  transCache := { caches := fun _ _ => none, respQ := none }
  transCacheReqQ := none
  iFlushReq := false
  dFlushReq := false
  waitFlushDone := false
  flushDoneQ := false
  rqFromCQ := none
  rsToCQ := none
  pendValid _ := false
  pendReq := u.pendReq
  pendWait _ := .none
  pendWalkLevel := u.pendWalkLevel
  pendWalkAddr := u.pendWalkAddr
  vm_info_I := VMInfo.defaultValue
  vm_info_D := VMInfo.defaultValue
  memReqQ := []
  respLdQ := []
  respForOtherReq := none
  reading := []
  mem := u.mem

/-- No request is pending. -/
def State.NonePending (s : State p) : Prop := s.rqFromCQ = none ∧ ∀ i, s.pendValid i = false

/-- No entry is cached, nor on its way into the 4KB array. -/
def State.NoneCached (s : State p) : Prop :=
  s.tlb4KB.pendReq.isNone ∧ (∀ idx way, s.tlb4KB.tlbRam idx way = none) ∧
    (∀ i, s.tlbMG i = none) ∧ ∀ i place, s.transCache.caches i place = none

/-- The tables and the VM information change only while no request is pending and no entry is
cached; instructions and data use the same tables. -/
def Contract (s : State p) : Rule p → Prop
  | .updateVMInfo vmI vmD =>
      s.NonePending ∧ s.NoneCached ∧ vmI.asid = vmD.asid ∧ vmI.basePPN = vmD.basePPN
  | .writeTables _ => s.NonePending ∧ s.NoneCached
  | _ => True

def machine (u : PowerUp p) : Clocked.Machine (State p) (Rule p) where
  reset := reset u
  next s rule := (fire s rule).getD s
  allowed _ s rule := (fire s rule).isSome ∧ Contract s rule

/-! ## Requests and answers -/

/-- The answer that the walk of the tables gives. -/
def State.walkAnswer (s : State p) (r : L2TlbRqFromC) : L2TlbRsToC where
  child := r.child
  entry :=
    let vm_info := s.vmInfo r.child
    if vm_info.sv39 then sv39Walk vm_info.asid vm_info.basePPN s.mem r.vpn else none

/-- What the requests of a run are to be answered, by the tables they were made under. -/
def due (cycles : List (State p × Rule p)) : List L2TlbRsToC :=
  cycles.filterMap fun c =>
    match c.2 with
    | .rqFromC r => some (c.1.walkAnswer r)
    | _ => none

/-- The answers the children took. -/
def answers (cycles : List (State p × Rule p)) : List L2TlbRsToC :=
  cycles.filterMap fun c =>
    match c.2 with
    | .rsToC => c.1.rsToCQ
    | _ => none

/-- The request in a slot. -/
def State.pending (s : State p) (i : L2TlbReqIdx p) : Option L2TlbRqFromC :=
  if s.pendValid i then some (s.pendReq i) else none

/-- The requests not answered. -/
def State.unanswered (s : State p) : List L2TlbRqFromC :=
  s.rqFromCQ.toList ++ (List.finRange p.l2TlbReqNum).filterMap s.pending

/-- What the children have yet to take: the answer on its way to them and those due. -/
def State.outstanding (s : State p) : List L2TlbRsToC :=
  s.rsToCQ.toList ++ s.unanswered.map s.walkAnswer

end Toooba.L2Tlb
