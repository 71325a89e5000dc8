import Mathlib.Data.List.Basic
import RiscvCores.Lib.Clocked
import RiscvCores.Lib.SharedReads
import RiscvCores.Toooba.TlbCaches
import RiscvCores.Toooba.TlbPermissions

/-!
# `mkDTlb`

The data TLB, built without `SECURITY`, as a machine whose steps are its rules and the methods
called on it, one at a time.  The parent TLB is kept as the requests it has taken and the page
tables; it answers in any order.
-/

set_option autoImplicit false

namespace Toooba.DTlb

open Tlb

/-- `DTLB_REQ_NUM`, `L1_TLB_SIZE`, `NumSpecTags` and the request of an instruction. -/
structure Params (instT : Type) where
  dTlbReqNum : Nat
  dTlbSize : Nat
  numSpecTags : Nat
  getTlbReq : instT → TlbReq

variable {instT : Type} {p : Params instT}

abbrev DTlbReqIdx (p : Params instT) := Fin p.dTlbReqNum

abbrev SpecTag (p : Params instT) := Fin p.numSpecTags

abbrev SpecBits (p : Params instT) := BitVec p.numSpecTags

structure DTlbReq (p : Params instT) where
  inst : instT
  specBits : SpecBits p

structure DTlbResp (p : Params instT) where
  resp : TlbResp
  inst : instT
  specBits : SpecBits p

structure DTlbRqToP (p : Params instT) where
  vpn : Vpn
  id : DTlbReqIdx p

structure DTlbTransRsFromP (p : Params instT) where
  entry : Option TlbEntry
  id : DTlbReqIdx p

/-- `WaitParent` is the own read of a slot, `WaitPeer` that of a peer. -/
abbrev DTlbWait (p : Params instT) := SharedReads.Wait p.dTlbReqNum

structure State (p : Params instT) where
  tlb : Fin p.dTlbSize → Option TlbEntry
  needFlush : Bool
  waitFlushP : Bool
  vm_info : L1VMInfo
  pendValid : DTlbReqIdx p → Bool
  pendWait : DTlbReqIdx p → DTlbWait p
  pendPoisoned : DTlbReqIdx p → Bool
  pendInst : DTlbReqIdx p → instT
  pendResp : DTlbReqIdx p → TlbResp
  pendSpecBits : DTlbReqIdx p → SpecBits p
  freeQ : List (DTlbReqIdx p)
  freeQInited : Bool
  freeQInitIdx : Nat
  rqToPQ : List (DTlbRqToP p)
  ldTransRsFromPQ : List (DTlbTransRsFromP p)
  respForOtherReq : Option (DTlbReqIdx p)
  flushRqToPQ : Bool
  flushRsFromPQ : Bool
  /-- The requests the parent has taken and not answered. -/
  asked : List (DTlbRqToP p)
  mem : Addr → Data

namespace State

variable (s : State p)

/-- The request in a slot. -/
def pendReq (i : DTlbReqIdx p) : TlbReq := p.getTlbReq (s.pendInst i)

/-! ## Flushes -/

def doStartFlush : Option (State p) :=
  if s.needFlush && !s.waitFlushP && decide (∀ i, s.pendValid i = false) && !s.flushRqToPQ then
    some { s with tlb := fun _ => none, flushRqToPQ := true, waitFlushP := true }
  else none

def doFinishFlush : Option (State p) :=
  if s.needFlush && s.waitFlushP && s.flushRsFromPQ then
    some { s with flushRsFromPQ := false, needFlush := false, waitFlushP := false }
  else none

def flush : Option (State p) :=
  if s.needFlush then none else some { s with needFlush := true, waitFlushP := false }

/-! ## Responses of the parent -/

/-- Another request that waits for the response to `id`. -/
def waitForResp (id idx : DTlbReqIdx p) : Option (DTlbReqIdx p) :=
  (List.finRange p.dTlbReqNum).find? fun i => decide (s.pendWait i = .waitPeer id ∧ i ≠ idx)

/-- The response is kept for the next request that waits for it, or is done. -/
def nextResp (id idx : DTlbReqIdx p) : State p :=
  match s.waitForResp id idx with
  | some i => { s with respForOtherReq := some i }
  | none => { s with respForOtherReq := none, ldTransRsFromPQ := s.ldTransRsFromPQ.tail }

def noWait (idx : DTlbReqIdx p) : State p :=
  { s with pendWait := Function.update s.pendWait idx .none }

def record (idx : DTlbReqIdx p) (resp : TlbResp) : State p :=
  { s with pendResp := Function.update s.pendResp idx resp }

/-- `victim` is the place a new entry may take. -/
def refill (idx : DTlbReqIdx p) (entry : Option TlbEntry) (victim : Option (Fin p.dTlbSize)) :
    State p :=
  let r := s.pendReq idx
  if s.pendPoisoned idx then s
  else
    match entry with
    | some en =>
        if hasVMPermission s.vm_info en.pteType en.ppn en.level r.access then
          { s with tlb := FullAssoc.addEntry s.tlb en victim }.record idx
            (.ok (translate r.addr en.ppn en.level))
        else s.record idx (.error r.pageFault)
    | none => s.record idx (.error r.pageFault)

def doPRs (victim : Option (Fin p.dTlbSize)) : Option (State p) :=
  s.ldTransRsFromPQ.head?.map fun pRs =>
    let idx := s.respForOtherReq.getD pRs.id
    ((s.nextResp pRs.id idx).refill idx pRs.entry victim).noWait idx

/-! ## Free slots -/

/-- The counter is not read once all slots are in the queue. -/
def doInitFreeQ : Option (State p) :=
  if inside : s.freeQInited = false ∧ s.freeQInitIdx < p.dTlbReqNum then
    some
      { s with
        freeQ := s.freeQ ++ [⟨s.freeQInitIdx, inside.2⟩]
        freeQInitIdx := s.freeQInitIdx + 1
        freeQInited := decide (s.freeQInitIdx = p.dTlbReqNum - 1) }
  else none

def validProcRespIdx : Option (DTlbReqIdx p) :=
  (List.finRange p.dTlbReqNum).find? fun i =>
    s.pendValid i && decide (s.pendWait i = .none) && !s.pendPoisoned i

def poisonedProcRespIdx : Option (DTlbReqIdx p) :=
  (List.finRange p.dTlbReqNum).find? fun i =>
    s.pendValid i && decide (s.pendWait i = .none) && s.pendPoisoned i

def release (idx : DTlbReqIdx p) : Option (State p) :=
  if s.freeQ.length < p.dTlbReqNum then
    some
      { s with
        pendValid := Function.update s.pendValid idx false
        freeQ := s.freeQ ++ [idx] }
  else none

def doPoisonedProcResp : Option (State p) :=
  if s.freeQInited then s.poisonedProcRespIdx.bind s.release else none

def deqProcResp : Option (State p) :=
  if s.freeQInited then s.validProcRespIdx.bind s.release else none

def procResp : Option (DTlbResp p) :=
  if s.freeQInited then
    s.validProcRespIdx.map fun idx =>
      { resp := s.pendResp idx, inst := s.pendInst idx, specBits := s.pendSpecBits idx }
  else none

/-! ## Requests -/

def allocate (idx : DTlbReqIdx p) (req : DTlbReq p) : State p :=
  { s with
    freeQ := s.freeQ.tail
    pendValid := Function.update s.pendValid idx true
    pendPoisoned := Function.update s.pendPoisoned idx false
    pendInst := Function.update s.pendInst idx req.inst
    pendSpecBits := Function.update s.pendSpecBits idx req.specBits }

/-- A request for the page of `r` that waits for the parent. -/
def reqSamePage (r : TlbReq) : Option (DTlbReqIdx p) :=
  (List.finRange p.dTlbReqNum).find? fun i =>
    decide (s.pendWait i = .waitMem ∧ getVpn r.addr = getVpn (s.pendReq i).addr)

def miss (idx : DTlbReqIdx p) (r : TlbReq) (peer : Option (DTlbReqIdx p)) : State p :=
  match peer with
  | some i => { s with pendWait := Function.update s.pendWait idx (.waitPeer i) }
  | none =>
      { s with
        pendWait := Function.update s.pendWait idx .waitMem
        rqToPQ := s.rqToPQ ++ [{ vpn := getVpn r.addr, id := idx }] }

def canProcReq : Bool :=
  !s.needFlush && s.ldTransRsFromPQ.isEmpty && decide (s.rqToPQ.length < p.dTlbReqNum) &&
    s.freeQInited

def procReq (req : DTlbReq p) : Option (State p) :=
  if s.canProcReq then
    s.freeQ.head?.map fun idx =>
      let s' := s.allocate idx req
      let r := p.getTlbReq req.inst
      if s.vm_info.sv39 then
        if !validVirtualAddress r.addr then (s'.record idx (.error r.pageFault)).noWait idx
        else
          match FullAssoc.translate s.tlb (getVpn r.addr) s.vm_info.asid with
          | some entry => (s'.record idx (entryResp s.vm_info r entry)).noWait idx
          | none => s'.miss idx r (s.reqSamePage r)
      else (s'.record idx (.ok r.addr)).noWait idx
  else none

/-! ## Speculation -/

def incorrectSpeculation (kill_all : Bool) (x : SpecTag p) : State p :=
  { s with
    pendPoisoned := fun i =>
      if kill_all || (s.pendSpecBits i).getLsbD x.val then true else s.pendPoisoned i }

def correctSpeculation (mask : SpecBits p) : State p :=
  { s with pendSpecBits := fun i => s.pendSpecBits i &&& mask }

end State

/-! ## Steps -/

/-- The rules of the module, the calls of its methods, and what its environment changes. -/
inductive Rule (p : Params instT)
  | doStartFlush
  | doFinishFlush
  | doPRs (victim : Option (Fin p.dTlbSize))
  | doInitFreeQ
  | doPoisonedProcResp
  | flush
  | updateVMInfo (vm : L1VMInfo)
  | procReq (req : DTlbReq p)
  | deqProcResp
  | incorrectSpeculation (kill_all : Bool) (x : SpecTag p)
  | correctSpeculation (mask : SpecBits p)
  | rqToP
  | ldTransRsFromP (k : Nat)
  | flushRequest
  | flushResponse
  | writeTables (mem : Addr → Data)

/-- The walk of a page number in the tables as they are. -/
def State.walkOf (s : State p) (vpn : Vpn) : Option TlbEntry :=
  sv39Walk s.vm_info.asid s.vm_info.basePPN s.mem vpn

/-- The state after a rule; none when the rule cannot fire. -/
def fire (s : State p) : Rule p → Option (State p)
  | .doStartFlush => s.doStartFlush
  | .doFinishFlush => s.doFinishFlush
  | .doPRs victim => s.doPRs victim
  | .doInitFreeQ => s.doInitFreeQ
  | .doPoisonedProcResp => s.doPoisonedProcResp
  | .flush => s.flush
  | .updateVMInfo vm => some { s with vm_info := vm }
  | .procReq req => s.procReq req
  | .deqProcResp => s.deqProcResp
  | .incorrectSpeculation kill_all x => some (s.incorrectSpeculation kill_all x)
  | .correctSpeculation mask => some (s.correctSpeculation mask)
  | .rqToP =>
      s.rqToPQ.head?.map fun r => { s with rqToPQ := s.rqToPQ.tail, asked := s.asked ++ [r] }
  | .ldTransRsFromP k =>
      if s.ldTransRsFromPQ.length < 2 then
        s.asked[k]?.map fun r =>
          { s with
            asked := s.asked.eraseIdx k
            ldTransRsFromPQ := s.ldTransRsFromPQ ++ [{ entry := s.walkOf r.vpn, id := r.id }] }
      else none
  | .flushRequest => if s.flushRqToPQ then some { s with flushRqToPQ := false } else none
  | .flushResponse => if s.flushRsFromPQ then none else some { s with flushRsFromPQ := true }
  | .writeTables mem => some { s with mem := mem }

/-! ## Runs -/

/-- What the registers that are not reset hold at first. -/
structure PowerUp (p : Params instT) where
  pendPoisoned : DTlbReqIdx p → Bool
  pendInst : DTlbReqIdx p → instT
  pendResp : DTlbReqIdx p → TlbResp
  pendSpecBits : DTlbReqIdx p → SpecBits p
  mem : Addr → Data

def reset (u : PowerUp p) : State p where
  tlb _ := none
  needFlush := false
  waitFlushP := false
  vm_info := L1VMInfo.defaultValue
  pendValid _ := false
  pendWait _ := .none
  pendPoisoned := u.pendPoisoned
  pendInst := u.pendInst
  pendResp := u.pendResp
  pendSpecBits := u.pendSpecBits
  freeQ := []
  freeQInited := false
  freeQInitIdx := 0
  rqToPQ := []
  ldTransRsFromPQ := []
  respForOtherReq := none
  flushRqToPQ := false
  flushRsFromPQ := false
  asked := []
  mem := u.mem

/-- The VM information changes only while no request is pending. -/
def Contract (s : State p) : Rule p → Prop
  | .updateVMInfo _ => ∀ i, s.pendValid i = false
  | _ => True

def machine (u : PowerUp p) : Clocked.Machine (State p) (Rule p) where
  reset := reset u
  next s rule := (fire s rule).getD s
  allowed _ s rule := (fire s rule).isSome ∧ Contract s rule

end Toooba.DTlb
