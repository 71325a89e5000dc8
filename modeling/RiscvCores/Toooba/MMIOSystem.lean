import RiscvCores.Toooba.MMIOFetch

/-!
# The platform with its cores

The FIFOs between `mkMMIOPlatform`, each `mkMMIOCore` and the fabric adapter.  A core answers
the first request of the platform with `handlePRq`; the adapter answers the first request of
the fabric with anything.
-/

set_option autoImplicit false

namespace Toooba.MMIOSystem

open Toooba.Amo Toooba.MMIOPlatform

variable {c : PlatformCfg}

structure System (c : PlatformCfg) where
  platform : Platform c
  cRqQ : CoreId c → List MMIOCRq
  pRqQ : CoreId c → List MMIOPRq
  cRsQ : CoreId c → List (BitVec 1)
  fabricReqQ : List MMIOCRq
  fabricRspQ : List MMIODataPRs
  msip : CoreId c → BitVec 1
  mtip : CoreId c → BitVec 1

inductive Event (c : PlatformCfg) where
  | sendReq (i : CoreId c) (req : MMIOCRq)
  | handlePRq (i : CoreId c) (undef : BitVec 1)
  | adapter (dprs : MMIODataPRs)
  | platform (rule : Rule c)

/-! ## Cores -/

/-- What `handlePRq` of a core leaves behind. -/
structure Handled where
  msip : BitVec 1
  mtip : BitVec 1
  resp : BitVec 1

/-- The answer to a store is `undef`. -/
def handlePRq (req : MMIOPRq) (undef msip mtip : BitVec 1) : Handled :=
  match req.target with
  | .msip =>
      match req.func with
      | .st => { msip := req.data.setWidth 1, mtip := mtip, resp := undef }
      | .amo func =>
          let newData := amoExec
            { func := func, doubleWord := false, aq := false, rl := false }
            (msip.setWidth 64) (req.data.setWidth 64) false
          { msip := newData.setWidth 1, mtip := mtip, resp := msip }
      | _ => { msip := msip, mtip := mtip, resp := msip }
  | .mtip =>
      match req.func with
      | .st => { msip := msip, mtip := req.data.setWidth 1, resp := undef }
      | _ => { msip := msip, mtip := mtip, resp := undef }

/-! ## What the rules of the platform take from the FIFOs -/

/-- The rules that take the answers of cores. -/
def collects : Rule c → Bool
  | .waitTimerInterruptDone => true
  | .waitMSIPDone _ => true
  | .waitMTimeCmpDone => true
  | .waitMTimeDone => true
  | _ => false

/-- The cores whose answers the rule that ends the wait takes. -/
def awaits (p : Platform c) (i : CoreId c) : Bool :=
  match p.curReq with
  | .timerInterrupt => p.waitMTIPCRs i
  | .msip _ => decide (p.waitLowerMSIPCRs = some i) || decide (p.waitUpperMSIPCRs = some i)
  | .mTimeCmp offset => decide (i = core c offset)
  | .mTime => p.waitMTIPCRs i
  | _ => false

/-- The core whose request `selectReq` takes. -/
def takesFrom (p : Platform c) : Rule c → Option (CoreId c)
  | .selectReq cRq =>
      let cores := List.finRange c.coreNum
      if cores.any p.needTimerInt then none else cores.find? fun i => (cRq i).isSome
  | _ => none

def postsTo (posts : List (CoreId c × MMIOPRq)) (i : CoreId c) : List MMIOPRq :=
  (posts.filter fun post => decide (post.1 = i)).map Prod.snd

/-! ## Steps -/

namespace System

variable (s : System c)

def platformStep (rule : Rule c) : System c :=
  let result := s.platform.exec rule
  { s with
    platform := result.1
    cRqQ := fun i => if takesFrom s.platform rule = some i then (s.cRqQ i).tail else s.cRqQ i
    pRqQ := fun i => s.pRqQ i ++ postsTo result.2.posts i
    cRsQ := fun i => if collects rule && awaits s.platform i then (s.cRsQ i).tail else s.cRsQ i
    fabricReqQ := s.fabricReqQ ++ result.2.fabric.toList
    fabricRspQ := if rule.fabricRsp.isSome then s.fabricRspQ.tail else s.fabricRspQ }

def handle (i : CoreId c) (req : MMIOPRq) (undef : BitVec 1) : System c :=
  let handled := handlePRq req undef (s.msip i) (s.mtip i)
  { s with
    pRqQ := Function.update s.pRqQ i (s.pRqQ i).tail
    cRsQ := Function.update s.cRsQ i (s.cRsQ i ++ [handled.resp])
    msip := Function.update s.msip i handled.msip
    mtip := Function.update s.mtip i handled.mtip }

def next : Event c → System c
  | .sendReq i req => { s with cRqQ := Function.update s.cRqQ i (s.cRqQ i ++ [req]) }
  | .handlePRq i undef => (s.pRqQ i).head?.elim s fun req => s.handle i req undef
  | .adapter dprs =>
      { s with fabricReqQ := s.fabricReqQ.tail, fabricRspQ := s.fabricRspQ ++ [dprs] }
  | .platform rule => s.platformStep rule

/-- What a rule takes from the FIFOs is there. -/
def Supplies : Rule c → Prop
  | .selectReq cRq => ∀ i, cRq i = (s.cRqQ i).head?
  | .waitMSIPDone cRs => ∀ i, awaits s.platform i = true → (s.cRsQ i).head? = some (cRs i)
  | .waitTimerInterruptDone => ∀ i, awaits s.platform i = true → s.cRsQ i ≠ []
  | .waitMTimeCmpDone => ∀ i, awaits s.platform i = true → s.cRsQ i ≠ []
  | .waitMTimeDone => ∀ i, awaits s.platform i = true → s.cRsQ i ≠ []
  | .fromFabricRsp dprs => s.fabricRspQ.head? = some dprs
  | .fromFabricAmoRsp dprs => s.fabricRspQ.head? = some dprs
  | .fromFabricIFetchRsp dprs => s.fabricRspQ.head? = some dprs
  | _ => True

def Allowed : Event c → Prop
  | .sendReq _ _ => True
  | .handlePRq i _ => s.pRqQ i ≠ []
  | .adapter _ => s.fabricReqQ ≠ []
  | .platform rule => s.platform.guard rule = true ∧ s.Supplies rule

end System

/-- Registers with a reset value, and empty FIFOs; the others start with any. -/
def resetSystem (u : Platform c) (msip mtip : CoreId c → BitVec 1) : System c where
  platform :=
    { u with
      mtimecmp := fun _ => 0
      mtime := 0
      toHostQ := none
      fromHostQ := none
      toHostAddr := 0
      fromHostAddr := 0
      state := .init
      cycle := 0
      mtip := fun _ => true }
  cRqQ := fun _ => []
  pRqQ := fun _ => []
  cRsQ := fun _ => []
  fabricReqQ := []
  fabricRspQ := []
  msip := msip
  mtip := mtip

def system (u : Platform c) (msip mtip : CoreId c → BitVec 1) :
    Clocked.Machine (System c) (Event c) where
  reset := resetSystem u msip mtip
  next := System.next
  allowed _ s e := s.Allowed e

end Toooba.MMIOSystem
