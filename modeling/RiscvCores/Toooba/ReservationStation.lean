import RiscvCores.Lib.Clocked
import RiscvCores.Toooba.RenamingTable

/-!
# `mkReservationStation` with `mkRenamingScoreboard`

Instructions wait in a reservation station for their source registers.  Whether a
source is ready is looked up in the scoreboard in the cycle of the enqueue and
learned from wake-ups afterwards.  Other stations get the same wake-ups and meet
this one only in the scoreboard.
-/

set_option autoImplicit false

namespace Toooba.ReservationStation

open Clocked RenamingTable

structure RsCfg where
  supSize : Nat
  numInstTags : Nat
  numPhyReg : Nat
  numSpecTags : Nat
  size : Nat
  setRegReadyNum : Nat
  lazyEnq : Bool
  someEntries : 0 < size

variable (c : RsCfg) (a : Type)

abbrev PhyRIndx : Type := Fin c.numPhyReg

abbrev SpecTag : Type := Fin c.numSpecTags

abbrev SpecBits : Type := BitVec c.numSpecTags

abbrev InstTime : Type := BitVec (tLog c.numInstTags)

abbrev VirtualInstTime : Type := BitVec (1 + tLog c.numInstTags)

/-- The number of entries in one way of the reorder buffer. -/
def singleScalarSize : Nat := (c.numInstTags + c.supSize - 1) / c.supSize

structure InstTag where
  way : BitVec (tLog c.supSize)
  ptr : BitVec (tLog (singleScalarSize c))
  t : InstTime c
deriving DecidableEq

structure PhyDst where
  indx : PhyRIndx c
  isFpuReg : Bool
deriving DecidableEq

structure PhyRegs where
  src1 : Option (PhyRIndx c)
  src2 : Option (PhyRIndx c)
  src3 : Option (PhyRIndx c)
  dst : Option (PhyDst c)
deriving DecidableEq

structure RegsReady where
  src1 : Bool
  src2 : Bool
  src3 : Bool
  dst : Bool
deriving DecidableEq

def allRegsReady (x : RegsReady) : Bool := x.src1 && x.src2 && x.src3 && x.dst

structure ToReservationStation where
  data : a
  regs : PhyRegs c
  tag : InstTag c
  specBits : SpecBits c
  specTag : Option (SpecTag c)
  regsReady : RegsReady
deriving DecidableEq

/-! ## The registers -/

structure Row where
  valid : Bool
  entry : ToReservationStation c a

structure State where
  row : Fin c.size → Row c a
  sb : PhyRIndx c → Bool

/-- The call of `enq` by one lane of the rename stage, for the instruction with the
number `order` in program order. -/
structure Enq where
  lane : Fin c.supSize
  data : a
  regs : PhyRegs c
  tag : InstTag c
  specBits : SpecBits c
  specTag : Option (SpecTag c)
  order : Nat

structure IncorrectSpeculation where
  killAll : Bool
  specTag : SpecTag c

/-- The calls of a cycle.  `robEnq` is the number of the next instruction that enters
the reorder buffer. -/
structure Input where
  wake : Fin c.setRegReadyNum → Option (Option (PhyRIndx c)) := fun _ => none
  busy : Fin c.supSize → Option (PhyDst c) := fun _ => none
  enq : Option (Enq c a) := none
  robEnq : Nat := 0
  doDispatch : Bool := false
  incorrectSpeculation : Option (IncorrectSpeculation c) := none
  correctSpeculation : Option (SpecBits c) := none

variable {c a}

/-! ## The scoreboard -/

/-- `put` of a port of `setReady`; a broadcast of `Invalid` is for the stations only. -/
def putReady (sb : PhyRIndx c → Bool) (dst : Option (PhyRIndx c)) : PhyRIndx c → Bool :=
  dst.elim sb fun dst => Function.update sb dst false

/-- `set` of a port of `setBusy`. -/
def putBusy (sb : PhyRIndx c → Bool) (dst : Option (PhyDst c)) : PhyRIndx c → Bool :=
  dst.elim sb fun dst => Function.update sb dst.indx true

/-- `readVEhr` at the port of `lane`: after all of `setReady` and the lanes before. -/
def lookupPort (s : State c a) (i : Input c a) (lane : Nat) : PhyRIndx c → Bool :=
  let sb := (List.finRange c.setRegReadyNum).foldl
    (fun sb k => (i.wake k).elim sb (putReady sb)) s.sb
  ((List.finRange c.supSize).take lane).foldl (fun sb lane => putBusy sb (i.busy lane)) sb

/-- `get` of a lookup. -/
def getReady (sb : PhyRIndx c → Bool) (r : PhyRegs c) : RegsReady where
  src1 := r.src1.elim true fun x => !sb x
  src2 := r.src2.elim true fun x => !sb x
  src3 := r.src3.elim true fun x => !sb x
  dst := true

/-! ## Scheduling -/

section Schedule

variable (row : Fin c.size → Row c a) (robEnqTime : InstTime c)

def getVTime (instTag : InstTag c) : VirtualInstTime c :=
  if instTag.t < robEnqTime then
    instTag.t.setWidth (1 + tLog c.numInstTags) + BitVec.ofNat _ (2 ^ tLog c.numInstTags)
  else instTag.t.setWidth (1 + tLog c.numInstTags)

def vTime (k : Fin c.size) : VirtualInstTime c := getVTime robEnqTime (row k).entry.tag

def getOlder (pred : Fin c.size → Bool) (x y : Fin c.size) : Fin c.size :=
  if !pred x then y
  else if !pred y then x
  else if vTime row robEnqTime x < vTime row robEnqTime y then x else y

def findOldest (pred : Fin c.size → Bool) : Option (Fin c.size) :=
  (fold (getOlder row robEnqTime pred) (List.finRange c.size)).filter pred

def canSchedule (k : Fin c.size) : Bool :=
  (row k).valid && allRegsReady (row k).entry.regsReady

def canScheduleIndex : Option (Fin c.size) := findOldest row robEnqTime (canSchedule row)

end Schedule

def robEnqTime (i : Input c a) : InstTime c := BitVec.ofNat _ i.robEnq

/-- The entry that `doDispatch` takes in this cycle. -/
def dispatched (s : State c a) (i : Input c a) : Option (Fin c.size) :=
  if i.doDispatch then canScheduleIndex s.row (robEnqTime i) else none

def ToReservationStation.allReady (x : ToReservationStation c a) : ToReservationStation c a :=
  { x with regsReady := ⟨true, true, true, true⟩ }

def dispatchData (s : State c a) (k : Fin c.size) : ToReservationStation c a :=
  (s.row k).entry.allReady

/-! ## One cycle -/

/-- `setReady` for one entry; `Invalid` matches the sources that an entry lacks. -/
def setReady (regs : PhyRegs c) (ready : RegsReady) (x : Option (PhyRIndx c)) : RegsReady where
  src1 := if x = regs.src1 then true else ready.src1
  src2 := if x = regs.src2 then true else ready.src2
  src3 := if x = regs.src3 then true else ready.src3
  dst := ready.dst

def wokenReady (i : Input c a) (x : ToReservationStation c a) : RegsReady :=
  (List.finRange c.setRegReadyNum).foldl
    (fun ready k => (i.wake k).elim ready (setReady x.regs ready)) x.regsReady

def wrongSpec (k : IncorrectSpeculation c) (x : ToReservationStation c a) : Bool :=
  k.killAll || x.specBits.getLsbD k.specTag.val

/-- `valid` after `doDispatch` and `incorrectSpeculation`, which write port 0. -/
def validPort1 (s : State c a) (i : Input c a) (k : Fin c.size) : Bool :=
  (s.row k).valid && !decide (dispatched s i = some k) &&
    !i.incorrectSpeculation.any fun w => wrongSpec w (s.row k).entry

def enqP (s : State c a) (i : Input c a) : Option (Fin c.size) :=
  (List.finRange c.size).find? fun k =>
    if c.lazyEnq then !(s.row k).valid else !validPort1 s i k

def Enq.entry (e : Enq c a) (s : State c a) (i : Input c a) : ToReservationStation c a where
  data := e.data
  regs := e.regs
  tag := e.tag
  specBits := e.specBits
  specTag := e.specTag
  regsReady := getReady (lookupPort s i e.lane.val) e.regs

/-- The entry that is written to slot `k` in this cycle. -/
def enqAt (s : State c a) (i : Input c a) (k : Fin c.size) : Option (Enq c a) :=
  if enqP s i = some k then i.enq else none

def ToReservationStation.masked (x : ToReservationStation c a) (mask : SpecBits c) :
    ToReservationStation c a :=
  { x with specBits := x.specBits &&& mask }

def Input.mask (i : Input c a) (x : ToReservationStation c a) : ToReservationStation c a :=
  i.correctSpeculation.elim x x.masked

def next (s : State c a) (i : Input c a) : State c a where
  row k := match enqAt s i k with
    | some e => { valid := true, entry := i.mask (e.entry s i) }
    | none =>
        let x := (s.row k).entry
        { valid := validPort1 s i k, entry := i.mask { x with regsReady := wokenReady i x } }
  sb := lookupPort s i c.supSize

end Toooba.ReservationStation
