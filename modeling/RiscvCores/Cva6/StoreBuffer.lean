import Mathlib.Logic.Function.Basic
import RiscvCores.Lib.Clocked
import RiscvCores.Lib.Ring

/-!
# The store buffer

Two circular queues: speculative stores wait for their commit, committed stores
wait for a grant of the data cache.  A ledger numbers the stores as they are
pushed and records what the commit and flush signals make of them; the queues
are proved to follow the ledger.
-/

set_option autoImplicit false

namespace Cva6

/-- Widths the store path reads; the index is the low part of an address. -/
structure StoreCfg where
  plen : Nat
  xlen : Nat
  dcacheIndexWidth : Nat
  indexInside : dcacheIndexWidth ≤ plen

abbrev StoreCfg.dcacheTagWidth (cfg : StoreCfg) : Nat := cfg.plen - cfg.dcacheIndexWidth

namespace StoreBuffer

abbrev depthSpec : Nat := 4

abbrev depthCommit : Nat := 4

variable {cfg : StoreCfg}

structure Store (cfg : StoreCfg) where
  address : BitVec cfg.plen
  data : BitVec cfg.xlen
  be : BitVec (cfg.xlen / 8)
  dataSize : BitVec 2
  deriving DecidableEq

/-- A queue entry; `valid` is also read by the address checker. -/
structure Entry (cfg : StoreCfg) extends Store cfg where
  valid : Bool
  deriving DecidableEq

structure State (cfg : StoreCfg) where
  speculativeQueue : Fin depthSpec → Entry cfg
  speculativeStatusCnt : BitVec 3
  speculativeReadPointer : Fin depthSpec
  speculativeWritePointer : Fin depthSpec
  commitQueue : Fin depthCommit → Entry cfg
  commitStatusCnt : BitVec 3
  commitReadPointer : Fin depthCommit
  commitWritePointer : Fin depthCommit

/-- The inputs of one cycle; `store` bundles `paddr_i`, `data_i`, `be_i` and
`data_size_i`. -/
structure Input (cfg : StoreCfg) where
  flush : Bool
  stallStPending : Bool
  pageOffset : BitVec 12
  commit : Bool
  valid : Bool
  validWithoutFlush : Bool
  store : Store cfg
  dataGnt : Bool

/-! ## `core_if` -/

def pushedQueue (s : State cfg) (i : Input cfg) : Fin depthSpec → Entry cfg :=
  if i.valid then
    Function.update s.speculativeQueue s.speculativeWritePointer
      { i.store with valid := true }
  else s.speculativeQueue

def evictedQueue (s : State cfg) (i : Input cfg) : Fin depthSpec → Entry cfg :=
  if i.commit then
    Function.update (pushedQueue s i) s.speculativeReadPointer
      { pushedQueue s i s.speculativeReadPointer with valid := false }
  else pushedQueue s i

def speculativeQueueN (s : State cfg) (i : Input cfg) : Fin depthSpec → Entry cfg :=
  if i.flush then fun p => { evictedQueue s i p with valid := false } else evictedQueue s i

def speculativeReadPointerN (s : State cfg) (i : Input cfg) : Fin depthSpec :=
  if i.commit then s.speculativeReadPointer + 1 else s.speculativeReadPointer

/-- A flush resets the write pointer to the registered read pointer. -/
def speculativeWritePointerN (s : State cfg) (i : Input cfg) : Fin depthSpec :=
  if i.flush then s.speculativeReadPointer
  else if i.valid then s.speculativeWritePointer + 1 else s.speculativeWritePointer

def speculativeStatusCntN (s : State cfg) (i : Input cfg) : BitVec 3 :=
  let pushed := if i.valid then s.speculativeStatusCnt + 1 else s.speculativeStatusCnt
  let evicted := if i.commit then pushed - 1 else pushed
  if i.flush then 0 else evicted

/-- `ready_o`. -/
def ready (s : State cfg) (i : Input cfg) : Bool :=
  decide ((speculativeStatusCntN s i).toNat < depthSpec) || i.commit

/-! ## `store_if` -/

def commitReady (s : State cfg) : Bool := decide (s.commitStatusCnt.toNat < depthCommit)

def noStPending (s : State cfg) : Bool := s.commitStatusCnt == 0

def storeBufferEmpty (s : State cfg) : Bool := s.speculativeStatusCnt == 0 && noStPending s

/-- `req_port_o.data_req`. -/
def dataReq (s : State cfg) (i : Input cfg) : Bool :=
  (s.commitQueue s.commitReadPointer).valid && !i.stallStPending

def grants (s : State cfg) (i : Input cfg) : Bool := dataReq s i && i.dataGnt

def grantedQueue (s : State cfg) (i : Input cfg) : Fin depthCommit → Entry cfg :=
  if grants s i then
    Function.update s.commitQueue s.commitReadPointer
      { s.commitQueue s.commitReadPointer with valid := false }
  else s.commitQueue

/-- The committed store is taken from the registered speculative queue. -/
def commitQueueN (s : State cfg) (i : Input cfg) : Fin depthCommit → Entry cfg :=
  if i.commit then
    Function.update (grantedQueue s i) s.commitWritePointer
      (s.speculativeQueue s.speculativeReadPointer)
  else grantedQueue s i

def commitReadPointerN (s : State cfg) (i : Input cfg) : Fin depthCommit :=
  if grants s i then s.commitReadPointer + 1 else s.commitReadPointer

def commitWritePointerN (s : State cfg) (i : Input cfg) : Fin depthCommit :=
  if i.commit then s.commitWritePointer + 1 else s.commitWritePointer

def commitStatusCntN (s : State cfg) (i : Input cfg) : BitVec 3 :=
  let granted := if grants s i then s.commitStatusCnt - 1 else s.commitStatusCnt
  if i.commit then granted + 1 else granted

/-- The payload of `req_port_o`. -/
structure Request (cfg : StoreCfg) where
  addressIndex : BitVec cfg.dcacheIndexWidth
  addressTag : BitVec cfg.dcacheTagWidth
  dataWdata : BitVec cfg.xlen
  dataBe : BitVec (cfg.xlen / 8)
  dataSize : BitVec 2
  dataWe : Bool
  killReq : Bool
  tagValid : Bool
  deriving DecidableEq

def requestOf (store : Store cfg) : Request cfg where
  addressIndex := store.address.extractLsb' 0 cfg.dcacheIndexWidth
  addressTag := store.address.extractLsb' cfg.dcacheIndexWidth cfg.dcacheTagWidth
  dataWdata := store.data
  dataBe := store.be
  dataSize := store.dataSize
  dataWe := true
  killReq := false
  tagValid := false

/-- `req_port_o`, apart from `data_req`. -/
def request (s : State cfg) : Request cfg :=
  requestOf (s.commitQueue s.commitReadPointer).toStore

/-! ## `address_checker` -/

/-- Bits `[11:3]` of the page offset and of an address agree. -/
def offsetMatches (pageOffset : BitVec 12) (address : BitVec cfg.plen) : Bool :=
  pageOffset.extractLsb' 3 9 == address.extractLsb' 3 9

def pageOffsetMatches (s : State cfg) (i : Input cfg) : Bool :=
  decide (∃ p, offsetMatches i.pageOffset (s.commitQueue p).address = true ∧
      (s.commitQueue p).valid = true) ||
    decide (∃ p, offsetMatches i.pageOffset (s.speculativeQueue p).address = true ∧
      (s.speculativeQueue p).valid = true) ||
    (offsetMatches i.pageOffset i.store.address && i.validWithoutFlush)

/-! ## Registers -/

def next (s : State cfg) (i : Input cfg) : State cfg where
  speculativeQueue := speculativeQueueN s i
  speculativeStatusCnt := speculativeStatusCntN s i
  speculativeReadPointer := speculativeReadPointerN s i
  speculativeWritePointer := speculativeWritePointerN s i
  commitQueue := commitQueueN s i
  commitStatusCnt := commitStatusCntN s i
  commitReadPointer := commitReadPointerN s i
  commitWritePointer := commitWritePointerN s i

def zeroEntry : Entry cfg where
  address := 0
  data := 0
  be := 0
  dataSize := 0
  valid := false

def reset : State cfg where
  speculativeQueue := fun _ => zeroEntry
  speculativeStatusCnt := 0
  speculativeReadPointer := 0
  speculativeWritePointer := 0
  commitQueue := fun _ => zeroEntry
  commitStatusCnt := 0
  commitReadPointer := 0
  commitWritePointer := 0

/-- `ready_o` of the cycle before; a store may be pushed in the first cycle. -/
def wasReady (cycles : List (State cfg × Input cfg)) : Bool :=
  match cycles.getLast? with
  | some (s, i) => ready s i
  | none => true

/-- What `store_unit` and `commit_stage` may drive. -/
def Driven (cycles : List (State cfg × Input cfg)) (s : State cfg) (i : Input cfg) : Prop :=
  (i.valid = true → wasReady cycles = true) ∧
    (i.commit = true → s.speculativeStatusCnt ≠ 0 ∧ commitReady s = true) ∧
    ¬ (i.commit = true ∧ i.flush = true)

instance (cycles : List (State cfg × Input cfg)) (s : State cfg) (i : Input cfg) :
    Decidable (Driven cycles s i) :=
  inferInstanceAs (Decidable (_ ∧ _ ∧ _))

def machine (cfg : StoreCfg) : Clocked.Machine (State cfg) (Input cfg) where
  reset := reset
  next := next
  allowed := Driven

instance (cycles : List (State cfg × Input cfg)) (s : State cfg) (i : Input cfg) :
    Decidable ((machine cfg).allowed cycles s i) :=
  inferInstanceAs (Decidable (Driven cycles s i))

end StoreBuffer

end Cva6
