import RiscvCores.Lib.Clocked
import Mathlib.Data.List.FinRange

/-!
# The coalescing store buffer

`mkStoreBufferEhr` keeps the stores that left the store queue until the cache
has taken them, one entry for each cache line.  Within a cycle `deq` comes
before `enq`; `issue`, `search` and the other reads see the entries of the
start of the cycle, and so do the two queues' `first` and `notEmpty`.  Data and
blocks stand unpacked, byte 0 first.
-/

set_option autoImplicit false

namespace Toooba.StoreBuffer

abbrev Addr := BitVec 64

abbrev Byte := BitVec 8

/-- `Vector#(NumBytes, Bool)`. -/
abbrev ByteEn := Fin 8 → Bool

abbrev Data := Fin 8 → Byte

abbrev SBBlockAddr := BitVec 58

abbrev SBBlockDataSel := Fin 8

abbrev SBBlock := SBBlockDataSel → Data

abbrev SBByteEn := SBBlockDataSel → ByteEn

def getSBBlockAddr (a : Addr) : SBBlockAddr := a.extractLsb' 6 58

def getSBBlockDataSel (a : Addr) : SBBlockDataSel := Fin.ofNat 8 (a.toNat >>> 3)

/-- The byte of its word that an address selects. -/
def byteOffset (a : Addr) : Fin 8 := Fin.ofNat 8 a.toNat

structure SBEntry where
  addr : SBBlockAddr
  byteEn : SBByteEn
  data : SBBlock
  pcHash : BitVec 16

structure SBSearchRes (sbSize : Nat) where
  matchIdx : Option (Fin sbSize)
  forwardData : Option Data

structure State (sbSize : Nat) where
  entry : Fin sbSize → SBEntry
  valid : Fin sbSize → Bool
  issueQ : List (Fin sbSize)
  freeQ : List (Fin sbSize)
  inited : Bool
  initIdx : Fin sbSize

/-- The arguments of `enq` without the index; `undef` is the content `?` gives a new
block. -/
structure EnqReq where
  paddr : Addr
  be : ByteEn
  d : Data
  pcHash : BitVec 16
  undef : SBBlock

variable {sbSize : Nat}

/-- `initFreeQ`, the rule that runs until every index is in `freeQ`. -/
def initFreeQ [NeZero sbSize] (s : State sbSize) : State sbSize :=
  { s with
    freeQ := s.freeQ ++ [s.initIdx]
    initIdx := s.initIdx + 1
    inited := if s.initIdx.val = sbSize - 1 then true else s.inited }

/-- `findIndex` over all indices. -/
def searchIndex (pred : Fin sbSize → Bool) : Option (Fin sbSize) :=
  (List.finRange sbSize).find? pred

section Search

variable (s : State sbSize) (paddr : Addr) (be : ByteEn)

def getEntryBE (idx : Fin sbSize) : ByteEn := (s.entry idx).byteEn (getSBBlockDataSel paddr)

def matchEntry (i : Fin sbSize) : Bool :=
  let sameAddr := decide (getSBBlockAddr paddr = (s.entry i).addr)
  let beOverlap := (List.finRange 8).any fun b => be b && getEntryBE s paddr i b
  s.valid i && sameAddr && beOverlap

def noMatch : Bool := !(List.finRange sbSize).any (matchEntry s paddr be)

def search : SBSearchRes sbSize :=
  match searchIndex (matchEntry s paddr be) with
  | some idx =>
      if (List.finRange 8).all fun b => (getEntryBE s paddr idx b && be b) == be b then
        { matchIdx := some idx
          forwardData := some ((s.entry idx).data (getSBBlockDataSel paddr)) }
      else { matchIdx := some idx, forwardData := none }
  | none => { matchIdx := none, forwardData := none }

end Search

def isEmpty (s : State sbSize) : Bool := (List.finRange sbSize).all fun i => !s.valid i

/-- The entry of the block, or else the first free one; `freeQ` is the queue at the
start of the cycle. -/
def getEnqIndex (s : State sbSize) (freeQ : List (Fin sbSize)) (paddr : Addr) :
    Option (Fin sbSize) :=
  match searchIndex fun i => s.valid i && decide ((s.entry i).addr = getSBBlockAddr paddr) with
  | some idx => some idx
  | none => freeQ.head?

def mergeEntry (e : SBEntry) (r : EnqReq) : SBEntry :=
  let sel := getSBBlockDataSel r.paddr
  { addr := getSBBlockAddr r.paddr
    byteEn := Function.update e.byteEn sel fun b => e.byteEn sel b || r.be b
    data := Function.update e.data sel fun b => if r.be b then r.d b else e.data sel b
    pcHash := r.pcHash }

def newEntry (r : EnqReq) : SBEntry :=
  let sel := getSBBlockDataSel r.paddr
  { addr := getSBBlockAddr r.paddr
    byteEn := Function.update (fun _ _ => false) sel r.be
    data := Function.update r.undef sel r.d
    pcHash := r.pcHash }

def enq (s : State sbSize) (idx : Fin sbSize) (r : EnqReq) : State sbSize :=
  if s.valid idx then
    { s with entry := Function.update s.entry idx (mergeEntry (s.entry idx) r) }
  else
    { s with
      valid := Function.update s.valid idx true
      entry := Function.update s.entry idx (newEntry r)
      issueQ := s.issueQ ++ [idx]
      freeQ := s.freeQ.tail }

def deq (s : State sbSize) (idx : Fin sbSize) : State sbSize :=
  { s with
    valid := Function.update s.valid idx false
    freeQ := s.freeQ ++ [idx] }

def issue (s : State sbSize) : State sbSize := { s with issueQ := s.issueQ.tail }

/-! ## Cycles -/

/-- The methods called in one cycle. -/
structure Input (sbSize : Nat) where
  issue : Bool := false
  deq : Option (Fin sbSize) := none
  enq : Option EnqReq := none

/-- What `issue` returns. -/
def issueO (s : State sbSize) : Option (Fin sbSize × SBEntry) :=
  s.issueQ.head?.map fun idx => (idx, s.entry idx)

/-- What `deq` returns. -/
def deqO (s : State sbSize) (idx : Fin sbSize) : SBEntry := s.entry idx

section Cycle

variable (s : State sbSize) (i : Input sbSize)

def afterIssue : State sbSize := if i.issue then issue s else s

def afterDeq : State sbSize :=
  match i.deq with
  | some idx => deq (afterIssue s i) idx
  | none => afterIssue s i

/-- The index `getEnqIndex` gives the `enq` of this cycle. -/
def enqIndex : Option (Fin sbSize × EnqReq) :=
  i.enq.bind fun r => (getEnqIndex (afterDeq s i) s.freeQ r.paddr).map fun idx => (idx, r)

def afterEnq : State sbSize :=
  match enqIndex s i with
  | some (idx, r) => enq (afterDeq s i) idx r
  | none => afterDeq s i

def next [NeZero sbSize] : State sbSize :=
  if s.inited then afterEnq s i else initFreeQ (afterEnq s i)

end Cycle

/-- The power-up contents of the entries are unknown. -/
def reset [NeZero sbSize] (entry : Fin sbSize → SBEntry) : State sbSize where
  entry := entry
  valid _ := false
  issueQ := []
  freeQ := []
  inited := false
  initIdx := 0

abbrev History (sbSize : Nat) := List (State sbSize × Input sbSize)

/-- The indices issued and not dequeued once the cycle issued. -/
def issuedNow (issued : List (Fin sbSize)) (now : State sbSize × Input sbSize) :
    List (Fin sbSize) :=
  if now.2.issue then issued ++ now.1.issueQ.head?.toList else issued

/-- The indices issued and not dequeued. -/
def issued (cycles : History sbSize) : List (Fin sbSize) :=
  cycles.foldl (fun before now => match now.2.deq with
    | some idx => (issuedNow before now).erase idx
    | none => issuedNow before now) []

/-- The methods are called when their guards hold, `deq` on an issued index, and `enq`
with the index that `getEnqIndex` gives. -/
def Environment (cycles : History sbSize) (s : State sbSize) (i : Input sbSize) : Prop :=
  (i.issue = true → s.issueQ ≠ []) ∧
    (∀ idx, i.deq = some idx → s.inited = true ∧ idx ∈ issuedNow (issued cycles) (s, i)) ∧
    (i.enq.isSome = true → s.inited = true ∧ (enqIndex s i).isSome = true)

instance (cycles : History sbSize) (s : State sbSize) (i : Input sbSize) :
    Decidable (Environment cycles s i) :=
  inferInstanceAs (Decidable (_ ∧ _ ∧ _))

def machine [NeZero sbSize] (entry : Fin sbSize → SBEntry) :
    Clocked.Machine (State sbSize) (Input sbSize) where
  reset := reset entry
  next s i := next s i
  allowed := Environment

instance [NeZero sbSize] (entry : Fin sbSize → SBEntry) (cycles : History sbSize)
    (s : State sbSize) (i : Input sbSize) :
    Decidable ((machine entry).allowed cycles s i) :=
  inferInstanceAs (Decidable (Environment cycles s i))

end Toooba.StoreBuffer
