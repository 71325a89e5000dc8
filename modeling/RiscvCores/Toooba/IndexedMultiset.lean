import RiscvCores.Lib.Clocked
import RiscvCores.Lib.EqualRuns
import Mathlib.Order.Interval.Finset.Nat
import Mathlib.Data.List.FinRange

/-!
# `mkIndexedMultisetQueue`

`FetchStage` keeps the upper halves of program counters in a table of `2 ^ k`
blocks and passes their indices on.  A block is in use from `ltail` up to `lhead`;
equal neighbours share one, and the block reserved for the next page lies behind
`lhead`.
-/

set_option autoImplicit false

namespace Toooba.IndexedMultiset

open Clocked EqualRuns

/-! ## The module -/

/-- The wide pointers have one bit more than an index. -/
structure State (k : Nat) (α : Type) where
  records : BitVec k → α
  lhead : BitVec (k + 1)
  ltail : BitVec (k + 1)

structure IndexedMultisetIndices (k : Nat) where
  inserted : BitVec k
  reserved : BitVec k
  deriving DecidableEq

/-- What the methods of a cycle leave for `canon`. -/
structure Wires (k remWidth : Nat) (α : Type) where
  insertW : Option α := none
  reserveW : Option α := none
  removeW : Fin remWidth → Option (BitVec k) := fun _ => none
  clearW : Bool := false

variable {k remWidth : Nat} {α : Type}

def State.head (s : State k α) : BitVec k := s.lhead.setWidth k

def State.level (s : State k α) : BitVec (k + 1) := s.lhead - s.ltail

def State.empty (s : State k α) : Bool := s.level == 0

def State.almostFull (s : State k α) : Bool :=
  decide (BitVec.ofNat (k + 1) (2 ^ k) - 1 ≤ s.level)

def updateWidePointer (lIdx : BitVec (k + 1)) (idx : BitVec k) : BitVec (k + 1) :=
  let diff := idx - lIdx.setWidth k
  lIdx + diff.setWidth (k + 1)

def write (recs : BitVec k → α) (i : BitVec k) (d : α) : BitVec k → α :=
  fun j => if j = i then d else recs j

@[simp] theorem write_same (recs : BitVec k → α) (i : BitVec k) (d : α) :
    write recs i d i = d := if_pos rfl

theorem write_other (recs : BitVec k → α) {i j : BitVec k} (d : α) (different : j ≠ i) :
    write recs i d j = recs j := if_neg different

def canon (s : State k α) (w : Wires k remWidth α) : State k α :=
  let recs := w.insertW.elim s.records (write s.records s.head)
  let nlhead := if w.insertW.isSome then s.lhead + 1 else s.lhead
  let recs := w.reserveW.elim recs (write recs (nlhead.setWidth k))
  let nltail := (List.finRange remWidth).foldl
    (fun nltail i => (w.removeW i).elim nltail (updateWidePointer nltail)) s.ltail
  { records := recs
    lhead := if w.clearW then 0 else nlhead
    ltail := if w.clearW then 0 else nltail }

def lookup (s : State k α) (i : BitVec k) : α := s.records i

/-- A call of `insertAndReserve`. -/
structure Call (α : Type) where
  ins : α
  res : α
  deriving DecidableEq

variable [DecidableEq α]

/-- The indices returned and what is put on `insertW` and `reserveW`. -/
def insertAndReserve (s : State k α) (c : Call α) :
    IndexedMultisetIndices k × Option α × Option α :=
  if s.records (s.head - 1) ≠ c.ins ∨ s.empty then
    if c.res ≠ c.ins then (⟨s.head, s.head + 1⟩, some c.ins, some c.res)
    else (⟨s.head, s.head⟩, some c.ins, none)
  else if s.records (s.head - 1) ≠ c.res then (⟨s.head - 1, s.head⟩, none, some c.res)
  else (⟨s.head - 1, s.head - 1⟩, none, none)

/-! ## Runs -/

/-- The removal of the index that was returned for one of the calls. -/
structure Removal (k : Nat) where
  call : Nat
  idx : BitVec k

structure Input (k remWidth : Nat) (α : Type) where
  insert : Option (Call α) := none
  remove : Fin remWidth → Option (Removal k) := fun _ => none

def wires (s : State k α) (i : Input k remWidth α) : Wires k remWidth α where
  insertW := i.insert.bind fun c => (insertAndReserve s c).2.1
  reserveW := i.insert.bind fun c => (insertAndReserve s c).2.2
  removeW p := (i.remove p).map (·.idx)

def next (s : State k α) (i : Input k remWidth α) : State k α := canon s (wires s i)

/-- A call with the indices it returned. -/
structure Entry (k : Nat) (α : Type) extends Call α, IndexedMultisetIndices k
  deriving DecidableEq

/-- The calls so far, in order. -/
def log (cycles : List (State k α × Input k remWidth α)) : List (Entry k α) :=
  cycles.filterMap fun c => c.2.insert.map fun call =>
    { toCall := call, toIndexedMultisetIndices := (insertAndReserve c.1 call).1 }

def Input.removals (i : Input k remWidth α) : List (Removal k) :=
  (List.finRange remWidth).filterMap i.remove

/-- The removals so far, in the order of cycles and ports. -/
def removals (cycles : List (State k α × Input k remWidth α)) : List (Removal k) :=
  cycles.flatMap fun c => c.2.removals

/-- Indices are removed in the order they were returned as inserted. -/
structure Allowed (cycles : List (State k α × Input k remWidth α)) (s : State k α)
    (i : Input k remWidth α) : Prop where
  insert : i.insert.isSome → s.almostFull = false
  returned : ∀ r ∈ i.removals,
    ((log (cycles ++ [(s, i)]))[r.call]?).map (·.inserted) = some r.idx
  inOrder : (removals (cycles ++ [(s, i)])).Pairwise fun earlier later =>
    earlier.call ≤ later.call

/-- `mkRegU`: the records start with anything. -/
def machine (remWidth : Nat) (records : BitVec k → α) :
    Machine (State k α) (Input k remWidth α) where
  reset := { records := records, lhead := 0, ltail := 0 }
  next := next
  allowed := Allowed

/-! ## Blocks -/

def pages (cycles : List (State k α × Input k remWidth α)) : List α :=
  (log cycles).map (·.ins)

/-- The block of a call: calls of one page after the other share it. -/
def block (cycles : List (State k α × Input k remWidth α)) (n : Nat) : Nat :=
  stretch (pages cycles) n

def blocks (cycles : List (State k α × Input k remWidth α)) : Nat :=
  stretches (pages cycles)

/-- No later index than those of block `b` has been removed. -/
def Live (cycles : List (State k α × Input k remWidth α)) (b : Nat) : Prop :=
  ∀ r ∈ removals cycles, block cycles r.call ≤ b

instance (cycles : List (State k α × Input k remWidth α)) (b : Nat) :
    Decidable (Live cycles b) :=
  inferInstanceAs (Decidable (∀ _ ∈ _, _))

def liveBlocks (cycles : List (State k α × Input k remWidth α)) : Finset Nat :=
  (Finset.range (blocks cycles)).filter (Live cycles)

/-- The block of the last removal. -/
def tailBlock (cycles : List (State k α × Input k remWidth α)) : Nat :=
  ((removals cycles).getLast?).elim 0 fun r => block cycles r.call

end Toooba.IndexedMultiset
