import RiscvCores.Lib.FilteredQueue
import RiscvCores.Toooba.SpecFifo

/-!
# The killable FIFOs are filtered queues

The reference is a queue whose elements carry the tags resolved since they came; a kill drops
those it covers.  What a cycle does to the slots is said once for all three FIFOs, over the slots
as they are and what `canon_speculation` has still to do to them.
-/

set_option autoImplicit false

namespace Toooba.SpecFifos

open Clocked FilteredQueue HoledRing

variable {size numSpecTags : Nat} [NeZero size] {t S : Type}

/-! ## The reference -/

/-- An element as it came, with what is left of the tags resolved since. -/
structure Item (numSpecTags : Nat) (t : Type) where
  enqueued : ToSpecFifo numSpecTags t
  unresolved : SpecBits numSpecTags

def Item.now (x : Item numSpecTags t) : ToSpecFifo numSpecTags t where
  data := x.enqueued.data
  spec_bits := x.enqueued.spec_bits &&& x.unresolved

def Item.new (x : ToSpecFifo numSpecTags t) : Item numSpecTags t where
  enqueued := x
  unresolved := BitVec.allOnes numSpecTags

def Input.covers (i : Input numSpecTags t) (sb : SpecBits numSpecTags) : Bool :=
  i.incorrectSpeculation.any fun k => k.kills sb

def masked (correct : Option (SpecBits numSpecTags)) (sb : SpecBits numSpecTags) :
    SpecBits numSpecTags :=
  match correct with
  | some mask => sb &&& mask
  | none => sb

def Item.resolve (i : Input numSpecTags t) (x : Item numSpecTags t) : Item numSpecTags t :=
  { x with unresolved := masked i.correctSpeculation x.unresolved }

/-- What a cycle's calls do to the queue. -/
def follow (log : Log (Item numSpecTags t)) (i : Input numSpecTags t) :
    Log (Item numSpecTags t) :=
  log.step i.deq (i.enq.map Item.new) (fun x => i.covers x.now.spec_bits) (Item.resolve i)

def filtered (cycles : List (S × Input numSpecTags t)) : Log (Item numSpecTags t) :=
  cycles.foldl (fun log c => follow log c.2) Log.empty

/-- The elements that wait, as they are now. -/
def queued (cycles : List (S × Input numSpecTags t)) : List (ToSpecFifo numSpecTags t) :=
  (filtered cycles).queue.map fun e => e.elem.now

/-- What `first` showed in the cycles of `deq`. -/
def dequeued (fifo : SpecFifo S size numSpecTags t) (cycles : List (S × Input numSpecTags t)) :
    List (Option (ToSpecFifo numSpecTags t)) :=
  (cycles.filter fun c => c.2.deq).map fun c => fifo.first c.1 c.2

structure Refines (fifo : SpecFifo S size numSpecTags t)
    (cycles : List (S × Input numSpecTags t)) (s : S) : Prop where
  ordered : (filtered cycles).Ordered
  accounted : (filtered cycles).Accounted
  own : (filtered cycles).Own Item.enqueued
  dequeued : dequeued fifo cycles = (filtered cycles).gone.map fun e => some e.elem.now
  stored : contents (fifo.slots s) (fifo.head s) = queued cycles
  first : ∀ i x, fifo.first s i = some x → (queued cycles).head? = some x
  free : ∀ i, fifo.Allowed s i → i.enq.isSome = true → fifo.valid_for_enq s i = false
  progress : queued cycles ≠ [] →
    (fifo.first s .idle).isSome = true ∨ fifo.canon_deqP s .idle = true

section Reference

variable (cycles : List (S × Input numSpecTags t)) (s : S) (i : Input numSpecTags t)

theorem filtered_concat : filtered (cycles ++ [(s, i)]) = follow (filtered cycles) i := by
  unfold filtered
  rw [List.foldl_append]
  rfl

omit [NeZero size] in
theorem dequeued_concat (fifo : SpecFifo S size numSpecTags t) :
    dequeued fifo (cycles ++ [(s, i)]) =
      dequeued fifo cycles ++ if i.deq then [fifo.first s i] else [] := by
  unfold dequeued
  rw [List.filter_append, List.map_append]
  cases taken : i.deq with
  | false => simp [taken]
  | true => simp [taken]

/-- What happens to an element in a cycle. -/
def Input.keep (x : ToSpecFifo numSpecTags t) : Option (ToSpecFifo numSpecTags t) :=
  if i.covers x.spec_bits then none
  else some { x with spec_bits := masked i.correctSpeculation x.spec_bits }

theorem masked_and (correct : Option (SpecBits numSpecTags)) (a b : SpecBits numSpecTags) :
    a &&& masked correct b = masked correct (a &&& b) := by
  cases correct with
  | none => rfl
  | some mask => exact (BitVec.and_assoc a b mask).symm

theorem Item.now_new (x : ToSpecFifo numSpecTags t) : (Item.new x).now = x := by
  unfold Item.now Item.new
  simp

theorem queued_concat :
    queued (cycles ++ [(s, i)]) =
      ((if i.deq then (queued cycles).tail else queued cycles) ++ i.enq.toList).filterMap
        i.keep := by
  unfold queued
  rw [filtered_concat]
  unfold follow
  rw [Log.queue_step _ _ _ _ Item.now i.keep]
  · congr 2
    cases i.enq with
    | none => rfl
    | some x => exact congrArg (fun y => [y]) (Item.now_new x)
  · intro x
    unfold Input.keep
    congr 2
    unfold Item.now Item.resolve
    rw [masked_and]

end Reference

/-! ## One cycle of any of the three -/

/-- The slots as they are, what is still to be done to their elements, and the write position. -/
structure Cells (S : Type) (size numSpecTags : Nat) (t : Type) where
  raw : S → Fin size → Option (ToSpecFifo numSpecTags t)
  pending : S → ToSpecFifo numSpecTags t → Option (ToSpecFifo numSpecTags t)
  write : S → Fin size

/-- A slot is free behind the elements. -/
def Cells.Guard (cells : Cells S size numSpecTags t) (fifo : SpecFifo S size numSpecTags t)
    (s : S) : Prop :=
  cells.write s ≠ fifo.head s ∨ ∀ k, fifo.slots s k = none

/-- There may be elements to skip. -/
def Cells.Filled (cells : Cells S size numSpecTags t) (fifo : SpecFifo S size numSpecTags t)
    (s : S) : Prop :=
  cells.write s ≠ fifo.head s ∨ ∃ k, cells.raw s k ≠ none

/-- What the methods show and what their guards say. -/
structure Cells.Shows (cells : Cells S size numSpecTags t)
    (fifo : SpecFifo S size numSpecTags t) (s : S) : Prop where
  slots : fifo.slots s = fun k => (cells.raw s k).bind (cells.pending s)
  first : ∀ i x, fifo.first s i = some x → fifo.slots s (fifo.head s) = some x
  idle : ∀ x, fifo.slots s (fifo.head s) = some x → (fifo.first s .idle).isSome = true
  skip : fifo.slots s (fifo.head s) = none → cells.Filled fifo s →
    fifo.canon_deqP s .idle = true

/-- What the guards promise. -/
structure Cells.Guards (cells : Cells S size numSpecTags t)
    (fifo : SpecFifo S size numSpecTags t) (s : S) (i : Input numSpecTags t) : Prop where
  deq : i.deq = true → (fifo.first s i).isSome = true
  canon_deqP : i.canon_deqP = true →
    fifo.slots s (fifo.head s) = none ∧ cells.Filled fifo s
  enq : i.enq ≠ none → (i.deq = true ∨ i.canon_deqP = true) ∨ cells.Guard fifo s
  asserted : i.enq.isSome = true → fifo.valid_for_enq s i = true →
    left (fifo.slots s) (fifo.head s) i.deq (cells.write s) ≠ none ∨
      cells.Guard fifo s ∧ fifo.slots s (cells.write s) ≠ none

/-- What a cycle does. -/
structure Cells.Moves (cells : Cells S size numSpecTags t)
    (fifo : SpecFifo S size numSpecTags t) (s : S) (i : Input numSpecTags t) : Prop where
  read : fifo.head (fifo.next s i) =
    if i.deq || i.canon_deqP then fifo.head s + 1 else fifo.head s
  write : cells.write (fifo.next s i) =
    if i.enq.isSome then cells.write s + 1 else cells.write s
  slots : ∃ f, cells.raw (fifo.next s i) =
      (fun k => (cycled (fifo.slots s) (fifo.head s) (cells.write s) i.deq i.enq k).bind f) ∧
    ∀ x, (f x).bind (cells.pending (fifo.next s i)) = i.keep x

section Guards

omit [NeZero size]

variable {cells : Cells S size numSpecTags t} {fifo : SpecFifo S size numSpecTags t} {s : S}
  {i : Input numSpecTags t}

theorem Cells.Shows.slots_apply (shows : cells.Shows fifo s) (k : Fin size) :
    (cells.raw s k).bind (cells.pending s) = fifo.slots s k :=
  (congrFun shows.slots k).symm

theorem Cells.Guards.deqGuard (guards : cells.Guards fifo s i) (shows : cells.Shows fifo s)
    (taken : i.deq = true) : (cells.raw s (fifo.head s)).bind (cells.pending s) ≠ none := by
  obtain ⟨x, seen⟩ := Option.isSome_iff_exists.mp (guards.deq taken)
  rw [shows.slots_apply, shows.first i x seen]
  exact nofun

theorem Cells.Guards.canonGuard (guards : cells.Guards fifo s i) (shows : cells.Shows fifo s)
    (skips : i.canon_deqP = true) :
    (cells.raw s (fifo.head s)).bind (cells.pending s) = none ∧ cells.Filled fifo s := by
  rw [shows.slots_apply]
  exact guards.canon_deqP skips

theorem Cells.Guards.enqGuard (guards : cells.Guards fifo s i) (shows : cells.Shows fifo s)
    (comes : i.enq ≠ none) :
    (i.deq = true ∨ i.canon_deqP = true) ∨
      (cells.write s ≠ fifo.head s ∨ ∀ k, (cells.raw s k).bind (cells.pending s) = none) := by
  simp only [shows.slots_apply]
  exact guards.enq comes

end Guards

/-- The slots hold what waits. -/
def Cells.Holds (cells : Cells S size numSpecTags t) (fifo : SpecFifo S size numSpecTags t)
    (s : S) (xs : List (ToSpecFifo numSpecTags t)) : Prop :=
  ∃ ys, Queue (cells.raw s) (fifo.head s) (cells.write s) ys ∧
    ys.filterMap (cells.pending s) = xs

variable {cells : Cells S size numSpecTags t} {fifo : SpecFifo S size numSpecTags t} {s : S}
  {i : Input numSpecTags t} {xs : List (ToSpecFifo numSpecTags t)}

theorem Cells.Holds.slots (holds : cells.Holds fifo s xs) (shows : cells.Shows fifo s) :
    Queue (fifo.slots s) (fifo.head s) (cells.write s) xs := by
  obtain ⟨ys, queue, rfl⟩ := holds
  rw [shows.slots]
  exact queue.update (cells.pending s)

/-- What the head slot holds is the head of the queue. -/
theorem Cells.Holds.first (holds : cells.Holds fifo s xs) (shows : cells.Shows fifo s)
    {x : ToSpecFifo numSpecTags t} (seen : fifo.first s i = some x) : xs.head? = some x :=
  ((holds.slots shows).pop (shows.first i x seen)).1

theorem Cells.Holds.progress (holds : cells.Holds fifo s xs) (shows : cells.Shows fifo s)
    (some : xs ≠ []) :
    (fifo.first s .idle).isSome = true ∨ fifo.canon_deqP s .idle = true := by
  cases front : fifo.slots s (fifo.head s) with
  | some x => exact .inl (shows.idle x front)
  | none =>
      apply Or.inr
      apply shows.skip front
      obtain ⟨ys, queue, rfl⟩ := holds
      apply queue.filled
      rintro rfl
      exact some rfl

/-- The asserted bit is clear. -/
theorem Cells.Holds.free (holds : cells.Holds fifo s xs) (shows : cells.Shows fifo s)
    (guards : cells.Guards fifo s i) (comes : i.enq.isSome = true) :
    fifo.valid_for_enq s i = false := by
  obtain ⟨ys, queue, rfl⟩ := holds
  obtain ⟨x, -⟩ := Option.isSome_iff_exists.mp comes
  rw [Bool.eq_false_iff]
  intro valid
  rcases guards.asserted comes valid with taken | ⟨guard, taken⟩
  · have room := queue.room (guards.deqGuard shows) (guards.canonGuard shows)
      (guards.enqGuard shows (Option.isSome_iff_ne_none.mp comes))
    rw [← shows.slots] at room
    exact taken (room.push x).1
  · have settled := queue.update (cells.pending s)
    rw [← shows.slots] at settled
    exact taken ((settled.roomy guard).push x).1

theorem Cells.Holds.next (holds : cells.Holds fifo s xs) (shows : cells.Shows fifo s)
    (guards : cells.Guards fifo s i) (moves : cells.Moves fifo s i) :
    cells.Holds fifo (fifo.next s i)
      (((if i.deq then xs.tail else xs) ++ i.enq.toList).filterMap i.keep) := by
  obtain ⟨ys, queue, rfl⟩ := holds
  obtain ⟨f, raw, keeps⟩ := moves.slots
  have cycle := queue.cycle (guards.deqGuard shows) (guards.canonGuard shows)
    (guards.enqGuard shows)
  rw [← shows.slots, ← moves.read, ← moves.write] at cycle
  have moved := cycle.update f
  rw [← raw] at moved
  refine ⟨_, moved, ?_⟩
  rw [List.filterMap_filterMap]
  exact congrArg (fun g => List.filterMap g _) (funext keeps)

/-! ## Runs -/

/-- What every cycle keeps. -/
structure Cells.Follows (cells : Cells S size numSpecTags t)
    (fifo : SpecFifo S size numSpecTags t) (cycles : List (S × Input numSpecTags t)) (s : S) :
    Prop where
  holds : cells.Holds fifo s (queued cycles)
  dequeued : dequeued fifo cycles = (filtered cycles).gone.map fun e => some e.elem.now
  ordered : (filtered cycles).Ordered
  accounted : (filtered cycles).Accounted
  own : (filtered cycles).Own Item.enqueued

theorem Cells.Follows.start (holds : cells.Holds fifo s []) : cells.Follows fifo [] s where
  holds := holds
  dequeued := rfl
  ordered := List.Pairwise.nil
  accounted := List.Perm.refl _
  own := nofun

variable {cycles : List (S × Input numSpecTags t)}

theorem Cells.Follows.next (follows : cells.Follows fifo cycles s) (shows : cells.Shows fifo s)
    (guards : cells.Guards fifo s i) (moves : cells.Moves fifo s i) :
    cells.Follows fifo (cycles ++ [(s, i)]) (fifo.next s i) where
  holds := by
    rw [queued_concat]
    exact follows.holds.next shows guards moves
  dequeued := by
    rw [dequeued_concat, filtered_concat, follows.dequeued]
    unfold follow Log.step
    rw [List.map_append]
    congr 1
    cases taken : i.deq with
    | false => rfl
    | true =>
        obtain ⟨x, shown⟩ := Option.isSome_iff_exists.mp (guards.deq taken)
        have head := follows.holds.first shows shown
        unfold queued at head
        rw [List.head?_map] at head
        obtain ⟨entry, first, now⟩ := Option.map_eq_some_iff.mp head
        rw [shown, first, ← now]
        rfl
  ordered := by
    rw [filtered_concat]
    exact follows.ordered.step _ _ _ _ follows.accounted
  accounted := by
    rw [filtered_concat]
    exact follows.accounted.step _ _ _ _
  own := by
    rw [filtered_concat]
    exact follows.own.step _ _ _ _ fun _ => rfl

/-- A FIFO whose cycles move its slots as they should refines the filtered queue. -/
theorem Cells.refines {also : S → Input numSpecTags t → Prop}
    (start : cells.Holds fifo fifo.reset []) (shows : ∀ s, cells.Shows fifo s)
    (guards : ∀ s i, fifo.Allowed s i → cells.Guards fifo s i)
    (moves : ∀ s i, fifo.Allowed s i → also s i → cells.Moves fifo s i)
    (run : (fifo.machine.restrict fun _ s i => also s i).Run cycles s) :
    Refines fifo cycles s := by
  have follows : cells.Follows fifo cycles s := by
    apply run.invariant (cells.Follows fifo) (.start start)
    intro cycles s i _ follows allowed
    exact follows.next (shows s) (guards s i allowed.1) (moves s i allowed.1 allowed.2)
  exact {
    ordered := follows.ordered
    accounted := follows.accounted
    own := follows.own
    dequeued := follows.dequeued
    stored := (follows.holds.slots (shows s)).contents_eq
    first := fun i x shown => follows.holds.first (shows s) shown
    free := fun i allowed => follows.holds.free (shows s) (guards s i allowed)
    progress := follows.holds.progress (shows s) }

end Toooba.SpecFifos
