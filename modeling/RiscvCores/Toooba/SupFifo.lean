import Mathlib.Tactic.MkIffOfInductiveProp
import RiscvCores.Lib.Clocked
import RiscvCores.Lib.Interleave
import RiscvCores.Lib.Ring

/-!
# `mkUGSupFifo` and `mkSupFifo`

Elements rotate over as many FIFOs as there are lanes.  The methods of a cycle leave what they
are called with in wires; `canonicalize` acts on it at the end of the cycle.  A FIFO of the
library is the list of its elements, oldest first.
-/

set_option autoImplicit false

namespace Toooba.SupFifo

open Clocked Ring Interleave

/-- The number of lanes is a power of two, so that the pointers wrap by themselves. -/
abbrev Lane (logK : Nat) := Fin (2 ^ logK)

structure State (logK : Nat) (t : Type) where
  internalFifos : Lane logK → List t
  enqueueFifo : Lane logK
  dequeueFifo : Lane logK

/-- The wires at the end of a cycle. -/
structure Input (logK : Nat) (t : Type) where
  enqueueElement : Lane logK → Option t
  willDequeue : Lane logK → Bool

variable {logK n : Nat} {t : Type}

def notFull (n : Nat) (fifo : List t) : Bool := decide (fifo.length < n)

def notEmpty (fifo : List t) : Bool := !fifo.isEmpty

section Methods

variable (s : State logK t) (i : Lane logK)

def canEnq (n : Nat) : Bool := notFull n (s.internalFifos (s.enqueueFifo + i))

def canDeq : Bool := notEmpty (s.internalFifos (s.dequeueFifo + i))

def first : Option t := (s.internalFifos (s.dequeueFifo + i)).head?

end Methods

/-! ## The methods -/

def Input.none : Input logK t where
  enqueueElement _ := .none
  willDequeue _ := false

def Input.enq (wires : Input logK t) (i : Lane logK) (x : t) : Input logK t :=
  { wires with enqueueElement := Function.update wires.enqueueElement i (some x) }

def Input.deq (wires : Input logK t) (i : Lane logK) : Input logK t :=
  { wires with willDequeue := Function.update wires.willDequeue i true }

/-- `enq` of `mkSupFifo`. -/
def guardedEnq (n : Nat) (s : State logK t) (wires : Input logK t) (i : Lane logK) (x : t) :
    Option (Input logK t) :=
  if canEnq s i n then some (wires.enq i x) else .none

/-- `deq` of `mkSupFifo`. -/
def guardedDeq (s : State logK t) (wires : Input logK t) (i : Lane logK) :
    Option (Input logK t) :=
  if canDeq s i then some (wires.deq i) else .none

/-! ## The end of the cycle -/

/-- One turn of the loop of `canonicalize`.  All pointers are read in the state `s` before the
rule. -/
def canonicalizeLane (s : State logK t) (wires : Input logK t) (s' : State logK t)
    (i : Lane logK) : State logK t :=
  let enqueued := match wires.enqueueElement i with
    | some el =>
        let fifo := s.enqueueFifo + i
        { s' with
          enqueueFifo := fifo + 1
          internalFifos :=
            Function.update s'.internalFifos fifo (s'.internalFifos fifo ++ [el]) }
    | none => s'
  if wires.willDequeue i then
    let fifo := s.dequeueFifo + i
    { enqueued with
      dequeueFifo := fifo + 1
      internalFifos :=
        Function.update enqueued.internalFifos fifo (enqueued.internalFifos fifo).tail }
  else enqueued

def canonicalize (s : State logK t) (wires : Input logK t) : State logK t :=
  (List.finRange (2 ^ logK)).foldl (canonicalizeLane s wires) s

/-- The calls of a cycle: consecutive lanes from the first one on, each with its guard.
`mkSupFifo` has the guards on its methods, the callers of `mkUGSupFifo` keep to them. -/
@[mk_iff]
structure Allowed (n : Nat) (s : State logK t) (wires : Input logK t) : Prop where
  enq : ∀ i, (wires.enqueueElement i).isSome = true → canEnq s i n = true
  enqConsecutive : ∀ i, (wires.enqueueElement i).isSome = true →
    ∀ j ≤ i, (wires.enqueueElement j).isSome = true
  deq : ∀ i, wires.willDequeue i = true → canDeq s i = true
  deqConsecutive : ∀ i, wires.willDequeue i = true → ∀ j ≤ i, wires.willDequeue j = true

/-- The wires that calls of the methods of `mkSupFifo` leave. -/
inductive Called (n : Nat) (s : State logK t) : Input logK t → Prop
  | none : Called n s .none
  | enq {wires wires' : Input logK t} {i : Lane logK} {x : t} (before : Called n s wires)
      (fires : guardedEnq n s wires i x = some wires') : Called n s wires'
  | deq {wires wires' : Input logK t} {i : Lane logK} (before : Called n s wires)
      (fires : guardedDeq s wires i = some wires') : Called n s wires'

/-- The guards of `mkSupFifo` are what the callers of `mkUGSupFifo` promise. -/
theorem Called.guards {s : State logK t} {wires : Input logK t} (called : Called n s wires) :
    (∀ i, (wires.enqueueElement i).isSome = true → canEnq s i n = true) ∧
      ∀ i, wires.willDequeue i = true → canDeq s i = true := by
  induction called with
  | none => exact ⟨nofun, nofun⟩
  | @enq wires wires' lane x _ fires ih =>
      unfold guardedEnq at fires
      split at fires
      next can =>
        obtain rfl := Option.some.inj fires
        refine ⟨fun i there => ?_, ih.2⟩
        by_cases same : i = lane
        · exact same ▸ can
        · have other : (wires.enq lane x).enqueueElement i = wires.enqueueElement i :=
            Function.update_of_ne same ..
          rw [other] at there
          exact ih.1 i there
      next => exact nomatch fires
  | @deq wires wires' lane _ fires ih =>
      unfold guardedDeq at fires
      split at fires
      next can =>
        obtain rfl := Option.some.inj fires
        refine ⟨ih.1, fun i will => ?_⟩
        by_cases same : i = lane
        · exact same ▸ can
        · have other : (wires.deq lane).willDequeue i = wires.willDequeue i :=
            Function.update_of_ne same ..
          rw [other] at will
          exact ih.2 i will
      next => exact nomatch fires

theorem Called.allowed {s : State logK t} {wires : Input logK t} (called : Called n s wires)
    (enqConsecutive : ∀ i, (wires.enqueueElement i).isSome = true →
      ∀ j ≤ i, (wires.enqueueElement j).isSome = true)
    (deqConsecutive : ∀ i, wires.willDequeue i = true → ∀ j ≤ i, wires.willDequeue j = true) :
    Allowed n s wires :=
  ⟨called.guards.1, enqConsecutive, called.guards.2, deqConsecutive⟩

def machine (logK n : Nat) (t : Type) : Machine (State logK t) (Input logK t) where
  reset := { internalFifos := fun _ => [], enqueueFifo := 0, dequeueFifo := 0 }
  next := canonicalize
  allowed _ := Allowed n

/-! ## Logs -/

/-- What the lanes of a cycle enqueue, in lane order. -/
def enqueuedNow (wires : Input logK t) : List t :=
  (List.finRange (2 ^ logK)).filterMap wires.enqueueElement

/-- What the lanes of a cycle dequeue, in lane order. -/
def dequeuedNow (s : State logK t) (wires : Input logK t) : List t :=
  (List.finRange (2 ^ logK)).filterMap fun i => if wires.willDequeue i then first s i else none

def enqueued (cycles : List (State logK t × Input logK t)) : List t :=
  cycles.flatMap fun c => enqueuedNow c.2

def dequeued (cycles : List (State logK t × Input logK t)) : List t :=
  cycles.flatMap fun c => dequeuedNow c.1 c.2

/-! ## One turn of the loop -/

section Turn

variable {s : State logK t} {wires : Input logK t}

theorem enqueueFifo_lane (s' : State logK t) (i : Lane logK) :
    (canonicalizeLane s wires s' i).enqueueFifo =
      if (wires.enqueueElement i).isSome then s.enqueueFifo + i + 1 else s'.enqueueFifo := by
  unfold canonicalizeLane
  cases wires.enqueueElement i <;> cases wires.willDequeue i <;> rfl

theorem dequeueFifo_lane (s' : State logK t) (i : Lane logK) :
    (canonicalizeLane s wires s' i).dequeueFifo =
      if wires.willDequeue i then s.dequeueFifo + i + 1 else s'.dequeueFifo := by
  unfold canonicalizeLane
  cases wires.enqueueElement i <;> cases wires.willDequeue i <;> rfl

/-- A lane enqueues to one FIFO and dequeues from one. -/
theorem internalFifos_lane (s' : State logK t) (i fifo : Lane logK) :
    (canonicalizeLane s wires s' i).internalFifos fifo =
      let pushed := s'.internalFifos fifo ++
        (if fifo - s.enqueueFifo = i then wires.enqueueElement i else none).toList
      if fifo - s.dequeueFifo = i ∧ wires.willDequeue i = true then pushed.tail else pushed := by
  have push : ∀ el, Function.update s'.internalFifos (s.enqueueFifo + i)
      (s'.internalFifos (s.enqueueFifo + i) ++ [el]) fifo =
        s'.internalFifos fifo ++ (if fifo - s.enqueueFifo = i then some el else none).toList := by
    intro el
    by_cases here : fifo - s.enqueueFifo = i
    · obtain rfl : fifo = s.enqueueFifo + i := by rw [← here, add_sub_cancel]
      rw [Function.update_self, if_pos here]
      rfl
    · have other : fifo ≠ s.enqueueFifo + i := by
        rintro rfl
        exact here (add_sub_cancel_left _ _)
      rw [Function.update_of_ne other, if_neg here, Option.toList_none, List.append_nil]
  have pop : ∀ fifos : Lane logK → List t,
      Function.update fifos (s.dequeueFifo + i) (fifos (s.dequeueFifo + i)).tail fifo =
        if fifo - s.dequeueFifo = i then (fifos fifo).tail else fifos fifo := by
    intro fifos
    by_cases here : fifo - s.dequeueFifo = i
    · obtain rfl : fifo = s.dequeueFifo + i := by rw [← here, add_sub_cancel]
      rw [Function.update_self, if_pos here]
    · have other : fifo ≠ s.dequeueFifo + i := by
        rintro rfl
        exact here (add_sub_cancel_left _ _)
      rw [Function.update_of_ne other, if_neg here]
  unfold canonicalizeLane
  cases element : wires.enqueueElement i with
  | none =>
      cases wires.willDequeue i with
      | false => simp
      | true =>
          simp only [if_true, pop, ite_self, Option.toList_none, List.append_nil, and_true]
  | some el =>
      cases wires.willDequeue i with
      | false =>
          simp only [Bool.false_eq_true, if_false, and_false]
          exact push el
      | true =>
          simp only [if_true, and_true]
          rw [pop, push]

end Turn

/-! ## One cycle -/

theorem countP_lanes_le (f : Lane logK → Bool) :
    (List.finRange (2 ^ logK)).countP f ≤ 2 ^ logK := by
  have short := List.countP_le_length (p := f) (l := List.finRange (2 ^ logK))
  rwa [List.length_finRange] at short

section Cycle

variable {s : State logK t} {wires : Input logK t}

/-- Of consecutive lanes the last one moves the pointer, past all of them. -/
theorem foldl_pointer {f : Lane logK → Bool} (closed : ∀ i, f i = true → ∀ j ≤ i, f j = true)
    (start : Lane logK) :
    (List.finRange (2 ^ logK)).foldl (fun p i => if f i then start + i + 1 else p) start =
      slot start ((List.finRange (2 ^ logK)).countP f) := by
  have upTo : ∀ m, m ≤ 2 ^ logK →
      ((List.finRange (2 ^ logK)).take m).foldl (fun p i => if f i then start + i + 1 else p)
        start = slot start (min m ((List.finRange (2 ^ logK)).countP f)) := by
    intro m
    induction m with
    | zero =>
        intro _
        rw [List.take_zero, Nat.zero_min, slot_zero]
        rfl
    | succ m ih =>
        intro inside
        have lane : m < (List.finRange (2 ^ logK)).length := by
          rw [List.length_finRange]
          exact inside
        rw [List.take_succ_eq_append_getElem lane, List.foldl_append, ih (by omega)]
        have here : (List.finRange (2 ^ logK))[m] = ⟨m, inside⟩ := List.getElem_finRange lane
        rw [List.foldl_cons, List.foldl_nil, here]
        have below := iff_lt_countP closed (⟨m, inside⟩ : Lane logK)
        by_cases moved : f ⟨m, inside⟩ = true
        · have less : m < (List.finRange (2 ^ logK)).countP f := below.mp moved
          rw [if_pos moved, Nat.min_eq_left (by omega), ← slot_val_eq start ⟨m, inside⟩,
            slot_add_one]
        · have past : ¬ m < (List.finRange (2 ^ logK)).countP f := fun less =>
            moved (below.mpr less)
          rw [if_neg moved, Nat.min_eq_right (by omega), Nat.min_eq_right (by omega)]
  have whole := upTo (2 ^ logK) (Nat.le_refl _)
  rw [Nat.min_eq_right (countP_lanes_le f), List.take_of_length_le (by rw [List.length_finRange])]
    at whole
  exact whole

theorem enqueueFifo_next (consecutive : ∀ i, (wires.enqueueElement i).isSome = true →
    ∀ j ≤ i, (wires.enqueueElement j).isSome = true) :
    (canonicalize s wires).enqueueFifo =
      slot s.enqueueFifo
        ((List.finRange (2 ^ logK)).countP fun i => (wires.enqueueElement i).isSome) := by
  rw [← foldl_pointer consecutive]
  unfold canonicalize
  exact (List.foldl_hom State.enqueueFifo fun s' i => (enqueueFifo_lane s' i).symm).symm

theorem dequeueFifo_next (consecutive : ∀ i, wires.willDequeue i = true →
    ∀ j ≤ i, wires.willDequeue j = true) :
    (canonicalize s wires).dequeueFifo =
      slot s.dequeueFifo ((List.finRange (2 ^ logK)).countP wires.willDequeue) := by
  rw [← foldl_pointer consecutive]
  unfold canonicalize
  exact (List.foldl_hom State.dequeueFifo fun s' i => (dequeueFifo_lane s' i).symm).symm

/-- A FIFO loses its first element to one lane and gets one from another. -/
theorem internalFifos_next (popped : ∀ i, wires.willDequeue i = true → canDeq s i = true)
    (fifo : Lane logK) :
    (canonicalize s wires).internalFifos fifo =
      (if wires.willDequeue (fifo - s.dequeueFifo) = true then (s.internalFifos fifo).tail
        else s.internalFifos fifo) ++
      (wires.enqueueElement (fifo - s.enqueueFifo)).toList := by
  have upTo : ∀ lanes : List (Lane logK), lanes.Nodup →
      (lanes.foldl (canonicalizeLane s wires) s).internalFifos fifo =
        (if fifo - s.dequeueFifo ∈ lanes ∧ wires.willDequeue (fifo - s.dequeueFifo) = true then
          (s.internalFifos fifo).tail else s.internalFifos fifo) ++
        (if fifo - s.enqueueFifo ∈ lanes then wires.enqueueElement (fifo - s.enqueueFifo)
          else none).toList := by
    intro lanes
    induction lanes using List.reverseRecOn with
    | nil => simp
    | append_singleton earlier i ih =>
        intro nodup
        obtain ⟨before, -, apart⟩ := List.nodup_append.mp nodup
        have fresh : i ∉ earlier := fun member => apart i member i (by simp) rfl
        rw [List.foldl_append, List.foldl_cons, List.foldl_nil, internalFifos_lane, ih before]
        have members : ∀ lane, lane ∈ earlier ++ [i] ↔ lane ∈ earlier ∨ lane = i := by simp
        have pushes : (if fifo - s.enqueueFifo ∈ earlier then
              wires.enqueueElement (fifo - s.enqueueFifo) else none).toList ++
            (if fifo - s.enqueueFifo = i then wires.enqueueElement i else none).toList =
            (if fifo - s.enqueueFifo ∈ earlier ∨ fifo - s.enqueueFifo = i then
              wires.enqueueElement (fifo - s.enqueueFifo) else none).toList := by
          by_cases here : fifo - s.enqueueFifo = i
          · rw [here, if_neg fresh, if_pos rfl, if_pos (.inr rfl)]
            rfl
          · simp only [here, if_false, or_false, Option.toList_none, List.append_nil]
        simp only [members]
        rw [List.append_assoc, pushes]
        by_cases here : fifo - s.dequeueFifo = i
        · rw [here]
          cases will : wires.willDequeue i with
          | false => simp only [Bool.false_eq_true, and_false, if_false]
          | true =>
              have stored : s.internalFifos fifo ≠ [] := by
                have can := popped i will
                rw [← here] at can
                unfold canDeq notEmpty at can
                rw [add_sub_cancel] at can
                simpa using can
              simp only [fresh, false_and, if_false, true_and, or_true, if_true]
              exact List.tail_append_of_ne_nil stored
        · simp only [here, false_and, or_false, if_false]
  have whole := upTo (List.finRange (2 ^ logK)) (List.nodup_finRange _)
  simp only [List.mem_finRange, true_and, if_true] at whole
  exact whole

end Cycle

/-! ## The FIFOs hold one queue -/

/-- The FIFOs hold the elements `all`, from the one that is dequeued first on. -/
structure Stores (n : Nat) (s : State logK t) (all : List t) : Prop where
  spread : ∀ j, j < 2 ^ logK →
    Spread (2 ^ logK) all j (s.internalFifos (slot s.dequeueFifo j))
  tail : s.enqueueFifo = slot s.dequeueFifo all.length
  room : ∀ fifo, (s.internalFifos fifo).length ≤ n

section Stores

variable {s : State logK t} {wires : Input logK t} {all : List t}

theorem Stores.canDeq_iff (stores : Stores n s all) (i : Lane logK) :
    canDeq s i = true ↔ i.val < all.length := by
  unfold canDeq notEmpty
  rw [← slot_val_eq, Bool.not_eq_true', List.isEmpty_eq_false_iff, Ne,
    (stores.spread i.val i.isLt).eq_nil_iff, Nat.not_le]

theorem Stores.first_eq (stores : Stores n s all) (i : Lane logK) : first s i = all[i.val]? := by
  have here := stores.spread i.val i.isLt 0
  rw [Nat.zero_mul, Nat.add_zero, slot_val_eq] at here
  unfold first
  rw [List.head?_eq_getElem?, here]

/-- The FIFO that lane `i` enqueues to has as many elements as there are full rounds before the
`i`-th element that comes. -/
theorem Stores.lane_length (stores : Stores n s all) (i : Lane logK) :
    ∃ j, j < 2 ^ logK ∧ s.enqueueFifo + i = slot s.dequeueFifo j ∧
      j + (s.internalFifos (s.enqueueFifo + i)).length * 2 ^ logK = all.length + i.val := by
  obtain ⟨j, turn, there⟩ := exists_slot s.dequeueFifo (s.enqueueFifo + i)
  obtain ⟨lane, inside, next⟩ := (stores.spread j turn).next turn
  have same : slot s.enqueueFifo lane = slot s.enqueueFifo i.val := by
    rw [slot_val_eq, ← there, stores.tail, slot_add, ← next]
    rw [← slot_mod, Nat.add_mul_mod_self_right, slot_mod]
  have lane_eq := slot_inj inside i.isLt same
  refine ⟨j, turn, there.symm, ?_⟩
  rw [← there, next, lane_eq]

theorem Stores.canEnq_iff (stores : Stores n s all) (i : Lane logK) :
    canEnq s i n = true ↔ all.length + i.val < n * 2 ^ logK := by
  obtain ⟨j, turn, -, next⟩ := stores.lane_length i
  unfold canEnq notFull
  rw [decide_eq_true_iff, ← next]
  constructor
  · intro room
    have rounds := Nat.mul_le_mul_right (2 ^ logK) (Nat.succ_le_of_lt room)
    rw [Nat.succ_mul] at rounds
    omega
  · intro below
    by_contra full
    have rounds := Nat.mul_le_mul_right (2 ^ logK) (Nat.le_of_not_lt full)
    omega

theorem Stores.length_le (stores : Stores n s all) : all.length ≤ n * 2 ^ logK := by
  rcases Nat.eq_zero_or_pos all.length with none | some
  · omega
  · have positive : 0 < 2 ^ logK := Nat.two_pow_pos logK
    have turn := Nat.mod_lt (all.length - 1) positive
    have split := Nat.mod_add_div (all.length - 1) (2 ^ logK)
    rw [Nat.mul_comm] at split
    have last := (stores.spread _ turn).below_length ((all.length - 1) / 2 ^ logK)
    have inside := last.mpr (by omega)
    have rounds := Nat.mul_le_mul_right (2 ^ logK)
      (Nat.succ_le_of_lt (Nat.lt_of_lt_of_le inside (stores.room _)))
    rw [Nat.succ_mul] at rounds
    omega

/-- What the lanes dequeue is the front of the queue. -/
theorem Stores.dequeuedNow_eq (stores : Stores n s all) (allowed : Allowed n s wires) :
    dequeuedNow s wires = all.take ((List.finRange (2 ^ logK)).countP wires.willDequeue) := by
  have shown : ∀ i, ((if wires.willDequeue i then first s i else none).isSome = true) ↔
      wires.willDequeue i = true := by
    intro i
    cases will : wires.willDequeue i with
    | false => simp
    | true =>
        have inside := (stores.canDeq_iff i).mp (allowed.deq i will)
        simp only [if_true, stores.first_eq, List.getElem?_eq_getElem inside, Option.isSome_some]
  apply List.ext_getElem?
  intro j
  unfold dequeuedNow
  rw [getElem?_filterMap_finRange (fun y there x le =>
    (shown x).mpr (allowed.deqConsecutive y ((shown y).mp there) x le)), List.getElem?_take]
  by_cases inside : j < 2 ^ logK
  · have count := iff_lt_countP allowed.deqConsecutive ⟨j, inside⟩
    rw [dif_pos inside, stores.first_eq]
    by_cases will : wires.willDequeue ⟨j, inside⟩ = true
    · rw [if_pos will, if_pos (count.mp will)]
    · rw [if_neg will, if_neg (mt count.mpr will)]
  · have bound := countP_lanes_le wires.willDequeue
    rw [dif_neg inside, if_neg (by omega)]

theorem dequeues_le (stores : Stores n s all) (allowed : Allowed n s wires) :
    (List.finRange (2 ^ logK)).countP wires.willDequeue ≤ all.length := by
  rcases Nat.eq_zero_or_pos ((List.finRange (2 ^ logK)).countP wires.willDequeue) with none | some
  · omega
  · have bound := countP_lanes_le wires.willDequeue
    have inside : (List.finRange (2 ^ logK)).countP wires.willDequeue - 1 < 2 ^ logK := by omega
    have last := (iff_lt_countP allowed.deqConsecutive
      (⟨_, inside⟩ : Lane logK)).mpr (by simp only; omega)
    have stored := (stores.canDeq_iff _).mp (allowed.deq _ last)
    simp only at stored
    omega

theorem length_enqueuedNow (wires : Input logK t) :
    (enqueuedNow wires).length =
      (List.finRange (2 ^ logK)).countP fun i => (wires.enqueueElement i).isSome :=
  List.length_filterMap_eq_countP

/-- After the dequeues of a cycle, the queues are those of what is left. -/
theorem Stores.dropped (stores : Stores n s all) {m : Nat}
    (popped : ∀ i : Lane logK, wires.willDequeue i = true ↔ i.val < m) (short : m ≤ 2 ^ logK)
    {j : Nat} (turn : j < 2 ^ logK) :
    Spread (2 ^ logK) (all.drop m) j
      (if wires.willDequeue (slot s.dequeueFifo (m + j) - s.dequeueFifo) = true then
        (s.internalFifos (slot s.dequeueFifo (m + j))).tail
      else s.internalFifos (slot s.dequeueFifo (m + j))) := by
  have lane : (slot s.dequeueFifo (m + j) - s.dequeueFifo).val = (m + j) % 2 ^ logK := by
    rw [slot, add_sub_cancel_left]
    rfl
  apply Spread.drop
  rcases Nat.lt_or_ge (m + j) (2 ^ logK) with straight | wrapped
  · rw [Nat.mod_eq_of_lt straight] at lane
    rw [if_neg (by rw [popped, lane]; omega), Nat.add_comm j m]
    exact stores.spread (m + j) straight
  · have back : (m + j) % 2 ^ logK = m + j - 2 ^ logK := by
      rw [Nat.mod_eq_sub_mod wrapped, Nat.mod_eq_of_lt (by omega)]
    rw [back] at lane
    rw [if_pos (by rw [popped, lane]; omega), ← slot_mod, back]
    have round := (stores.spread (m + j - 2 ^ logK) (by omega)).tail
    rw [Nat.sub_add_cancel wrapped] at round
    rw [Nat.add_comm j m]
    exact round

/-- A cycle takes the front off the queue and puts the new elements behind it. -/
theorem Stores.next (stores : Stores n s all) (allowed : Allowed n s wires) :
    Stores n (canonicalize s wires)
      (all.drop ((List.finRange (2 ^ logK)).countP wires.willDequeue) ++ enqueuedNow wires) := by
  have gone := dequeues_le stores allowed
  have content := internalFifos_next allowed.deq
  have head := dequeueFifo_next (s := s) allowed.deqConsecutive
  generalize count : (List.finRange (2 ^ logK)).countP wires.willDequeue = m at gone head
  have popped : ∀ i : Lane logK, wires.willDequeue i = true ↔ i.val < m := by
    intro i
    rw [← count]
    exact iff_lt_countP allowed.deqConsecutive i
  have short : m ≤ 2 ^ logK := by
    rw [← count]
    exact countP_lanes_le _
  constructor
  · intro j turn
    rw [head, slot_add, content]
    have left := stores.dropped popped short turn
    obtain ⟨lane, inside, next⟩ := left.next turn
    have few : (enqueuedNow wires).length ≤ 2 ^ logK := by
      rw [length_enqueuedNow]
      exact countP_lanes_le _
    have appended := left.append next few
    unfold enqueuedNow at appended
    rw [getElem?_filterMap_finRange allowed.enqConsecutive, dif_pos inside] at appended
    have same : slot s.dequeueFifo (m + j) - s.enqueueFifo = ⟨lane, inside⟩ := by
      rw [sub_eq_iff_eq_add', ← slot_val_eq, stores.tail, slot_add]
      rw [List.length_drop] at next
      obtain ⟨rounds, next⟩ : ∃ rounds, j + rounds * 2 ^ logK = all.length - m + lane := ⟨_, next⟩
      rw [← slot_mod s.dequeueFifo (m + j), ← slot_mod s.dequeueFifo (all.length + lane)]
      have round : all.length + lane = m + j + rounds * 2 ^ logK := by omega
      rw [round, Nat.add_mul_mod_self_right]
    rw [same]
    exact appended
  · rw [enqueueFifo_next allowed.enqConsecutive, head, stores.tail, slot_add, slot_add,
      List.length_append, List.length_drop, length_enqueuedNow]
    congr 1
    omega
  · intro fifo
    rw [content fifo]
    have before := stores.room fifo
    cases element : wires.enqueueElement (fifo - s.enqueueFifo) with
    | none =>
        rw [Option.toList_none, List.append_nil]
        split
        · rw [List.length_tail]
          omega
        · exact before
    | some el =>
        have can := allowed.enq (fifo - s.enqueueFifo) (by rw [element]; rfl)
        unfold canEnq notFull at can
        rw [add_sub_cancel, decide_eq_true_iff] at can
        rw [List.length_append, Option.toList_some, List.length_singleton]
        split
        · rw [List.length_tail]
          omega
        · omega

end Stores

/-! ## Runs -/

theorem enqueued_concat (cycles : List (State logK t × Input logK t))
    (c : State logK t × Input logK t) :
    enqueued (cycles ++ [c]) = enqueued cycles ++ enqueuedNow c.2 := by
  simp [enqueued]

theorem dequeued_concat (cycles : List (State logK t × Input logK t))
    (c : State logK t × Input logK t) :
    dequeued (cycles ++ [c]) = dequeued cycles ++ dequeuedNow c.1 c.2 := by
  simp [dequeued]

theorem stores_reset : Stores n (machine logK n t).reset [] where
  spread j _ := Spread.nil _ j
  tail := (slot_zero _).symm
  room _ := Nat.zero_le n

theorem run_stores {cycles : List (State logK t × Input logK t)} {s : State logK t}
    (run : (machine logK n t).Run cycles s) :
    ∃ all, Stores n s all ∧ enqueued cycles = dequeued cycles ++ all := by
  induction run with
  | reset => exact ⟨[], stores_reset, rfl⟩
  | @cycle cycles s wires _ allowed ih =>
      obtain ⟨all, stores, queue⟩ := ih
      refine ⟨_, stores.next allowed, ?_⟩
      rw [enqueued_concat, dequeued_concat, stores.dequeuedNow_eq allowed, queue,
        List.append_assoc, List.append_assoc, ← List.append_assoc (List.take _ all),
        List.take_append_drop]

/-- The lanes are the front and the back of one queue of `n` elements for each lane. -/
theorem lanes_are_queue {cycles : List (State logK t × Input logK t)} {s : State logK t}
    (run : (machine logK n t).Run cycles s) :
    ∃ all, enqueued cycles = dequeued cycles ++ all ∧
      (∀ i, first s i = all[i.val]?) ∧
      (∀ i, canDeq s i = true ↔ i.val < all.length) ∧
      (∀ i, canEnq s i n = true →
        all.length + (i.val + 1) ≤ n * 2 ^ logK ∧ ∀ j ≤ i, canEnq s j n = true) ∧
      (∀ fifo, (s.internalFifos fifo).length ≤ n) ∧
      ∀ wires, Allowed n s wires → ∀ i,
        ((wires.enqueueElement i).isSome = true →
          (s.internalFifos (s.enqueueFifo + i)).length < n) ∧
        (wires.willDequeue i = true → s.internalFifos (s.dequeueFifo + i) ≠ []) := by
  obtain ⟨all, stores, queue⟩ := run_stores run
  refine ⟨all, queue, stores.first_eq, stores.canDeq_iff, ?_, stores.room, ?_⟩
  · intro i can
    have room := (stores.canEnq_iff i).mp can
    refine ⟨room, fun j le => (stores.canEnq_iff j).mpr ?_⟩
    have below : j.val ≤ i.val := le
    omega
  · intro wires allowed i
    refine ⟨fun there => ?_, fun will => ?_⟩
    · exact of_decide_eq_true (allowed.enq i there)
    · have can := allowed.deq i will
      unfold canDeq notEmpty at can
      simpa using can

instance (s : State logK t) (wires : Input logK t) : Decidable (Allowed n s wires) :=
  decidable_of_iff' _ (allowed_iff n s wires)

private def twoLanes : Machine (State 1 Nat) (Input 1 Nat) := machine 1 2 Nat

private instance (cycles : List (State 1 Nat × Input 1 Nat)) (s : State 1 Nat)
    (wires : Input 1 Nat) : Decidable (twoLanes.allowed cycles s wires) :=
  inferInstanceAs (Decidable (Allowed 2 s wires))

/-- Three elements in two cycles, one of which leaves in the second. -/
private def threeIn : List (Input 1 Nat) :=
  [(Input.none.enq 0 10).enq 1 11, (Input.none.enq 0 12).deq 0]

theorem lanes_are_queue_threeIn :
    let s := twoLanes.after twoLanes.reset threeIn
    ∃ all, [10, 11, 12] = [10] ++ all ∧ (∀ i, first s i = all[i.val]?) ∧
      ∀ i, canDeq s i = true ↔ i.val < all.length := by
  intro s
  have run : twoLanes.Run _ s := Machine.run_of_accepts threeIn (by decide +kernel)
  obtain ⟨all, queue, shown, stored, -⟩ := lanes_are_queue run
  have entered : enqueued (twoLanes.cyclesOf twoLanes.reset threeIn) = [10, 11, 12] := by
    decide +kernel
  have left : dequeued (twoLanes.cyclesOf twoLanes.reset threeIn) = [10] := by
    decide +kernel
  rw [entered, left] at queue
  exact ⟨all, queue, shown, stored⟩

end Toooba.SupFifo
