import Mathlib.Data.List.Perm.Basic
import Mathlib.Tactic.Common

/-!
# Filtered queues

The reference for a queue whose elements can be dropped or changed while they wait.  Every
element gets the number of its arrival as its ticket.
-/

set_option autoImplicit false

namespace FilteredQueue

variable {E V X : Type}

structure Entry (E : Type) where
  ticket : Nat
  elem : E

/-- Everything that arrived, what waits, what left at the head and what was dropped. -/
structure Log (E : Type) where
  arrived : List E
  queue : List (Entry E)
  gone : List (Entry E)
  dropped : List (Entry E)

def Log.empty : Log E where
  arrived := []
  queue := []
  gone := []
  dropped := []

/-- Who waits after the head left and an element came. -/
def Log.waiting (log : Log E) (deq : Bool) (enq : Option E) : List (Entry E) :=
  (if deq then log.queue.tail else log.queue) ++
    (enq.map fun x => ⟨log.arrived.length, x⟩).toList

/-- The head leaves, an element comes, the covered ones are dropped, the others changed. -/
def Log.step (log : Log E) (deq : Bool) (enq : Option E) (covered : E → Bool) (change : E → E) :
    Log E where
  arrived := log.arrived ++ enq.toList
  queue := ((log.waiting deq enq).filter fun e => !covered e.elem).map fun e =>
    { e with elem := change e.elem }
  gone := log.gone ++ if deq then log.queue.head?.toList else []
  dropped := log.dropped ++ (log.waiting deq enq).filter fun e => covered e.elem

/-- Who left and who waits, in the order of arrival. -/
def Log.Ordered (log : Log E) : Prop :=
  (log.gone ++ log.queue).Pairwise fun a b => a.ticket < b.ticket

/-- Every arrival left, was dropped or waits, in one place once. -/
def Log.Accounted (log : Log E) : Prop :=
  ((log.gone ++ log.dropped ++ log.queue).map Entry.ticket).Perm (List.range log.arrived.length)

/-- Every element is its own arrival, up to what can change about it. -/
def Log.Own (log : Log E) (origin : E → X) : Prop :=
  ∀ e ∈ log.gone ++ log.dropped ++ log.queue,
    (log.arrived[e.ticket]?).map origin = some (origin e.elem)

variable {log : Log E}

theorem Log.Accounted.below (accounted : log.Accounted) {e : Entry E}
    (member : e ∈ log.gone ++ log.dropped ++ log.queue) : e.ticket < log.arrived.length :=
  List.mem_range.mp (accounted.subset (List.mem_map_of_mem member))

/-- The head that leaves and those that wait after it are the queue. -/
theorem head_tail (queue : List (Entry E)) (deq : Bool) :
    (if deq then queue.head?.toList else []) ++ (if deq then queue.tail else queue) = queue := by
  cases deq with
  | false => rfl
  | true =>
      cases queue with
      | nil => rfl
      | cons head rest => rfl

theorem Log.gone_waiting (log : Log E) (deq : Bool) (enq : Option E) :
    (log.gone ++ if deq then log.queue.head?.toList else []) ++ log.waiting deq enq =
      log.gone ++ log.queue ++ (enq.map fun x => Entry.mk log.arrived.length x).toList := by
  unfold Log.waiting
  rw [List.append_assoc, ← List.append_assoc _ _ (Option.toList _), head_tail,
    List.append_assoc]

/-- What a step leaves of the waiting ones keeps its tickets. -/
theorem Log.step_queue_ticket (log : Log E) (deq : Bool) (enq : Option E) (covered : E → Bool)
    (change : E → E) :
    (log.step deq enq covered change).queue.map Entry.ticket =
      ((log.waiting deq enq).filter fun e => !covered e.elem).map Entry.ticket := by
  unfold Log.step
  rw [List.map_map]
  rfl

section Step

variable (deq : Bool) (enq : Option E) (covered : E → Bool) (change : E → E)

theorem Log.Ordered.step (ordered : log.Ordered) (accounted : log.Accounted) :
    (log.step deq enq covered change).Ordered := by
  have arrivals : ((log.gone ++ if deq then log.queue.head?.toList else []) ++
      log.waiting deq enq).Pairwise fun a b => a.ticket < b.ticket := by
    rw [log.gone_waiting, List.pairwise_append]
    refine ⟨ordered, ?_, ?_⟩
    · cases enq with
      | none => exact List.Pairwise.nil
      | some x => exact List.pairwise_singleton ..
    · intro a old b new
      cases enq with
      | none => exact absurd new List.not_mem_nil
      | some x =>
          obtain rfl := List.mem_singleton.mp new
          apply accounted.below
          rw [List.mem_append] at old
          rw [List.mem_append, List.mem_append]
          exact old.imp Or.inl id
  have kept := arrivals.sublist ((List.Sublist.refl _).append
    (List.filter_sublist (p := fun e => !covered e.elem)))
  unfold Log.Ordered
  rw [← List.pairwise_map (f := Entry.ticket) (R := (· < ·)), List.map_append,
    log.step_queue_ticket, ← List.map_append, List.pairwise_map]
  exact kept

theorem Log.Accounted.step (accounted : log.Accounted) :
    (log.step deq enq covered change).Accounted := by
  apply List.perm_iff_count.mpr
  intro ticket
  have before := List.perm_iff_count.mp accounted ticket
  have split := congrArg (fun entries => (entries.map Entry.ticket).count ticket)
    (log.gone_waiting deq enq)
  have parts := ((List.filter_append_perm (fun e => covered e.elem)
    (log.waiting deq enq)).map Entry.ticket).count_eq ticket
  have fresh : ((enq.map fun x => Entry.mk log.arrived.length x).toList.map
      Entry.ticket).count ticket + (List.range log.arrived.length).count ticket =
      (List.range (log.arrived ++ enq.toList).length).count ticket := by
    cases enq with
    | none => simp
    | some x => simp [List.range_succ, Nat.add_comm]
  rw [List.map_append, log.step_queue_ticket]
  simp only [Log.step, List.map_append, List.count_append] at before split parts fresh ⊢
  omega

theorem Log.Own.step {origin : E → X} (own : log.Own origin)
    (same : ∀ x, origin (change x) = origin x) :
    (log.step deq enq covered change).Own origin := by
  have earlier : ∀ e ∈ log.gone ++ log.dropped ++ log.queue,
      ((log.arrived ++ enq.toList)[e.ticket]?).map origin = some (origin e.elem) := by
    intro e member
    have found := own e member
    obtain ⟨x, there, -⟩ := Option.map_eq_some_iff.mp found
    rw [List.getElem?_append_left (List.getElem?_eq_some_iff.mp there).1]
    exact found
  have waiting : ∀ e ∈ log.waiting deq enq,
      ((log.arrived ++ enq.toList)[e.ticket]?).map origin = some (origin e.elem) := by
    intro e member
    rcases List.mem_append.mp member with old | new
    · apply earlier
      apply List.mem_append_right
      cases deq with
      | false => exact old
      | true => exact List.mem_of_mem_tail old
    · cases enq with
      | none => exact absurd new List.not_mem_nil
      | some x =>
          obtain rfl := List.mem_singleton.mp new
          simp
  intro e member
  unfold Log.step at member ⊢
  simp only [List.mem_append] at member
  rcases member with ((old | head) | (old | covered)) | kept
  · exact earlier e (by simp [old])
  · apply earlier
    apply List.mem_append_right
    cases deq with
    | false => exact absurd head List.not_mem_nil
    | true => exact List.mem_of_mem_head? (Option.mem_toList.mp head)
  · exact earlier e (by simp [old])
  · exact waiting e (List.mem_filter.mp covered).1
  · obtain ⟨was, member, rfl⟩ := List.mem_map.mp kept
    have found := waiting was (List.mem_filter.mp member).1
    rw [← same was.elem] at found
    exact found

/-- The queue, seen through the value that its elements have now. -/
theorem Log.queue_step (now : E → V) (keep : V → Option V)
    (agrees : ∀ x, keep (now x) = if covered x then none else some (now (change x))) :
    (log.step deq enq covered change).queue.map (fun e => now e.elem) =
      ((if deq then (log.queue.map fun e => now e.elem).tail
        else log.queue.map fun e => now e.elem) ++ (enq.map now).toList).filterMap keep := by
  have left : (log.waiting deq enq).map (fun e => now e.elem) =
      (if deq then (log.queue.map fun e => now e.elem).tail
        else log.queue.map fun e => now e.elem) ++ (enq.map now).toList := by
    unfold Log.waiting
    rw [List.map_append]
    congr 1
    · cases deq with
      | false => rfl
      | true => exact List.map_tail
    · cases enq with
      | none => rfl
      | some x => rfl
  rw [← left, List.filterMap_map]
  unfold Log.step
  rw [List.map_map, ← List.filterMap_eq_map, List.filterMap_filter]
  congr 1
  funext e
  cases dropped : covered e.elem with
  | true => simp [agrees, dropped]
  | false => simp [agrees, dropped]

end Step

end FilteredQueue
