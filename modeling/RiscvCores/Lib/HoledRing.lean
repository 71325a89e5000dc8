import Mathlib.Data.List.Basic
import RiscvCores.Lib.Ring

/-!
# Circular buffers with holes

A circular buffer whose elements can be taken out anywhere.  A hole is skipped when it comes to
the front.  Read and write position meet both when the buffer is empty and when all of its slots
are taken, by elements or by holes; with holes only it counts as empty.
-/

set_option autoImplicit false

namespace HoledRing

open Ring

variable {n : Nat} [NeZero n] {E : Type}

/-- The slots from `read` to before `write` hold `cells`, the others nothing. -/
structure Window (mem : Fin n → Option E) (read write : Fin n) (cells : List (Option E)) :
    Prop where
  holds : Ring.Holds mem read cells
  write : write = slot read cells.length
  outside : ∀ p, ¬ InWindow read cells.length p → mem p = none

/-- The buffer holds the elements `xs`. -/
def Queue (mem : Fin n → Option E) (read write : Fin n) (xs : List E) : Prop :=
  ∃ cells, Window mem read write cells ∧ cells.filterMap id = xs

/-- There is a slot behind the elements `xs`. -/
def Roomy (mem : Fin n → Option E) (read write : Fin n) (xs : List E) : Prop :=
  ∃ cells, cells.length < n ∧ Window mem read write cells ∧ cells.filterMap id = xs

variable {mem : Fin n → Option E} {read write : Fin n} {xs : List E}
  {cells : List (Option E)}

theorem Roomy.queue (roomy : Roomy mem read write xs) : Queue mem read write xs := by
  obtain ⟨cells, -, window, elements⟩ := roomy
  exact ⟨cells, window, elements⟩

theorem Window.empty (none : ∀ p, mem p = .none) : Window mem read read [] where
  holds := Holds.nil mem read
  write := (slot_zero read).symm
  outside p _ := none p

theorem Queue.empty (none : ∀ p, mem p = .none) : Queue mem read read [] :=
  ⟨[], Window.empty none, rfl⟩

/-- Elements are changed or taken out where they are. -/
theorem Window.update (window : Window mem read write cells) (f : E → Option E) :
    Window (fun p => (mem p).bind f) read write (cells.map fun cell => cell.bind f) where
  holds := by
    refine ⟨by rw [List.length_map]; exact window.holds.1, fun k inside => ?_⟩
    rw [List.length_map] at inside
    rw [List.getElem_map]
    exact congrArg (fun cell => cell.bind f) (window.holds.2 k inside)
  write := by
    rw [List.length_map]
    exact window.write
  outside p away := by
    rw [List.length_map] at away
    simp only [window.outside p away, Option.bind_none]

theorem filterMap_id_map_bind (cells : List (Option E)) (f : E → Option E) :
    (cells.map fun cell => cell.bind f).filterMap id = (cells.filterMap id).filterMap f := by
  rw [List.filterMap_map, List.filterMap_filterMap]
  rfl

theorem Queue.update (queue : Queue mem read write xs) (f : E → Option E) :
    Queue (fun p => (mem p).bind f) read write (xs.filterMap f) := by
  obtain ⟨cells, window, rfl⟩ := queue
  exact ⟨_, window.update f, filterMap_id_map_bind cells f⟩

/-- What is in the buffer is in its window. -/
theorem Window.inside (window : Window mem read write cells) {p : Fin n} (some : mem p ≠ none) :
    InWindow read cells.length p := by
  by_contra away
  exact some (window.outside p away)

theorem Window.ne_nil (window : Window mem read write cells)
    (some : write ≠ read ∨ ∃ p, mem p ≠ none) : cells ≠ [] := by
  rintro rfl
  rcases some with apart | ⟨p, here⟩
  · exact apart (window.write.trans (slot_zero read))
  · obtain ⟨k, below, -⟩ := window.inside here
    exact absurd below (Nat.not_lt_zero k)

/-- The front of the window moves on. -/
theorem Window.advance {cell : Option E} {rest : List (Option E)}
    (window : Window mem read write (cell :: rest)) {mem' : Fin n → Option E}
    (others : ∀ p, p ≠ read → mem' p = mem p) (front : mem' read = none) :
    rest.length < n ∧ Window mem' (read + 1) write rest := by
  have bound : rest.length + 1 ≤ n := window.holds.1
  refine ⟨bound, ?_, ?_, ?_⟩
  · apply window.holds.pop.congr
    intro p inside
    exact others p ((inWindow_pop bound).mp inside).2
  · rw [add_one_eq_slot, slot_add, Nat.add_comm 1]
    exact window.write
  · intro p away
    by_cases same : p = read
    · rw [same]
      exact front
    · rw [others p same]
      apply window.outside
      intro inside
      exact away ((inWindow_pop bound).mpr ⟨inside, same⟩)

/-- The element at the front is taken. -/
theorem Queue.pop (queue : Queue mem read write xs) {x : E} (front : mem read = some x) :
    xs.head? = some x ∧ Roomy (Function.update mem read none) (read + 1) write xs.tail := by
  obtain ⟨cells, window, rfl⟩ := queue
  cases cells with
  | nil => exact absurd rfl (window.ne_nil (.inr ⟨read, by rw [front]; exact nofun⟩))
  | cons cell rest =>
      obtain rfl : cell = some x := window.holds.head.symm.trans front
      obtain ⟨room, left⟩ := window.advance
        (fun p other => Function.update_of_ne other none mem) (Function.update_self ..)
      exact ⟨rfl, rest, room, left, rfl⟩

/-- A hole at the front is skipped, also one that has just been made. -/
theorem Queue.skip (queue : Queue mem read write xs) (f : E → Option E)
    (hole : (mem read).bind f = none) (some : write ≠ read ∨ ∃ p, mem p ≠ none) :
    Roomy (fun p => (mem p).bind f) (read + 1) write (xs.filterMap f) := by
  obtain ⟨cells, window, rfl⟩ := queue
  cases cells with
  | nil => exact absurd rfl (window.ne_nil some)
  | cons cell rest =>
      obtain ⟨room, left⟩ := (window.update f).advance (fun p _ => rfl) hole
      rw [List.length_map] at room
      have gone : cell.bind f = none := by
        rw [← window.holds.head]
        exact hole
      refine ⟨_, by rwa [List.length_map], left, ?_⟩
      rw [← filterMap_id_map_bind, List.map_cons, gone]
      rfl

/-- Unless the positions meet on elements, there is room. -/
theorem Queue.roomy (queue : Queue mem read write xs)
    (guard : write ≠ read ∨ ∀ p, mem p = none) : Roomy mem read write xs := by
  obtain ⟨cells, window, rfl⟩ := queue
  rcases Nat.lt_or_ge cells.length n with room | full
  · exact ⟨cells, room, window, rfl⟩
  · have all : cells.length = n := Nat.le_antisymm window.holds.1 full
    have meet : write = read := by
      rw [window.write, all, ← slot_mod, Nat.mod_self, slot_zero]
    obtain none := guard.resolve_left (fun apart => apart meet)
    have holes : cells.filterMap id = [] := by
      rw [List.filterMap_eq_nil_iff]
      intro cell member
      obtain ⟨k, inside, rfl⟩ := List.getElem_of_mem member
      rw [← window.holds.2 k inside]
      exact none _
    refine ⟨[], Nat.pos_of_neZero n, ?_, holes.symm⟩
    rw [meet]
    exact Window.empty none

/-- An element is put into the slot behind the others, which is empty. -/
theorem Roomy.push (roomy : Roomy mem read write xs) (x : E) :
    mem write = none ∧ Queue (Function.update mem write (some x)) read (write + 1) (xs ++ [x]) := by
  obtain ⟨cells, room, window, rfl⟩ := roomy
  constructor
  · rw [window.write]
    exact window.outside _ (not_inWindow_slot room)
  · refine ⟨cells ++ [some x], ⟨?_, ?_, ?_⟩, by simp⟩
    · rw [window.write]
      exact window.holds.push room (some x)
    · rw [window.write, slot_add_one, List.length_append, List.length_singleton]
    · intro p away
      rw [List.length_append, List.length_singleton, inWindow_succ, not_or] at away
      rw [window.write, Function.update_of_ne away.2]
      exact window.outside p away.1

/-- The elements, from the read position once around. -/
def contents (mem : Fin n → Option E) (read : Fin n) : List E :=
  (List.range n).filterMap fun k => mem (slot read k)

theorem Queue.contents_eq (queue : Queue mem read write xs) : contents mem read = xs := by
  obtain ⟨cells, window, rfl⟩ := queue
  have split : List.range n = List.range cells.length ++
      (List.range (n - cells.length)).map (cells.length + ·) := by
    rw [← List.range_add, Nat.add_sub_cancel' window.holds.1]
  have front : (List.range cells.length).filterMap (fun k => mem (slot read k)) =
      cells.filterMap id := by
    have same : (List.range cells.length).map (fun k => mem (slot read k)) = cells := by
      apply List.ext_getElem
      · simp
      · intro k _ inside
        simp only [List.getElem_map, List.getElem_range]
        exact window.holds.2 k inside
    calc (List.range cells.length).filterMap (fun k => mem (slot read k))
        = ((List.range cells.length).map fun k => mem (slot read k)).filterMap id := by
          rw [List.filterMap_map]
          rfl
      _ = cells.filterMap id := by rw [same]
  have back : ((List.range (n - cells.length)).map (cells.length + ·)).filterMap
      (fun k => mem (slot read k)) = [] := by
    rw [List.filterMap_eq_nil_iff]
    intro k member
    obtain ⟨j, below, rfl⟩ := List.mem_map.mp member
    apply window.outside
    rintro ⟨i, inside, same⟩
    have bound := List.mem_range.mp below
    have equal := slot_inj (by omega) (by omega) same
    omega
  unfold contents
  rw [split, List.filterMap_append, front, back, List.append_nil]

theorem Queue.filled (queue : Queue mem read write xs) (some : xs ≠ []) :
    write ≠ read ∨ ∃ p, mem p ≠ none := by
  obtain ⟨cells, window, rfl⟩ := queue
  obtain ⟨x, member⟩ := List.exists_mem_of_ne_nil _ some
  obtain ⟨cell, there, same⟩ := List.mem_filterMap.mp member
  obtain ⟨k, inside, rfl⟩ := List.getElem_of_mem there
  refine .inr ⟨slot read k, ?_⟩
  rw [window.holds.2 k inside]
  exact ne_of_eq_of_ne same nofun

/-! ## A cycle -/

/-- The slots without the element at the front, if it is taken. -/
def left (mem : Fin n → Option E) (read : Fin n) (deq : Bool) : Fin n → Option E :=
  if deq then Function.update mem read none else mem

/-- The slots after a cycle. -/
def cycled (mem : Fin n → Option E) (read write : Fin n) (deq : Bool) (enq : Option E) :
    Fin n → Option E :=
  match enq with
  | some x => Function.update (left mem read deq) write (some x)
  | none => left mem read deq

/-- When the front was taken or skipped, there is room. -/
theorem Queue.left (queue : Queue mem read write xs) {f : E → Option E} {deq canon : Bool}
    (deqGuard : deq = true → (mem read).bind f ≠ none)
    (canonGuard : canon = true →
      (mem read).bind f = none ∧ (write ≠ read ∨ ∃ p, mem p ≠ none))
    (moves : deq = true ∨ canon = true) :
    Roomy (left (fun p => (mem p).bind f) read deq) (read + 1) write
      (if deq then (xs.filterMap f).tail else xs.filterMap f) := by
  cases deq with
  | true =>
      obtain ⟨x, front⟩ := Option.ne_none_iff_exists'.mp (deqGuard rfl)
      exact ((queue.update f).pop front).2
  | false =>
      obtain ⟨hole, some⟩ := canonGuard (moves.resolve_left Bool.false_ne_true)
      exact queue.skip f hole some

/-- What was taken or skipped, or free before, is room. -/
theorem Queue.room (queue : Queue mem read write xs) {f : E → Option E} {deq canon : Bool}
    (deqGuard : deq = true → (mem read).bind f ≠ none)
    (canonGuard : canon = true →
      (mem read).bind f = none ∧ (write ≠ read ∨ ∃ p, mem p ≠ none))
    (guard : (deq = true ∨ canon = true) ∨ (write ≠ read ∨ ∀ p, (mem p).bind f = none)) :
    Roomy (HoledRing.left (fun p => (mem p).bind f) read deq)
      (if deq || canon then read + 1 else read) write
      (if deq then (xs.filterMap f).tail else xs.filterMap f) := by
  by_cases moves : deq = true ∨ canon = true
  · rw [if_pos (by rwa [Bool.or_eq_true])]
    exact queue.left deqGuard canonGuard moves
  · obtain ⟨stays, -⟩ := not_or.mp moves
    obtain rfl := Bool.eq_false_iff.mpr stays
    rw [if_neg (by rwa [Bool.or_eq_true])]
    exact (queue.update f).roomy (guard.resolve_left moves)

/-- In a cycle the elements are changed by `f`; then the front is taken, or a hole at the front
skipped, and an element is put in. -/
theorem Queue.cycle (queue : Queue mem read write xs) {f : E → Option E} {deq canon : Bool}
    {enq : Option E} (deqGuard : deq = true → (mem read).bind f ≠ none)
    (canonGuard : canon = true →
      (mem read).bind f = none ∧ (write ≠ read ∨ ∃ p, mem p ≠ none))
    (enqGuard : enq ≠ none →
      (deq = true ∨ canon = true) ∨ (write ≠ read ∨ ∀ p, (mem p).bind f = none)) :
    Queue (cycled (fun p => (mem p).bind f) read write deq enq)
      (if deq || canon then read + 1 else read) (if enq.isSome then write + 1 else write)
      ((if deq then (xs.filterMap f).tail else xs.filterMap f) ++ enq.toList) := by
  cases enq with
  | some x => exact ((queue.room deqGuard canonGuard (enqGuard nofun)).push x).2
  | none =>
      rw [Option.toList_none, List.append_nil]
      by_cases moves : deq = true ∨ canon = true
      · exact (queue.room deqGuard canonGuard (.inl moves)).queue
      · obtain ⟨stays, -⟩ := not_or.mp moves
        obtain rfl := Bool.eq_false_iff.mpr stays
        rw [if_neg (by rwa [Bool.or_eq_true])]
        exact queue.update f

end HoledRing
