import RiscvCores.Toooba.RenamingRefinement
import RiscvCores.Toooba.ReservationStation

/-!
# Wake-ups and dispatch of a reservation station

The register events of the scoreboard and the events of every slot are logged.  A
source that is not ready is busy in the scoreboard, so its wake-up is still to come;
the events of a slot tell which instruction waits there.
-/

set_option autoImplicit false

namespace Toooba.ReservationStation

open Clocked RenamingTable

variable {c : RsCfg} {a : Type}

/-! ## Register events -/

inductive RegEvent (c : RsCfg)
  | wake (x : PhyRIndx c)
  | alloc (x : PhyRIndx c)
deriving DecidableEq

def Input.wakes (i : Input c a) : List (RegEvent c) :=
  (List.finRange c.setRegReadyNum).filterMap fun k => (i.wake k).join.map .wake

/-- The registers allocated by the lanes before `lane`. -/
def Input.allocs (i : Input c a) (lane : Nat) : List (RegEvent c) :=
  ((List.finRange c.supSize).take lane).filterMap fun l => (i.busy l).map fun dst => .alloc dst.indx

/-- Of the first `seen` events, every allocation of `x` is followed by a wake-up. -/
def Woken (history : List (RegEvent c)) (x : PhyRIndx c) (seen : Nat) : Prop :=
  ∀ before after, history = before ++ .alloc x :: after → before.length < seen →
    .wake x ∈ after

/-! ## Slot events -/

/-- An instruction in the station, with its place in program order and the number of
register events before its lookup. -/
structure Ticket (c : RsCfg) (a : Type) where
  entry : ToReservationStation c a
  order : Nat
  seen : Nat

inductive SlotEvent (c : RsCfg) (a : Type)
  | enq (t : Ticket c a)
  | dispatch (x : ToReservationStation c a)
  | incorrect (w : IncorrectSpeculation c)
  | correct (mask : SpecBits c)

/-- What waits in a slot after an event. -/
def SlotEvent.waits (waiting : Option (Ticket c a)) : SlotEvent c a → Option (Ticket c a)
  | .enq t => some t
  | .dispatch _ => none
  | .incorrect w => waiting.filter fun t => !wrongSpec w t.entry
  | .correct mask => waiting.map fun t => { t with entry := t.entry.masked mask }

def waits (events : List (SlotEvent c a)) : Option (Ticket c a) :=
  events.foldl SlotEvent.waits none

/-- Instructions enter a free slot, and what is dispatched waits there. -/
inductive Legal : List (SlotEvent c a) → Prop
  | nil : Legal []
  | enq {events : List (SlotEvent c a)} {t : Ticket c a} (legal : Legal events)
      (free : waits events = none) : Legal (events ++ [.enq t])
  | dispatch {events : List (SlotEvent c a)} {t : Ticket c a} (legal : Legal events)
      (waiting : waits events = some t) : Legal (events ++ [.dispatch t.entry.allReady])
  | incorrect {events : List (SlotEvent c a)} {w : IncorrectSpeculation c}
      (legal : Legal events) : Legal (events ++ [.incorrect w])
  | correct {events : List (SlotEvent c a)} {mask : SpecBits c}
      (legal : Legal events) : Legal (events ++ [.correct mask])

structure Log (c : RsCfg) (a : Type) where
  history : List (RegEvent c) := []
  events : Fin c.size → List (SlotEvent c a) := fun _ => []

/-- The number of register events before the lookup of a lane. -/
def Log.seen (log : Log c a) (i : Input c a) (lane : Nat) : Nat :=
  (log.history ++ i.wakes ++ i.allocs lane).length

def Log.ticket (log : Log c a) (s : State c a) (i : Input c a) (e : Enq c a) : Ticket c a :=
  ⟨e.entry s i, e.order, log.seen i e.lane.val⟩

/-- The events of a slot in a cycle, in the order of the ports. -/
def Log.slotEvents (log : Log c a) (s : State c a) (i : Input c a) (k : Fin c.size) :
    List (SlotEvent c a) :=
  (if dispatched s i = some k then [.dispatch (dispatchData s k)] else []) ++
    (i.incorrectSpeculation.map .incorrect).toList ++
    ((enqAt s i k).map fun e => .enq (log.ticket s i e)).toList ++
    (i.correctSpeculation.map .correct).toList

def Log.next (log : Log c a) (cycle : State c a × Input c a) : Log c a where
  history := log.history ++ cycle.2.wakes ++ cycle.2.allocs c.supSize
  events k := log.events k ++ log.slotEvents cycle.1 cycle.2 k

def logOf (cycles : List (State c a × Input c a)) : Log c a := cycles.foldl Log.next {}

/-! ## Runs -/

/-- The guards of the methods, the conflicts with `incorrectSpeculation`, and tags that
are the places of the instructions of the reorder buffer, at most a table apart. -/
structure Allowed (cycles : List (State c a × Input c a)) (s : State c a) (i : Input c a) :
    Prop where
  canEnq : i.enq.isSome → (enqP s i).isSome
  canDispatch : i.doDispatch = true → (canScheduleIndex s.row (robEnqTime i)).isSome
  conflict : i.incorrectSpeculation.isSome → i.enq = none ∧ i.doDispatch = false
  tag : ∀ e, i.enq = some e → e.tag.t = BitVec.ofNat _ e.order
  window : ∀ k t, waits ((logOf cycles).events k) = some t →
    t.order < i.robEnq ∧ i.robEnq ≤ t.order + 2 ^ tLog c.numInstTags

/-- Apart from `valid` and the scoreboard, registers start with anything. -/
def machine (c : RsCfg) {a : Type} (entries : Fin c.size → ToReservationStation c a) :
    Machine (State c a) (Input c a) where
  reset := { row := fun k => ⟨false, entries k⟩, sb := fun _ => false }
  next := next
  allowed := Allowed

/-! ## The scoreboard -/

def RegEvent.apply (sb : PhyRIndx c → Bool) : RegEvent c → PhyRIndx c → Bool
  | .wake x => Function.update sb x false
  | .alloc x => Function.update sb x true

def scoreboard (history : List (RegEvent c)) : PhyRIndx c → Bool :=
  history.foldl RegEvent.apply fun _ => false

/-- A register stays busy until it is woken. -/
theorem busy_of_not_woken {x : PhyRIndx c} (events : List (RegEvent c)) (sb : PhyRIndx c → Bool)
    (busy : sb x = true) (quiet : .wake x ∉ events) : events.foldl RegEvent.apply sb x = true := by
  induction events generalizing sb with
  | nil => exact busy
  | cons e rest ih =>
      rw [List.mem_cons, not_or] at quiet
      apply ih _ _ quiet.2
      cases e with
      | wake y =>
          have other : x ≠ y := by
            rintro rfl
            exact quiet.1 rfl
          rw [RegEvent.apply, Function.update_of_ne other]
          exact busy
      | alloc y =>
          by_cases same : x = y
          · subst same
            rw [RegEvent.apply, Function.update_self]
          · rw [RegEvent.apply, Function.update_of_ne same]
            exact busy

theorem woken_of_idle {history : List (RegEvent c)} {x : PhyRIndx c}
    (idle : scoreboard history x = false) (seen : Nat) : Woken history x seen := by
  intro before after whole _
  by_contra quiet
  have busy := busy_of_not_woken after
    (RegEvent.apply (before.foldl RegEvent.apply fun _ => false) (.alloc x))
    (by rw [RegEvent.apply, Function.update_self]) quiet
  unfold scoreboard at idle
  rw [whole, List.foldl_append, List.foldl_cons, busy] at idle
  exact nomatch idle

/-- What the first `seen` events need is not changed by later ones. -/
theorem Woken.append {history : List (RegEvent c)} {x : PhyRIndx c} {seen : Nat}
    (woken : Woken history x seen) (inside : seen ≤ history.length) (more : List (RegEvent c)) :
    Woken (history ++ more) x seen := by
  intro before after whole early
  obtain ⟨between, same, rfl⟩ : ∃ between, history = before ++ .alloc x :: between ∧
      after = between ++ more := by
    rcases List.append_eq_append_iff.mp whole with ⟨rest, long, -⟩ | ⟨rest, split, tail⟩
    · have size := congrArg List.length long
      rw [List.length_append] at size
      omega
    · cases rest with
      | nil =>
          have size := congrArg List.length split
          rw [List.append_nil] at size
          omega
      | cons e between =>
          obtain ⟨rfl, rfl⟩ := List.cons.inj tail
          exact ⟨between, split, rfl⟩
  exact List.mem_append_left more (woken before between same early)

theorem Woken.of_wake {history more : List (RegEvent c)} {x : PhyRIndx c} {seen : Nat}
    (inside : seen ≤ history.length) (wakes : .wake x ∈ more) :
    Woken (history ++ more) x seen := by
  intro before after whole early
  rcases List.append_eq_append_iff.mp whole with ⟨rest, long, -⟩ | ⟨rest, split, tail⟩
  · have size := congrArg List.length long
    rw [List.length_append] at size
    omega
  · cases rest with
    | nil =>
        have size := congrArg List.length split
        rw [List.append_nil] at size
        omega
    | cons e between =>
        obtain ⟨-, rfl⟩ := List.cons.inj tail
        exact List.mem_append_right between wakes

theorem lookupPort_eq {s : State c a} {history : List (RegEvent c)}
    (same : s.sb = scoreboard history) (i : Input c a) (lane : Nat) :
    lookupPort s i lane = scoreboard (history ++ i.wakes ++ i.allocs lane) := by
  have woken : (List.finRange c.setRegReadyNum).foldl
      (fun sb k => (i.wake k).elim sb (putReady sb)) s.sb =
        i.wakes.foldl RegEvent.apply s.sb := by
    unfold Input.wakes
    rw [List.foldl_filterMap]
    congr 1
    funext sb k
    rcases i.wake k with - | - | x <;> rfl
  unfold lookupPort scoreboard
  rw [List.foldl_append, List.foldl_append, woken, same]
  unfold Input.allocs
  rw [List.foldl_filterMap]
  simp only [scoreboard]
  congr 1
  funext sb l
  cases i.busy l <;> rfl

theorem allocs_quiet (i : Input c a) (lane : Nat) (x : PhyRIndx c) :
    .wake x ∉ i.allocs lane := by
  intro member
  obtain ⟨l, -, found⟩ := List.mem_filterMap.mp member
  obtain ⟨dst, -, same⟩ := Option.map_eq_some_iff.mp found
  exact nomatch same

theorem allocs_split (i : Input c a) (lane : Nat) : ∃ later : List (RegEvent c),
    i.allocs c.supSize = i.allocs lane ++ later ∧ ∀ x, .wake x ∉ later := by
  have whole : i.allocs c.supSize = (List.finRange c.supSize).filterMap
      fun l => (i.busy l).map fun dst => .alloc dst.indx := by
    unfold Input.allocs
    rw [List.take_of_length_le (by simp)]
  refine ⟨((List.finRange c.supSize).drop lane).filterMap
    fun l => (i.busy l).map fun dst => .alloc dst.indx, ?_, ?_⟩
  · rw [whole]
    unfold Input.allocs
    rw [← List.filterMap_append, List.take_append_drop]
  · intro x member
    apply allocs_quiet i c.supSize x
    rw [whole]
    obtain ⟨l, inside, found⟩ := List.mem_filterMap.mp member
    exact List.mem_filterMap.mpr ⟨l, List.mem_finRange l, found⟩

/-! ## The sources of an entry -/

inductive Source
  | src1
  | src2
  | src3

def PhyRegs.source (r : PhyRegs c) : Source → Option (PhyRIndx c)
  | .src1 => r.src1
  | .src2 => r.src2
  | .src3 => r.src3

def RegsReady.source (r : RegsReady) : Source → Bool
  | .src1 => r.src1
  | .src2 => r.src2
  | .src3 => r.src3

theorem setReady_source (regs : PhyRegs c) (ready : RegsReady) (x : Option (PhyRIndx c))
    (k : Source) : (setReady regs ready x).source k =
      (decide (x = regs.source k) || ready.source k) := by
  cases k <;> simp only [setReady, RegsReady.source, PhyRegs.source] <;> split <;> simp [*]

theorem getReady_source (sb : PhyRIndx c → Bool) (r : PhyRegs c) (k : Source) :
    (getReady sb r).source k = (r.source k).elim true fun x => !sb x := by
  cases k <;> rfl

/-- Only a wake-up of its register makes a source of an entry ready. -/
theorem wokenReady_source (i : Input c a) (x : ToReservationStation c a) (k : Source) :
    (wokenReady i x).source k = true ↔
      x.regsReady.source k = true ∨ ∃ p, i.wake p = some (x.regs.source k) := by
  have fold : ∀ (ports : List (Fin c.setRegReadyNum)) (ready : RegsReady),
      (ports.foldl (fun ready k => (i.wake k).elim ready (setReady x.regs ready))
        ready).source k = true ↔
      ready.source k = true ∨ ∃ p ∈ ports, i.wake p = some (x.regs.source k) := by
    intro ports
    induction ports with
    | nil => simp
    | cons p rest ih =>
        intro ready
        rw [List.foldl_cons, ih]
        cases put : i.wake p with
        | none => simp [put]
        | some y =>
            simp only [Option.elim_some, setReady_source, Bool.or_eq_true, decide_eq_true_eq,
              List.mem_cons, exists_eq_or_imp, put, Option.some.injEq]
            tauto
  unfold wokenReady
  rw [fold]
  simp

theorem wokenReady_dst (i : Input c a) (x : ToReservationStation c a) :
    (wokenReady i x).dst = x.regsReady.dst := by
  have fold : ∀ (ports : List (Fin c.setRegReadyNum)) (ready : RegsReady),
      (ports.foldl (fun ready k => (i.wake k).elim ready (setReady x.regs ready)) ready).dst =
        ready.dst := by
    intro ports
    induction ports with
    | nil => exact fun _ => rfl
    | cons p rest ih =>
        intro ready
        rw [List.foldl_cons, ih]
        cases i.wake p <;> rfl
  exact fold _ _

theorem mem_wakes {i : Input c a} {x : PhyRIndx c} :
    .wake x ∈ i.wakes ↔ ∃ p, i.wake p = some (some x) := by
  unfold Input.wakes
  rw [List.mem_filterMap]
  constructor
  · rintro ⟨p, -, found⟩
    obtain ⟨y, put, same⟩ := Option.map_eq_some_iff.mp found
    cases same
    exact ⟨p, Option.join_eq_some_iff.mp put⟩
  · rintro ⟨p, put⟩
    exact ⟨p, List.mem_finRange p, by rw [put]; rfl⟩

/-! ## An instruction in its slot -/

/-- The entry `x` of the station is the instruction `t`. -/
structure Waiting (history : List (RegEvent c)) (x : ToReservationStation c a)
    (t : Ticket c a) : Prop where
  entry : x.allReady = t.entry.allReady
  dst : x.regsReady.dst = true
  pending : ∀ k, x.regsReady.source k = false →
    ∃ y, x.regs.source k = some y ∧ scoreboard history y = true
  woken : ∀ k y, x.regsReady.source k = true → x.regs.source k = some y →
    Woken history y t.seen
  seen : t.seen ≤ history.length

/-- A cycle in the station: the wake-ups meet the sources that are busy. -/
theorem Waiting.wait {history : List (RegEvent c)} {x : ToReservationStation c a}
    {t : Ticket c a} (waiting : Waiting history x t) (i : Input c a) :
    Waiting (history ++ i.wakes ++ i.allocs c.supSize)
      { x with regsReady := wokenReady i x } t := by
  refine ⟨waiting.entry, ?_, ?_, ?_, ?_⟩
  · rw [wokenReady_dst]
    exact waiting.dst
  · intro k idle
    have before : x.regsReady.source k = false := by
      rw [← Bool.not_eq_true] at idle ⊢
      intro ready
      exact idle ((wokenReady_source i x k).mpr (Or.inl ready))
    obtain ⟨y, reads, busy⟩ := waiting.pending k before
    refine ⟨y, reads, ?_⟩
    have quiet : .wake y ∉ i.wakes ++ i.allocs c.supSize := by
      rw [List.mem_append, not_or]
      refine ⟨?_, allocs_quiet i c.supSize y⟩
      intro wakes
      obtain ⟨p, put⟩ := mem_wakes.mp wakes
      rw [← Bool.not_eq_true] at idle
      exact idle ((wokenReady_source i x k).mpr (Or.inr ⟨p, by rw [reads, put]⟩))
    unfold scoreboard
    rw [List.append_assoc, List.foldl_append]
    exact busy_of_not_woken _ _ busy quiet
  · intro k y ready reads
    rw [List.append_assoc]
    rcases (wokenReady_source i x k).mp ready with before | ⟨p, put⟩
    · exact (waiting.woken k y before reads).append waiting.seen _
    · have here : x.regs.source k = some y := reads
      rw [here] at put
      exact Woken.of_wake waiting.seen
        (List.mem_append_left _ (mem_wakes.mpr ⟨p, put⟩))
  · have := waiting.seen
    simp only [List.length_append]
    omega

/-- The lookup in the cycle of the enqueue sees all wake-ups before it. -/
theorem Waiting.enq {log : Log c a} {s : State c a} (same : s.sb = scoreboard log.history)
    (i : Input c a) (e : Enq c a) :
    Waiting (log.history ++ i.wakes ++ i.allocs c.supSize) (e.entry s i)
      (log.ticket s i e) := by
  obtain ⟨later, split, quiet⟩ := allocs_split i e.lane.val
  have lookup := lookupPort_eq same i e.lane.val
  refine ⟨rfl, rfl, ?_, ?_, ?_⟩
  · intro k idle
    have value : (getReady (lookupPort s i e.lane.val) e.regs).source k = false := idle
    rw [getReady_source, lookup] at value
    cases reads : e.regs.source k with
    | none =>
        rw [reads] at value
        exact nomatch value
    | some y =>
        rw [reads, Option.elim_some, Bool.not_eq_false'] at value
        refine ⟨y, reads, ?_⟩
        unfold scoreboard at value ⊢
        rw [split, ← List.append_assoc, List.foldl_append]
        exact busy_of_not_woken later _ value (quiet y)
  · intro k y ready reads
    have value : (getReady (lookupPort s i e.lane.val) e.regs).source k = true := ready
    have here : e.regs.source k = some y := reads
    rw [getReady_source, lookup, here, Option.elim_some, Bool.not_eq_true'] at value
    rw [split, ← List.append_assoc]
    exact (woken_of_idle value _).append (Nat.le_refl _) later
  · simp only [Log.ticket, Log.seen, split, List.length_append]
    omega

theorem Waiting.correct {history : List (RegEvent c)} {x : ToReservationStation c a}
    {t : Ticket c a} (waiting : Waiting history x t) (mask : SpecBits c) :
    Waiting history (x.masked mask) { t with entry := t.entry.masked mask } := by
  refine ⟨?_, waiting.dst, waiting.pending, waiting.woken, waiting.seen⟩
  have same := congrArg (fun y : ToReservationStation c a => y.masked mask) waiting.entry
  exact same

/-! ## Slots -/

/-- A slot of the station and what waits there. -/
def Slot (history : List (RegEvent c)) (r : Row c a) : Option (Ticket c a) → Prop
  | none => r.valid = false
  | some t => r.valid = true ∧ Waiting history r.entry t

structure Inv (cycles : List (State c a × Input c a)) (s : State c a) : Prop where
  sb : s.sb = scoreboard (logOf cycles).history
  legal : ∀ k, Legal ((logOf cycles).events k)
  slot : ∀ k, Slot (logOf cycles).history (s.row k) (waits ((logOf cycles).events k))

theorem waits_append (events more : List (SlotEvent c a)) :
    waits (events ++ more) = more.foldl SlotEvent.waits (waits events) := by
  unfold waits
  rw [List.foldl_append]

theorem scheduled_mem {row : Fin c.size → Row c a} {robEnqTime : InstTime c} {k : Fin c.size}
    (scheduled : canScheduleIndex row robEnqTime = some k) : canSchedule row k = true := by
  unfold canScheduleIndex findOldest at scheduled
  exact (Option.filter_eq_some_iff.mp scheduled).2

theorem canSchedule_valid {row : Fin c.size → Row c a} {k : Fin c.size}
    (ready : canSchedule row k = true) : (row k).valid = true := by
  unfold canSchedule at ready
  exact (Bool.and_eq_true_iff.mp ready).1

theorem dispatched_eq_some {s : State c a} {i : Input c a} {k : Fin c.size}
    (here : dispatched s i = some k) :
    i.doDispatch = true ∧ canScheduleIndex s.row (robEnqTime i) = some k := by
  unfold dispatched at here
  split at here
  · rename_i calls
    exact ⟨calls, here⟩
  · exact nomatch here

/-- The events of a slot that write port 0 of `valid`. -/
def port0Events (s : State c a) (i : Input c a) (k : Fin c.size) : List (SlotEvent c a) :=
  (if dispatched s i = some k then [.dispatch (dispatchData s k)] else []) ++
    (i.incorrectSpeculation.map .incorrect).toList

theorem legal_incorrect {events : List (SlotEvent c a)} (legal : Legal events)
    (w : Option (IncorrectSpeculation c)) : Legal (events ++ (w.map .incorrect).toList) := by
  cases w with
  | none => simpa using legal
  | some w => exact legal.incorrect

theorem legal_correct {events : List (SlotEvent c a)} (legal : Legal events)
    (mask : Option (SpecBits c)) : Legal (events ++ (mask.map .correct).toList) := by
  cases mask with
  | none => simpa using legal
  | some mask => exact legal.correct

/-- A dispatch takes what waits in the slot. -/
theorem Inv.port0_legal {cycles : List (State c a × Input c a)} {s : State c a}
    (inv : Inv cycles s) (i : Input c a) (k : Fin c.size) :
    Legal ((logOf cycles).events k ++ port0Events s i k) := by
  unfold port0Events
  rw [← List.append_assoc]
  apply legal_incorrect
  by_cases here : dispatched s i = some k
  · rw [if_pos here]
    have valid := canSchedule_valid (scheduled_mem (dispatched_eq_some here).2)
    have slot := inv.slot k
    cases held : waits ((logOf cycles).events k) with
    | none =>
        rw [held] at slot
        have idle : (s.row k).valid = false := slot
        rw [valid] at idle
        exact nomatch idle
    | some t =>
        rw [held] at slot
        have data : dispatchData s k = t.entry.allReady := slot.2.entry
        rw [data]
        exact (inv.legal k).dispatch held
  · rw [if_neg here, List.append_nil]
    exact inv.legal k

theorem wrongSpec_congr {x y : ToReservationStation c a} (same : x.allReady = y.allReady)
    (w : IncorrectSpeculation c) : wrongSpec w x = wrongSpec w y := by
  have bits := congrArg ToReservationStation.specBits same
  change x.specBits = y.specBits at bits
  unfold wrongSpec
  rw [bits]

/-- Port 1 of `valid` tells whether an instruction still waits in the slot. -/
theorem Inv.port0_waits {cycles : List (State c a × Input c a)} {s : State c a}
    (inv : Inv cycles s) (i : Input c a) (k : Fin c.size) :
    waits ((logOf cycles).events k ++ port0Events s i k) =
      if validPort1 s i k then waits ((logOf cycles).events k) else none := by
  have slot := inv.slot k
  unfold port0Events validPort1
  rw [← List.append_assoc, waits_append, waits_append]
  cases held : waits ((logOf cycles).events k) with
  | none =>
      have gone : ∀ w : Option (IncorrectSpeculation c),
          ((w.map .incorrect).toList : List (SlotEvent c a)).foldl SlotEvent.waits none =
            none := by
        intro w
        cases w <;> rfl
      split <;> simp [SlotEvent.waits, gone]
  | some t =>
      rw [held] at slot
      obtain ⟨valid, waiting⟩ := slot
      by_cases here : dispatched s i = some k
      · cases i.incorrectSpeculation <;> simp [here, SlotEvent.waits]
      · cases i.incorrectSpeculation with
        | none => simp [here, valid]
        | some w =>
            have same := wrongSpec_congr waiting.entry w
            cases hit : wrongSpec w t.entry <;>
              simp [here, valid, same, hit, SlotEvent.waits, Option.filter]

theorem logOf_concat (cycles : List (State c a × Input c a)) (cycle : State c a × Input c a) :
    logOf (cycles ++ [cycle]) = (logOf cycles).next cycle := by
  unfold logOf
  rw [List.foldl_append]
  rfl

theorem slotEvents_eq (log : Log c a) (s : State c a) (i : Input c a) (k : Fin c.size) :
    log.slotEvents s i k = port0Events s i k ++
      ((enqAt s i k).map fun e => .enq (log.ticket s i e)).toList ++
      (i.correctSpeculation.map .correct).toList := rfl

theorem waits_correct (events : List (SlotEvent c a)) (mask : Option (SpecBits c)) :
    waits (events ++ (mask.map .correct).toList) =
      (waits events).map fun t => mask.elim t fun mask =>
        { t with entry := t.entry.masked mask } := by
  rw [waits_append]
  cases mask with
  | none =>
      cases waits events <;> rfl
  | some mask => rfl

theorem Waiting.mask {history : List (RegEvent c)} {x : ToReservationStation c a}
    {t : Ticket c a} (waiting : Waiting history x t) (i : Input c a) :
    Waiting history (i.mask x) (i.correctSpeculation.elim t fun mask =>
      { t with entry := t.entry.masked mask }) := by
  unfold Input.mask
  cases i.correctSpeculation with
  | none => exact waiting
  | some mask => exact waiting.correct mask

/-- The slot that an instruction enters is free by then. -/
theorem Inv.enq_free {cycles : List (State c a × Input c a)} {s : State c a}
    (inv : Inv cycles s) {i : Input c a} {k : Fin c.size} (here : enqP s i = some k) :
    waits ((logOf cycles).events k ++ port0Events s i k) = none := by
  have chosen := List.find?_some here
  rw [inv.port0_waits]
  by_cases live : validPort1 s i k = true
  · rw [if_pos live]
    have valid : (s.row k).valid = true := by
      unfold validPort1 at live
      rw [Bool.and_eq_true, Bool.and_eq_true] at live
      exact live.1.1
    cases lazyEnq : c.lazyEnq <;> simp [lazyEnq, valid, live] at chosen
  · rw [if_neg live]

theorem Inv.next {cycles : List (State c a × Input c a)} {s : State c a} (inv : Inv cycles s)
    (i : Input c a) : Inv (cycles ++ [(s, i)]) (next s i) := by
  refine ⟨?_, ?_, ?_⟩
  · rw [logOf_concat]
    exact lookupPort_eq inv.sb i c.supSize
  · intro k
    rw [logOf_concat]
    change Legal ((logOf cycles).events k ++ (logOf cycles).slotEvents s i k)
    rw [slotEvents_eq, ← List.append_assoc, ← List.append_assoc]
    apply legal_correct
    cases enters : enqAt s i k with
    | none => simpa using inv.port0_legal i k
    | some e =>
        have here : enqP s i = some k := by
          unfold enqAt at enters
          by_contra other
          rw [if_neg other] at enters
          exact nomatch enters
        exact (inv.port0_legal i k).enq (inv.enq_free here)
  · intro k
    rw [logOf_concat]
    change Slot ((logOf cycles).history ++ i.wakes ++ i.allocs c.supSize)
      ((ReservationStation.next s i).row k)
      (waits ((logOf cycles).events k ++ (logOf cycles).slotEvents s i k))
    rw [slotEvents_eq, ← List.append_assoc, ← List.append_assoc, waits_correct]
    cases enters : enqAt s i k with
    | some e =>
        have now : waits ((logOf cycles).events k ++ port0Events s i k ++
            [.enq ((logOf cycles).ticket s i e)]) = some ((logOf cycles).ticket s i e) := by
          rw [waits_append]
          rfl
        have row : (ReservationStation.next s i).row k =
            { valid := true, entry := i.mask (e.entry s i) } := by
          simp only [ReservationStation.next, enters]
        rw [row]
        simp only [Option.map_some, Option.toList_some, now]
        exact ⟨rfl, (Waiting.enq inv.sb i e).mask i⟩
    | none =>
        have row : (ReservationStation.next s i).row k =
            { valid := validPort1 s i k
              entry := i.mask { (s.row k).entry with
                regsReady := wokenReady i (s.row k).entry } } := by
          simp only [ReservationStation.next, enters]
        rw [row]
        simp only [Option.map_none, Option.toList_none, List.append_nil, inv.port0_waits]
        have slot := inv.slot k
        cases live : validPort1 s i k with
        | false => exact rfl
        | true =>
            rw [if_pos rfl]
            cases held : waits ((logOf cycles).events k) with
            | none =>
                rw [held] at slot
                have idle : (s.row k).valid = false := slot
                rw [validPort1, idle] at live
                exact nomatch live
            | some t =>
                rw [held] at slot
                exact ⟨rfl, (slot.2.wait i).mask i⟩

theorem run_inv {entries : Fin c.size → ToReservationStation c a}
    {cycles : List (State c a × Input c a)} {s : State c a}
    (run : (machine c entries).Run cycles s) : Inv cycles s := by
  induction run with
  | reset => exact ⟨rfl, fun _ => .nil, fun _ => rfl⟩
  | cycle _ _ ih => exact ih.next _

/-! ## Program order -/

/-- Before the number `e`, the virtual time keeps the order of a table of numbers. -/
theorem virtual_time {m e n : Nat} (low : n < e) (high : e ≤ n + m) :
    (if n % m < e % m then n % m + m else n % m) = n + e % m + m - e := by
  have positive : 0 < m := by omega
  have quotient := Nat.div_add_mod e m
  have small := Nat.mod_lt e positive
  obtain ⟨d, split⟩ := Nat.exists_eq_add_of_lt low
  rcases Nat.lt_or_ge d (e % m) with near | far
  · have value : n % m = e % m - (d + 1) := by
      have same : n = (e % m - (d + 1)) + m * (e / m) := by omega
      rw [same, Nat.add_mul_mod_self_left, Nat.mod_eq_of_lt (by omega)]
    rw [value, if_pos (by omega)]
    omega
  · have whole : 1 ≤ e / m := by
      apply Nat.pos_of_ne_zero
      intro zero
      rw [zero, Nat.mul_zero] at quotient
      omega
    obtain ⟨q, quotientEq⟩ := Nat.exists_eq_add_of_le whole
    have value : n % m = e % m + m - (d + 1) := by
      have same : n = (e % m + m - (d + 1)) + m * q := by
        rw [quotientEq, Nat.mul_add, Nat.mul_one] at quotient
        omega
      rw [same, Nat.add_mul_mod_self_left, Nat.mod_eq_of_lt (by omega)]
    rw [value, if_neg (by omega)]
    omega

theorem getVTime_toNat {instTag : InstTag c} {order robEnq : Nat}
    (tag : instTag.t = BitVec.ofNat _ order) (low : order < robEnq)
    (high : robEnq ≤ order + 2 ^ tLog c.numInstTags) :
    (getVTime (BitVec.ofNat _ robEnq) instTag).toNat =
      order + robEnq % 2 ^ tLog c.numInstTags + 2 ^ tLog c.numInstTags - robEnq := by
  have positive := Nat.two_pow_pos (tLog c.numInstTags)
  have small := Nat.mod_lt order positive
  have double : 2 ^ (1 + tLog c.numInstTags) = 2 * 2 ^ tLog c.numInstTags := by
    rw [Nat.add_comm, Nat.pow_succ, Nat.mul_comm]
  have compare : instTag.t < BitVec.ofNat (tLog c.numInstTags) robEnq ↔
      order % 2 ^ tLog c.numInstTags < robEnq % 2 ^ tLog c.numInstTags := by
    rw [tag, BitVec.lt_def, BitVec.toNat_ofNat, BitVec.toNat_ofNat]
  have extended : (instTag.t.setWidth (1 + tLog c.numInstTags)).toNat =
      order % 2 ^ tLog c.numInstTags := by
    rw [tag, BitVec.toNat_setWidth, BitVec.toNat_ofNat, double, Nat.mod_eq_of_lt (by omega)]
  rw [← virtual_time low high]
  unfold getVTime
  by_cases earlier : order % 2 ^ tLog c.numInstTags < robEnq % 2 ^ tLog c.numInstTags
  · rw [if_pos (compare.mpr earlier), if_pos earlier, BitVec.toNat_add, extended,
      BitVec.toNat_ofNat, double, Nat.mod_eq_of_lt (show 2 ^ tLog c.numInstTags <
        2 * 2 ^ tLog c.numInstTags by omega), Nat.mod_eq_of_lt (by omega)]
  · rw [if_neg (compare.not.mpr earlier), if_neg earlier, extended]

/-- Of the entries that satisfy `pred`, the one found has the least virtual time. -/
theorem findOldest_least {row : Fin c.size → Row c a} {robEnqTime : InstTime c}
    {pred : Fin c.size → Bool} {k : Fin c.size}
    (found : findOldest row robEnqTime pred = some k) :
    ∀ other, pred other = true →
      (vTime row robEnqTime k).toNat ≤ (vTime row robEnqTime other).toNat := by
  let le (x y : Fin c.size) : Prop := pred x = true → pred y = true ∧
    (vTime row robEnqTime y).toNat ≤ (vTime row robEnqTime x).toNat
  have refl : ∀ x, le x x := fun x holds => ⟨holds, Nat.le_refl _⟩
  have pick : ∀ x y, getOlder row robEnqTime pred x y = x ∨
      getOlder row robEnqTime pred x y = y := by
    intro x y
    unfold getOlder
    split
    · exact Or.inr rfl
    · split
      · exact Or.inl rfl
      · split
        · exact Or.inl rfl
        · exact Or.inr rfl
  have left : ∀ x y, le x (getOlder row robEnqTime pred x y) := by
    intro x y holds
    unfold getOlder
    rw [holds]
    by_cases second : pred y = true
    · simp only [second, Bool.not_true, Bool.false_eq_true, if_false]
      by_cases older : vTime row robEnqTime x < vTime row robEnqTime y
      · rw [if_pos older]
        exact ⟨holds, Nat.le_refl _⟩
      · rw [if_neg older]
        exact ⟨second, Nat.le_of_not_lt older⟩
    · simp [second, holds]
  have right : ∀ x y, le y (getOlder row robEnqTime pred x y) := by
    intro x y holds
    unfold getOlder
    by_cases first : pred x = true
    · simp only [first, holds, Bool.not_true, Bool.false_eq_true, if_false]
      by_cases older : vTime row robEnqTime x < vTime row robEnqTime y
      · rw [if_pos older]
        exact ⟨first, Nat.le_of_lt older⟩
      · rw [if_neg older]
        exact ⟨holds, Nat.le_refl _⟩
    · simp [first, holds]
  have trans : ∀ x y z, le x y → le y z → le x z := by
    intro x y z first second holds
    obtain ⟨middle, low⟩ := first holds
    obtain ⟨last, lower⟩ := second middle
    exact ⟨last, Nat.le_trans lower low⟩
  have some : List.finRange c.size ≠ [] :=
    List.ne_nil_of_length_pos (by simpa using c.someEntries)
  obtain ⟨r, folded, -, top⟩ := foldTree_picks pick refl left right trans
    (List.finRange c.size).length (List.finRange c.size) some (Nat.le_succ _)
  unfold findOldest fold at found
  rw [folded] at found
  obtain ⟨same, -⟩ := Option.filter_eq_some_iff.mp found
  cases same
  intro other holds
  exact (top other (List.mem_finRange other) holds).2

/-! ## The station over its runs -/

/-- What holds of every instruction that enters holds of what waits. -/
theorem waits_all (p : Ticket c a → Prop)
    (masked : ∀ (t : Ticket c a) (mask : SpecBits c), p t →
      p { t with entry := t.entry.masked mask })
    (more : List (SlotEvent c a)) (waiting : Option (Ticket c a)) (before : ∀ t ∈ waiting, p t)
    (enters : ∀ t, .enq t ∈ more → p t) : ∀ t ∈ more.foldl SlotEvent.waits waiting, p t := by
  induction more generalizing waiting with
  | nil => exact before
  | cons e rest ih =>
      apply ih
      · intro t member
        cases e with
        | enq first =>
            cases Option.mem_some_iff.mp member
            exact enters _ List.mem_cons_self
        | dispatch x => exact nomatch member
        | incorrect w => exact before t (Option.mem_filter_iff.mp member).1
        | correct mask =>
            obtain ⟨earlier, held, rfl⟩ := Option.mem_map.mp member
            exact masked earlier mask (before earlier held)
      · intro t member
        exact enters t (List.mem_cons_of_mem e member)

/-- Tags of waiting instructions are their places in program order. -/
theorem run_tags {entries : Fin c.size → ToReservationStation c a}
    {cycles : List (State c a × Input c a)} {s : State c a}
    (run : (machine c entries).Run cycles s) (k : Fin c.size) :
    ∀ t ∈ waits ((logOf cycles).events k), t.entry.tag.t = BitVec.ofNat _ t.order := by
  induction run with
  | reset => exact fun t member => nomatch member
  | @cycle cycles s i _ allowed ih =>
      rw [logOf_concat]
      change ∀ t ∈ waits ((logOf cycles).events k ++ (logOf cycles).slotEvents s i k), _
      rw [waits_append]
      refine waits_all _ (fun t mask tag => tag) _ _ ih ?_
      intro t member
      rw [slotEvents_eq] at member
      rcases List.mem_append.mp member with early | late
      · rcases List.mem_append.mp early with port0 | enters
        · unfold port0Events at port0
          rcases List.mem_append.mp port0 with dispatches | kills
          · split at dispatches
            · exact nomatch List.mem_singleton.mp dispatches
            · exact nomatch dispatches
          · obtain ⟨w, -, same⟩ := Option.map_eq_some_iff.mp (Option.mem_toList.mp kills)
            exact nomatch same
        · obtain ⟨e, here, same⟩ := Option.map_eq_some_iff.mp (Option.mem_toList.mp enters)
          cases same
          apply allowed.tag e
          unfold enqAt at here
          split at here
          · exact here
          · exact nomatch here
      · obtain ⟨mask, -, same⟩ := Option.map_eq_some_iff.mp (Option.mem_toList.mp late)
        exact nomatch same

/-- A busy register was allocated and not woken since. -/
theorem allocated_of_busy {history : List (RegEvent c)} {x : PhyRIndx c}
    (busy : scoreboard history x = true) :
    ∃ before after, history = before ++ .alloc x :: after ∧ .wake x ∉ after := by
  induction history using List.reverseRecOn with
  | nil => exact nomatch busy
  | append_singleton earlier e ih =>
      have extend : (scoreboard earlier x = true) → e ≠ .wake x →
          ∃ before after, earlier ++ [e] = before ++ .alloc x :: after ∧ .wake x ∉ after := by
        intro still other
        obtain ⟨before, after, rfl, quiet⟩ := ih still
        refine ⟨before, after ++ [e], by simp, ?_⟩
        rw [List.mem_append, List.mem_singleton, not_or]
        exact ⟨quiet, other.symm⟩
      unfold scoreboard at busy
      rw [List.foldl_append] at busy
      cases e with
      | wake y =>
          by_cases same : x = y
          · subst same
            simp [RegEvent.apply] at busy
          · apply extend
            · simpa [scoreboard, RegEvent.apply, Function.update_of_ne same] using busy
            · intro equal
              cases equal
              exact same rfl
      | alloc y =>
          by_cases same : x = y
          · subst same
            exact ⟨earlier, [], rfl, List.not_mem_nil⟩
          · apply extend
            · simpa [scoreboard, RegEvent.apply, Function.update_of_ne same] using busy
            · exact fun equal => nomatch equal

theorem Woken.idle {history : List (RegEvent c)} {x : PhyRIndx c} {seen : Nat}
    (woken : Woken history x seen) (kept : .alloc x ∉ history.drop seen) :
    scoreboard history x = false := by
  rw [← Bool.not_eq_true]
  intro busy
  obtain ⟨before, after, whole, quiet⟩ := allocated_of_busy busy
  rcases Nat.lt_or_ge before.length seen with early | late
  · exact quiet (woken before after whole early)
  · apply kept
    rw [whole, List.drop_append_of_le_length late]
    exact List.mem_append_right _ List.mem_cons_self

theorem allRegsReady_source {r : RegsReady} (ready : allRegsReady r = true) (j : Source) :
    r.source j = true := by
  unfold allRegsReady at ready
  simp only [Bool.and_eq_true] at ready
  obtain ⟨⟨⟨src1, src2⟩, src3⟩, -⟩ := ready
  cases j <;> assumption

/-- What is scheduled waits in its slot with sources that were woken. -/
theorem Inv.scheduled {cycles : List (State c a × Input c a)} {s : State c a}
    (inv : Inv cycles s) {k : Fin c.size} (ready : canSchedule s.row k = true) :
    ∃ t, waits ((logOf cycles).events k) = some t ∧ (s.row k).entry.tag = t.entry.tag ∧
      ∀ j x, t.entry.regs.source j = some x → Woken (logOf cycles).history x t.seen := by
  have slot := inv.slot k
  have valid := canSchedule_valid ready
  cases held : waits ((logOf cycles).events k) with
  | none =>
      rw [held] at slot
      have idle : (s.row k).valid = false := slot
      rw [valid] at idle
      exact nomatch idle
  | some t =>
      rw [held] at slot
      have tag := congrArg ToReservationStation.tag slot.2.entry
      have regs := congrArg ToReservationStation.regs slot.2.entry
      change (s.row k).entry.regs = t.entry.regs at regs
      refine ⟨t, rfl, tag, ?_⟩
      intro j x reads
      unfold canSchedule at ready
      rw [Bool.and_eq_true] at ready
      exact slot.2.woken j x (allRegsReady_source ready.2 j) (by rw [regs]; exact reads)

/-- The events of a slot tell what waits there, a source that is not ready is busy, and
a dispatch takes the oldest ready instruction when its sources have been woken since
they were last allocated before its lookup. -/
theorem station_follows {entries : Fin c.size → ToReservationStation c a}
    {cycles : List (State c a × Input c a)} {s : State c a}
    (run : (machine c entries).Run cycles s) :
    (∀ k, (s.row k).valid = (waits ((logOf cycles).events k)).isSome) ∧
    (∀ k j, (s.row k).valid = true → (s.row k).entry.regsReady.source j = false →
      ∃ x, (s.row k).entry.regs.source j = some x ∧ s.sb x = true) ∧
    (∀ k, Legal ((logOf cycles).events k)) ∧
    ∀ i k, Allowed cycles s i → dispatched s i = some k →
      ∃ t, waits ((logOf cycles).events k) = some t ∧
        (∀ j x, t.entry.regs.source j = some x → Woken (logOf cycles).history x t.seen ∧
          (.alloc x ∉ (logOf cycles).history.drop t.seen → s.sb x = false)) ∧
        ∀ other t', waits ((logOf cycles).events other) = some t' →
          canSchedule s.row other = true → t.order ≤ t'.order := by
  have inv := run_inv run
  refine ⟨?_, ?_, inv.legal, ?_⟩
  · intro k
    have slot := inv.slot k
    cases held : waits ((logOf cycles).events k) with
    | none =>
        rw [held] at slot
        exact slot
    | some t =>
        rw [held] at slot
        exact slot.1
  · intro k j valid idle
    have slot := inv.slot k
    cases held : waits ((logOf cycles).events k) with
    | none =>
        rw [held] at slot
        have free : (s.row k).valid = false := slot
        rw [valid] at free
        exact nomatch free
    | some t =>
        rw [held] at slot
        rw [inv.sb]
        exact slot.2.pending j idle
  · intro i k allowed here
    have scheduled := (dispatched_eq_some here).2
    obtain ⟨t, held, tag, woken⟩ := inv.scheduled (scheduled_mem scheduled)
    refine ⟨t, held, ?_, ?_⟩
    · intro j x reads
      refine ⟨woken j x reads, fun kept => ?_⟩
      rw [inv.sb]
      exact (woken j x reads).idle kept
    · intro other t' held' ready
      obtain ⟨t'', held'', tag', -⟩ := inv.scheduled ready
      obtain rfl : t' = t'' := Option.some.inj (held'.symm.trans held'')
      have least := findOldest_least scheduled other ready
      have place := run_tags run k t held
      have place' := run_tags run other t' held'
      obtain ⟨low, high⟩ := allowed.window k t held
      obtain ⟨low', high'⟩ := allowed.window other t' held'
      unfold vTime robEnqTime at least
      rw [tag, tag', getVTime_toNat place low high, getVTime_toNat place' low' high'] at least
      omega

instance (cycles : List (State c a × Input c a)) (s : State c a) (i : Input c a) :
    Decidable (Allowed cycles s i) :=
  decidable_of_iff
    ((i.enq.isSome → (enqP s i).isSome) ∧
      (i.doDispatch = true → (canScheduleIndex s.row (robEnqTime i)).isSome) ∧
      (i.incorrectSpeculation.isSome → i.enq.isNone = true ∧ i.doDispatch = false) ∧
      (∀ e ∈ i.enq, e.tag.t = BitVec.ofNat _ e.order) ∧
      ∀ k, ∀ t ∈ waits ((logOf cycles).events k),
        t.order < i.robEnq ∧ i.robEnq ≤ t.order + 2 ^ tLog c.numInstTags)
    ⟨fun ⟨canEnq, canDispatch, conflict, tag, window⟩ => ⟨canEnq, canDispatch,
        fun kills => (conflict kills).imp Option.isNone_iff_eq_none.mp id, tag, window⟩,
      fun allowed => ⟨allowed.canEnq, allowed.canDispatch,
        fun kills => (allowed.conflict kills).imp Option.isNone_iff_eq_none.mpr id,
        allowed.tag, allowed.window⟩⟩

private def twoEntries : RsCfg where
  supSize := 2
  numInstTags := 4
  numPhyReg := 3
  numSpecTags := 1
  size := 2
  setRegReadyNum := 1
  lazyEnq := true
  someEntries := Nat.two_pos

private def readsOne (order : Nat) : Enq twoEntries Nat where
  lane := (1 : Fin 2)
  data := 10 + order
  regs := ⟨some (1 : Fin 3), none, none, none⟩
  tag := ⟨0#1, 0#1, BitVec.ofNat _ order⟩
  specBits := 0#1
  specTag := none
  order := order

/-- Instruction 2 allocates register 1, which instructions 3 and 4 read. -/
private def acrossWrap : List (Input twoEntries Nat) :=
  [{ busy := fun lane => if lane.val = 0 then some ⟨(1 : Fin 3), false⟩ else none
     enq := some (readsOne 3), robEnq := 2 },
    { enq := some (readsOne 4), robEnq := 4 },
    { wake := fun _ => some (some (1 : Fin 3)), robEnq := 5 }]

private def smallStation : Machine (State twoEntries Nat) (Input twoEntries Nat) :=
  machine twoEntries fun _ => ⟨0, ⟨none, none, none, none⟩, ⟨0#1, 0#1, 0#2⟩, 0#1, none,
    ⟨true, true, true, true⟩⟩

private instance (cycles : List (State twoEntries Nat × Input twoEntries Nat))
    (s : State twoEntries Nat) (i : Input twoEntries Nat) :
    Decidable (smallStation.allowed cycles s i) :=
  inferInstanceAs (Decidable (Allowed cycles s i))

private def slotOfThree : Fin twoEntries.size := ⟨0, by decide⟩

theorem station_follows_acrossWrap :
    let s := smallStation.after smallStation.reset acrossWrap
    let log := logOf (smallStation.cyclesOf smallStation.reset acrossWrap)
    dispatched s { doDispatch := true, robEnq := 5 } = some slotOfThree ∧
      ∃ t, waits (log.events slotOfThree) = some t ∧
        ∀ other t', waits (log.events other) = some t' → canSchedule s.row other = true →
          t.order ≤ t'.order := by
  intro s log
  have run : smallStation.Run _ s := Machine.run_of_accepts acrossWrap (by decide +kernel)
  have here : dispatched s { doDispatch := true, robEnq := 5 } = some slotOfThree := by
    decide +kernel
  obtain ⟨t, held, -, oldest⟩ := (station_follows run).2.2.2
    { doDispatch := true, robEnq := 5 } slotOfThree (by decide +kernel) here
  exact ⟨here, t, held, oldest⟩

end Toooba.ReservationStation
