import RiscvCores.Toooba.ReorderCounts
import Mathlib.Data.Fintype.Prod

/-!
# The reorder buffer refines a list with truncation

The live rows form one list in program order.  A cycle removes rows from its
front, fills rows in place and appends rows, or cuts the list behind the row
of a mispredicted instruction.
-/

set_option autoImplicit false

namespace Toooba.ReorderBuffer

open Banked

variable {c : RobCfg}

/-! ## What a cycle does to the list -/

/-- The rows up to the one with a tag; none when it is not there. -/
def upTo (tag : InstTag c) (rows : List (InstTag c × ToReorderBuffer c)) :
    List (InstTag c × ToReorderBuffer c) :=
  match rows.findIdx? fun x => x.1 = tag with
  | some age => rows.take (age + 1)
  | none => []

section Cycle

variable (s : State c) (i : Input c)

/-- The rows of the enqueue ports, at the slots that the ports announce. -/
def appended : List (InstTag c × ToReorderBuffer c) :=
  (List.finRange c.supSize).filterMap fun port =>
    (i.enq port).map fun x =>
      let tag := getEnqInstTag s port
      (tag, writeEnq (setRow i tag.way tag.ptr (s.row tag.way tag.ptr)) x)

def kept (rows : List (InstTag c × ToReorderBuffer c)) : List (InstTag c × ToReorderBuffer c) :=
  (rows.drop (firstIdle i.deq)).map fun x => (x.1, setRow i x.1.way x.1.ptr x.2)

def corrected (rows : List (InstTag c × ToReorderBuffer c)) :
    List (InstTag c × ToReorderBuffer c) :=
  match i.correctSpec with
  | some mask => rows.map fun x => (x.1, correctRow mask x.2)
  | none => rows

def stepRows (rows : List (InstTag c × ToReorderBuffer c)) :
    List (InstTag c × ToReorderBuffer c) :=
  corrected i (match i.wrongSpec with
    | some x => if x.killAll then [] else upTo x.killInstTag (kept i rows)
    | none => kept i rows ++ appended s i)

end Cycle

/-! ## Numbered rows -/

section Numbered

variable (row : c.SupWaySel → c.SingleScalarPtr → ToReorderBuffer c) {d n : Nat}

theorem numbered_length (d n : Nat) : (numbered row d n).length = n := by
  simp [numbered]

theorem numbered_getElem {j : Nat} (inside : j < (numbered row d n).length) :
    (numbered row d n)[j] = (tagOf (d + j), row (tagOf (c := c) (d + j)).way
      (tagOf (c := c) (d + j)).ptr) := by
  simp [numbered]

theorem numbered_drop (few : Nat) :
    (numbered row d n).drop few = numbered row (d + few) (n - few) := by
  apply List.ext_getElem
  · simp [numbered_length]
  · intro j _ _
    rw [List.getElem_drop, numbered_getElem, numbered_getElem, Nat.add_assoc]

theorem numbered_take {few : Nat} (le : few ≤ n) :
    (numbered row d n).take few = numbered row d few := by
  apply List.ext_getElem
  · simp [numbered_length, le]
  · intro j _ _
    rw [List.getElem_take, numbered_getElem, numbered_getElem]

theorem numbered_append (d n more : Nat) :
    numbered row d n ++ numbered row (d + n) more = numbered row d (n + more) := by
  unfold numbered
  rw [List.range_add, List.map_append, List.map_map]
  refine congrArg (_ ++ ·) (List.map_congr_left fun j _ => ?_)
  rw [Function.comp_apply, Nat.add_assoc]

theorem numbered_map (f : c.SupWaySel → c.SingleScalarPtr → ToReorderBuffer c → ToReorderBuffer c)
    (d n : Nat) : (numbered row d n).map (fun x => (x.1, f x.1.way x.1.ptr x.2)) =
      numbered (fun w p => f w p (row w p)) d n := by
  unfold numbered
  rw [List.map_map]
  rfl

theorem numbered_congr {row row' : c.SupWaySel → c.SingleScalarPtr → ToReorderBuffer c}
    (same : ∀ j, j < n →
      row (wayOf c.supSize (d + j)) (ptrOf c.supSize c.singleScalarSize (d + j)) =
      row' (wayOf c.supSize (d + j)) (ptrOf c.supSize c.singleScalarSize (d + j))) :
    numbered row d n = numbered row' d n := by
  unfold numbered
  refine List.map_congr_left fun j inside => ?_
  exact congrArg (Prod.mk _) (same j (List.mem_range.mp inside))

/-- Tags less than a round apart tell their numbers. -/
theorem tagOf_inj {a b : Nat} (le : a ≤ b) (near : b < a + c.supSize * c.singleScalarSize)
    (same : (tagOf a : InstTag c) = tagOf b) : a = b :=
  place_inj le near (congrArg InstTag.way same) (congrArg InstTag.ptr same)

/-- The list is cut behind a row, also when the row and those before it have just left. -/
theorem upTo_numbered {gone m : Nat} (bound : n ≤ c.supSize * c.singleScalarSize) (inside : m < n)
    (few : gone ≤ m + 1) : upTo (tagOf (d + m)) (numbered row (d + gone) (n - gone)) =
      numbered row (d + gone) (m + 1 - gone) := by
  have found : ∀ j (live : j < (numbered row (d + gone) (n - gone)).length),
      (numbered row (d + gone) (n - gone))[j].1 = tagOf (d + m) → gone + j = m := by
    intro j live same
    rw [numbered_length] at live
    rw [numbered_getElem] at same
    dsimp only at same
    rcases Nat.le_total (gone + j) m with le | le
    · have number := tagOf_inj (by omega) (by omega) same
      omega
    · have number := tagOf_inj (by omega) (by omega) same.symm
      omega
  unfold upTo
  split
  next age first =>
    obtain ⟨live, same, _⟩ := List.findIdx?_eq_some_iff_getElem.mp first
    have number := found age live (of_decide_eq_true same)
    rw [numbered_take _ (by omega)]
    exact congrArg (numbered row (d + gone)) (by omega)
  next absent =>
    rcases Nat.lt_or_ge m gone with left | there
    · rw [show m + 1 - gone = 0 by omega]
      rfl
    · exfalso
      have live : m - gone < (numbered row (d + gone) (n - gone)).length := by
        rw [numbered_length]
        omega
      have other := List.findIdx?_eq_none_iff.mp absent _ (List.getElem_mem live)
      rw [numbered_getElem, show d + gone + (m - gone) = d + m by omega] at other
      simp at other

end Numbered

/-! ## One cycle -/

section Cycle

variable {s : State c} {i : Input c} {d n : Nat}

theorem kept_numbered (s : State c) (d n : Nat) (i : Input c) :
    kept i (numbered s.row d n) =
      numbered (setRows (canonDeq s i) i).row (d + firstIdle i.deq) (n - firstIdle i.deq) := by
  rw [kept, numbered_drop, numbered_map]
  rfl

theorem Counts.row_old (counts : Counts s d n) (now : State c) (env : Environment s i) {j : Nat}
    (live : j < n) :
    (ReorderBuffer.canonEnq s i now).row (wayOf c.supSize (d + j))
      (ptrOf c.supSize c.singleScalarSize (d + j)) =
    now.row (wayOf c.supSize (d + j)) (ptrOf c.supSize c.singleScalarSize (d + j)) := by
  have bound := counts.bound
  have stays : ¬ ((i.enq (getEnqPort s (wayOf c.supSize (d + j)))).isSome = true ∧
      ptrOf c.supSize c.singleScalarSize (d + j) = s.enqP (wayOf c.supSize (d + j))) := by
    rw [counts.enters_iff env (by omega)]
    omega
  simp only [ReorderBuffer.canonEnq]
  split
  next x call =>
    rw [call] at stays
    exact if_neg fun here => stays ⟨rfl, here⟩
  next => rfl

theorem Counts.row_new (counts : Counts s d n) (now : State c) {port : c.SupWaySel}
    {x : ToReorderBuffer c} (call : i.enq port = some x) :
    (ReorderBuffer.canonEnq s i now).row (wayOf c.supSize (d + n + port.val))
      (ptrOf c.supSize c.singleScalarSize (d + n + port.val)) =
    writeEnq (now.row (wayOf c.supSize (d + n + port.val))
      (ptrOf c.supSize c.singleScalarSize (d + n + port.val))) x := by
  simp only [ReorderBuffer.canonEnq]
  rw [getEnqPort_eq counts port.isLt, call]
  exact if_pos (counts.enqPtr _ port.isLt).symm

theorem Counts.appended (counts : Counts s d n) (env : Environment s i) :
    appended s i = numbered (ReorderBuffer.canonEnq s i
      (ReorderBuffer.setRows (ReorderBuffer.canonDeq s i) i)).row (d + n) (enqCount i) := by
  refine filterMap_ports (firstIdle_le _) (fun port used => ?_) (fun port late => ?_)
  · obtain ⟨x, call⟩ := Option.isSome_iff_exists.mp ((enq_iff env port).mpr used)
    dsimp only [tagOf]
    rw [counts.row_new _ call, call, Option.map_some, counts.getEnqInstTag]
    rfl
  · have idle : ¬ (i.enq port).isSome = true := fun used =>
      absurd ((enq_iff env port).mp used) (Nat.not_lt.mpr late)
    rw [Option.not_isSome_iff_eq_none.mp idle]
    rfl

theorem numbered_correctRows (now : State c) (d n : Nat) :
    numbered (correctRows i now).row d n = corrected i (numbered now.row d n) := by
  unfold correctRows corrected
  cases i.correctSpec with
  | some mask => exact (numbered_map now.row (fun _ _ => correctRow mask) d n).symm
  | none => rfl

/-- The number of the killing row. -/
theorem Counts.killer (counts : Counts s d n) (env : Environment s i) {x : ROBWrongSpecInput c}
    (kills : KillsSuffix s i x) : ∃ m, m < n ∧ x.killInstTag = tagOf (d + m) ∧
      (∀ j, j < n → dependsOnWrongSpec (s.row (tagOf (c := c) (d + j)).way
        (tagOf (c := c) (d + j)).ptr) x.specTag = decide (m < j)) ∧
      firstIdle i.deq ≤ m + 1 := by
  have rows := counts.rowsOf
  obtain ⟨m, killer, depends⟩ := kills.live
  have length : (ReorderBuffer.rowsOf s).length = n := by rw [rows, numbered_length]
  have inside : m.val < n := Nat.lt_of_lt_of_eq m.isLt length
  have entry : ∀ j (live : j < n) (below : j < (ReorderBuffer.rowsOf s).length),
      (ReorderBuffer.rowsOf s).get ⟨j, below⟩ = (tagOf (d + j),
        s.row (tagOf (c := c) (d + j)).way (tagOf (c := c) (d + j)).ptr) := by
    intro j live below
    simp only [List.get_eq_getElem, rows, numbered_getElem]
  have known : ∀ j, j < n → dependsOnWrongSpec (s.row (tagOf (c := c) (d + j)).way
      (tagOf (c := c) (d + j)).ptr) x.specTag = decide (m.val < j) := by
    intro j live
    have below := Nat.lt_of_lt_of_eq live length.symm
    have dep := depends ⟨j, below⟩
    rw [entry j live below] at dep
    simpa only [Fin.lt_def] using dep
  refine ⟨m.val, inside, ?_, known, ?_⟩
  · rw [← killer]
    exact congrArg Prod.fst (entry m.val inside m.isLt)
  · by_contra more
    have ports := firstIdle_le i.deq
    have few := counts.deqs_le env
    have last : m.val + 1 < c.supSize := by omega
    have deqs := (env.deqs ⟨m.val + 1, last⟩).mpr (by dsimp only; omega)
    have clean := kills.committed _ deqs
    rw [counts.deqData] at clean
    have tagged := known (m.val + 1) (by omega)
    rw [clean] at tagged
    simp at tagged

/-- A cycle keeps the counts and does to the rows what it does to the list. -/
theorem Counts.next (counts : Counts s d n) (env : Environment s i) :
    ∃ d' n', Counts (ReorderBuffer.next s i) d' n' ∧
      numbered (ReorderBuffer.next s i).row d' n' = stepRows s i (numbered s.row d n) := by
  have few := counts.deqs_le env
  have bound := counts.bound
  have later := (counts.canonDeq env).setRows i
  cases spec : i.wrongSpec with
  | none =>
      have step : ReorderBuffer.next s i = ReorderBuffer.correctRows i
          (ReorderBuffer.canonEnq s i (ReorderBuffer.setRows (ReorderBuffer.canonDeq s i) i)) := by
        simp only [ReorderBuffer.next, spec]
      have front := numbered_congr fun j (inside : j < n - firstIdle i.deq) =>
        (Nat.add_assoc d (firstIdle i.deq) j).symm ▸ counts.row_old
          (ReorderBuffer.setRows (ReorderBuffer.canonDeq s i) i) env
            (show firstIdle i.deq + j < n by omega)
      refine ⟨_, _, step ▸ (counts.canonEnq later few env).correctRows i, ?_⟩
      rw [step, numbered_correctRows, stepRows, spec]
      refine congrArg (corrected i) ?_
      rw [kept_numbered, counts.appended env, ← front, ← numbered_append,
        show d + firstIdle i.deq + (n - firstIdle i.deq) = d + n by omega]
  | some x =>
      have step : ReorderBuffer.next s i = ReorderBuffer.correctRows i
          (ReorderBuffer.canonWrongSpec s
            (ReorderBuffer.setRows (ReorderBuffer.canonDeq s i) i) x) := by
        simp only [ReorderBuffer.next, spec]
      cases all : x.killAll with
      | true =>
          refine ⟨_, _, step ▸ (Counts.killAll _ all).correctRows i, ?_⟩
          rw [step, numbered_correctRows, stepRows, spec]
          refine congrArg (corrected i) ?_
          simp only [all, if_true]
          rfl
      | false =>
          obtain ⟨m, inside, killer, depends, near⟩ := counts.killer env (env.suffix x spec all)
          refine ⟨_, _, step ▸ (counts.canonWrongSpec later all inside killer depends
            near).correctRows i, ?_⟩
          rw [step, numbered_correctRows, stepRows, spec]
          refine congrArg (corrected i) ?_
          simp only [all, Bool.false_eq_true, if_false]
          rw [kept_numbered, killer, upTo_numbered _ bound inside near]
          simp only [ReorderBuffer.canonWrongSpec, all, Bool.false_eq_true, if_false]

end Cycle

/-! ## The list that the registers hold -/

/-- The slots that hold no row. -/
def freeSlots (s : State c) : Finset (c.SupWaySel × c.SingleScalarPtr) :=
  Finset.univ.filter fun x => s.valid x.1 x.2 = false

/-- The valid slots are those of the list, and the ports work at its two ends. -/
structure ListView (s : State c) : Prop where
  live : ∀ w p, s.valid w p = true ↔ ∃ x ∈ rowsOf s, x.1.way = w ∧ x.1.ptr = p
  stored : ∀ x ∈ rowsOf s, x.2 = s.row x.1.way x.1.ptr
  slots : ((rowsOf s).map fun x => (x.1.way, x.1.ptr)).Nodup
  times : ((rowsOf s).map fun x => x.1.t).Nodup
  inOrder : ∀ (age : Nat) (old : age < (rowsOf s).length), (rowsOf s)[age].1 = tagAt s age
  free : (freeSlots s).card + (rowsOf s).length = c.supSize * c.singleScalarSize
  canEnq : ∀ port, canEnq s port = true ↔ port.val + 1 ≤ (freeSlots s).card
  enqTag : ∀ port, getEnqInstTag s port = tagAt s ((rowsOf s).length + port.val)
  canDeq : ∀ port, canDeq s port = true ↔ port.val < (rowsOf s).length
  deqs : ∀ (port : c.SupWaySel) (old : port.val < (rowsOf s).length),
    (rowsOf s)[port.val] = (getDeqInstTag s port, deqData s port)
  step : ∀ i, Environment s i → rowsOf (next s i) = stepRows s i (rowsOf s)

section View

variable {s : State c} {d n : Nat}

/-- A list over numbers less than a round apart has no duplicates when places tell numbers. -/
theorem nodup_numbers {α : Type} (f : Nat → α) (bound : n ≤ c.supSize * c.singleScalarSize)
    (inj : ∀ a b, a ≤ b → b < a + c.supSize * c.singleScalarSize → f a = f b → a = b) :
    ((List.range n).map fun j => f (d + j)).Nodup := by
  refine List.Nodup.map_on ?_ List.nodup_range
  intro a insideA b insideB same
  rw [List.mem_range] at insideA insideB
  rcases Nat.le_total a b with le | le
  · have number := inj _ _ (by omega) (by omega) same
    omega
  · have number := inj _ _ (by omega) (by omega) same.symm
    omega

theorem time_inj {a b : Nat} (le : a ≤ b) (near : b < a + c.supSize * c.singleScalarSize)
    (same : (Fin.ofNat _ a : c.InstTime) = Fin.ofNat _ b) : a = b := by
  have times := slots_le_times c
  have values : a % 2 ^ tLog c.numInstTags = b % 2 ^ tLog c.numInstTags := congrArg Fin.val same
  have gap := Nat.sub_mod_eq_zero_of_mod_eq values.symm
  rw [Nat.mod_eq_of_lt (by omega)] at gap
  omega

/-- The slot of a row. -/
def slotOf (c : RobCfg) (g : Nat) : c.SupWaySel × c.SingleScalarPtr :=
  (wayOf c.supSize g, ptrOf c.supSize c.singleScalarSize g)

theorem slots_nodup (bound : n ≤ c.supSize * c.singleScalarSize) :
    ((List.range n).map fun j => slotOf c (d + j)).Nodup :=
  nodup_numbers (slotOf c) bound fun _ _ le near same =>
    place_inj le near (congrArg Prod.fst same) (congrArg Prod.snd same)

theorem Counts.freeSlots_card (counts : Counts s d n) :
    (freeSlots s).card + n = c.supSize * c.singleScalarSize := by
  have bound := counts.bound
  have taken : Finset.univ.filter (fun x => ¬ s.valid x.1 x.2 = false) =
      ((List.range n).map fun j => slotOf c (d + j)).toFinset := by
    apply Finset.ext
    rintro ⟨w, p⟩
    simp only [Finset.mem_filter, Finset.mem_univ, true_and, Bool.not_eq_false, counts.live,
      List.mem_toFinset, List.mem_map, List.mem_range, slotOf, Prod.mk.injEq]
    exact exists_congr fun j => and_congr_right fun _ => and_congr eq_comm eq_comm
  have split := Finset.card_filter_add_card_filter_not (s := Finset.univ)
    (fun x : c.SupWaySel × c.SingleScalarPtr => s.valid x.1 x.2 = false)
  rw [taken, List.toFinset_card_of_nodup (slots_nodup bound)] at split
  simpa [freeSlots] using split

theorem Counts.view (counts : Counts s d n) : ListView s := by
  have rows := counts.rowsOf
  have length : (ReorderBuffer.rowsOf s).length = n := by rw [rows, numbered_length]
  have bound := counts.bound
  have card := counts.freeSlots_card
  refine ⟨?_, ?_, ?_, ?_, ?_, ?_, ?_, ?_, ?_, ?_, ?_⟩
  · intro w p
    rw [counts.live, rows]
    simp only [numbered, List.mem_map, List.mem_range]
    constructor
    · rintro ⟨j, live, rfl, rfl⟩
      exact ⟨_, ⟨j, live, rfl⟩, rfl, rfl⟩
    · rintro ⟨_, ⟨j, live, rfl⟩, rfl, rfl⟩
      exact ⟨j, live, rfl, rfl⟩
  · rw [rows]
    simp only [numbered, List.mem_map]
    rintro _ ⟨j, _, rfl⟩
    rfl
  · rw [rows, numbered, List.map_map]
    exact slots_nodup bound
  · rw [rows, numbered, List.map_map]
    exact nodup_numbers (fun g => (Fin.ofNat _ g : c.InstTime)) bound fun _ _ => time_inj
  · intro age old
    simp only [rows, numbered_getElem, counts.tagAt]
  · rw [length, card]
  · intro port
    rw [counts.canEnq_iff]
    omega
  · intro port
    rw [counts.getEnqInstTag, counts.tagAt, length, Nat.add_assoc]
  · intro port
    rw [counts.canDeq_iff, length]
  · intro port old
    simp only [rows, numbered_getElem, counts.getDeqInstTag, counts.deqData]
  · intro i env
    obtain ⟨d', n', counts', step⟩ := counts.next env
    rw [counts'.rowsOf, rows, step]

end View

theorem counts_of_run {row : c.SupWaySel → c.SingleScalarPtr → ToReorderBuffer c}
    {cycles : List (State c × Input c)} {s : State c} (run : (machine c row).Run cycles s) :
    ∃ d n, Counts s d n := by
  refine run.invariant (fun _ s => ∃ d n, Counts s d n) ⟨0, 0, counts_reset row⟩ ?_
  rintro _ s i _ ⟨d, n, counts⟩ env
  obtain ⟨d', n', counts', _⟩ := counts.next env
  exact ⟨d', n', counts'⟩

/-- The registers after a run hold the list that its cycles make. -/
theorem refines_list {row : c.SupWaySel → c.SingleScalarPtr → ToReorderBuffer c}
    {cycles : List (State c × Input c)} {s : State c} (run : (machine c row).Run cycles s) :
    ListView s ∧ rowsOf s = cycles.foldl (fun rows now => stepRows now.1 now.2 rows) [] := by
  constructor
  · obtain ⟨d, n, counts⟩ := counts_of_run run
    exact counts.view
  · refine run.invariant
      (fun cycles s => rowsOf s = cycles.foldl (fun rows now => stepRows now.1 now.2 rows) [])
      ((counts_reset row).rowsOf) ?_
    intro cycles s i before list env
    obtain ⟨d, n, counts⟩ := counts_of_run before
    rw [List.foldl_append, ← list]
    exact counts.view.step i env

section Example

private theorem some_tags : 0 < 6 := by decide

/-- Two ways of three slots each, and one tag. -/
def sixSlots : RobCfg where
  lgSupSize := 1
  numInstTags := 6
  numSpecTags := 1
  aluExeNum := 1
  fpuMulDivExeNum := 0
  someTags := some_tags
  instTime := by decide

def rowAtPc (pc : Addr) (tagged : Bool) : ToReorderBuffer sixSlots :=
  { pc := pc, specBits := fun _ => tagged }

/-- Five rows are enqueued over a wrap of the first way and the third of them kills those
after it while it is dequeued. -/
def killRun : List (Input sixSlots) :=
  let tag (way : Fin 2) (ptr : Fin 3) (t : Fin 8) : InstTag sixSlots := ⟨way, ptr, t⟩
  let both (a b : Addr) (tagged : Bool) (port : Fin 2) : Option (ToReorderBuffer sixSlots) :=
    some (rowAtPc (if port = 0 then a else b) tagged)
  [{ enq := both 0 4 false },
    { enq := both 8 12 false
      finishAlu := fun _ => some (tag 0 0 0, ⟨7, none, ⟨0, 4, false, false⟩⟩) },
    { enq := both 16 20 true, deq := fun _ => true },
    { enq := both 24 28 true, deq := fun port => decide (port = 0) },
    { deq := fun port => decide (port = 0)
      wrongSpec := some { killAll := false, specTag := (0 : Fin 1), killInstTag := tag 1 1 3 } }]

theorem refines_list_killRun :
    let m := machine sixSlots fun _ _ => {}
    let cycles := m.cyclesOf m.reset killRun
    let s := m.after m.reset killRun
    (getEnqInstTag s 0 = ⟨(0 : Fin 2), (2 : Fin 3), (4 : Fin 8)⟩) ∧ ListView s ∧
      rowsOf s = cycles.foldl (fun rows now => stepRows now.1 now.2 rows) [] :=
  ⟨by decide +kernel, refines_list (Clocked.Machine.run_of_accepts
    (m := machine sixSlots fun _ _ => {}) killRun (by decide +kernel))⟩

end Example

end Toooba.ReorderBuffer
