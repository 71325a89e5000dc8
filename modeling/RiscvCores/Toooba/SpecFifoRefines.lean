import RiscvCores.Toooba.SpecFifoRuns

/-!
# What the three FIFOs do in a cycle

For each FIFO what its methods show, what its guards promise and how a cycle moves its slots.
-/

set_option autoImplicit false

namespace Toooba.SpecFifos

open Clocked HoledRing

variable {size numSpecTags : Nat} [NeZero size] {t : Type}

/-! ## Slots -/

theorem getNextPtr_eq (p : Fin size) : getNextPtr p = p + 1 := by
  unfold getNextPtr
  split
  next last =>
    apply Fin.ext
    rw [Fin.val_add, last]
    have positive := Nat.pos_of_neZero size
    rcases Nat.lt_or_ge 1 size with more | one
    · have val : (1 : Fin size).val = 1 := Nat.mod_eq_of_lt more
      rw [val, Nat.sub_add_cancel positive, Nat.mod_self]
      rfl
    · obtain rfl : size = 1 := Nat.le_antisymm one positive
      rw [Nat.mod_one]
      rfl
  next => rfl

omit [NeZero size] in
theorem allFalse_iff {valid : Fin size → Bool} : allFalse valid = true ↔ ∀ k, valid k = false :=
  decide_eq_true_iff

section Elements

omit [NeZero size]

variable (valid : Fin size → Bool) (row : Fin size → t)
  (specBits : Fin size → SpecBits numSpecTags)

theorem elements_eq_none {k : Fin size} :
    elements valid row specBits k = none ↔ valid k = false := by
  unfold elements
  cases valid k with
  | false => simp
  | true => simp

theorem elements_remove (p : Fin size) :
    elements (Function.update valid p false) row specBits =
      Function.update (elements valid row specBits) p none := by
  funext k
  by_cases same : k = p
  · subst same
    rw [Function.update_self, elements_eq_none, Function.update_self]
  · rw [Function.update_of_ne same]
    unfold elements
    rw [Function.update_of_ne same]

theorem elements_insert (p : Fin size) (x : ToSpecFifo numSpecTags t) :
    elements (Function.update valid p true) (Function.update row p x.data)
        (Function.update specBits p x.spec_bits) =
      Function.update (elements valid row specBits) p (some x) := by
  funext k
  by_cases same : k = p
  · subst same
    unfold elements
    simp only [Function.update_self, if_pos]
  · rw [Function.update_of_ne same]
    unfold elements
    simp only [Function.update_of_ne same]

theorem elements_left (p : Fin size) (deq : Bool) :
    elements (if deq then Function.update valid p false else valid) row specBits =
      left (elements valid row specBits) p deq := by
  cases deq with
  | false => rfl
  | true => exact elements_remove valid row specBits p

/-- The registers after `deq` and `enq`. -/
theorem elements_cycled (head write : Fin size) (deq : Bool)
    (enq : Option (ToSpecFifo numSpecTags t)) :
    elements
        (if enq.isSome then
          Function.update (if deq then Function.update valid head false else valid) write true
        else if deq then Function.update valid head false else valid)
        (match enq with
          | some x => Function.update row write x.data
          | none => row)
        (match enq with
          | some x => Function.update specBits write x.spec_bits
          | none => specBits) =
      cycled (elements valid row specBits) head write deq enq := by
  cases enq with
  | none => exact elements_left valid row specBits head deq
  | some x =>
      unfold cycled
      rw [← elements_left]
      exact elements_insert _ row specBits write x

/-- Elements are dropped and masked where they are. -/
theorem elements_bind (kills : SpecBits numSpecTags → Bool)
    (correct : Option (SpecBits numSpecTags)) :
    elements (fun k => valid k && !kills (specBits k)) row
        (fun k => masked correct (specBits k)) =
      fun k => (elements valid row specBits k).bind fun x =>
        if kills x.spec_bits then none
        else some { x with spec_bits := masked correct x.spec_bits } := by
  funext k
  unfold elements
  cases here : valid k with
  | false => simp [here]
  | true =>
      cases killed : kills (specBits k) with
      | false => simp [here, killed]
      | true => simp [here, killed]

end Elements

/-- A tag that is not resolved keeps its bit. -/
theorem IncorrectSpeculation.kills_and (k : IncorrectSpeculation numSpecTags)
    (sb mask : SpecBits numSpecTags)
    (unresolved : k.kill_all = true ∨ mask.getLsbD k.specTag.val = true) :
    k.kills (sb &&& mask) = k.kills sb := by
  unfold IncorrectSpeculation.kills
  rcases unresolved with all | keeps
  · rw [all, Bool.true_or, Bool.true_or]
  · rw [BitVec.getLsbD_and, keeps, Bool.and_true]

theorem IncorrectSpeculation.kills_of_and {k : IncorrectSpeculation numSpecTags}
    {sb mask : SpecBits numSpecTags} (kills : k.kills (sb &&& mask) = true) :
    k.kills sb = true := by
  unfold IncorrectSpeculation.kills at kills ⊢
  rw [BitVec.getLsbD_and, Bool.or_eq_true, Bool.and_eq_true] at kills
  rw [Bool.or_eq_true]
  exact kills.imp id And.left

section EnqGuard

variable {valid : Fin size → Bool} {row : Fin size → t}
  {specBits : Fin size → SpecBits numSpecTags} {s : State size numSpecTags t}
  {i : Input numSpecTags t} {lazyEnq : Bool}

/-- The guard of `enq`, as all three calculate it. -/
def enqRoom (valid : Fin size → Bool) (s : State size numSpecTags t) (i : Input numSpecTags t)
    (lazyEnq : Bool) : Bool :=
  (if lazyEnq then allFalse valid
    else allFalse (if i.deq then Function.update valid s.deqP false else valid)) ||
    s.enqP != if lazyEnq then s.deqP else s.deqP_ehr1 i

theorem settled_of_enqRoom (room : enqRoom valid s i lazyEnq = true)
    (still : lazyEnq = true ∨ ¬ (i.deq = true ∨ i.canon_deqP = true)) :
    s.enqP ≠ s.deqP ∨ ∀ k, elements valid row specBits k = none := by
  have stale : (allFalse valid || s.enqP != s.deqP) = true := by
    rcases still with rfl | still
    · exact room
    · obtain ⟨stays, keeps⟩ := not_or.mp still
      unfold enqRoom State.deqP_ehr1 at room
      rw [Bool.eq_false_iff.mpr stays, Bool.eq_false_iff.mpr keeps] at room
      cases lazyEnq with
      | false => exact room
      | true => exact room
  rw [Bool.or_eq_true] at stale
  rcases stale with empty | apart
  · refine .inr fun k => ?_
    rw [elements_eq_none]
    exact allFalse_iff.mp empty k
  · exact .inl (bne_iff_ne.mp apart)

theorem enq_of_enqRoom (room : enqRoom valid s i lazyEnq = true) :
    (i.deq = true ∨ i.canon_deqP = true) ∨
      (s.enqP ≠ s.deqP ∨ ∀ k, elements valid row specBits k = none) := by
  by_cases moves : i.deq = true ∨ i.canon_deqP = true
  · exact .inl moves
  · exact .inr (settled_of_enqRoom room (.inr moves))

theorem asserted_of_enqRoom (room : enqRoom valid s i lazyEnq = true)
    (taken : (if lazyEnq then valid s.enqP
      else (if i.deq then Function.update valid s.deqP false else valid) s.enqP) = true) :
    left (elements valid row specBits) s.deqP i.deq s.enqP ≠ none ∨
      (s.enqP ≠ s.deqP ∨ ∀ k, elements valid row specBits k = none) ∧
        elements valid row specBits s.enqP ≠ none := by
  cases lazyEnq with
  | false =>
      apply Or.inl
      rw [← elements_left, Ne, elements_eq_none, Bool.not_eq_false]
      exact taken
  | true =>
      refine .inr ⟨settled_of_enqRoom room (.inl rfl), ?_⟩
      rw [Ne, elements_eq_none, Bool.not_eq_false]
      exact taken

omit [NeZero size] in
/-- What the guard of `canon_deqP` says of the slots. -/
theorem filled_of (raw : Fin size → Bool) (guard : (s.enqP != s.deqP || !allFalse raw) = true) :
    s.enqP ≠ s.deqP ∨ ∃ k, elements raw row specBits k ≠ none := by
  rw [Bool.or_eq_true, Bool.not_eq_true', Bool.eq_false_iff, Ne, allFalse_iff] at guard
  apply guard.imp bne_iff_ne.mp
  intro some
  obtain ⟨k, here⟩ := not_forall.mp some
  refine ⟨k, ?_⟩
  rwa [Ne, elements_eq_none]

omit [NeZero size] in
theorem of_filled (raw : Fin size → Bool)
    (filled : s.enqP ≠ s.deqP ∨ ∃ k, elements raw row specBits k ≠ none) :
    (s.enqP != s.deqP || !allFalse raw) = true := by
  rw [Bool.or_eq_true, Bool.not_eq_true', Bool.eq_false_iff, Ne, allFalse_iff]
  apply filled.imp bne_iff_ne.mpr
  rintro ⟨k, here⟩ empty
  rw [Ne, elements_eq_none] at here
  exact here (empty k)

end EnqGuard

/-! ## `mkSpecFifo` -/

/-- `deq` at the first port and `enq` at the second, a kill at one of them and never with
`enq`. -/
structure DeqFirst (p : Params) : Prop where
  validDeqPort : p.sched.validDeqPort = 0
  validEnqPort : p.sched.validEnqPort = 1
  validWrongSpecPort : p.sched.validWrongSpecPort = 0 ∨ p.sched.validWrongSpecPort = 1
  sbDeqPort : p.sched.sbDeqPort = 0
  sbEnqPort : p.sched.sbEnqPort = 0
  sbWrongSpecPort : p.sched.sbWrongSpecPort = 0
  wrongSpec_conflict_enq : p.sched.wrongSpec_conflict_enq = true
  validPortNum : p.validPortNum = 2
  sbPortNum : p.sbPortNum = 2

namespace MkSpecFifo

variable {p : Params} {s : State size numSpecTags t} {i : Input numSpecTags t}

/-- Kills and resolutions are done in the cycle of the call. -/
def cells : Cells (State size numSpecTags t) size numSpecTags t where
  raw s := elements s.valid s.row s.specBits
  pending _ := some
  write := State.enqP

omit [NeZero size] in
theorem specBitsAt_two (sched : DeqFirst p) :
    specBitsAt p s i 2 = fun k => masked i.correctSpeculation
      ((match i.enq with
        | some x => Function.update s.specBits s.enqP x.spec_bits
        | none => s.specBits) k) := by
  unfold specBitsAt
  simp only [List.range_succ, List.range_zero, List.nil_append, List.cons_append,
    List.foldl_cons, List.foldl_nil, writeSpecBits, sbCorrectSpecPort, sched.sbEnqPort,
    sched.sbPortNum]
  cases i.enq with
  | none =>
      cases i.correctSpeculation with
      | none => rfl
      | some mask => rfl
  | some x =>
      cases i.correctSpeculation with
      | none => rfl
      | some mask => rfl

omit [NeZero size] in
theorem validAt_one (sched : DeqFirst p) (quiet : i.incorrectSpeculation = none) :
    validAt p s i 1 = if i.deq then Function.update s.valid s.deqP false else s.valid := by
  unfold validAt
  simp only [List.range_succ, List.range_zero, List.nil_append, List.foldl_cons,
    List.foldl_nil, writeValid, quiet, sched.validDeqPort, sched.validEnqPort]
  simp

omit [NeZero size] in
theorem validAt_two (sched : DeqFirst p) (alone : i.incorrectSpeculation.isSome = true →
    i.enq = none) :
    validAt p s i 2 = fun k =>
      (if i.enq.isSome then
        Function.update (if i.deq then Function.update s.valid s.deqP false else s.valid)
          s.enqP true
      else if i.deq then Function.update s.valid s.deqP false else s.valid) k &&
        !i.covers (s.specBits k) := by
  unfold validAt Input.covers
  simp only [List.range_succ, List.range_zero, List.nil_append, List.cons_append,
    List.foldl_cons, List.foldl_nil, writeValid, sched.validDeqPort, sched.validEnqPort,
    sched.sbWrongSpecPort]
  cases kill : i.incorrectSpeculation with
  | none => simp
  | some incSpec =>
      have none := alone (by rw [kill]; rfl)
      rcases sched.validWrongSpecPort with port | port
      · simp [port, none, specBitsAt]
      · simp [port, none, specBitsAt]

/-- The slots after a cycle: what `deq` and `enq` leave, without what is killed. -/
theorem elements_next (sched : DeqFirst p)
    (alone : i.incorrectSpeculation.isSome = true → i.enq = none) :
    cells.raw (next p s i) = fun k =>
      (cycled (elements s.valid s.row s.specBits) s.deqP s.enqP i.deq i.enq k).bind i.keep := by
  change elements (validAt p s i p.validPortNum) (s.next_row i) (specBitsAt p s i p.sbPortNum) =
    fun k => (cycled (elements s.valid s.row s.specBits) s.deqP s.enqP i.deq i.enq k).bind i.keep
  have covered : ∀ k, i.covers (s.specBits k) = i.covers
      ((match i.enq with
        | some x => Function.update s.specBits s.enqP x.spec_bits
        | none => s.specBits) k) := by
    intro k
    cases comes : i.enq with
    | none => rfl
    | some x =>
        have quiet : i.incorrectSpeculation = none := by
          rw [← Option.not_isSome_iff_eq_none]
          intro kill
          rw [alone kill] at comes
          exact nomatch comes
        unfold Input.covers
        rw [quiet]
        rfl
  rw [sched.validPortNum, sched.sbPortNum, validAt_two sched alone, specBitsAt_two sched,
    ← elements_cycled]
  simp only [covered]
  exact elements_bind _ _ _ i.covers i.correctSpeculation

section Fifo

variable (row : Fin size → t) (specBits : Fin size → SpecBits numSpecTags)

omit [NeZero size] in
theorem notEmpty_eq (sched : DeqFirst p) : notEmpty p s i = s.valid s.deqP := by
  unfold notEmpty
  rw [sched.validDeqPort]
  rfl

omit [NeZero size] in
theorem first_eq (sched : DeqFirst p) :
    first p s i = elements s.valid s.row s.specBits s.deqP := by
  unfold first elements
  rw [notEmpty_eq sched, sched.sbDeqPort]
  rfl

theorem shows (sched : DeqFirst p) (s : State size numSpecTags t) :
    cells.Shows (mkSpecFifo p row specBits) s where
  slots := by
    funext k
    exact (Option.bind_fun_some _).symm
  first i x shown := (first_eq sched).symm.trans shown
  idle x here := by
    have shown := (first_eq (i := Input.idle) sched).trans here
    exact Option.isSome_iff_exists.mpr ⟨x, shown⟩
  skip hole filled := by
    have nonempty := of_filled s.valid filled
    have invalid : s.valid s.deqP = false :=
      (elements_eq_none s.valid s.row s.specBits).mp hole
    change canon_deqP p s .idle = true
    unfold canon_deqP conflict
    rw [sched.validDeqPort]
    change (!s.valid s.deqP && (s.enqP != s.deqP || !allFalse s.valid) && !(_ && false)) = true
    rw [invalid, nonempty, Bool.and_false]
    rfl

theorem alone_of_allowed (sched : DeqFirst p) (allowed : (mkSpecFifo p row specBits).Allowed s i)
    (kill : i.incorrectSpeculation.isSome = true) : i.enq = none := by
  rw [← Option.not_isSome_iff_eq_none]
  intro comes
  have guard : enq p s i = true := allowed.enq comes
  unfold enq conflict at guard
  rw [sched.wrongSpec_conflict_enq, kill, Bool.and_eq_true] at guard
  exact nomatch guard.2

theorem room_of_allowed (sched : DeqFirst p) (allowed : (mkSpecFifo p row specBits).Allowed s i)
    (comes : i.enq.isSome = true) :
    enqRoom s.valid s i p.lazyEnq = true ∧ i.incorrectSpeculation = none := by
  have quiet : i.incorrectSpeculation = none := by
    rw [← Option.not_isSome_iff_eq_none]
    intro kill
    rw [alone_of_allowed row specBits sched allowed kill] at comes
    exact nomatch comes
  have guard : enq p s i = true := allowed.enq comes
  unfold enq at guard
  rw [Bool.and_eq_true] at guard
  have room := guard.1
  unfold notFull empty_for_enq deqP_for_enq at room
  rw [sched.validEnqPort, validAt_one sched quiet] at room
  exact ⟨room, quiet⟩

theorem guards (sched : DeqFirst p) (s : State size numSpecTags t) (i : Input numSpecTags t)
    (allowed : (mkSpecFifo p row specBits).Allowed s i) :
    cells.Guards (mkSpecFifo p row specBits) s i where
  deq taken := by
    have guard : deq p s i = true := allowed.deq taken
    unfold deq at guard
    rw [Bool.and_eq_true] at guard
    change (first p s i).isSome = true
    unfold first
    rw [if_pos guard.1]
    rfl
  canon_deqP skips := by
    have guard : canon_deqP p s i = true := allowed.canon_deqP skips
    unfold canon_deqP at guard
    rw [sched.validDeqPort, Bool.and_eq_true, Bool.and_eq_true, Bool.not_eq_true'] at guard
    exact ⟨(elements_eq_none ..).mpr guard.1.1, filled_of s.valid guard.1.2⟩
  enq comes := by
    obtain ⟨room, -⟩ := room_of_allowed row specBits sched allowed
      (Option.isSome_iff_ne_none.mpr comes)
    exact enq_of_enqRoom room
  asserted comes taken := by
    obtain ⟨room, quiet⟩ := room_of_allowed row specBits sched allowed comes
    change valid_for_enq p s i = true at taken
    unfold valid_for_enq at taken
    rw [sched.validEnqPort, validAt_one sched quiet] at taken
    exact asserted_of_enqRoom room taken

theorem moves (sched : DeqFirst p) (s : State size numSpecTags t) (i : Input numSpecTags t)
    (allowed : (mkSpecFifo p row specBits).Allowed s i) :
    cells.Moves (mkSpecFifo p row specBits) s i where
  read := by
    change s.deqP_ehr1 i = if i.deq || i.canon_deqP then s.deqP + 1 else s.deqP
    unfold State.deqP_ehr1
    rw [getNextPtr_eq]
  write := by
    change s.next_enqP i = if i.enq.isSome then s.enqP + 1 else s.enqP
    unfold State.next_enqP
    rw [getNextPtr_eq]
  slots := by
    refine ⟨i.keep, ?_, fun x => Option.bind_fun_some _⟩
    exact elements_next sched (alone_of_allowed row specBits sched allowed)

end Fifo

end MkSpecFifo

/-! ## `mkSpecFifoCF` -/

/-- A kill sees the same bits before and after a resolution that spares its tag. -/
theorem any_kills_masked (incorrect : Option (IncorrectSpeculation numSpecTags))
    (correct : Option (SpecBits numSpecTags)) (sb : SpecBits numSpecTags)
    (resolved : ∀ k ∈ incorrect, ∀ mask ∈ correct,
      k.kill_all = true ∨ mask.getLsbD k.specTag.val = true) :
    incorrect.any (fun k => k.kills (masked correct sb)) = incorrect.any fun k => k.kills sb := by
  cases incorrect with
  | none => rfl
  | some k =>
      cases correct with
      | none => rfl
      | some mask => exact k.kills_and sb mask (resolved k rfl mask rfl)

namespace MkSpecFifoCF

variable {lazyEnq : Bool} {s : StateCF size numSpecTags t} {i : Input numSpecTags t}

/-- What `canon_speculation` does to an element. -/
def canonSpeculation (s : StateCF size numSpecTags t) (x : ToSpecFifo numSpecTags t) :
    Option (ToSpecFifo numSpecTags t) :=
  if s.incorrectSpec.any (fun k => k.kills (masked s.correctSpec x.spec_bits)) then none
  else some { x with spec_bits := masked s.correctSpec x.spec_bits }

def cells : Cells (StateCF size numSpecTags t) size numSpecTags t where
  raw s := elements s.valid s.row s.specBits
  pending := canonSpeculation
  write s := s.enqP

omit [NeZero size] in
theorem newSpecBits_eq : newSpecBits s = fun k => masked s.correctSpec (s.specBits k) := by
  unfold newSpecBits masked
  cases s.correctSpec with
  | none => rfl
  | some mask => rfl

omit [NeZero size] in
theorem newValid_eq :
    newValid s = fun k => s.valid k &&
      !s.incorrectSpec.any fun incSpec => incSpec.kills (newSpecBits s k) := by
  unfold newValid
  cases s.incorrectSpec with
  | none => simp
  | some incSpec => rfl

omit [NeZero size] in
theorem slots_eq :
    elements (newValid s) s.row (newSpecBits s) =
      fun k => (cells.raw s k).bind (cells.pending s) := by
  rw [newValid_eq, newSpecBits_eq]
  exact elements_bind s.valid s.row s.specBits
    (fun sb => s.incorrectSpec.any fun incSpec => incSpec.kills (masked s.correctSpec sb))
    s.correctSpec

variable (row : Fin size → t) (specBits : Fin size → SpecBits numSpecTags)

omit [NeZero size] in
theorem first_eq : first s = elements (newValid s) s.row (newSpecBits s) s.deqP := rfl

theorem shows (s : StateCF size numSpecTags t) :
    cells.Shows (mkSpecFifoCF lazyEnq row specBits) s where
  slots := slots_eq
  first i x shown := shown
  idle x here := Option.isSome_iff_exists.mpr ⟨x, here⟩
  skip hole filled := by
    have nonempty := of_filled s.valid filled
    have invalid : newValid s s.deqP = false := (elements_eq_none ..).mp hole
    change (!newValid s s.deqP && (s.enqP != s.deqP || !allFalse s.valid)) = true
    rw [invalid, nonempty]
    rfl

theorem guards (s : StateCF size numSpecTags t) (i : Input numSpecTags t)
    (allowed : (mkSpecFifoCF lazyEnq row specBits).Allowed s i) :
    cells.Guards (mkSpecFifoCF lazyEnq row specBits) s i where
  deq taken := by
    have guard : notEmpty s = true := allowed.deq taken
    change (first s).isSome = true
    unfold first
    rw [if_pos guard]
    rfl
  canon_deqP skips := by
    have guard : canon_deqP s = true := allowed.canon_deqP skips
    unfold canon_deqP at guard
    rw [Bool.and_eq_true, Bool.not_eq_true'] at guard
    exact ⟨(elements_eq_none ..).mpr guard.1, filled_of s.valid guard.2⟩
  enq comes := by
    have room : enqRoom (newValid s) s.toState i lazyEnq = true :=
      allowed.enq (Option.isSome_iff_ne_none.mpr comes)
    exact enq_of_enqRoom room
  asserted comes taken := by
    have room : enqRoom (newValid s) s.toState i lazyEnq = true := allowed.enq comes
    exact asserted_of_enqRoom room taken

theorem moves (s : StateCF size numSpecTags t) (i : Input numSpecTags t)
    (allowed : (mkSpecFifoCF lazyEnq row specBits).Allowed s i) :
    cells.Moves (mkSpecFifoCF lazyEnq row specBits) s i where
  read := by
    change s.deqP_ehr1 i = if i.deq || i.canon_deqP then s.deqP + 1 else s.deqP
    unfold State.deqP_ehr1
    rw [getNextPtr_eq]
  write := by
    change s.next_enqP i = if i.enq.isSome then s.enqP + 1 else s.enqP
    unfold State.next_enqP
    rw [getNextPtr_eq]
  slots := by
    refine ⟨some, ?_, fun x => ?_⟩
    · simp only [Option.bind_fun_some]
      exact elements_cycled (newValid s) s.row (newSpecBits s) s.deqP s.enqP i.deq i.enq
    · change canonSpeculation (next s i) x = i.keep x
      unfold canonSpeculation Input.keep Input.covers
      rw [← any_kills_masked i.incorrectSpeculation i.correctSpeculation x.spec_bits
        allowed.resolved]
      rfl

end MkSpecFifoCF

/-! ## `mkSpecFifoCF2` -/

namespace MkSpecFifoCF2

variable {lazyEnq : Bool} {s : StateCF2 size numSpecTags t} {i : Input numSpecTags t}

/-- What `canon_speculation` does to an element. -/
def canonSpeculation (s : StateCF2 size numSpecTags t) (x : ToSpecFifo numSpecTags t) :
    Option (ToSpecFifo numSpecTags t) :=
  some { x with spec_bits := masked s.correctSpec x.spec_bits }

def cells : Cells (StateCF2 size numSpecTags t) size numSpecTags t where
  raw s := elements s.valid s.row s.specBits
  pending := canonSpeculation
  write s := s.enqP

/-- No element is killed for a tag that was resolved in the cycle before. -/
def KillsUnresolved (s : StateCF2 size numSpecTags t) (i : Input numSpecTags t) : Prop :=
  ∀ incSpec ∈ i.incorrectSpeculation, ∀ mask ∈ s.correctSpec, ∀ k, s.valid k = true →
    incSpec.kills (s.specBits k) = true → incSpec.kills (s.specBits k &&& mask) = true

omit [NeZero size] in
theorem newSpecBits_eq : newSpecBits s = fun k => masked s.correctSpec (s.specBits k) := by
  unfold newSpecBits masked
  cases s.correctSpec with
  | none => rfl
  | some mask => rfl

omit [NeZero size] in
theorem slots_eq :
    elements s.valid s.row (newSpecBits s) =
      fun k => (cells.raw s k).bind (cells.pending s) := by
  have bind := elements_bind s.valid s.row s.specBits (fun _ => false) s.correctSpec
  simp only [Bool.not_false, Bool.and_true, Bool.false_eq_true, if_false] at bind
  rw [newSpecBits_eq]
  exact bind

omit [NeZero size] in
/-- A kill of unresolved tags drops what it covers after `canon_speculation`. -/
theorem newValid_eq (incSpec : IncorrectSpeculation numSpecTags)
    (kill : i.incorrectSpeculation = some incSpec) (unresolved : KillsUnresolved s i)
    (k : Fin size) :
    newValid s incSpec k = (s.valid k && !incSpec.kills (newSpecBits s k)) := by
  unfold newValid newSpecBits
  cases here : s.valid k with
  | false => rfl
  | true =>
      cases pending : s.correctSpec with
      | none => rfl
      | some mask =>
          have same : incSpec.kills (s.specBits k &&& mask) = incSpec.kills (s.specBits k) := by
            rw [Bool.eq_iff_iff]
            exact ⟨IncorrectSpeculation.kills_of_and, unresolved incSpec kill mask pending k here⟩
          rw [same]

/-- Without a kill the slots move as they do in the others. -/
theorem elements_next (quiet : i.incorrectSpeculation = none) :
    cells.raw (next s i) =
      cycled (elements s.valid s.row (newSpecBits s)) s.deqP s.enqP i.deq i.enq := by
  rw [← elements_cycled]
  change elements (next s i).valid (next s i).row (next s i).specBits = _
  unfold next valid1
  rw [quiet]
  rfl

theorem elements_next_kill {incSpec : IncorrectSpeculation numSpecTags}
    (kill : i.incorrectSpeculation = some incSpec) (unresolved : KillsUnresolved s i)
    (stays : i.enq = none) :
    cells.raw (next s i) = fun k => (elements s.valid s.row (newSpecBits s) k).bind fun x =>
      if incSpec.kills x.spec_bits then none else some x := by
  have bind := elements_bind s.valid s.row (newSpecBits s) incSpec.kills none
  change _ = fun k => (elements s.valid s.row (newSpecBits s) k).bind fun x =>
    if incSpec.kills x.spec_bits then none else some x at bind
  rw [← bind, ← funext (newValid_eq incSpec kill unresolved)]
  change elements (next s i).valid (next s i).row (next s i).specBits = _
  unfold next valid1 State.next_row
  rw [kill, stays]
  rfl

variable (row : Fin size → t) (specBits : Fin size → SpecBits numSpecTags)

theorem shows (s : StateCF2 size numSpecTags t) :
    cells.Shows (mkSpecFifoCF2 lazyEnq row specBits) s where
  slots := slots_eq
  first i x shown := by
    change first s i = some x at shown
    change elements s.valid s.row (newSpecBits s) s.deqP = some x
    unfold first notEmpty at shown
    unfold elements
    split at shown
    next here =>
      rw [Bool.and_eq_true] at here
      rw [if_pos here.1]
      exact shown
    next => exact nomatch shown
  idle x here := by
    change elements s.valid s.row (newSpecBits s) s.deqP = some x at here
    have valid : s.valid s.deqP = true := by
      rw [← Bool.not_eq_false, ← elements_eq_none s.valid s.row (newSpecBits s), here]
      exact nofun
    change (first s .idle).isSome = true
    unfold first notEmpty
    rw [valid]
    rfl
  skip hole filled := by
    have nonempty := of_filled s.valid filled
    have invalid : s.valid s.deqP = false := (elements_eq_none ..).mp hole
    change (!s.valid s.deqP && ((s.enqP != s.deqP || !allFalse s.valid) && true)) = true
    rw [invalid, nonempty]
    rfl

/-- Nothing else moves in the cycle of a kill. -/
theorem quiet_of_allowed (allowed : (mkSpecFifoCF2 lazyEnq row specBits).Allowed s i)
    (kill : i.incorrectSpeculation.isSome = true) :
    i.enq = none ∧ i.deq = false ∧ i.canon_deqP = false := by
  refine ⟨?_, ?_, ?_⟩
  · rw [← Option.not_isSome_iff_eq_none]
    intro comes
    have guard : enq lazyEnq s i = true := allowed.enq comes
    unfold enq wrongSpec_conflict at guard
    rw [kill, Bool.and_eq_true] at guard
    exact nomatch guard.2
  · rw [Bool.eq_false_iff]
    intro taken
    have guard : deq s i = true := allowed.deq taken
    unfold deq wrongSpec_conflict at guard
    rw [kill, Bool.and_eq_true] at guard
    exact nomatch guard.2
  · rw [Bool.eq_false_iff]
    intro skips
    have guard : canon_deqP s i = true := allowed.canon_deqP skips
    unfold canon_deqP wrongSpec_conflict at guard
    rw [kill, Bool.and_eq_true, Bool.and_eq_true] at guard
    exact nomatch guard.2.2

theorem room_of_allowed (allowed : (mkSpecFifoCF2 lazyEnq row specBits).Allowed s i)
    (comes : i.enq.isSome = true) :
    enqRoom s.valid s.toState i lazyEnq = true ∧ i.incorrectSpeculation = none := by
  have quiet : i.incorrectSpeculation = none := by
    rw [← Option.not_isSome_iff_eq_none]
    intro kill
    rw [(quiet_of_allowed row specBits allowed kill).1] at comes
    exact nomatch comes
  have guard : enq lazyEnq s i = true := allowed.enq comes
  unfold enq at guard
  rw [Bool.and_eq_true] at guard
  have room := guard.1
  unfold notFull empty_for_enq valid1 at room
  rw [quiet] at room
  exact ⟨room, quiet⟩

theorem guards (s : StateCF2 size numSpecTags t) (i : Input numSpecTags t)
    (allowed : (mkSpecFifoCF2 lazyEnq row specBits).Allowed s i) :
    cells.Guards (mkSpecFifoCF2 lazyEnq row specBits) s i where
  deq taken := by
    have guard : deq s i = true := allowed.deq taken
    change (first s i).isSome = true
    unfold deq at guard
    unfold first
    rw [if_pos guard]
    rfl
  canon_deqP skips := by
    have guard : canon_deqP s i = true := allowed.canon_deqP skips
    unfold canon_deqP at guard
    rw [Bool.and_eq_true, Bool.and_eq_true, Bool.not_eq_true'] at guard
    exact ⟨(elements_eq_none ..).mpr guard.1, filled_of s.valid guard.2.1⟩
  enq comes := by
    obtain ⟨room, -⟩ := room_of_allowed row specBits allowed
      (Option.isSome_iff_ne_none.mpr comes)
    exact enq_of_enqRoom room
  asserted comes taken := by
    obtain ⟨room, quiet⟩ := room_of_allowed row specBits allowed comes
    change valid_for_enq lazyEnq s i = true at taken
    unfold valid_for_enq valid1 at taken
    rw [quiet] at taken
    exact asserted_of_enqRoom room taken

theorem moves (s : StateCF2 size numSpecTags t) (i : Input numSpecTags t)
    (allowed : (mkSpecFifoCF2 lazyEnq row specBits).Allowed s i)
    (unresolved : KillsUnresolved s i) :
    cells.Moves (mkSpecFifoCF2 lazyEnq row specBits) s i where
  read := by
    change s.deqP_ehr1 i = if i.deq || i.canon_deqP then s.deqP + 1 else s.deqP
    unfold State.deqP_ehr1
    rw [getNextPtr_eq]
  write := by
    change s.next_enqP i = if i.enq.isSome then s.enqP + 1 else s.enqP
    unfold State.next_enqP
    rw [getNextPtr_eq]
  slots := by
    cases kill : i.incorrectSpeculation with
    | none =>
        refine ⟨some, ?_, fun x => ?_⟩
        · simp only [Option.bind_fun_some]
          exact elements_next kill
        · change canonSpeculation (next s i) x = i.keep x
          unfold Input.keep Input.covers
          rw [kill]
          rfl
    | some incSpec =>
        obtain ⟨stays, keeps, -⟩ := quiet_of_allowed row specBits allowed (by rw [kill]; rfl)
        refine ⟨fun x => if incSpec.kills x.spec_bits then none else some x, ?_, fun x => ?_⟩
        · rw [stays, keeps]
          exact elements_next_kill kill unresolved stays
        · change (if incSpec.kills x.spec_bits then none else some x).bind
            (canonSpeculation (next s i)) = i.keep x
          unfold Input.keep Input.covers
          rw [kill]
          cases covered : incSpec.kills x.spec_bits with
          | true => simp [covered]
          | false =>
              simp only [Option.any_some, covered, Bool.false_eq_true, if_false]
              rfl

end MkSpecFifoCF2

/-! ## Every run -/

section Refinement

variable (row : Fin size → t) (specBits : Fin size → SpecBits numSpecTags)

end Refinement

instance SpecFifo.decidableAllowed {S : Type} (fifo : SpecFifo S size numSpecTags t) (s : S)
    (i : Input numSpecTags t) : Decidable (fifo.Allowed s i) :=
  decidable_of_iff' _ (SpecFifo.allowed_iff fifo s i)

instance {S : Type} (fifo : SpecFifo S size numSpecTags t)
    (cycles : List (S × Input numSpecTags t)) (s : S) (i : Input numSpecTags t) :
    Decidable (fifo.machine.allowed cycles s i) :=
  inferInstanceAs (Decidable (fifo.Allowed s i))

instance (s : StateCF2 size numSpecTags t) (i : Input numSpecTags t) :
    Decidable (MkSpecFifoCF2.KillsUnresolved s i) := by
  unfold MkSpecFifoCF2.KillsUnresolved
  infer_instance

instance (fifo : SpecFifo (StateCF2 size numSpecTags t) size numSpecTags t)
    (cycles : List (StateCF2 size numSpecTags t × Input numSpecTags t))
    (s : StateCF2 size numSpecTags t) (i : Input numSpecTags t) :
    Decidable ((fifo.machine.restrict fun _ s i =>
      MkSpecFifoCF2.KillsUnresolved s i).allowed cycles s i) :=
  inferInstanceAs (Decidable (fifo.Allowed s i ∧ MkSpecFifoCF2.KillsUnresolved s i))

end Toooba.SpecFifos
