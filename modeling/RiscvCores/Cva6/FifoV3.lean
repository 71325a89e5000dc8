import RiscvCores.Lib.Ring

/-!
# The queue `cva6_fifo_v3`

One state covers all targets.  The array is `mem_q`, or the memory of the FPGA RAM;
`rdata` is the output register of the RAM of the Altera target, which returns the old
word on a simultaneous write.  Pointers wrap behind `DEPTH - 1`, as `Fin` does.
-/

set_option autoImplicit false

namespace Cva6

structure FifoCfg where
  fallThrough : Bool
  fpgaEn : Bool
  fpgaAltera : Bool

/-- The RAM of the Altera target is used. -/
def FifoCfg.altera (cfg : FifoCfg) : Bool := cfg.fpgaEn && cfg.fpgaAltera

structure Fifo (depth : Nat) (α : Type) where
  mem : Fin depth → α
  readPointer : Fin depth
  writePointer : Fin depth
  statusCnt : Nat
  firstWord : Bool
  dataFt : α
  rdata : α

structure FifoIn (α : Type) where
  flush : Bool
  push : Bool
  data : α
  pop : Bool

namespace Fifo

variable {depth : Nat} [NeZero depth] {α : Type}

def reset (zero : α) : Fifo depth α where
  mem _ := zero
  readPointer := 0
  writePointer := 0
  statusCnt := 0
  firstWord := false
  dataFt := zero
  rdata := zero

variable (cfg : FifoCfg) (f : Fifo depth α) (i : FifoIn α)

/-- `full_o` -/
def full : Bool := f.statusCnt == depth

/-- `empty_o` -/
def empty (push : Bool) : Bool := f.statusCnt == 0 && !(cfg.fallThrough && push)

def pushes : Bool := i.push && !f.full

def pops : Bool := i.pop && !f.empty cfg i.push

/-- The word of an empty queue is passed on. -/
def passes : Bool := (cfg.fallThrough || cfg.altera) && f.statusCnt == 0 && i.push

/-- The word at the read port. -/
def stored : α :=
  if cfg.altera then if f.firstWord then f.dataFt else f.rdata else f.mem f.readPointer

/-- `data_o` -/
def dataO : α :=
  if cfg.fallThrough && f.statusCnt == 0 && i.push then i.data else f.stored cfg

def readPointerN : Fin depth :=
  if f.passes cfg i && i.pop then f.readPointer
  else if f.pops cfg i then f.readPointer + 1
  else f.readPointer

def writePointerN : Fin depth :=
  if f.passes cfg i && i.pop then f.writePointer
  else if f.pushes i then f.writePointer + 1
  else f.writePointer

def statusCntN : Nat :=
  if f.passes cfg i && i.pop then f.statusCnt
  else if f.pushes i && f.pops cfg i then f.statusCnt
  else if f.pops cfg i then f.statusCnt - 1
  else if f.pushes i then f.statusCnt + 1
  else f.statusCnt

def firstWordN : Bool :=
  if f.passes cfg i then !i.pop
  else if f.pops cfg i then f.firstWord && i.push
  else if f.pushes i then f.firstWord && i.pop
  else f.firstWord

def dataFtN : α := if f.passes cfg i || f.pops cfg i then i.data else f.dataFt

/-- The registers after a clock edge; a flush leaves the array alone. -/
def cycle (zero : α) : Fifo depth α where
  mem := if f.pushes i then Function.update f.mem f.writePointer i.data else f.mem
  readPointer := if i.flush then 0 else f.readPointerN cfg i
  writePointer := if i.flush then 0 else f.writePointerN cfg i
  statusCnt := if i.flush then 0 else f.statusCntN cfg i
  firstWord := !i.flush && f.firstWordN cfg i
  dataFt := if i.flush then zero else f.dataFtN cfg i
  rdata := f.mem (f.readPointerN cfg i)

end Fifo

/-! ## The queue holds a list -/

/-- What is pushed while the only other word leaves by the RAM is not seen. -/
def Fifo.Stale {depth : Nat} {α : Type} (cfg : FifoCfg) (f : Fifo depth α) (i : FifoIn α) :
    Prop :=
  cfg.altera = true ∧ f.statusCnt = 1 ∧ f.firstWord = false ∧ i.push = true ∧ i.pop = true

/-- The flags are respected, and no word is passed on past the array. -/
structure Fifo.Plain {depth : Nat} [NeZero depth] {α : Type} (cfg : FifoCfg)
    (f : Fifo depth α) (i : FifoIn α) : Prop where
  pushes : f.pushes i = i.push
  pops : f.pops cfg i = i.pop
  keeps : (f.passes cfg i && i.pop) = false

/-- The words of `xs` are in the queue, the oldest one in front. -/
structure Fifo.Holds {depth : Nat} [NeZero depth] {α : Type} (cfg : FifoCfg)
    (f : Fifo depth α) (xs : List α) : Prop where
  array : Ring.Holds f.mem f.readPointer xs
  write : f.writePointer = Ring.slot f.readPointer xs.length
  count : f.statusCnt = xs.length
  first : cfg.altera = true → f.firstWord = true → xs.length = 1
  shown : cfg.altera = true → ∀ x rest, xs = x :: rest →
    (if f.firstWord then f.dataFt else f.rdata) = x

section Holds

variable {depth : Nat} [NeZero depth] {α : Type} {cfg : FifoCfg} {f : Fifo depth α}
  {xs : List α} {i : FifoIn α}

theorem Fifo.reset_holds (zero : α) : (Fifo.reset zero : Fifo depth α).Holds cfg [] where
  array := Ring.Holds.nil _ _
  write := (Ring.slot_zero _).symm
  count := rfl
  first _ impossible := by cases impossible
  shown _ x rest same := by cases same

theorem Fifo.Holds.full_iff (holds : f.Holds cfg xs) :
    f.full = true ↔ xs.length = depth := by
  rw [Fifo.full, holds.count, beq_iff_eq]

theorem Fifo.Holds.empty_iff (holds : f.Holds cfg xs) (noFall : cfg.fallThrough = false)
    (push : Bool) : f.empty cfg push = true ↔ xs = [] := by
  rw [Fifo.empty, holds.count, noFall]
  simp

theorem Fifo.Holds.room (holds : f.Holds cfg xs) (room : f.full = false) : xs.length < depth := by
  have bound := holds.array.1
  have notFull : xs.length ≠ depth := fun full => by
    rw [holds.full_iff.mpr full] at room
    cases room
  omega

theorem Fifo.Holds.room_iff (holds : f.Holds cfg xs) : f.full = false ↔ xs.length < depth := by
  refine ⟨holds.room, fun room => ?_⟩
  by_contra full
  have same := holds.full_iff.mp (Bool.not_eq_false _ |>.mp full)
  omega

theorem Fifo.Holds.stored {x : α} {rest : List α} (holds : f.Holds cfg (x :: rest)) :
    f.stored cfg = x := by
  unfold Fifo.stored
  split_ifs with altera first
  · simpa [first] using holds.shown altera x rest rfl
  · simpa [first] using holds.shown altera x rest rfl
  · exact holds.array.head

/-- The words after a cycle. -/
def FifoIn.after (i : FifoIn α) (xs : List α) : List α :=
  (if i.pop then xs.tail else xs) ++ if i.push then [i.data] else []

/-- A cycle that respects the flags. -/
structure FifoIn.Respects (i : FifoIn α) (depth : Nat) (xs : List α) : Prop where
  room : i.push = true → xs.length < depth
  nonempty : i.pop = true → xs ≠ []

/-- A cycle that pops nothing but queued words is plain. -/
theorem Fifo.Holds.plain (holds : f.Holds cfg xs) (respects : i.Respects depth xs) :
    f.Plain cfg i := by
  refine ⟨?_, ?_, ?_⟩
  · cases push : i.push
    · simp [Fifo.pushes, push]
    · have notFull : ¬f.full = true := by
        rw [holds.full_iff]
        exact Nat.ne_of_lt (respects.room push)
      simp [Fifo.pushes, push, notFull]
  · cases pop : i.pop
    · simp [Fifo.pops, pop]
    · have nonempty := List.length_pos_of_ne_nil (respects.nonempty pop)
      simp [Fifo.pops, pop, Fifo.empty, holds.count, Nat.ne_of_gt nonempty]
  · cases pop : i.pop
    · simp
    · have nonempty := List.length_pos_of_ne_nil (respects.nonempty pop)
      simp [Fifo.passes, holds.count, Nat.ne_of_gt nonempty]

theorem Fifo.Holds.array_cycle {mem : Fin depth → α} {read : Fin depth}
    (array : Ring.Holds mem read xs) (respects : i.Respects depth xs) :
    Ring.Holds
      (if i.push then Function.update mem (Ring.slot read xs.length) i.data else mem)
      (if i.pop then read + 1 else read) (i.after xs) := by
  have pushed : Ring.Holds
      (if i.push then Function.update mem (Ring.slot read xs.length) i.data else mem) read
      (xs ++ if i.push then [i.data] else []) := by
    cases push : i.push
    · simpa using array
    · simpa using array.push (respects.room push) i.data
  unfold FifoIn.after
  cases pop : i.pop
  · simpa using pushed
  · obtain ⟨x, rest, rfl⟩ := List.exists_cons_of_ne_nil (respects.nonempty pop)
    simpa using Ring.Holds.pop (by simpa using pushed)

omit [NeZero depth] in
theorem FifoIn.length_after (respects : i.Respects depth xs) :
    (i.after xs).length = xs.length + i.push.toNat - i.pop.toNat := by
  unfold FifoIn.after
  cases pop : i.pop <;> cases push : i.push <;> simp
  have nonempty := List.length_pos_of_ne_nil (respects.nonempty pop)
  omega

theorem Fifo.Holds.passes_eq (holds : f.Holds cfg xs) (altera : cfg.altera = true) :
    f.passes cfg i = (xs.isEmpty && i.push) := by
  rw [Fifo.passes, altera, Bool.or_true, Bool.true_and, holds.count]
  cases xs <;> simp

theorem Fifo.Holds.firstWordN (holds : f.Holds cfg xs) (respects : i.Respects depth xs)
    (altera : cfg.altera = true) :
    f.firstWordN cfg i =
      if xs.isEmpty && i.push then true
      else if i.pop then f.firstWord && i.push
      else f.firstWord && !i.push := by
  obtain ⟨pushes, pops, passes⟩ := holds.plain respects
  rw [holds.passes_eq altera] at passes
  rw [Fifo.firstWordN, holds.passes_eq altera, pushes, pops]
  cases pass : xs.isEmpty && i.push with
  | true =>
      rw [pass, Bool.true_and] at passes
      simp [passes]
  | false =>
      cases pop : i.pop <;> cases push : i.push <;> simp

/-- The word in front is shown after a cycle of the Altera target. -/
theorem Fifo.Holds.shown_cycle (holds : f.Holds cfg xs) (respects : i.Respects depth xs)
    (fresh : f.Stale cfg i → f.mem (f.readPointer + 1) = i.data) (altera : cfg.altera = true)
    {x : α} {rest : List α} (after : i.after xs = x :: rest) :
    (if f.firstWordN cfg i then f.dataFtN cfg i else f.mem (f.readPointerN cfg i)) = x := by
  obtain ⟨_, pops, passes⟩ := holds.plain respects
  have array := holds.array
  rw [holds.firstWordN respects altera, Fifo.dataFtN, Fifo.readPointerN, pops, passes,
    holds.passes_eq altera]
  unfold FifoIn.after at after
  cases xs with
  | nil =>
      have noPop : i.pop = false := by
        by_contra pop
        rw [Bool.not_eq_false] at pop
        exact respects.nonempty pop rfl
      cases push : i.push
      · simp [noPop, push] at after
      · obtain ⟨rfl, _⟩ : i.data = x ∧ [] = rest := by simpa [noPop, push] using after
        simp
  | cons front more =>
      cases pop : i.pop with
      | false =>
          obtain ⟨rfl, _⟩ : front = x ∧ _ = rest := by simpa [pop] using after
          have seen := holds.shown altera front more rfl
          cases push : i.push <;> cases first : f.firstWord <;> simp_all [array.head]
      | true =>
          cases more with
          | nil =>
              cases push : i.push with
              | false => simp [pop, push] at after
              | true =>
                  obtain ⟨rfl, _⟩ : i.data = x ∧ [] = rest := by simpa [pop, push] using after
                  cases first : f.firstWord with
                  | true => simp
                  | false => simpa using fresh ⟨altera, holds.count, first, push, pop⟩
          | cons second others =>
              obtain ⟨rfl, _⟩ : second = x ∧ _ = rest := by simpa [pop] using after
              have notFirst : f.firstWord = false := by
                by_contra isFirst
                rw [Bool.not_eq_false] at isFirst
                have one := holds.first altera isFirst
                simp at one
              simp [notFirst, array.pop.head]

theorem Fifo.Holds.first_cycle (holds : f.Holds cfg xs) (respects : i.Respects depth xs)
    (altera : cfg.altera = true) (isFirst : f.firstWordN cfg i = true) :
    (i.after xs).length = 1 := by
  rw [holds.firstWordN respects altera] at isFirst
  rw [FifoIn.length_after respects]
  cases xs with
  | nil =>
      have noPop : i.pop = false := by
        by_contra pop
        rw [Bool.not_eq_false] at pop
        exact respects.nonempty pop rfl
      cases push : i.push with
      | true => simp [noPop]
      | false =>
          have first : f.firstWord = true := by simpa [noPop, push] using isFirst
          have one := holds.first altera first
          cases one
  | cons front more =>
      have first : f.firstWord = true := by
        by_contra notFirst
        rw [Bool.not_eq_true] at notFirst
        simp [notFirst] at isFirst
      have one := holds.first altera first
      rw [one]
      cases pop : i.pop <;> cases push : i.push <;> simp_all

omit [NeZero depth] in
theorem Fifo.Holds.count_cycle {count : Nat} (same : count = xs.length)
    (respects : i.Respects depth xs) :
    (if i.push && i.pop then count
      else if i.pop then count - 1
      else if i.push then count + 1
      else count) = (i.after xs).length := by
  rw [FifoIn.length_after respects, same]
  cases pop : i.pop <;> cases push : i.push <;> simp

theorem Fifo.Holds.write_cycle {read write : Fin depth} (same : write = Ring.slot read xs.length)
    (respects : i.Respects depth xs) :
    (if i.push then write + 1 else write) =
      Ring.slot (if i.pop then read + 1 else read) (i.after xs).length := by
  rw [FifoIn.length_after respects, same]
  cases pop : i.pop <;> cases push : i.push
  · simp
  · simp [Ring.slot_add_one]
  · have nonempty := List.length_pos_of_ne_nil (respects.nonempty pop)
    simp only [Bool.false_eq_true, if_false, if_true, Ring.add_one_eq_slot, Ring.slot_add]
    congr 1
    simp
    omega
  · simp [Ring.add_one_eq_slot, Ring.slot_add, Nat.add_comm]

/-- A cycle that only pops queued words, with what its output register shows given. -/
theorem Fifo.Holds.cycle_plain (holds : f.Holds cfg xs) (respects : i.Respects depth xs)
    (fresh : f.Stale cfg i → f.mem (f.readPointer + 1) = i.data) (noFlush : i.flush = false)
    (zero : α) : (f.cycle cfg i zero).Holds cfg (i.after xs) := by
  obtain ⟨pushes, pops, passes⟩ := holds.plain respects
  have array := Fifo.Holds.array_cycle holds.array respects
  have read : f.readPointerN cfg i = if i.pop then f.readPointer + 1 else f.readPointer := by
    simp [Fifo.readPointerN, passes, pops]
  refine ⟨?_, ?_, ?_, ?_, ?_⟩
  · simpa only [Fifo.cycle, pushes, noFlush, read, holds.write, Bool.false_eq_true, if_false]
      using array
  · have write := Fifo.Holds.write_cycle holds.write respects
    simpa only [Fifo.cycle, noFlush, read, Fifo.writePointerN, passes, pushes,
      Bool.false_eq_true, if_false] using write
  · have count := Fifo.Holds.count_cycle holds.count respects
    simpa only [Fifo.cycle, noFlush, Fifo.statusCntN, passes, pushes, pops,
      Bool.false_eq_true, if_false] using count
  · intro altera isFirst
    apply holds.first_cycle respects altera
    simpa [Fifo.cycle, noFlush] using isFirst
  · intro altera x rest after
    have seen := holds.shown_cycle respects fresh altera after
    simpa [Fifo.cycle, noFlush] using seen

/-- Without a flush a cycle pops the oldest word and appends the pushed one. -/
theorem Fifo.Holds.cycle (holds : f.Holds cfg xs) (respects : i.Respects depth xs)
    (fresh : ¬f.Stale cfg i) (noFlush : i.flush = false) (zero : α) :
    (f.cycle cfg i zero).Holds cfg (i.after xs) :=
  holds.cycle_plain respects (fun stale => absurd stale fresh) noFlush zero

/-! ## The queue falls through -/

/-- The words that can be popped in this cycle. -/
def FifoIn.shown (i : FifoIn α) (xs : List α) : List α := xs ++ if i.push then [i.data] else []

omit [NeZero depth] in
theorem FifoIn.shown_tail (nonempty : i.pop = true → xs ≠ []) :
    (if i.pop then (i.shown xs).tail else i.shown xs) = i.after xs := by
  unfold FifoIn.shown FifoIn.after
  cases pop : i.pop with
  | false => rfl
  | true =>
      obtain ⟨x, rest, rfl⟩ := List.exists_cons_of_ne_nil (nonempty pop)
      rfl

theorem Fifo.Holds.empty_fall (holds : f.Holds cfg xs) (fall : cfg.fallThrough = true) :
    f.empty cfg i.push = true ↔ i.shown xs = [] := by
  rw [Fifo.empty, holds.count, fall, FifoIn.shown]
  cases i.push <;> cases xs <;> simp

theorem Fifo.Holds.dataO_fall (holds : f.Holds cfg xs) (fall : cfg.fallThrough = true) {x : α}
    {rest : List α} (front : i.shown xs = x :: rest) : f.dataO cfg i = x := by
  rw [Fifo.dataO, holds.count, fall]
  cases xs with
  | nil =>
      cases push : i.push with
      | true =>
          obtain ⟨rfl, _⟩ : i.data = x ∧ [] = rest := by simpa [FifoIn.shown, push] using front
          rfl
      | false => simp [FifoIn.shown, push] at front
  | cons y more =>
      obtain ⟨rfl, _⟩ : y = x ∧ _ = rest := by simpa [FifoIn.shown] using front
      simpa using holds.stored

/-- A word that is pushed into the empty queue and popped at once leaves it empty. -/
theorem Fifo.Holds.cycle_pass (holds : f.Holds cfg []) (passes : f.passes cfg i = true)
    (pop : i.pop = true) (noFlush : i.flush = false) (zero : α) :
    (f.cycle cfg i zero).Holds cfg [] where
  array := Ring.Holds.nil _ _
  write := by
    have write := holds.write
    simpa [Fifo.cycle, noFlush, Fifo.writePointerN, Fifo.readPointerN, passes, pop] using write
  count := by
    have count := holds.count
    simpa [Fifo.cycle, noFlush, Fifo.statusCntN, passes, pop] using count
  first _ isFirst := by simp [Fifo.cycle, Fifo.firstWordN, passes, pop] at isFirst
  shown _ _ _ same := by cases same

/-- A cycle of the queue that falls through either passes a word on or is plain. -/
theorem Fifo.Holds.cycle_shown (holds : f.Holds cfg xs) (fall : cfg.fallThrough = true)
    (room : i.push = true → xs.length < depth) (some : i.pop = true → i.shown xs ≠ [])
    (fresh : f.Stale cfg i → f.mem (f.readPointer + 1) = i.data) (noFlush : i.flush = false)
    (zero : α) :
    (f.cycle cfg i zero).Holds cfg (if i.pop then (i.shown xs).tail else i.shown xs) := by
  cases pass : f.passes cfg i && i.pop with
  | true =>
      obtain ⟨passes, pop⟩ := Bool.and_eq_true_iff.mp pass
      have empty : xs = [] ∧ i.push = true := by
        rw [Fifo.passes, holds.count, fall] at passes
        simpa using passes
      obtain ⟨rfl, push⟩ := empty
      simpa [pop, push, FifoIn.shown] using holds.cycle_pass passes pop noFlush zero
  | false =>
      have nonempty : i.pop = true → xs ≠ [] := by
        rintro pop rfl
        have push : i.push = true := by
          by_contra idle
          exact some pop (by simp [FifoIn.shown, idle])
        simp [Fifo.passes, holds.count, fall, push, pop] at pass
      rw [FifoIn.shown_tail nonempty]
      exact holds.cycle_plain ⟨room, nonempty⟩ fresh noFlush zero

theorem Fifo.Holds.cycle_fall (holds : f.Holds cfg xs) (fall : cfg.fallThrough = true)
    (noAltera : cfg.altera = false) (room : i.push = true → xs.length < depth)
    (some : i.pop = true → i.shown xs ≠ []) (noFlush : i.flush = false) (zero : α) :
    (f.cycle cfg i zero).Holds cfg (if i.pop then (i.shown xs).tail else i.shown xs) := by
  apply holds.cycle_shown fall room some _ noFlush zero
  rintro ⟨altera, _⟩
  rw [noAltera] at altera
  cases altera

/-- A flush empties the queue. -/
theorem Fifo.Holds.cycle_flush (flush : i.flush = true) (zero : α) :
    (f.cycle cfg i zero).Holds cfg [] where
  array := Ring.Holds.nil _ _
  write := by simp [Fifo.cycle, flush]
  count := by simp [Fifo.cycle, flush]
  first _ impossible := by simp [Fifo.cycle, flush] at impossible
  shown _ x rest same := by cases same

end Holds

end Cva6
