import RiscvCores.Cva6.Scoreboard

/-!
# The two halves of a macro move

`cm.mvsa01` and `cm.mva01s` are two micro-operations.  The scoreboard keeps the
first half invalid when it is written back and validates it with the second
half.  Write-backs are numbered in the order in which `issue_fifo` handles them,
cycle by cycle and port by port.
-/

set_option autoImplicit false

namespace Cva6.Scoreboard

variable {cfg : BackendCfg}

/-! ## Numbered write-backs -/

/-- The number of write-backs so far, and for each slot the last one of the
instruction it holds. -/
structure WriteBacks (cfg : BackendCfg) where
  count : Nat
  last : TransId cfg → Option Nat

def WriteBacks.port (s : State cfg) (w : WriteBacks cfg) (port : WbPort cfg) :
    WriteBacks cfg :=
  if wbTakes s port then
    { count := w.count + 1
      last := fun k => if k = port.transId then some w.count else w.last k }
  else w

/-- The slot loses its instruction or receives another one in this cycle. -/
def slotChanges (s : State cfg) (i : Input cfg) (k : TransId cfg) : Bool :=
  issuedTo s i k || committedFrom s i k || i.flush

def WriteBacks.cycle (w : WriteBacks cfg) (now : State cfg × Input cfg) : WriteBacks cfg :=
  let w := ((List.finRange cfg.nrWbPorts).map now.2.wb).foldl (WriteBacks.port now.1) w
  { w with last := fun k => if slotChanges now.1 now.2 k then none else w.last k }

def writeBacks (cycles : List (State cfg × Input cfg)) : WriteBacks cfg :=
  cycles.foldl WriteBacks.cycle { count := 0, last := fun _ => none }

/-- Every number was given to an earlier write-back. -/
def WriteBacks.Below (w : WriteBacks cfg) : Prop :=
  ∀ k n, w.last k = some n → n < w.count

theorem WriteBacks.Below.port {w : WriteBacks cfg} (below : w.Below) (s : State cfg)
    (port : WbPort cfg) : (w.port s port).Below := by
  intro k n stamp
  unfold WriteBacks.port at stamp ⊢
  split_ifs at stamp ⊢ with takes
  · dsimp only at stamp ⊢
    split_ifs at stamp
    · cases stamp
      exact Nat.lt_succ_self _
    · exact Nat.lt_succ_of_lt (below k n stamp)
  · exact below k n stamp

theorem WriteBacks.Below.ports {w : WriteBacks cfg} (below : w.Below) (s : State cfg)
    (ports : List (WbPort cfg)) : (ports.foldl (WriteBacks.port s) w).Below := by
  induction ports generalizing w with
  | nil => exact below
  | cons port ports ih => exact ih (below.port s port)

theorem writeBacks_append (cycles : List (State cfg × Input cfg)) (now : State cfg × Input cfg) :
    writeBacks (cycles ++ [now]) = (writeBacks cycles).cycle now := by
  simp [writeBacks]

theorem WriteBacks.cycle_last (w : WriteBacks cfg) (s : State cfg) (i : Input cfg)
    (k : TransId cfg) :
    (w.cycle (s, i)).last k = if slotChanges s i k then none else
      (((List.finRange cfg.nrWbPorts).map i.wb).foldl (WriteBacks.port s) w).last k := rfl

theorem writeBacks_below (cycles : List (State cfg × Input cfg)) :
    (writeBacks cycles).Below := by
  induction cycles using List.reverseRecOn with
  | nil => intro k n stamp; cases stamp
  | append_singleton cycles now ih =>
      intro k n stamp
      rw [writeBacks_append] at stamp ⊢
      rw [show now = (now.1, now.2) from rfl, WriteBacks.cycle_last] at stamp
      split_ifs at stamp
      exact ih.ports now.1 _ k n stamp

/-- The number of the last write-back of the instruction in slot `k`. -/
def writtenBack (cycles : List (State cfg × Input cfg)) (k : TransId cfg) : Option Nat :=
  (writeBacks cycles).last k

/-- The second half of a macro move. -/
def isSecondHalf (entry : SbMem cfg) : Bool :=
  isDoubleMacro entry && entry.sbe.isLastMacroInstr

/-- The first half of a macro move. -/
def isFirstHalf (entry : SbMem cfg) : Bool :=
  isDoubleMacro entry && !entry.sbe.isLastMacroInstr

/-- The scoreboard holds the halves of one macro move in the slots before `j` and `j`. -/
def HoldsMove (s : State cfg) (j : TransId cfg) : Prop :=
  (s.mem (j - 1)).issued = true ∧ isFirstHalf (s.mem (j - 1)) = true ∧
    (s.mem j).issued = true ∧ isSecondHalf (s.mem j) = true

instance (s : State cfg) (j : TransId cfg) : Decidable (HoldsMove s j) :=
  inferInstanceAs (Decidable (_ ∧ _ ∧ _ ∧ _))

/-! ## What one write-back does -/

@[simp] theorem wbData_valid (s : State cfg) (i : Input cfg) (port : WbPort cfg)
    (entry : SbMem cfg) : (wbData s i port entry).sbe.valid = entry.sbe.valid := rfl

theorem wbStep_valid (s : State cfg) (i : Input cfg) (mem : Mem cfg) (port : WbPort cfg)
    (takes : wbTakes s port = true) (k : TransId cfg) :
    (wbStep s i mem port k).sbe.valid = (wbValid s port.transId mem k).sbe.valid := by
  rw [wbStep, if_pos takes]
  by_cases same : k = port.transId
  · simp [same]
  · rw [Mem.modify_other _ _ same]

theorem setValid_modify_valid (mem : Mem cfg) (k k' : TransId cfg) (valid : Bool) :
    (mem.modify k (setValid valid) k').sbe.valid =
      if k' = k then valid else (mem k').sbe.valid := by
  by_cases same : k' = k
  · simp [same]
  · rw [Mem.modify_other _ _ same, if_neg same]

/-- A write-back takes the valid bit from its own slot only. -/
theorem wbStep_keeps_valid (s : State cfg) (i : Input cfg) (mem : Mem cfg)
    (port : WbPort cfg) (k : TransId cfg) (other : wbTakes s port = true → k ≠ port.transId)
    (valid : (mem k).sbe.valid = true) : (wbStep s i mem port k).sbe.valid = true := by
  by_cases takes : wbTakes s port = true
  · rw [wbStep_valid s i mem port takes, wbValid]
    split_ifs
    · cases precedingIndex port.transId <;>
        simp [setValid_modify_valid, other takes, valid]
    · simp [setValid_modify_valid, other takes, valid]
    · simp [setValid_modify_valid, other takes, valid]
  · rw [wbStep, if_neg takes]
    exact valid

/-- The write-back of a second half validates its slot and the preceding one. -/
theorem wbStep_secondHalf (s : State cfg) (i : Input cfg) (mem : Mem cfg)
    (port : WbPort cfg) (takes : wbTakes s port = true)
    (second : isSecondHalf (s.mem port.transId) = true) :
    (wbStep s i mem port port.transId).sbe.valid = true ∧
      ∀ first, precedingIndex port.transId = some first →
        (wbStep s i mem port first).sbe.valid = true := by
  obtain ⟨double, last⟩ : isDoubleMacro (s.mem port.transId) = true ∧
      (s.mem port.transId).sbe.isLastMacroInstr = true := by
    simpa [isSecondHalf] using second
  constructor
  · rw [wbStep_valid s i mem port takes, wbValid, if_pos double, if_pos last]
    cases precedingIndex port.transId <;> simp [setValid_modify_valid]
  · intro first preceding
    rw [wbStep_valid s i mem port takes, wbValid, if_pos double, if_pos last, preceding]
    simp

/-! ## The write-back block -/

theorem WriteBacks.port_last {s : State cfg} (w : WriteBacks cfg) {port : WbPort cfg}
    (takes : wbTakes s port = true) (k : TransId cfg) :
    (w.port s port).last k = if k = port.transId then some w.count else w.last k := by
  simp [WriteBacks.port, takes]

/-- The slot of a written-back second half is valid. -/
def SecondValid (second : TransId cfg) (mem : Mem cfg) (w : WriteBacks cfg) : Prop :=
  (w.last second).isSome = true → (mem second).sbe.valid = true

/-- So is the slot before it, if it was written back earlier. -/
def FirstValid (first second : TransId cfg) (mem : Mem cfg) (w : WriteBacks cfg) : Prop :=
  ∀ a b, w.last first = some a → w.last second = some b → a < b →
    (mem first).sbe.valid = true

section Ports

variable {s : State cfg} {i : Input cfg} {mem : Mem cfg} {w : WriteBacks cfg}
  {first second : TransId cfg}

theorem SecondValid.wbStep (isSecond : isSecondHalf (s.mem second) = true)
    (port : WbPort cfg) (inv : SecondValid second mem w) :
    SecondValid second (wbStep s i mem port) (w.port s port) := by
  by_cases takes : wbTakes s port = true
  · intro written
    by_cases same : second = port.transId
    · subst same
      exact (wbStep_secondHalf s i mem port takes isSecond).1
    · rw [w.port_last takes, if_neg same] at written
      exact wbStep_keeps_valid s i mem port second (fun _ => same) (inv written)
  · simpa [Scoreboard.wbStep, WriteBacks.port, takes] using inv

theorem FirstValid.wbStep (isSecond : isSecondHalf (s.mem second) = true)
    (before : precedingIndex second = some first) (below : w.Below) (port : WbPort cfg)
    (inv : FirstValid first second mem w) :
    FirstValid first second (wbStep s i mem port) (w.port s port) := by
  by_cases takes : wbTakes s port = true
  · intro a b firstStamp secondStamp order
    rw [w.port_last takes] at firstStamp secondStamp
    by_cases same : second = port.transId
    · subst same
      exact (wbStep_secondHalf s i mem port takes isSecond).2 first before
    · rw [if_neg same] at secondStamp
      -- a first half written back now would be the later one
      have otherFirst : first ≠ port.transId := by
        intro now
        rw [if_pos now] at firstStamp
        cases firstStamp
        exact Nat.lt_asymm order (below second b secondStamp)
      rw [if_neg otherFirst] at firstStamp
      exact wbStep_keeps_valid s i mem port first (fun _ => otherFirst)
        (inv a b firstStamp secondStamp order)
  · simpa [Scoreboard.wbStep, WriteBacks.port, takes] using inv

/-- The write-back block and the numbering go through the ports together. -/
theorem wbBlock_induction (s : State cfg) (i : Input cfg) {inv : Mem cfg → WriteBacks cfg → Prop}
    (step : ∀ mem w port, WriteBacks.Below w → inv mem w →
      inv (Scoreboard.wbStep s i mem port) (w.port s port))
    (below : w.Below) (start : inv mem w) :
    inv (wbBlock s i mem)
      (((List.finRange cfg.nrWbPorts).map i.wb).foldl (WriteBacks.port s) w) := by
  unfold wbBlock
  induction (List.finRange cfg.nrWbPorts).map i.wb generalizing mem w with
  | nil => exact start
  | cons port ports ih => exact ih (below.port s port) (step mem w port below start)

end Ports

/-! ## One cycle -/

/-- The buffer in front of the write-backs. -/
def beforeWb (s : State cfg) (i : Input cfg) : Mem cfg :=
  fuNoneBlock s (issueBlock s i s.mem)

theorem slotChanges_eq_false {s : State cfg} {i : Input cfg} {k : TransId cfg} :
    slotChanges s i k = false ↔
      issuedTo s i k = false ∧ committedFrom s i k = false ∧ i.flush = false := by
  simp [slotChanges, and_assoc]

/-- In a slot that keeps its instruction, only the write-backs change the valid
bit and the macro flags. -/
theorem next_mem_valid {s : State cfg} {i : Input cfg} {k : TransId cfg}
    (keeps : slotChanges s i k = false) :
    ((next s i).mem k).sbe.valid = (wbBlock s i (beforeWb s i) k).sbe.valid ∧
      isSecondHalf ((next s i).mem k) = isSecondHalf (wbBlock s i (beforeWb s i) k) := by
  obtain ⟨_, stays, noFlush⟩ := slotChanges_eq_false.mp keeps
  have committed : memN s i k = cancelBlock s i (wbBlock s i (beforeWb s i)) k := by
    rw [memN, flushBlock, if_neg (by simp [noFlush]), commitBlock_other s i _ k stays]
    rfl
  have registered : ((next s i).mem k).sbe.valid = (memN s i k).sbe.valid ∧
      isSecondHalf ((next s i).mem k) = isSecondHalf (memN s i k) := by
    simp only [next, registeredMem, Mem.modify]
    split_ifs <;> exact ⟨rfl, rfl⟩
  rw [registered.1, registered.2, committed]
  unfold cancelBlock
  split_ifs
  · simp only [Mem.modify]
    split_ifs <;> exact ⟨rfl, rfl⟩
  · exact ⟨rfl, rfl⟩

theorem wbStep_isSecondHalf (s : State cfg) (i : Input cfg) (mem : Mem cfg)
    (port : WbPort cfg) (k : TransId cfg) :
    isSecondHalf (wbStep s i mem port k) = isSecondHalf (mem k) := by
  have setValid_flags : ∀ (mem : Mem cfg) (slot : TransId cfg) (valid : Bool),
      isSecondHalf (mem.modify slot (setValid valid) k) = isSecondHalf (mem k) := by
    intro mem slot valid
    simp only [Mem.modify]
    split_ifs <;> rfl
  have wbValid_flags : isSecondHalf (wbValid s port.transId mem k) = isSecondHalf (mem k) := by
    unfold wbValid
    split_ifs
    · cases precedingIndex port.transId <;> simp only [setValid_flags]
    · exact setValid_flags mem _ _
    · exact setValid_flags mem _ _
  unfold wbStep
  split_ifs
  · by_cases same : k = port.transId
    · subst same
      rw [Mem.modify_same, ← wbValid_flags]
      rfl
    · rw [Mem.modify_other _ _ same, wbValid_flags]
  · rfl

theorem wbBlock_isSecondHalf (s : State cfg) (i : Input cfg) (mem : Mem cfg)
    (k : TransId cfg) : isSecondHalf (wbBlock s i mem k) = isSecondHalf (mem k) := by
  unfold wbBlock
  induction (List.finRange cfg.nrWbPorts).map i.wb generalizing mem with
  | nil => rfl
  | cons port ports ih => rw [List.foldl_cons, ih, wbStep_isSecondHalf]

/-- In front of the write-backs a slot that is not issued to has lost nothing. -/
theorem beforeWb_other {s : State cfg} {i : Input cfg} {k : TransId cfg}
    (keeps : issuedTo s i k = false) :
    ((s.mem k).sbe.valid = true → (beforeWb s i k).sbe.valid = true) ∧
      isSecondHalf (beforeWb s i k) = isSecondHalf (s.mem k) := by
  simp only [beforeWb, fuNoneBlock, issueBlock_other s i s.mem k keeps]
  split_ifs
  · exact ⟨fun _ => rfl, rfl⟩
  · exact ⟨id, rfl⟩

/-! ## Runs -/

/-- Every second half in the buffer is valid once it is written back, and so is
the slot before it once it was written back before. -/
def MovesValid (s : State cfg) (w : WriteBacks cfg) : Prop :=
  ∀ second, isSecondHalf (s.mem second) = true → SecondValid second s.mem w ∧
    ∀ first, precedingIndex second = some first → FirstValid first second s.mem w

theorem MovesValid.cycle {s : State cfg} {w : WriteBacks cfg} (below : w.Below)
    (inv : MovesValid s w) (i : Input cfg) : MovesValid (next s i) (w.cycle (s, i)) := by
  intro second isSecond
  by_cases changes : slotChanges s i second = true
  · have noStamp : (w.cycle (s, i)).last second = none := by
      rw [WriteBacks.cycle_last, if_pos changes]
    constructor
    · intro written
      rw [noStamp] at written
      cases written
    · intro first _ a b _ stamp
      rw [noStamp] at stamp
      cases stamp
  have keeps : slotChanges s i second = false := by simpa using changes
  obtain ⟨notIssued, _, _⟩ := slotChanges_eq_false.mp keeps
  have wasSecond : isSecondHalf (s.mem second) = true := by
    rw [(next_mem_valid keeps).2, wbBlock_isSecondHalf, (beforeWb_other notIssued).2]
      at isSecond
    exact isSecond
  obtain ⟨secondValid, firstValid⟩ := inv second wasSecond
  constructor
  · have start : SecondValid second (beforeWb s i) w :=
      fun written => (beforeWb_other notIssued).1 (secondValid written)
    have after := wbBlock_induction s i
      (fun _ _ port _ => SecondValid.wbStep wasSecond port) below start
    intro written
    rw [WriteBacks.cycle_last, if_neg changes] at written
    rw [(next_mem_valid keeps).1]
    exact after written
  · intro first before a b firstStamp secondStamp order
    rw [WriteBacks.cycle_last] at firstStamp secondStamp
    split_ifs at firstStamp secondStamp with firstChanges
    have firstKeeps : slotChanges s i first = false := by simpa using firstChanges
    obtain ⟨firstNotIssued, _, _⟩ := slotChanges_eq_false.mp firstKeeps
    have start : FirstValid first second (beforeWb s i) w :=
      fun a b firstStamp secondStamp order => (beforeWb_other firstNotIssued).1
        (firstValid first before a b firstStamp secondStamp order)
    have after := wbBlock_induction s i
      (fun _ _ port below => FirstValid.wbStep wasSecond before below port) below start
    rw [(next_mem_valid firstKeeps).1]
    exact after a b firstStamp secondStamp order

theorem movesValid_of_run {cycles : List (State cfg × Input cfg)} {s : State cfg}
    (run : (machine cfg).Run cycles s) : MovesValid s (writeBacks cycles) := by
  refine run.invariant (fun cycles s => MovesValid s (writeBacks cycles)) ?_ ?_
  · intro second isSecond
    cases isSecond
  · intro cycles s i _ inv _
    rw [writeBacks_append]
    exact inv.cycle (writeBacks_below cycles) i

/-- Up to 8 bits the wide subtraction is the predecessor, except at index 0. -/
theorem precedingIndex_of_pos {j : TransId cfg} (positive : 0 < j.val) (narrow : j.val < 256) :
    precedingIndex j = some (j - 1) := by
  have inside : j.val - 1 < cfg.nrSbEntries := Nat.lt_of_le_of_lt (Nat.sub_le _ _) j.isLt
  have one : (1 : TransId cfg).val = 1 := by
    rw [Fin.val_one']
    exact Nat.mod_eq_of_lt (by omega)
  have index : ((BitVec.ofNat 8 j.val).setWidth 32 - 1#32).toNat = j.val - 1 := by
    rw [BitVec.toNat_sub]
    simp only [BitVec.toNat_setWidth, BitVec.toNat_ofNat]
    omega
  have predecessor : (j - 1).val = j.val - 1 := by
    rw [Fin.sub_val_of_le (Fin.le_def.mpr (by omega)), one]
  simp only [precedingIndex, index, inside, dite_true, Option.some.injEq]
  exact Fin.ext predecessor.symm

/-- In every run, when the halves of a macro move are in the slots before `j` and
`j` with `0 < j < 256` and the first half was written back before the second,
both are valid. -/
theorem macroMove_valid {cycles : List (State cfg × Input cfg)} {s : State cfg}
    (run : (machine cfg).Run cycles s) (j : TransId cfg) (positive : 0 < j.val)
    (narrow : j.val < 256) (move : HoldsMove s j) (first second : Nat)
    (firstWritten : writtenBack cycles (j - 1) = some first)
    (secondWritten : writtenBack cycles j = some second) (order : first < second) :
    (s.mem (j - 1)).sbe.valid = true ∧ (s.mem j).sbe.valid = true := by
  obtain ⟨_, _, _, isSecond⟩ := move
  obtain ⟨secondValid, firstValid⟩ := movesValid_of_run run j isSecond
  constructor
  · exact firstValid (j - 1) (precedingIndex_of_pos positive narrow) first second
      firstWritten secondWritten order
  · have written : (writeBacks cycles).last j = some second := secondWritten
    exact secondValid (by rw [written]; rfl)

/-! ## A macro move across the end of the buffer -/

section Wrapped

/-- Four entries and single ports. -/
def singlePortCfg : BackendCfg where
  xlen := 32
  vlen := 32
  transIdBits := 2
  nrIssuePorts := 1
  nrCommitPorts := 1
  nrWbPorts := 1
  fpPresent := false
  debugEn := false
  speculativeSb := false

/-- `addi rd, rs1, 0` -/
def move (rd rs1 : BitVec 5) : ScoreboardEntry singlePortCfg :=
  { fu := .alu, op := .add, rs1 := rs1, rd := rd, useImm := true }

/-- The halves of `cm.mvsa01 s0, s1`. -/
def firstMove : ScoreboardEntry singlePortCfg :=
  { move 8 10 with isMacroInstr := true, isDoubleRdMacroInstr := true }

def secondMove : ScoreboardEntry singlePortCfg :=
  { move 9 11 with
    isMacroInstr := true, isDoubleRdMacroInstr := true, isLastMacroInstr := true }

/-- Issue an instruction, write back a slot, commit the oldest slot. -/
def drive (issue : Option (ScoreboardEntry singlePortCfg))
    (writeBack : Option (TransId singlePortCfg)) (commit : Bool) : Input singlePortCfg where
  commitAck := fun _ => commit
  decodedInstr := fun _ => issue.getD {}
  decodedInstrValid := fun _ => issue.isSome
  issueAck := fun _ => issue.isSome
  wb := fun _ => { wtValid := writeBack.isSome, transId := writeBack.getD 0 }

/-- The first half is written back from slot 3, the second half from slot 0. -/
def wrappedMove : List (Input singlePortCfg) :=
  [drive (some (move 5 6)) none false,
    drive (some (move 6 7)) (some 0) false,
    drive (some (move 7 5)) (some 1) true,
    drive (some firstMove) (some 2) true,
    drive (some secondMove) (some 3) true,
    drive none (some 0) false]

/-- The halves in slots 1 and 2. -/
def innerMove : List (Input singlePortCfg) :=
  [drive (some (move 5 6)) none false,
    drive (some firstMove) (some 0) false,
    drive (some secondMove) (some 1) true,
    drive none (some 2) false]

theorem macroMove_valid_inner :
    let s := (machine singlePortCfg).after reset innerMove
    (s.mem (2 - 1)).sbe.valid = true ∧ (s.mem 2).sbe.valid = true :=
  macroMove_valid (Clocked.Machine.run_of_accepts innerMove (by decide +kernel)) 2
    (by decide) (by decide) (by decide +kernel) 1 2 (by decide +kernel) (by decide +kernel)
    (by decide)

theorem macroMove_wrapped_stuck :
    ¬ ∀ (cfg : BackendCfg) (cycles : List (State cfg × Input cfg)) (s : State cfg)
        (j : TransId cfg), (machine cfg).Run cycles s → HoldsMove s j →
      (writtenBack cycles (j - 1)).isSome = true → (writtenBack cycles j).isSome = true →
        (s.mem (j - 1)).sbe.valid = true ∧ (s.mem j).sbe.valid = true := by
  intro claim
  have run : (machine singlePortCfg).Run _ _ :=
    Clocked.Machine.run_of_accepts wrappedMove (by decide +kernel)
  have valid := claim singlePortCfg _ _ 0 run (by decide +kernel) (by decide +kernel)
    (by decide +kernel)
  revert valid
  decide +kernel

end Wrapped

end Cva6.Scoreboard
