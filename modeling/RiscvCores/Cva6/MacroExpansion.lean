import Mathlib.Data.List.Range
import RiscvCores.Cva6.MacroDecoder

/-!
# Delivery of the expansion of a macro instruction

The expansion of a macro instruction is what `macro_decoder` shows from reset when
every cycle brings an acknowledge.  In a run whose cycles all start, continue and
flush expansions cleanly, each macro instruction that is consumed has delivered
exactly its expansion.
-/

set_option autoImplicit false

namespace Cva6.Zcmp

/-! ## Legal macro instructions -/

/-- The type of a macro instruction that is not reserved. -/
def legalType (m : BitVec 32) : Option MacroInstrType :=
  if isMacroInstr m then
    match macroInstrType m with
    | some type =>
        if type.isMove then if sameSaved m then none else some type
        else if regNumbers m = 0 then none else some type
    | none => none
  else none

/-- The decoder sees the macro instruction `m` of the given type. -/
structure Sees (i : MacroIn) (m : BitVec 32) (type : MacroInstrType) : Prop where
  expanded : i.expanded = { instr := m, illegal := false, isCompressed := true, isMacro := true }
  typed : macroInstrType m = some type
  distinct : type.isMove = true → sameSaved m = false
  listed : type.isMove = false → regNumbers m ≠ 0

section Sees

variable {i : MacroIn} {m : BitVec 32} {type : MacroInstrType}

theorem Sees.isMacro (sees : Sees i m type) : i.expanded.isMacro = true := by
  rw [sees.expanded]

theorem Sees.instr (sees : Sees i m type) : i.expanded.instr = m := by
  rw [sees.expanded]

theorem Sees.currentType (sees : Sees i m type) : currentType i = type := by
  rw [Zcmp.currentType, if_pos sees.isMacro, sees.instr, sees.typed, Option.getD_some]

theorem Sees.illegalBefore (sees : Sees i m type) : illegalBefore i = false := by
  rw [Zcmp.illegalBefore, if_pos sees.isMacro, sees.currentType, sees.instr, sees.typed]
  cases move : type.isMove
  · rfl
  · simp [sees.distinct move]

theorem Sees.outBefore (sees : Sees i m type) :
    outBefore i =
      { instr := i.latched.instrOReg, illegal := false, isCompressed := true
        fetchStall := false, isLast := false, isDoubleRd := false } := by
  simp [Zcmp.outBefore, sees.isMacro, sees.illegalBefore]

theorem Sees.currentXreg (sees : Sees i m type) (move : type.isMove = true) :
    currentXreg1 i = xreg1 m ∧ currentXreg2 i = xreg2 m := by
  simp [currentXreg1, currentXreg2, sees.instr, sees.distinct move]

end Sees

/-! ## One acknowledged step -/

def MacroInstrType.isRet : MacroInstrType → Bool
  | .popretz | .popret => true
  | _ => false

/-- Registers that an expansion of the given type can be in, when it is under way. -/
structure Fits (type : MacroInstrType) (r : MacroRegs) : Prop where
  move : r.state = .move ↔ type.isMove = true
  listed : r.state = .init ∨ r.state = .pushPopInstr2 →
    r.regNumbersQ ≠ 0 ∧ r.regNumbersQ ≤ 12
  returns : type.isRet = true → r.popretzInstQ ≠ 0
  ret : r.state = .popretz1 → type.isRet = true

/-- Registers that agree where an expansion of the given type reads them. -/
structure Agrees (type : MacroInstrType) (r r' : MacroRegs) : Prop where
  state : r.state = r'.state
  regNumbersQ : r.regNumbersQ = r'.regNumbersQ
  storeRegQ : r.storeRegQ = r'.storeRegQ
  offsetQ : type.isMove = false → r.offsetQ = r'.offsetQ
  popretzInstQ : type.isRet = true → r.popretzInstQ = r'.popretzInstQ

/-- One step of two decoders: the same output, agreeing registers that fit until the
expansion ends, and a stall until it ends. -/
structure SameStep (type : MacroInstrType) (step step' : MacroOut × MacroRegs) : Prop where
  out : step.1 = step'.1
  regs : Agrees type step.2 step'.2
  fits : step.2.state ≠ .idle → Fits type step.2
  stalls : step.1.fetchStall = false ↔ step.2.state = .idle

section Step

variable {xlen64 : Bool} {r r' : MacroRegs} {i i' : MacroIn} {m : BitVec 32}
  {type : MacroInstrType}

theorem stepMove_same (sees : Sees i m type) (sees' : Sees i' m type)
    (ack : i.issueAck = true) (ack' : i'.issueAck = true) (agrees : Agrees type r r')
    (move : type.isMove = true) : SameStep type (stepMove r i) (stepMove r' i') := by
  have xreg := sees.currentXreg move
  have xreg' := sees'.currentXreg move
  refine ⟨?_, ?_, ?_, ?_⟩ <;>
    simp only [stepMove, sees.currentType, sees'.currentType, sees.outBefore, sees'.outBefore,
      move, ack, ack', xreg.2, xreg'.2, if_true]
  · exact ⟨rfl, agrees.regNumbersQ, agrees.storeRegQ, agrees.offsetQ, agrees.popretzInstQ⟩
  · intro busy
    exact absurd rfl busy

theorem savedReg_isSome {number : BitVec 4} (storeReg : BitVec 5) (positive : number ≠ 0)
    (atMost : number ≤ 12) : ∃ reg, savedReg number storeReg = some reg := by
  unfold savedReg
  split_ifs with one two three rest
  · exact ⟨_, rfl⟩
  · exact ⟨_, rfl⟩
  · exact ⟨_, rfl⟩
  · exact ⟨_, rfl⟩
  · revert one two three rest positive atMost
    revert number
    decide

theorem afterRegisters_fits (list : type.isMove = false)
    (returns : type.isRet = true → r.popretzInstQ ≠ 0) :
    Fits type { r with state := afterRegisters type } where
  move := by cases type <;> simp_all [afterRegisters, MacroInstrType.isMove]
  listed := by
    intro state
    simp only [afterRegisters] at state
    split_ifs at state <;> simp at state
  returns := returns
  ret := by
    intro state
    simp only [afterRegisters] at state
    split_ifs at state with popretz
    · rw [popretz]
      rfl

theorem stepInit_same (sees : Sees i m type) (sees' : Sees i' m type)
    (ack : i.issueAck = true) (ack' : i'.issueAck = true) (agrees : Agrees type r r')
    (fits : Fits type r) (init : r.state = .init) :
    SameStep type (stepInit xlen64 r i) (stepInit xlen64 r' i') := by
  obtain ⟨state, regNumbersQ, storeRegQ, offsetQ, popretzInstQ⟩ := agrees
  have list : type.isMove = false := by
    by_contra move
    rw [Bool.not_eq_false, ← fits.move, init] at move
    cases move
  obtain ⟨positive, atMost⟩ := fits.listed (.inl init)
  obtain ⟨reg, saved⟩ := savedReg_isSome r.storeRegQ positive atMost
  have offset := offsetQ list
  have keepsFits : ∀ number : BitVec 4, number ≠ 0 → number ≤ 12 → ∀ offset store,
      Fits type { r with regNumbersQ := number, offsetQ := offset, storeRegQ := store } :=
    fun number nonzero small offset store =>
      ⟨fits.move, fun _ => ⟨nonzero, small⟩, fits.returns, fits.ret⟩
  simp only [stepInit, sees.currentType, sees'.currentType, sees.outBefore, sees'.outBefore,
    sees.isMacro, sees'.isMacro, ack, ack', list, ← regNumbersQ, ← storeRegQ, ← offset, saved,
    Bool.and_self, Bool.not_false, if_true]
  by_cases one : r.regNumbersQ = 1
  · simp only [if_pos one]
    refine ⟨rfl, ⟨rfl, rfl, rfl, fun _ => rfl, popretzInstQ⟩, ?_, ?_⟩
    · exact fun _ => afterRegisters_fits list fits.returns
    · cases type <;> simp [MacroOut.show, afterRegisters]
  by_cases low : r.regNumbersQ = 2 ∨ r.regNumbersQ = 3
  · simp only [if_neg one, if_pos low]
    have below : r.regNumbersQ - 1 ≠ 0 ∧ r.regNumbersQ - 1 ≤ 12 := by
      rcases low with two | three
      · rw [two]
        decide
      · rw [three]
        decide
    refine ⟨rfl, ⟨state, rfl, rfl, fun _ => rfl, popretzInstQ⟩, ?_, ?_⟩
    · exact fun _ => keepsFits _ below.1 below.2 _ _
    · simp [MacroOut.show, init]
  · have high : 4 ≤ r.regNumbersQ ∧ r.regNumbersQ ≤ 12 := by
      revert one low positive atMost
      generalize r.regNumbersQ = number
      revert number
      decide
    have below : r.regNumbersQ - 1 ≠ 0 ∧ r.regNumbersQ - 1 ≤ 12 := by
      revert high
      generalize r.regNumbersQ = number
      revert number
      decide
    simp only [if_neg one, if_neg low, if_pos high]
    refine ⟨rfl, ⟨?_, rfl, rfl, fun _ => rfl, popretzInstQ⟩, ?_, ?_⟩
    · simp only [state]
    · intro _
      by_cases full : r.regNumbersQ = 12
      · simp only [if_pos full]
        refine ⟨?_, fun _ => below, fits.returns, ?_⟩
        · simp [list]
        · intro impossible
          cases impossible
      · simp only [if_neg full]
        exact keepsFits _ below.1 below.2 _ _
    · split_ifs <;> simp [MacroOut.show, init]

theorem stepPushAddi_same (sees : Sees i m type) (sees' : Sees i' m type)
    (ack : i.issueAck = true) (ack' : i'.issueAck = true) (agrees : Agrees type r r')
    (fits : Fits type r) (list : type.isMove = false) :
    SameStep type (stepPushAddi xlen64 r i) (stepPushAddi xlen64 r' i') := by
  obtain ⟨_, regNumbersQ, storeRegQ, offsetQ, popretzInstQ⟩ := agrees
  simp only [stepPushAddi, sees.currentType, sees'.currentType, sees.outBefore,
    sees'.outBefore, sees.isMacro, sees'.isMacro, sees.instr, sees'.instr, ack, ack',
    if_true, Bool.true_and]
  by_cases ret : type = .popretz ∨ type = .popret
  · have isRet : type.isRet = true := by
      rcases ret with rfl | rfl <;> rfl
    simp only [Bool.or_eq_true, decide_eq_true_eq, if_pos ret]
    refine ⟨rfl, ⟨rfl, regNumbersQ, storeRegQ, offsetQ, popretzInstQ⟩, fun _ => ?_, ?_⟩
    · refine ⟨?_, ?_, fits.returns, fun _ => isRet⟩
      · simp [list]
      · intro impossible
        simp at impossible
    · simp
  · simp only [Bool.or_eq_true, decide_eq_true_eq, if_neg ret]
    refine ⟨rfl, ⟨rfl, regNumbersQ, storeRegQ, offsetQ, popretzInstQ⟩, fun busy => ?_, ?_⟩
    · exact absurd rfl busy
    · simp

theorem stepPushPopInstr2_same (sees : Sees i m type) (sees' : Sees i' m type)
    (ack : i.issueAck = true) (ack' : i'.issueAck = true) (agrees : Agrees type r r')
    (fits : Fits type r) (second : r.state = .pushPopInstr2) (list : type.isMove = false) :
    SameStep type (stepPushPopInstr2 xlen64 r i) (stepPushPopInstr2 xlen64 r' i') := by
  obtain ⟨_, regNumbersQ, storeRegQ, offsetQ, popretzInstQ⟩ := agrees
  have listed := fits.listed (.inr second)
  simp only [stepPushPopInstr2, sees.currentType, sees'.currentType, sees.outBefore,
    sees'.outBefore, ack, ack', list, ← storeRegQ, ← offsetQ list, if_true,
    Bool.false_eq_true, if_false]
  refine ⟨rfl, ⟨rfl, regNumbersQ, rfl, fun _ => rfl, popretzInstQ⟩, fun _ => ?_, ?_⟩
  · refine ⟨?_, fun _ => listed, fits.returns, ?_⟩
    · simp [list]
    · intro impossible
      cases impossible
  · simp

theorem stepPopretz1_same (sees : Sees i m type) (sees' : Sees i' m type)
    (ack : i.issueAck = true) (ack' : i'.issueAck = true) (agrees : Agrees type r r')
    (fits : Fits type r) (popretz : r.state = .popretz1) (list : type.isMove = false) :
    SameStep type (stepPopretz1 r i) (stepPopretz1 r' i') := by
  obtain ⟨state, regNumbersQ, storeRegQ, offsetQ, popretzInstQ⟩ := agrees
  have isRet := fits.ret popretz
  have running := fits.returns isRet
  have same := popretzInstQ isRet
  have fitsNext : ∀ inst : BitVec 2, inst ≠ 0 → ∀ state : MacroState,
      state = .popretz1 ∨ state = .pushAddi →
      Fits type { r with popretzInstQ := inst, state := state } := by
    intro inst nonzero state either
    refine ⟨?_, ?_, fun _ => nonzero, fun _ => isRet⟩
    · rcases either with rfl | rfl <;> simp [list]
    · intro impossible
      rcases either with rfl | rfl <;> simp at impossible
  simp only [stepPopretz1, sees.outBefore, sees'.outBefore, ack, ack', ← same, if_true]
  by_cases three : r.popretzInstQ = 3
  · simp only [if_pos three]
    refine ⟨rfl, ⟨state, regNumbersQ, storeRegQ, offsetQ, fun _ => rfl⟩, fun _ => ?_, ?_⟩
    · exact fitsNext _ (by rw [three]; decide) _ (.inl popretz)
    · simp [popretz]
  by_cases two : r.popretzInstQ = 2
  · simp only [if_neg three, if_pos two]
    refine ⟨rfl, ⟨rfl, regNumbersQ, storeRegQ, offsetQ, fun _ => rfl⟩, fun _ => ?_, ?_⟩
    · exact fitsNext _ (by rw [two]; decide) _ (.inr rfl)
    · simp
  · have one : r.popretzInstQ = 1 := by
      revert running three two
      generalize r.popretzInstQ = inst
      revert inst
      decide
    simp only [if_neg three, if_neg two, if_pos one]
    refine ⟨rfl, ⟨rfl, regNumbersQ, storeRegQ, offsetQ, fun _ => rfl⟩, fun busy => ?_, ?_⟩
    · exact absurd rfl busy
    · simp

/-- An acknowledged step of an expansion depends on nothing but the instruction and
the registers the expansion uses. -/
theorem macroDecoder_same (sees : Sees i m type) (sees' : Sees i' m type)
    (ack : i.issueAck = true) (ack' : i'.issueAck = true) (agrees : Agrees type r r')
    (fits : Fits type r) (busy : r.state ≠ .idle) :
    SameStep type (macroDecoder xlen64 r i) (macroDecoder xlen64 r' i') := by
  unfold macroDecoder
  rw [← agrees.state]
  have list : r.state ≠ .move → type.isMove = false := by
    intro notMove
    rw [ne_eq, fits.move, Bool.not_eq_true] at notMove
    exact notMove
  cases state : r.state with
  | idle => exact absurd state busy
  | init => exact stepInit_same sees sees' ack ack' agrees fits state
  | pushAddi =>
      exact stepPushAddi_same sees sees' ack ack' agrees fits (list (by simp [state]))
  | popretz1 =>
      exact stepPopretz1_same sees sees' ack ack' agrees fits state (list (by simp [state]))
  | move => exact stepMove_same sees sees' ack ack' agrees (fits.move.mp state)
  | pushPopInstr2 =>
      exact stepPushPopInstr2_same sees sees' ack ack' agrees fits state
        (list (by simp [state]))

/-- Without an acknowledge an expansion waits. -/
theorem macroDecoder_wait (busy : r.state ≠ .idle) (ack : i.issueAck = false) :
    (macroDecoder xlen64 r i).2 = r := by
  unfold macroDecoder
  cases state : r.state with
  | idle => exact absurd state busy
  | init => simp [stepInit, ack]
  | pushAddi => simp [stepPushAddi, ack]
  | popretz1 =>
      simp only [stepPopretz1, ack, Bool.false_eq_true, if_false]
      split_ifs <;> rfl
  | move =>
      simp only [stepMove, ack, Bool.false_eq_true, if_false]
      split_ifs <;> rfl
  | pushPopInstr2 =>
      simp only [stepPushPopInstr2, ack, Bool.false_eq_true, if_false]
      split_ifs <;> rfl

/-! ## The first step -/

theorem regNumbers_le (m : BitVec 32) : regNumbers m ≤ 12 := by
  unfold regNumbers
  generalize m.extractLsb' 4 4 = rlist
  revert rlist
  decide

/-- The decoder leaves its idle state. -/
def starts (i : MacroIn) : Bool :=
  i.expanded.isMacro && (i.issueAck || (currentType i).isMove ||
    regNumbers i.expanded.instr == 1 || regNumbers i.expanded.instr == 12)

theorem starts_iff (idle : r.state = .idle) :
    (macroDecoder xlen64 r i).2.state ≠ .idle ↔ starts i = true := by
  simp only [macroDecoder, idle, stepIdle, starts]
  cases i.expanded.isMacro
  · simp [idle]
  · cases currentType i <;> cases i.issueAck <;>
      by_cases one : regNumbers i.expanded.instr = 1#4 <;>
      by_cases full : regNumbers i.expanded.instr = 12#4 <;>
      simp [one, full, MacroInstrType.isMove, afterRegisters]

/-- The state an expansion of a register list starts in. -/
def listStart (type : MacroInstrType) (number : BitVec 4) : MacroState :=
  if number = 1 then afterRegisters type else if number = 12 then .pushPopInstr2 else .init

theorem pred_listed : ∀ number : BitVec 4, number ≠ 0 → number ≤ 12 → number ≠ 1 →
    number - 1 ≠ 0 ∧ number - 1 ≤ 12 := by
  decide

theorem listStart_fits (list : type.isMove = false) {number : BitVec 4} (listed : number ≠ 0)
    (atMost : number ≤ 12) {first : MacroRegs} (state : first.state = listStart type number)
    (rest : first.regNumbersQ = number - 1)
    (returns : type.isRet = true → first.popretzInstQ ≠ 0) : Fits type first where
  move := by
    rw [state, listStart]
    split_ifs <;> cases type <;> simp_all [afterRegisters, MacroInstrType.isMove]
  listed := by
    intro more
    rw [state, listStart] at more
    have notOne : number ≠ 1 := by
      intro one
      rw [if_pos one] at more
      cases type <;> simp [afterRegisters] at more
    rw [rest]
    exact pred_listed number listed atMost notOne
  returns := returns
  ret := by
    intro popretz
    rw [state, listStart] at popretz
    split_ifs at popretz
    · cases type <;> simp_all [afterRegisters, MacroInstrType.isRet]

/-- A starting step does what any other decoder does with an acknowledge. -/
theorem stepIdle_same (sees : Sees i m type) (sees' : Sees i' m type)
    (ack' : i'.issueAck = true) (starting : starts i = true) :
    SameStep type (stepIdle xlen64 r i) (stepIdle xlen64 r' i') := by
  have atMost := regNumbers_le m
  by_cases move : type.isMove = true
  · have xreg := sees.currentXreg move
    have xreg' := sees'.currentXreg move
    have fits : ∀ first : MacroRegs, first.state = .move → Fits type first := by
      intro first state
      refine ⟨?_, ?_, ?_, ?_⟩ <;>
        cases type <;> simp_all [MacroInstrType.isMove, MacroInstrType.isRet]
    have agrees : ∀ first first' : MacroRegs, first.state = first'.state →
        first.regNumbersQ = first'.regNumbersQ → first.storeRegQ = first'.storeRegQ →
        Agrees type first first' := by
      intro first first' state number store
      refine ⟨state, number, store, ?_, ?_⟩ <;>
        cases type <;> simp_all [MacroInstrType.isMove, MacroInstrType.isRet]
    cases type <;> cases move
    all_goals
      simp only [stepIdle, sees.isMacro, sees'.isMacro, sees.currentType, sees'.currentType,
        sees.outBefore, sees'.outBefore, sees.instr, sees'.instr, xreg.1, xreg'.1,
        Bool.not_true, Bool.false_eq_true, reduceCtorEq, if_true, if_false]
      exact ⟨rfl, agrees _ _ rfl rfl rfl, fun _ => fits _ rfl, by simp⟩
  · have list : type.isMove = false := by simpa using move
    have listed := sees.listed list
    have state : (if regNumbers m = 1 then afterRegisters type
        else if regNumbers m = 12 then .pushPopInstr2
        else if i.issueAck then .init else .idle) = listStart type (regNumbers m) := by
      unfold listStart
      split_ifs with one full ack
      · rfl
      · rfl
      · rfl
      · simp only [starts, sees.isMacro, sees.currentType, sees.instr, list, ack,
          Bool.true_and, Bool.or_false, Bool.false_or, Bool.or_eq_true, beq_iff_eq] at starting
        rcases starting with isOne | isFull
        · exact absurd isOne one
        · exact absurd isFull full
    obtain ⟨reg, saved⟩ := savedReg_isSome
      (if regNumbers m = 12 then 15 + (regNumbers m).setWidth 5
        else 14 + (regNumbers m).setWidth 5) listed atMost
    have notIdle : listStart type (regNumbers m) ≠ .idle := by
      unfold listStart
      split_ifs <;> cases type <;> simp [afterRegisters]
    cases type <;> cases list
    all_goals
      simp only [stepIdle, sees.isMacro, sees'.isMacro, sees.currentType, sees'.currentType,
        sees.outBefore, sees'.outBefore, sees.instr, sees'.instr, ack', state, saved,
        Bool.not_true, Bool.false_eq_true, reduceCtorEq, if_true, if_false]
      refine ⟨rfl, ⟨rfl, rfl, rfl, fun _ => rfl, ?_⟩, fun _ => ?_, ?_⟩
      · simp [MacroInstrType.isRet]
      · exact listStart_fits rfl listed atMost rfl rfl (by simp [MacroInstrType.isRet])
      · simp [notIdle]

/-! ## The last step -/

/-- The decoder returns to its idle state. -/
def finishes (r : MacroRegs) (i : MacroIn) : Bool :=
  i.issueAck &&
    match r.state with
    | .move => (currentType i).isMove
    | .pushAddi => !(i.expanded.isMacro && (currentType i).isRet)
    | .popretz1 => r.popretzInstQ == 1
    | _ => false

theorem finishes_iff (busy : r.state ≠ .idle) :
    (macroDecoder xlen64 r i).2.state = .idle ↔ finishes r i = true := by
  cases ack : i.issueAck with
  | false => simp [macroDecoder_wait busy ack, finishes, ack, busy]
  | true =>
      unfold macroDecoder
      cases state : r.state with
      | idle => exact absurd state busy
      | init =>
          simp only [stepInit, finishes, ack, state, Bool.true_and, Bool.false_eq_true,
            iff_false, afterRegisters]
          split_ifs <;> simp [state]
      | pushAddi =>
          simp only [stepPushAddi, finishes, ack, state, if_true]
          cases i.expanded.isMacro <;> cases currentType i <;> simp [MacroInstrType.isRet]
      | popretz1 =>
          simp only [stepPopretz1, finishes, ack, state, if_true, Bool.true_and]
          split_ifs with three two one
          · simp [three]
          · simp [two]
          · simp [one]
          · simp only [state, reduceCtorEq, beq_iff_eq, false_iff]
            exact one
      | move =>
          simp only [stepMove, finishes, ack, state, if_true, Bool.true_and]
          split_ifs with move <;> simp [move, state]
      | pushPopInstr2 =>
          simp only [stepPushPopInstr2, finishes, ack, state, if_true]
          split_ifs <;> simp [state]

end Step

/-! ## The expansion -/

/-- A decoder that sees `m` and an acknowledge. -/
def steadyIn (m : BitVec 32) : MacroIn where
  expanded := { instr := m, illegal := false, isCompressed := true, isMacro := true }
  issueAck := true
  latched := { macroInstrType := .push, instrOReg := 0, xreg1 := 0, xreg2 := 0 }

/-- The registers after `k` acknowledged steps from reset. -/
def steadyRegs (xlen64 : Bool) (m : BitVec 32) : Nat → MacroRegs
  | 0 => resetRegs
  | k + 1 => (macroDecoder xlen64 (steadyRegs xlen64 m k) (steadyIn m)).2

/-- The micro-operation of the step after them. -/
def steadyOp (xlen64 : Bool) (m : BitVec 32) (k : Nat) : MicroOp :=
  (macroDecoder xlen64 (steadyRegs xlen64 m k) (steadyIn m)).1.microOp true

def steadyOps (xlen64 : Bool) (m : BitVec 32) (n : Nat) : List MicroOp :=
  (List.range n).map (steadyOp xlen64 m)

theorem steadyOps_succ (xlen64 : Bool) (m : BitVec 32) (n : Nat) :
    steadyOps xlen64 m (n + 1) = steadyOps xlen64 m n ++ [steadyOp xlen64 m n] := by
  rw [steadyOps, steadyOps, List.range_succ, List.map_append, List.map_singleton]

/-- The micro-operations of `m`, until the decoder is idle again. -/
structure IsExpansion (xlen64 : Bool) (m : BitVec 32) (ops : List MicroOp) : Prop where
  inOrder : ops = steadyOps xlen64 m ops.length
  running : ∀ k, 0 < k → k < ops.length → (steadyRegs xlen64 m k).state ≠ .idle
  ends : (steadyRegs xlen64 m ops.length).state = .idle

theorem legalType_sees {cfg : IdCfg} {i : Input} {type : MacroInstrType}
    (legal : legalType i.instruction = some type) : Sees (macroIn cfg i) i.instruction type := by
  unfold legalType at legal
  split at legal
  next macroInstr =>
    have expanded : (macroIn cfg i).expanded =
        { instr := i.instruction, illegal := false, isCompressed := true, isMacro := true } := by
      simp [macroIn, compressedDecoder, macroInstr]
    split at legal
    next type' typed =>
      cases move : type'.isMove with
      | true =>
          cases same : sameSaved i.instruction with
          | true => simp [move, same] at legal
          | false =>
              obtain rfl : type' = type := by simpa [move, same] using legal
              exact ⟨expanded, typed, fun _ => same, by simp [move]⟩
      | false =>
          by_cases none : regNumbers i.instruction = 0
          · simp [move, none] at legal
          · simp only [move, if_neg none, Bool.false_eq_true, if_false, Option.some.injEq] at legal
            subst legal
            exact ⟨expanded, typed, by simp [move], fun _ => none⟩
    next => cases legal
  next => cases legal

theorem Sees.steadyIn {i : MacroIn} {m : BitVec 32} {type : MacroInstrType}
    (sees : Sees i m type) : Sees (steadyIn m) m type :=
  ⟨rfl, sees.typed, sees.distinct, sees.listed⟩

/-! ## Delivery -/

section Delivery

variable (cfg : IdCfg)

/-- A micro-operation reaches the issue stage. -/
def Delivers (s : State) (i : Input) : Prop := loads s i = true ∧ i.flush = false

/-- The micro-operations delivered since an entry was last consumed or flushed. -/
def group (cycles : List (State × Input)) : List MicroOp :=
  cycles.foldl (fun ops now =>
    if now.2.flush then []
    else if loads now.1 now.2 then
      if fetchEntryReady cfg now.1 now.2 then [] else ops ++ [decodedOp cfg now.1 now.2]
    else ops) []

/-- What holds when a micro-operation of a legal macro instruction is delivered. -/
structure Delivered (cycles : List (State × Input)) (s : State) (i : Input) : Prop where
  valid : i.fetchEntryValid = true
  inOrder : group cfg cycles ++ [decodedOp cfg s i] =
    steadyOps cfg.xlen64 i.instruction ((group cfg cycles).length + 1)
  whole : fetchEntryReady cfg s i = true →
    IsExpansion cfg.xlen64 i.instruction (group cfg cycles ++ [decodedOp cfg s i])

/-- The cycle starts expansions when it delivers their first micro-operation and not
otherwise, does not advance without an entry, and flushes none that goes on. -/
structure CleanCycle (s : State) (i : Input) : Prop where
  starting : s.macroRegs.state = .idle → starts (macroIn cfg i) = true →
    (legalType i.instruction).isSome = true ∧ Delivers s i
  started : s.macroRegs.state = .idle → (legalType i.instruction).isSome = true →
    Delivers s i → starts (macroIn cfg i) = true
  advancing : s.macroRegs.state ≠ .idle → i.flush = false → i.issueInstrAck = true →
    i.fetchEntryValid = true
  flushing : s.macroRegs.state ≠ .idle → i.flush = true →
    finishes s.macroRegs (macroIn cfg i) = true

def cleanMachine : Clocked.Machine State Input :=
  (machine cfg).restrict fun _ s i => CleanCycle cfg s i

variable {cfg} {cycles : List (State × Input)} {s : State} {i : Input}

theorem group_append : group cfg (cycles ++ [(s, i)]) =
    if i.flush then []
    else if loads s i then
      if fetchEntryReady cfg s i then [] else group cfg cycles ++ [decodedOp cfg s i]
    else group cfg cycles := by
  simp [group, List.foldl_append]

theorem offered_append : offered cfg (cycles ++ [(s, i)]) =
    if i.flush then none
    else if i.fetchEntryValid then
      if fetchEntryReady cfg s i then none else some i.instruction
    else offered cfg cycles := by
  simp [offered, List.foldl_append]

/-- The decoder is inside the expansion of `m`, after its first `n` micro-operations. -/
structure Inside (xlen64 : Bool) (m : BitVec 32) (type : MacroInstrType) (n : Nat)
    (r : MacroRegs) : Prop where
  busy : r.state ≠ .idle
  agrees : Agrees type r (steadyRegs xlen64 m n)
  fits : Fits type r
  positive : 0 < n
  running : ∀ k, 0 < k → k ≤ n → (steadyRegs xlen64 m k).state ≠ .idle

/-- What holds between two cycles. -/
structure Between (cfg : IdCfg) (cycles : List (State × Input)) (s : State) : Prop where
  idle : s.macroRegs.state = .idle → group cfg cycles = [] ∨
    ∃ held, offered cfg cycles = some held ∧ legalType held = none
  busy : s.macroRegs.state ≠ .idle → s.issueValid = true ∧
    ∃ m type n, offered cfg cycles = some m ∧ legalType m = some type ∧
      group cfg cycles = steadyOps cfg.xlen64 m n ∧ Inside cfg.xlen64 m type n s.macroRegs

theorem Inside.next {xlen64 : Bool} {m : BitVec 32} {type : MacroInstrType} {n : Nat}
    {r r' : MacroRegs} {out : MacroOut} (inside : n = 0 ∨ Inside xlen64 m type n r)
    (same : SameStep type (out, r') (macroDecoder xlen64 (steadyRegs xlen64 m n) (steadyIn m)))
    (busy : r'.state ≠ .idle) : Inside xlen64 m type (n + 1) r' where
  busy := busy
  agrees := same.regs
  fits := same.fits busy
  positive := Nat.succ_pos n
  running := by
    intro k positive atMost
    rcases Nat.lt_or_ge n k with last | earlier
    · obtain rfl : k = n + 1 := by omega
      have state : (steadyRegs xlen64 m (n + 1)).state = r'.state := same.regs.state.symm
      rw [state]
      exact busy
    · rcases inside with rfl | inside
      · omega
      · exact inside.running k positive earlier

/-- A delivered micro-operation of a legal macro instruction is the next one of its
expansion. -/
theorem Between.delivers (between : Between cfg cycles s) (driven : Driven cfg cycles s i)
    (clean : CleanCycle cfg s i) (delivers : Delivers s i) {type : MacroInstrType}
    (legal : legalType i.instruction = some type) :
    ∃ n, group cfg cycles = steadyOps cfg.xlen64 i.instruction n ∧
      (n = 0 ∨ Inside cfg.xlen64 i.instruction type n s.macroRegs) ∧
      SameStep type (decoded cfg s i) (macroDecoder cfg.xlen64
        (steadyRegs cfg.xlen64 i.instruction n) (steadyIn i.instruction)) := by
  have sees : Sees (macroIn cfg i) i.instruction type := legalType_sees legal
  have valid : i.fetchEntryValid = true := by
    have loaded := delivers.1
    simp only [loads, Bool.and_eq_true] at loaded
    exact loaded.2
  by_cases idle : s.macroRegs.state = .idle
  · have empty : group cfg cycles = [] := by
      rcases between.idle idle with empty | ⟨held, isOffered, notLegal⟩
      · exact empty
      · rw [← driven.2 held isOffered valid, legal] at notLegal
        cases notLegal
    have starting := clean.started idle (by rw [legal]; rfl) delivers
    refine ⟨0, empty, .inl rfl, ?_⟩
    have first : decoded cfg s i = stepIdle cfg.xlen64 s.macroRegs (macroIn cfg i) := by
      simp only [decoded, macroDecoder, idle]
    rw [first]
    exact stepIdle_same sees sees.steadyIn rfl starting
  · obtain ⟨issueValid, m, type', n, isOffered, legal', delivered, inside⟩ := between.busy idle
    obtain rfl := driven.2 m isOffered valid
    obtain rfl : type' = type := by
      rw [legal'] at legal
      exact Option.some.inj legal
    have ack : i.issueInstrAck = true := by
      have loaded := delivers.1
      simp only [loads, issueValid, Bool.and_eq_true] at loaded
      simpa using loaded.1
    refine ⟨n, delivered, .inr inside, ?_⟩
    exact macroDecoder_same sees sees.steadyIn ack rfl inside.agrees inside.fits idle

theorem decodedOp_same {m : BitVec 32} {type : MacroInstrType} {n : Nat}
    (same : SameStep type (decoded cfg s i)
      (macroDecoder cfg.xlen64 (steadyRegs cfg.xlen64 m n) (steadyIn m)))
    (sees : Sees (macroIn cfg i) m type) : decodedOp cfg s i = steadyOp cfg.xlen64 m n := by
  have isMacro : (compressedDecoder cfg i.instruction).isMacro = true := sees.isMacro
  rw [decodedOp, steadyOp, same.out, isMacro]

/-- The registers between a delivered micro-operation and the next cycle. -/
theorem Between.next_delivers (between : Between cfg cycles s) (driven : Driven cfg cycles s i)
    (clean : CleanCycle cfg s i) (delivers : Delivers s i) {type : MacroInstrType}
    (legal : legalType i.instruction = some type) :
    Between cfg (cycles ++ [(s, i)]) (next cfg s i) := by
  obtain ⟨n, delivered, inside, same⟩ := between.delivers driven clean delivers legal
  have sees : Sees (macroIn cfg i) i.instruction type := legalType_sees legal
  have valid : i.fetchEntryValid = true := by
    have loaded := delivers.1
    simp only [loads, Bool.and_eq_true] at loaded
    exact loaded.2
  have nextRegs : (next cfg s i).macroRegs = (decoded cfg s i).2 := rfl
  have isReady : fetchEntryReady cfg s i = true ↔ (decoded cfg s i).2.state = .idle := by
    simp [fetchEntryReady, delivers.1, same.stalls]
  refine ⟨fun idle => .inl ?_, fun busy => ?_⟩
  · rw [nextRegs, ← isReady] at idle
    simp [group_append, delivers.1, delivers.2, idle]
  · rw [nextRegs, ne_eq, ← isReady, Bool.not_eq_true] at busy
    refine ⟨by simp [next, delivers.1, delivers.2], i.instruction, type, n + 1, ?_, legal, ?_, ?_⟩
    · simp [offered_append, delivers.2, valid, busy]
    · simp [group_append, delivers.1, delivers.2, busy, steadyOps_succ, delivered,
        decodedOp_same same sees]
    · rw [nextRegs]
      refine Inside.next inside same ?_
      rw [ne_eq, ← isReady, busy]
      exact Bool.false_ne_true

theorem Between.next_flush (clean : CleanCycle cfg s i) (flush : i.flush = true) :
    Between cfg (cycles ++ [(s, i)]) (next cfg s i) := by
  have idle : (next cfg s i).macroRegs.state = .idle := by
    change (macroDecoder cfg.xlen64 s.macroRegs (macroIn cfg i)).2.state = .idle
    by_cases idle : s.macroRegs.state = .idle
    · by_contra busy
      rw [← ne_eq, starts_iff idle] at busy
      have noFlush := (clean.starting idle busy).2.2
      rw [flush] at noFlush
      cases noFlush
    · rw [finishes_iff idle]
      exact clean.flushing idle flush
  refine ⟨fun _ => .inl ?_, fun busy => absurd idle busy⟩
  simp [group_append, flush]

theorem Between.next_idle (between : Between cfg cycles s) (driven : Driven cfg cycles s i)
    (clean : CleanCycle cfg s i) (noFlush : i.flush = false)
    (quiet : ¬(Delivers s i ∧ (legalType i.instruction).isSome = true))
    (idle : s.macroRegs.state = .idle) : Between cfg (cycles ++ [(s, i)]) (next cfg s i) := by
  have stays : (next cfg s i).macroRegs.state = .idle := by
    change (macroDecoder cfg.xlen64 s.macroRegs (macroIn cfg i)).2.state = .idle
    by_contra busy
    rw [← ne_eq, starts_iff idle] at busy
    exact quiet (clean.starting idle busy).symm
  refine ⟨fun _ => ?_, fun busy => absurd stays busy⟩
  simp only [group_append, offered_append, noFlush, Bool.false_eq_true, if_false]
  by_cases valid : i.fetchEntryValid = true
  · rw [if_pos valid]
    by_cases ready : fetchEntryReady cfg s i = true
    · left
      have loaded : loads s i = true := by
        simp only [fetchEntryReady, Bool.and_eq_true] at ready
        exact ready.1
      simp [loaded, ready]
    · rw [if_neg ready, if_neg ready]
      cases legal : legalType i.instruction with
      | none => exact .inr ⟨_, rfl, legal⟩
      | some type =>
          left
          rw [if_neg fun loaded => quiet ⟨⟨loaded, noFlush⟩, by rw [legal]; rfl⟩]
          rcases between.idle idle with empty | ⟨held, isOffered, notLegal⟩
          · exact empty
          · rw [← driven.2 held isOffered valid, legal] at notLegal
            cases notLegal
  · have noLoad : ¬loads s i = true := by simp [loads, valid]
    rw [if_neg valid, if_neg noLoad]
    exact between.idle idle

theorem Between.next_busy (between : Between cfg cycles s) (driven : Driven cfg cycles s i)
    (clean : CleanCycle cfg s i) (noFlush : i.flush = false)
    (quiet : ¬(Delivers s i ∧ (legalType i.instruction).isSome = true))
    (busy : s.macroRegs.state ≠ .idle) : Between cfg (cycles ++ [(s, i)]) (next cfg s i) := by
  obtain ⟨issueValid, m, type, n, isOffered, legal, delivered, inside⟩ := between.busy busy
  have noAck : i.issueInstrAck = false := by
    by_contra ack
    rw [Bool.not_eq_false] at ack
    have valid := clean.advancing busy noFlush ack
    obtain rfl := driven.2 m isOffered valid
    exact quiet ⟨⟨by simp [loads, ack, valid], noFlush⟩, by rw [legal]; rfl⟩
  have waits : (next cfg s i).macroRegs = s.macroRegs := macroDecoder_wait busy noAck
  have noLoad : loads s i = false := by simp [loads, issueValid, noAck]
  refine ⟨fun idle => absurd (waits ▸ idle) busy, fun _ => ?_⟩
  refine ⟨by simp [next, noFlush, issueValid, noAck], m, type, n, ?_, legal, ?_, ?_⟩
  · rw [offered_append, if_neg (by simp [noFlush])]
    split_ifs with valid ready
    · simp [fetchEntryReady, noLoad] at ready
    · rw [driven.2 m isOffered valid]
    · exact isOffered
  · simp [group_append, noFlush, noLoad, delivered]
  · rwa [waits]

theorem Between.of_run (run : (cleanMachine cfg).Run cycles s) : Between cfg cycles s := by
  refine run.invariant (Between cfg) ⟨fun _ => .inl rfl, fun busy => absurd rfl busy⟩ ?_
  intro cycles s i _ between allowed
  obtain ⟨driven, clean⟩ := allowed
  cases flush : i.flush with
  | true => exact Between.next_flush clean flush
  | false =>
      by_cases delivers : Delivers s i ∧ (legalType i.instruction).isSome = true
      · obtain ⟨delivers, isSome⟩ := delivers
        obtain ⟨type, legal⟩ := Option.isSome_iff_exists.mp isSome
        exact between.next_delivers driven clean delivers legal
      · by_cases idle : s.macroRegs.state = .idle
        · exact between.next_idle driven clean flush delivers idle
        · exact between.next_busy driven clean flush delivers idle

/-- In a run of clean cycles each consumed macro instruction has delivered its
expansion, from the first micro-operation and each one once. -/
theorem zcmp_delivers (cfg : IdCfg) {cycles : List (State × Input)} {s : State} {i : Input}
    (run : (cleanMachine cfg).Run cycles s) (allowed : (cleanMachine cfg).allowed cycles s i)
    (delivers : Delivers s i) (legal : (legalType i.instruction).isSome = true) :
    Delivered cfg cycles s i := by
  obtain ⟨type, legal⟩ := Option.isSome_iff_exists.mp legal
  obtain ⟨n, delivered, inside, same⟩ :=
    (Between.of_run run).delivers allowed.1 allowed.2 delivers legal
  have sees : Sees (macroIn cfg i) i.instruction type := legalType_sees legal
  have length : (group cfg cycles).length = n := by simp [delivered, steadyOps]
  have inOrder : group cfg cycles ++ [decodedOp cfg s i] =
      steadyOps cfg.xlen64 i.instruction (n + 1) := by
    rw [steadyOps_succ, delivered, decodedOp_same same sees]
  have whole : (group cfg cycles ++ [decodedOp cfg s i]).length = n + 1 := by simp [length]
  refine ⟨?_, by rw [length]; exact inOrder, fun ready => ⟨?_, ?_, ?_⟩⟩
  · have loaded := delivers.1
    simp only [loads, Bool.and_eq_true] at loaded
    exact loaded.2
  · rw [whole]
    exact inOrder
  · intro k positive below
    rw [whole] at below
    rcases inside with rfl | inside
    · omega
    · exact inside.running k positive (Nat.lt_succ_iff.mp below)
  · rw [whole]
    have state : (steadyRegs cfg.xlen64 i.instruction (n + 1)).state =
        (decoded cfg s i).2.state := same.regs.state.symm
    rw [state, ← same.stalls]
    simp only [fetchEntryReady, Bool.and_eq_true, Bool.not_eq_true'] at ready
    exact ready.2

instance : Decidable (Delivers s i) := inferInstanceAs (Decidable (_ ∧ _))

instance : Decidable (CleanCycle cfg s i) :=
  decidable_of_iff
    ((s.macroRegs.state = .idle → starts (macroIn cfg i) = true →
        (legalType i.instruction).isSome = true ∧ Delivers s i) ∧
      (s.macroRegs.state = .idle → (legalType i.instruction).isSome = true →
        Delivers s i → starts (macroIn cfg i) = true) ∧
      (s.macroRegs.state ≠ .idle → i.flush = false → i.issueInstrAck = true →
        i.fetchEntryValid = true) ∧
      (s.macroRegs.state ≠ .idle → i.flush = true →
        finishes s.macroRegs (macroIn cfg i) = true))
    ⟨fun ⟨starting, started, advancing, flushing⟩ => ⟨starting, started, advancing, flushing⟩,
      fun ⟨starting, started, advancing, flushing⟩ => ⟨starting, started, advancing, flushing⟩⟩

instance : Decidable ((cleanMachine cfg).allowed cycles s i) :=
  inferInstanceAs (Decidable (Driven cfg cycles s i ∧ CleanCycle cfg s i))

/-- Ordinary instructions are passed on. -/
def plainCfg : IdCfg where
  xlen64 := true
  expandOther instr := (instr, false, false)

def quietLatch : Latched where
  macroInstrType := .push
  instrOReg := 0
  xreg1 := 0
  xreg2 := 0

def fetching (instruction : BitVec 32) (ack : Bool) : Input where
  flush := false
  fetchEntryValid := true
  instruction := instruction
  issueInstrAck := ack
  latched := quietLatch

/-- `nop` -/
def nopInstr : BitVec 32 := 0x13

/-- `cm.mvsa01 s0, s1` -/
def mvsa01Instr : BitVec 32 := 0xac26

/-- A move behind an instruction that is not acknowledged at once. -/
def stalledMove : List Input := [fetching nopInstr false, fetching mvsa01Instr false]

/-- A move behind an instruction that is acknowledged at once. -/
def promptMove : List Input := [fetching nopInstr false, fetching mvsa01Instr true]

/-- The move behind a prompt acknowledge delivers both halves, the second one last. -/
theorem zcmp_delivers_prompt :
    Delivered plainCfg ((cleanMachine plainCfg).cyclesOf (cleanMachine plainCfg).reset promptMove)
      ((cleanMachine plainCfg).after (cleanMachine plainCfg).reset promptMove)
      (fetching mvsa01Instr true) :=
  zcmp_delivers plainCfg (Clocked.Machine.run_of_accepts promptMove (by decide))
    (by decide) (by decide) (by decide +kernel)

/-- The stalled move loses its first half. -/
theorem zcmp_loses_first :
    ¬∀ (cfg : IdCfg) (cycles : List (State × Input)) (s : State) (i : Input),
      (machine cfg).Run cycles s → (machine cfg).allowed cycles s i → Delivers s i →
      (legalType i.instruction).isSome = true → Delivered cfg cycles s i := by
  intro all
  have run : (machine plainCfg).Run _ _ :=
    Clocked.Machine.run_of_accepts stalledMove (by decide)
  have delivered := all plainCfg _ _ (fetching mvsa01Instr true) run (by decide)
    (by decide) (by decide)
  exact absurd delivered.inOrder (by decide)

end Delivery

end Cva6.Zcmp
