import Mathlib.Tactic.IntervalCases
import RiscvCores.Cva6.MacroExpansion
import RiscvCores.Lib.BaseMachine
import RiscvCores.Lib.BitField

/-!
# What a macro instruction does

The micro-operations of a macro instruction are executed one after the other, all at its
address, and compared with what the instruction does to registers, memory and program
counter: the moves for both widths, the register lists for XLEN = 32 alone.
-/

set_option autoImplicit false

namespace Cva6

namespace Zcmp

open BaseMachine

variable {xlen64 : Bool} {m : BitVec 32} {type : MacroInstrType}

/-! ## Executing micro-operations -/

/-- `CVA6Cfg.XLEN` -/
abbrev xlen (xlen64 : Bool) : Nat := if xlen64 then 64 else 32

/-- The program counter stays at the macro instruction up to its last micro-operation. -/
def MicroOp.exec (op : MicroOp) (h : Hart (xlen xlen64)) : Option (Hart (xlen xlen64)) :=
  if op.illegal then none
  else (decode op.instr).map fun i =>
    h.step (if op.isMacro && !op.isLast then h.pc else h.pc + if op.isCompressed then 2 else 4) i

def execAll (h : Hart (xlen xlen64)) : List MicroOp → Option (Hart (xlen xlen64))
  | [] => some h
  | op :: ops => (op.exec h).bind fun h' => execAll h' ops

/-! ## The instructions -/

/-- `s0` to `s11` -/
def savedRegisters : List (BitVec 5) := [8, 9, 18, 19, 20, 21, 22, 23, 24, 25, 26, 27]

/-- The saved registers of a list: one more for each step of `rlist`, and two for the last. -/
def savedCount (m : BitVec 32) : Nat :=
  if (m.extractLsb' 4 4).toNat = 15 then 12 else (m.extractLsb' 4 4).toNat - 4

/-- The registers of the list from the highest one down to `ra`. -/
def registerList (m : BitVec 32) : List (BitVec 5) :=
  (savedRegisters.take (savedCount m)).reverse ++ [1]

/-- The list rounded up to 16 bytes, and 16 bytes for each step of `spimm`. -/
def frameBytes (xlen64 : Bool) (m : BitVec 32) : Nat :=
  ((savedCount m + 1) * accessBytes xlen64 + 15) / 16 * 16 + 16 * (m.extractLsb' 2 2).toNat

/-- The saved register that a three-bit field of a move names. -/
def movedRegister (k : BitVec 3) : BitVec 5 := savedRegisters.getD k.toNat 0

section Meaning

variable (h : Hart (xlen xlen64))

/-- The registers of the list restored from the top of the frame, and the stack pointer
moved up. -/
def popped (m : BitVec 32) : Hart (xlen xlen64) :=
  let bytes := accessBytes xlen64
  let top := h.get 2 + BitVec.ofNat _ (frameBytes xlen64 m)
  (h.restore bytes (top - BitVec.ofNat _ bytes) (registerList m)).set 2 top

def meaning (m : BitVec 32) : MacroInstrType → Hart (xlen xlen64)
  | .push =>
      let bytes := accessBytes xlen64
      ((h.save bytes (h.get 2 - BitVec.ofNat _ bytes) (registerList m)).set 2
        (h.get 2 - BitVec.ofNat _ (frameBytes xlen64 m))).jump (h.pc + 2)
  | .pop => (popped h m).jump (h.pc + 2)
  | .popret => (popped h m).jump ((popped h m).get 1 &&& ~~~1)
  | .popretz => ((popped h m).set 10 0).jump ((popped h m).get 1 &&& ~~~1)
  | .mvsa01 =>
      ((h.set (movedRegister (m.extractLsb' 7 3)) (h.get 10)).set
        (movedRegister (m.extractLsb' 2 3)) (h.get 11)).jump (h.pc + 2)
  | .mva01s =>
      ((h.set 10 (h.get (movedRegister (m.extractLsb' 7 3)))).set 11
        (h.get (movedRegister (m.extractLsb' 2 3)))).jump (h.pc + 2)

end Meaning

/-! ## What the decoder emits -/

def opAt (xlen64 : Bool) (m : BitVec 32) (r : MacroRegs) : MicroOp :=
  (macroDecoder xlen64 r (steadyIn m)).1.microOp true

def regsAfter (xlen64 : Bool) (m : BitVec 32) (r : MacroRegs) : MacroRegs :=
  (macroDecoder xlen64 r (steadyIn m)).2

/-- Acknowledged steps from `r` to `r'` emit `ops`, and the decoder is busy between them. -/
inductive Emits (xlen64 : Bool) (m : BitVec 32) : MacroRegs → List MicroOp → MacroRegs → Prop
  | last (r : MacroRegs) : Emits xlen64 m r [opAt xlen64 m r] (regsAfter xlen64 m r)
  | cons {r r' : MacroRegs} {ops : List MicroOp} (busy : (regsAfter xlen64 m r).state ≠ .idle)
      (rest : Emits xlen64 m (regsAfter xlen64 m r) ops r') :
      Emits xlen64 m r (opAt xlen64 m r :: ops) r'

theorem Emits.append {r r' r'' : MacroRegs} {ops ops' : List MicroOp}
    (first : Emits xlen64 m r ops r') (busy : r'.state ≠ .idle)
    (second : Emits xlen64 m r' ops' r'') : Emits xlen64 m r (ops ++ ops') r'' := by
  induction first with
  | last r => exact .cons busy second
  | cons goesOn _ ih => exact .cons goesOn (ih busy second)

theorem Emits.steady {r r' : MacroRegs} {ops : List MicroOp} (emits : Emits xlen64 m r ops r')
    {k : Nat} (start : r = steadyRegs xlen64 m k) :
    ops = (List.range' k ops.length).map (steadyOp xlen64 m) ∧
      r' = steadyRegs xlen64 m (k + ops.length) ∧
      ∀ j, k < j → j < k + ops.length → (steadyRegs xlen64 m j).state ≠ .idle := by
  induction emits generalizing k with
  | last r =>
      subst start
      refine ⟨rfl, rfl, fun j after before => ?_⟩
      simp only [List.length_singleton] at before
      omega
  | cons busy _ ih =>
      subst start
      obtain ⟨inOrder, ends, running⟩ := ih (k := k + 1) rfl
      refine ⟨?_, ?_, fun j after before => ?_⟩
      · rw [List.length_cons, List.range'_succ, List.map_cons, ← inOrder]
        rfl
      · rw [ends, List.length_cons, Nat.add_right_comm, Nat.add_assoc]
      · rw [List.length_cons] at before
        by_cases next : j = k + 1
        · rw [next]
          exact busy
        · exact running j (by omega) (by omega)

/-- What is emitted from reset to the idle state is the expansion, and the only one. -/
theorem Emits.isExpansion_iff {r : MacroRegs} {ops ops' : List MicroOp}
    (emits : Emits xlen64 m resetRegs ops r) (idle : r.state = .idle) (nonempty : ops' ≠ []) :
    IsExpansion xlen64 m ops' ↔ ops' = ops := by
  obtain ⟨inOrder, ends, running⟩ := emits.steady (k := 0) rfl
  rw [Nat.zero_add] at ends running
  have positive : 0 < ops.length := by cases emits <;> exact Nat.succ_pos _
  have whole : IsExpansion xlen64 m ops :=
    ⟨by rw [steadyOps, List.range_eq_range']; exact inOrder, running, by rw [← ends, idle]⟩
  constructor
  · intro other
    have same : ops'.length = ops.length := by
      rcases Nat.lt_trichotomy ops'.length ops.length with shorter | same | longer
      · exact absurd other.ends (running _ (List.length_pos_of_ne_nil nonempty) shorter)
      · exact same
      · exact absurd whole.ends (other.running _ positive longer)
    rw [other.inOrder, whole.inOrder, same]
  · rintro rfl
    exact whole

/-- A micro-operation that is not the last one of its instruction. -/
def innerOp (instr : BitVec 32) (isDoubleRd : Bool := false) : MicroOp where
  instr := instr
  illegal := false
  isCompressed := true
  isMacro := true
  isLast := false
  isDoubleRd := isDoubleRd

def lastOp (instr : BitVec 32) (isDoubleRd : Bool := false) : MicroOp where
  instr := instr
  illegal := false
  isCompressed := true
  isMacro := true
  isLast := true
  isDoubleRd := isDoubleRd

def laterOp (xlen64 : Bool) (type : MacroInstrType) (offset : BitVec 12) (reg : BitVec 5) :
    MicroOp :=
  innerOp (if type = .push then laterStore xlen64 offset reg else laterLoad xlen64 offset reg)

/-- The registers behind the first one, each four bytes below the one before. -/
def laterOps (xlen64 : Bool) (type : MacroInstrType) (offset : BitVec 12) :
    List (BitVec 5) → List MicroOp
  | [] => []
  | reg :: regs => laterOp xlen64 type offset reg :: laterOps xlen64 type (offset + 0xffc) regs

/-- The register with a number of `reg_numbers`. -/
def numbered (k : Nat) : BitVec 5 :=
  if k = 1 then 1 else if k = 2 then 8 else if k = 3 then 9 else BitVec.ofNat 5 (14 + k)

/-- The registers with the numbers from `k` down to 1. -/
def numberedFrom : Nat → List (BitVec 5)
  | 0 => []
  | k + 1 => numbered (k + 1) :: numberedFrom k

def firstReg (n : Nat) : BitVec 5 := if n = 12 then 27 else numbered n

/-- The last of the numbers stands for two registers. -/
def restRegs (n : Nat) : List (BitVec 5) :=
  if n = 12 then 26 :: numberedFrom 11 else numberedFrom (n - 1)

def firstOp (xlen64 : Bool) (type : MacroInstrType) (m : BitVec 32) (reg : BitVec 5) : MicroOp :=
  innerOp (if type = .push then firstStore xlen64 reg
    else firstLoad xlen64 (itypeImm xlen64 type m) reg)

def firstOffset (xlen64 : Bool) (type : MacroInstrType) (m : BitVec 32) : BitVec 12 :=
  if type = .push then 0xff8 else itypeImm xlen64 type m + 0xffc

/-- `popretz_inst_q` once the expansion of a list is under way. -/
def returnSteps (type : MacroInstrType) : BitVec 2 :=
  if type = .popretz then 3 else if type = .popret then 1 else 0

/-- The immediate of the stack pointer adjustment. -/
def spAdjust (xlen64 : Bool) (type : MacroInstrType) (m : BitVec 32) : BitVec 12 :=
  (if type = .push then itypeImm xlen64 type m else stackAdj m xlen64) - if xlen64 then 4 else 0

def retInstr : BitVec 32 := 0#12 ++ 1#5 ++ 0#3 ++ 0#5 ++ opcodeJalr

/-- What follows the registers of a list. -/
def tailOps (xlen64 : Bool) (m : BitVec 32) (type : MacroInstrType) : List MicroOp :=
  let addSp := addi (spAdjust xlen64 type m) 2 2
  match type with
  | .popret => [innerOp addSp, lastOp retInstr]
  | .popretz =>
      [innerOp (0#20 ++ 10#5 ++ opcodeLui), innerOp (addi 0 10 10), innerOp addSp, lastOp retInstr]
  | _ => [lastOp addSp]

theorem steadyIn_ack (m : BitVec 32) : (steadyIn m).issueAck = true := rfl

section List

variable (xlen64) (sees : Sees (steadyIn m) m type) (list : type.isMove = false)
include sees list

/-- The last register of a list. -/
theorem init_one {r : MacroRegs} (state : r.state = .init) (number : r.regNumbersQ = 1) :
    opAt xlen64 m r = laterOp xlen64 type r.offsetQ (numbered 1) ∧
      regsAfter xlen64 m r = { r with state := afterRegisters type } := by
  constructor
  · simp [opAt, macroDecoder, state, stepInit, sees.currentType, sees.outBefore, sees.isMacro,
      list, number, savedReg, MacroOut.show, MacroOut.microOp, laterOp, innerOp, numbered,
      steadyIn_ack]
  · simp [regsAfter, macroDecoder, state, stepInit, sees.currentType, sees.isMacro, list, number,
      steadyIn_ack]

/-- A register of a list that others follow. -/
theorem init_more {r : MacroRegs} {k : Nat} (state : r.state = .init) (more : 1 ≤ k)
    (atMost : k ≤ 10) (number : r.regNumbersQ = BitVec.ofNat 4 (k + 1))
    (store : 4 ≤ k + 1 → r.storeRegQ = BitVec.ofNat 5 (14 + (k + 1))) :
    opAt xlen64 m r = laterOp xlen64 type r.offsetQ (numbered (k + 1)) ∧
      (regsAfter xlen64 m r).state = .init ∧
      (regsAfter xlen64 m r).regNumbersQ = BitVec.ofNat 4 k ∧
      (4 ≤ k → (regsAfter xlen64 m r).storeRegQ = BitVec.ofNat 5 (14 + k)) ∧
      (regsAfter xlen64 m r).offsetQ = r.offsetQ + 0xffc ∧
      (regsAfter xlen64 m r).popretzInstQ = r.popretzInstQ := by
  obtain low | high : k + 1 ≤ 3 ∨ 4 ≤ k + 1 := by omega
  · obtain rfl | rfl : k = 1 ∨ k = 2 := by omega
    all_goals
      simp [opAt, regsAfter, macroDecoder, state, stepInit, sees.currentType, sees.outBefore,
        sees.isMacro, list, number, savedReg, MacroOut.show, MacroOut.microOp, laterOp, innerOp,
        numbered, steadyIn_ack]
  · have store := store high
    interval_cases k
    all_goals
      simp [opAt, regsAfter, macroDecoder, state, stepInit, sees.currentType, sees.outBefore,
        sees.isMacro, list, number, store, savedReg, MacroOut.show, MacroOut.microOp, laterOp,
        innerOp, numbered, steadyIn_ack]

/-- The registers from number `k + 1` down. -/
theorem init_list {k : Nat} (atMost : k ≤ 10) {r : MacroRegs} (state : r.state = .init)
    (number : r.regNumbersQ = BitVec.ofNat 4 (k + 1))
    (store : 4 ≤ k + 1 → r.storeRegQ = BitVec.ofNat 5 (14 + (k + 1))) :
    ∃ r', Emits xlen64 m r (laterOps xlen64 type r.offsetQ (numberedFrom (k + 1))) r' ∧
      r'.state = afterRegisters type ∧ r'.popretzInstQ = r.popretzInstQ := by
  induction k generalizing r with
  | zero =>
      obtain ⟨op, next⟩ := init_one xlen64 sees list state number
      refine ⟨regsAfter xlen64 m r, ?_, by rw [next], by rw [next]⟩
      rw [numberedFrom, numberedFrom, laterOps, laterOps, ← op]
      exact .last r
  | succ k ih =>
      obtain ⟨op, init, fewer, store', offset, kept⟩ :=
        init_more xlen64 sees list state (Nat.succ_pos k) atMost number store
      obtain ⟨r', emits, ends, kept'⟩ := ih (by omega) init fewer store'
      refine ⟨r', ?_, ends, kept'.trans kept⟩
      rw [numberedFrom, laterOps, ← op, ← offset]
      exact .cons (by rw [init]; decide) emits

/-- The first register of a list. -/
theorem first_step (n : Nat) (number : regNumbers m = BitVec.ofNat 4 n) (some : 1 ≤ n)
    (atMost : n ≤ 12) :
    opAt xlen64 m resetRegs = firstOp xlen64 type m (firstReg n) ∧
      (regsAfter xlen64 m resetRegs).state = listStart type (BitVec.ofNat 4 n) ∧
      (regsAfter xlen64 m resetRegs).regNumbersQ = BitVec.ofNat 4 (n - 1) ∧
      (4 ≤ n - 1 → (regsAfter xlen64 m resetRegs).storeRegQ =
        if n = 12 then 26 else BitVec.ofNat 5 (14 + (n - 1))) ∧
      (regsAfter xlen64 m resetRegs).offsetQ = firstOffset xlen64 type m ∧
      (regsAfter xlen64 m resetRegs).popretzInstQ = returnSteps type := by
  cases type with
  | mva01s => cases list
  | mvsa01 => cases list
  | _ =>
      interval_cases n <;>
        simp [opAt, regsAfter, macroDecoder, stepIdle, resetRegs, sees.currentType,
          sees.outBefore, sees.isMacro, sees.instr, number, savedReg, MacroOut.show,
          MacroOut.microOp, firstOp, innerOp, numbered, steadyIn_ack, firstReg, firstOffset,
          returnSteps, listStart, MacroInstrType.isPop]

/-- The second register of a full list. -/
theorem second_step {r : MacroRegs} (state : r.state = .pushPopInstr2) :
    opAt xlen64 m r = laterOp xlen64 type r.offsetQ r.storeRegQ ∧
      regsAfter xlen64 m r =
        { r with offsetQ := r.offsetQ + 0xffc, storeRegQ := r.storeRegQ - 1, state := .init } := by
  constructor
  · simp [opAt, macroDecoder, state, stepPushPopInstr2, sees.currentType, sees.outBefore, list,
      MacroOut.microOp, laterOp, innerOp, steadyIn_ack]
  · simp [regsAfter, macroDecoder, state, stepPushPopInstr2, sees.currentType, list, steadyIn_ack]

omit sees list in
theorem afterRegisters_busy : afterRegisters type ≠ .idle := by
  unfold afterRegisters
  split <;> exact MacroState.noConfusion

/-- The whole list. -/
theorem list_emits {n : Nat} (number : regNumbers m = BitVec.ofNat 4 n) (some : 1 ≤ n)
    (atMost : n ≤ 12) :
    ∃ r, Emits xlen64 m resetRegs (firstOp xlen64 type m (firstReg n) ::
        laterOps xlen64 type (firstOffset xlen64 type m) (restRegs n)) r ∧
      r.state = afterRegisters type ∧ r.popretzInstQ = returnSteps type := by
  obtain ⟨op, state, fewer, store, offset, returns⟩ :=
    first_step xlen64 sees list n number some atMost
  rw [← op, ← offset, ← returns]
  obtain rfl | rfl | inner : n = 1 ∨ n = 12 ∨ (2 ≤ n ∧ n ≤ 11) := by omega
  · exact ⟨_, .last resetRegs, state, rfl⟩
  · have second : (regsAfter xlen64 m resetRegs).state = .pushPopInstr2 := state
    have store : (regsAfter xlen64 m resetRegs).storeRegQ = 26 := store (by decide)
    obtain ⟨op', next⟩ := second_step xlen64 sees list second
    have op' : opAt xlen64 m (regsAfter xlen64 m resetRegs) =
        laterOp xlen64 type (regsAfter xlen64 m resetRegs).offsetQ 26 := by rw [op', store]
    have offset' : (regsAfter xlen64 m (regsAfter xlen64 m resetRegs)).offsetQ =
        (regsAfter xlen64 m resetRegs).offsetQ + 0xffc := by rw [next]
    obtain ⟨r, emits, ends, kept⟩ := init_list xlen64 (k := 10) sees list
      (r := regsAfter xlen64 m (regsAfter xlen64 m resetRegs)) (by decide) (by rw [next])
      (by rw [next]; exact fewer) fun _ => by rw [next, store]; rfl
    refine ⟨r, .cons (by rw [second]; decide) ?_, ends, by rw [kept, next]⟩
    rw [restRegs, if_pos rfl, laterOps, ← op', ← offset']
    exact .cons (by rw [next]; exact MacroState.noConfusion) emits
  · have init : (regsAfter xlen64 m resetRegs).state = .init := by
      rw [state]
      obtain ⟨two, eleven⟩ := inner
      interval_cases n <;> rfl
    obtain ⟨k, rfl⟩ : ∃ k, n = k + 2 := ⟨n - 2, by omega⟩
    obtain ⟨r', emits, ends, kept⟩ := init_list xlen64 sees list (k := k) (by omega)
      init fewer fun more => by rw [store more, if_neg (by omega)]; rfl
    refine ⟨r', .cons (by rw [init]; decide) ?_, ends, kept⟩
    rw [restRegs, if_neg (by omega)]
    exact emits

theorem addi_step {r : MacroRegs} (state : r.state = .pushAddi) :
    opAt xlen64 m r =
        (if type.isRet then innerOp (addi (spAdjust xlen64 type m) 2 2)
        else lastOp (addi (spAdjust xlen64 type m) 2 2)) ∧
      regsAfter xlen64 m r = { r with state := if type.isRet then .popretz1 else .idle } := by
  cases type with
  | mva01s => cases list
  | mvsa01 => cases list
  | _ =>
      constructor <;>
        simp [opAt, regsAfter, macroDecoder, state, stepPushAddi, sees.currentType,
          sees.outBefore, sees.isMacro, sees.instr, MacroOut.microOp, innerOp, lastOp,
          steadyIn_ack, spAdjust, MacroInstrType.isRet]

omit list in
/-- The steps of `POPRETZ_1`. -/
theorem popretz_step {r : MacroRegs} (state : r.state = .popretz1) :
    (r.popretzInstQ = 3 → opAt xlen64 m r = innerOp (0#20 ++ 10#5 ++ opcodeLui) ∧
        regsAfter xlen64 m r = { r with popretzInstQ := 2 }) ∧
      (r.popretzInstQ = 2 → opAt xlen64 m r = innerOp (addi 0 10 10) ∧
        regsAfter xlen64 m r = { r with popretzInstQ := 1, state := .pushAddi }) ∧
      (r.popretzInstQ = 1 → opAt xlen64 m r = lastOp retInstr ∧
        (regsAfter xlen64 m r).state = .idle) := by
  refine ⟨fun three => ?_, fun two => ?_, fun one => ?_⟩
  · simp [opAt, regsAfter, macroDecoder, state, stepPopretz1, three, sees.outBefore,
      MacroOut.microOp, innerOp, steadyIn_ack]
  · simp [opAt, regsAfter, macroDecoder, state, stepPopretz1, two, sees.outBefore,
      MacroOut.microOp, innerOp, steadyIn_ack]
  · simp [opAt, regsAfter, macroDecoder, state, stepPopretz1, one, sees.outBefore,
      MacroOut.microOp, lastOp, retInstr, steadyIn_ack]

/-- The steps behind the registers of a list. -/
theorem tail_emits {r : MacroRegs} (state : r.state = afterRegisters type)
    (returns : r.popretzInstQ = returnSteps type) :
    ∃ r', Emits xlen64 m r (tailOps xlen64 m type) r' ∧ r'.state = .idle := by
  have addSp : ∀ {r : MacroRegs}, r.state = .pushAddi → type.isRet = true →
      r.popretzInstQ = 1 → ∃ r', Emits xlen64 m r
        [innerOp (addi (spAdjust xlen64 type m) 2 2), lastOp retInstr] r' ∧ r'.state = .idle := by
    intro r state isRet one
    obtain ⟨op, next⟩ := addi_step xlen64 sees list state
    rw [isRet] at op next
    have next : regsAfter xlen64 m r = { r with state := .popretz1 } := next
    obtain ⟨-, -, ret⟩ := popretz_step xlen64 sees (r := regsAfter xlen64 m r) (by rw [next])
    obtain ⟨op', idle⟩ := ret (by rw [next, ← one])
    have op : opAt xlen64 m r = innerOp (addi (spAdjust xlen64 type m) 2 2) := op
    refine ⟨regsAfter xlen64 m (regsAfter xlen64 m r), ?_, idle⟩
    rw [← op, ← op']
    exact .cons (by rw [next]; exact MacroState.noConfusion) (.last _)
  cases type with
  | mva01s => cases list
  | mvsa01 => cases list
  | popret => exact addSp state rfl returns
  | popretz =>
      obtain ⟨first, -, -⟩ := popretz_step xlen64 sees (r := r) state
      obtain ⟨op, next⟩ := first returns
      obtain ⟨-, second, -⟩ := popretz_step xlen64 sees (r := regsAfter xlen64 m r)
        (by rw [next]; exact state)
      obtain ⟨op', next'⟩ := second (by rw [next])
      obtain ⟨r', emits, idle⟩ := addSp (r := regsAfter xlen64 m (regsAfter xlen64 m r))
        (by rw [next']) rfl (by rw [next'])
      refine ⟨r', ?_, idle⟩
      rw [tailOps, ← op, ← op']
      refine .cons ?_ (.cons ?_ emits)
      · rw [next]
        change r.state ≠ .idle
        rw [state]
        exact afterRegisters_busy
      · rw [next']
        exact MacroState.noConfusion
  | _ =>
      obtain ⟨op, next⟩ := addi_step xlen64 sees list state
      have emits : Emits xlen64 m r [opAt xlen64 m r] (regsAfter xlen64 m r) := .last r
      rw [op] at emits
      exact ⟨regsAfter xlen64 m r, emits, by rw [next]; rfl⟩

end List

/-- The two halves of a move. -/
def moveOps (m : BitVec 32) (type : MacroInstrType) : List MicroOp :=
  if type = .mvsa01 then
    [innerOp (addi 0 10 (xreg1 m)) true, lastOp (addi 0 11 (xreg2 m)) true]
  else [innerOp (addi 0 (xreg1 m) 10) true, lastOp (addi 0 (xreg2 m) 11) true]

theorem move_emits (xlen64 : Bool) (sees : Sees (steadyIn m) m type) (move : type.isMove = true) :
    ∃ r, Emits xlen64 m resetRegs (moveOps m type) r ∧ r.state = .idle := by
  obtain ⟨first, second⟩ := sees.currentXreg move
  have starts : opAt xlen64 m resetRegs =
        innerOp (if type = .mvsa01 then addi 0 10 (xreg1 m) else addi 0 (xreg1 m) 10) true ∧
      (regsAfter xlen64 m resetRegs).state = .move := by
    cases type with
    | mva01s | mvsa01 =>
        simp [opAt, regsAfter, macroDecoder, resetRegs, stepIdle, sees.currentType, sees.isMacro,
          sees.outBefore, first, MacroOut.microOp, innerOp]
    | _ => cases move
  obtain ⟨op, moving⟩ := starts
  have ends : opAt xlen64 m (regsAfter xlen64 m resetRegs) =
        lastOp (if type = .mvsa01 then addi 0 11 (xreg2 m) else addi 0 (xreg2 m) 11) true ∧
      (regsAfter xlen64 m (regsAfter xlen64 m resetRegs)).state = .idle := by
    generalize regsAfter xlen64 m resetRegs = r at moving
    cases type with
    | mva01s | mvsa01 =>
        simp [opAt, regsAfter, macroDecoder, moving, stepMove, sees.currentType, sees.outBefore,
          second, steadyIn_ack, MacroInstrType.isMove, MacroOut.microOp, lastOp]
    | _ => cases move
  obtain ⟨op', idle⟩ := ends
  refine ⟨regsAfter xlen64 m (regsAfter xlen64 m resetRegs), ?_, idle⟩
  have both : moveOps m type =
      [opAt xlen64 m resetRegs, opAt xlen64 m (regsAfter xlen64 m resetRegs)] := by
    rw [op, op', moveOps]
    split <;> rfl
  rw [both]
  exact .cons (by rw [moving]; exact MacroState.noConfusion) (.last _)

/-- The expansion of a legal macro instruction. -/
def expansionOps (xlen64 : Bool) (m : BitVec 32) (type : MacroInstrType) : List MicroOp :=
  if type.isMove then moveOps m type
  else
    let n := (regNumbers m).toNat
    firstOp xlen64 type m (firstReg n) ::
      laterOps xlen64 type (firstOffset xlen64 type m) (restRegs n) ++ tailOps xlen64 m type

theorem legalType_sees_steady (legal : legalType m = some type) : Sees (steadyIn m) m type :=
  (@legalType_sees plainCfg (fetching m true) type legal).steadyIn

theorem expansion_iff (legal : legalType m = some type) {ops : List MicroOp}
    (nonempty : ops ≠ []) : IsExpansion xlen64 m ops ↔ ops = expansionOps xlen64 m type := by
  have sees := legalType_sees_steady legal
  cases move : type.isMove with
  | true =>
      obtain ⟨r, emits, idle⟩ := move_emits xlen64 sees move
      rw [emits.isExpansion_iff idle nonempty, expansionOps, if_pos move]
  | false =>
      have listed := sees.listed move
      have number : regNumbers m = BitVec.ofNat 4 (regNumbers m).toNat := by
        rw [BitVec.ofNat_toNat, BitVec.setWidth_eq]
      have some : 1 ≤ (regNumbers m).toNat :=
        Nat.pos_of_ne_zero fun none => listed (BitVec.eq_of_toNat_eq none)
      have atMost : (regNumbers m).toNat ≤ 12 := regNumbers_le m
      obtain ⟨r, emits, state, returns⟩ := list_emits xlen64 sees move number some atMost
      obtain ⟨r', emits', idle⟩ := tail_emits xlen64 sees move state returns
      have whole := emits.append (by rw [state]; exact afterRegisters_busy) emits'
      rw [whole.isExpansion_iff idle nonempty, expansionOps, move]
      rfl

/-! ## Execution -/

theorem execAll_append (h : Hart (xlen xlen64)) (ops ops' : List MicroOp) :
    execAll h (ops ++ ops') = (execAll h ops).bind fun h' => execAll h' ops' := by
  induction ops generalizing h with
  | nil => rfl
  | cons op ops ih =>
      rw [List.cons_append, execAll, execAll, Option.bind_assoc]
      exact congrArg _ (funext fun h' => ih h')

theorem exec_inner (h : Hart (xlen xlen64)) (i : Instr) (double : Bool) :
    (innerOp i.encode double).exec h = some (h.step h.pc i) := by
  rw [MicroOp.exec]
  change (decode i.encode).map _ = _
  rw [decode_encode]
  rfl

theorem exec_last (h : Hart (xlen xlen64)) (i : Instr) (double : Bool) :
    (lastOp i.encode double).exec h = some (h.step (h.pc + 2) i) := by
  rw [MicroOp.exec]
  change (decode i.encode).map _ = _
  rw [decode_encode]
  rfl

theorem addi_encode (imm : BitVec 12) (rs1 rd : BitVec 5) :
    addi imm rs1 rd = (Instr.addi rd rs1 imm).encode := rfl

theorem retInstr_encode : retInstr = (Instr.jalr 0 1 0).encode := rfl

theorem signExtend_zero (n : Nat) : (0 : BitVec 12).signExtend n = 0#n := by
  rw [BitVec.signExtend_eq_setWidth_of_msb_false (by decide)]
  exact BitVec.eq_of_toNat_eq (by simp)

theorem signExtend_ofInt (xlen64 : Bool) {z : Int} (low : -2048 ≤ z) (high : z < 2048) :
    (BitVec.ofInt 12 z).signExtend (xlen xlen64) = BitVec.ofInt (xlen xlen64) z := by
  have wide : 12 ≤ xlen xlen64 := by cases xlen64 <;> decide
  have power : 2 ^ 12 ≤ 2 ^ xlen xlen64 := Nat.pow_le_pow_right Nat.two_pos wide
  apply BitVec.eq_of_toInt_eq
  rw [BitVec.toInt_signExtend_of_le wide, BitVec.toInt_ofInt, BitVec.toInt_ofInt,
    Int.bmod_eq_of_le (by omega) (by omega), Int.bmod_eq_of_le (by omega) (by omega)]

/-! ## Moves -/

theorem movedRegister_eq (m : BitVec 32) :
    xreg1 m = movedRegister (m.extractLsb' 7 3) ∧ xreg2 m = movedRegister (m.extractLsb' 2 3) := by
  have eight : m.extractLsb' 8 2 = (m.extractLsb' 7 3).extractLsb' 1 2 :=
    (BitField.extract_extract m 7 1 (by decide)).symm
  have three : m.extractLsb' 3 2 = (m.extractLsb' 2 3).extractLsb' 1 2 :=
    (BitField.extract_extract m 2 1 (by decide)).symm
  rw [xreg1, xreg2, eight, three]
  generalize m.extractLsb' 7 3 = k, m.extractLsb' 2 3 = k'
  revert k k'
  decide

/-- A moved register is neither `x0` nor one of the arguments. -/
theorem movedRegister_apart : ∀ k : BitVec 3,
    movedRegister k ≠ 10 ∧ movedRegister k ≠ 11 := by decide

theorem exec_move (h : Hart (xlen xlen64)) (move : type.isMove = true) :
    execAll h (moveOps m type) = some (meaning h m type) := by
  obtain ⟨first, second⟩ := movedRegister_eq m
  have mv : ∀ (h : Hart (xlen xlen64)) (next : BitVec (xlen xlen64)) (rd rs1 : BitVec 5),
      h.step next (.addi rd rs1 0) = (h.set rd (h.get rs1)).jump next := by
    intro h next rd rs1
    rw [Hart.step, signExtend_zero, BitVec.add_zero]
  have both : ∀ rd rs1 rd' rs1' : BitVec 5, rs1' ≠ rd →
      execAll h [innerOp (addi 0 rs1 rd) true, lastOp (addi 0 rs1' rd') true] =
        some (((h.set rd (h.get rs1)).set rd' (h.get rs1')).jump (h.pc + 2)) := by
    intro rd rs1 rd' rs1' apart
    simp only [execAll, addi_encode, exec_inner, exec_last, Option.bind_some, mv, Hart.get_jump,
      Hart.jump_set, Hart.jump_jump, Hart.pc_jump]
    rw [Hart.get_set_other h apart]
  rw [moveOps]
  cases type with
  | mvsa01 =>
      rw [if_pos rfl, both _ _ _ _ (by rw [first]; exact (movedRegister_apart _).2.symm), first,
        second]
      rfl
  | mva01s =>
      rw [if_neg MacroInstrType.noConfusion,
        both _ _ _ _ (by rw [second]; exact (movedRegister_apart _).1), first, second]
      rfl
  | _ => cases move

/-! ## Register lists on 32-bit registers -/

section Narrow

variable (h : Hart (xlen false))

theorem ofInt_sub_four (w : Nat) (z : Int) :
    BitVec.ofInt w z - BitVec.ofNat w 4 = BitVec.ofInt w (z - 4) := by
  rw [Int.sub_eq_add_neg, BitVec.ofInt_add, BitVec.ofInt_neg, BitVec.sub_eq_add_neg]
  rfl

/-- One slot further down. -/
theorem ofInt_add_ffc (z : Int) : BitVec.ofInt 12 z + 0xffc = BitVec.ofInt 12 (z - 4) := by
  rw [← ofInt_sub_four, BitVec.sub_eq_add_neg]
  rfl

theorem slot_below (a : BitVec (xlen false)) (z : Int) :
    a + BitVec.ofInt (xlen false) z - BitVec.ofNat _ 4 = a + BitVec.ofInt (xlen false) (z - 4) := by
  rw [← ofInt_sub_four, BitVec.sub_eq_add_neg, BitVec.sub_eq_add_neg, BitVec.add_assoc]

theorem exec_saves (rs : List (BitVec 5)) {z : Int} (low : -2048 ≤ z - 4 * rs.length)
    (high : z < 2048) :
    execAll h (laterOps false .push (BitVec.ofInt 12 z) rs) =
      some (h.save 4 (h.get 2 + BitVec.ofInt (xlen false) z) rs) := by
  induction rs generalizing h z with
  | nil => rfl
  | cons reg rs ih =>
      rw [List.length_cons] at low
      have op : laterOp false .push (BitVec.ofInt 12 z) reg =
          innerOp (Instr.store false reg 2 (BitVec.ofInt 12 z)).encode := rfl
      rw [laterOps, execAll, op, exec_inner, Option.bind_some, ofInt_add_ffc,
        ih _ (by omega) (by omega), Hart.step, signExtend_ofInt _ (by omega) high, Hart.save,
        slot_below]
      rfl

theorem exec_restores (notPush : type ≠ .push) (rs : List (BitVec 5)) (noSp : 2 ∉ rs) {z : Int}
    (low : -2048 ≤ z - 4 * rs.length) (high : z < 2048) :
    execAll h (laterOps false type (BitVec.ofInt 12 z) rs) =
      some (h.restore 4 (h.get 2 + BitVec.ofInt (xlen false) z) rs) := by
  induction rs generalizing h z with
  | nil => rfl
  | cons reg rs ih =>
      rw [List.length_cons] at low
      obtain ⟨other, rest⟩ := not_or.mp (mt List.mem_cons.mpr noSp)
      have op : laterOp false type (BitVec.ofInt 12 z) reg =
          innerOp (Instr.load false reg 2 (BitVec.ofInt 12 z)).encode := by
        rw [laterOp, if_neg notPush]
        rfl
      rw [laterOps, execAll, op, exec_inner, Option.bind_some, ofInt_add_ffc,
        ih _ rest (by omega) (by omega), Hart.step, signExtend_ofInt _ (by omega) high,
        Hart.restore, slot_below, Hart.get_jump, Hart.get_set_other h other]
      congr 2
      exact (congrArg _ (Hart.pc_set h reg _).symm).trans (Hart.jump_self _)

theorem registers_eq (m : BitVec 32) (listed : regNumbers m ≠ 0) :
    firstReg (regNumbers m).toNat :: restRegs (regNumbers m).toNat = registerList m := by
  unfold regNumbers at listed ⊢
  rw [registerList, savedCount]
  generalize m.extractLsb' 4 4 = rlist at listed ⊢
  revert rlist
  decide

theorem stackAdj_eq (xlen64 : Bool) (m : BitVec 32) (listed : regNumbers m ≠ 0) :
    stackAdj m xlen64 = BitVec.ofNat 12 (frameBytes xlen64 m) := by
  unfold regNumbers at listed
  rw [stackAdj, frameBytes, savedCount]
  generalize m.extractLsb' 4 4 = rlist, m.extractLsb' 2 2 = spimm at listed ⊢
  revert xlen64 rlist spimm
  decide

theorem savedCount_le (m : BitVec 32) : savedCount m ≤ 12 := by
  unfold savedCount
  split <;> omega

theorem registerList_length (m : BitVec 32) : (registerList m).length ≤ 13 := by
  have atMost := savedCount_le m
  rw [registerList, List.length_append, List.length_reverse, List.length_take]
  exact Nat.succ_le_succ ((Nat.min_le_left ..).trans atMost)

theorem frameBytes_le (xlen64 : Bool) (m : BitVec 32) : frameBytes xlen64 m ≤ 160 := by
  have count := savedCount_le m
  have steps := (m.extractLsb' 2 2).isLt
  unfold frameBytes accessBytes
  split <;> omega

theorem not_mem_registerList {r : BitVec 5} (apart : r ∉ 1 :: savedRegisters) (m : BitVec 32) :
    r ∉ registerList m := by
  obtain ⟨notRa, notSaved⟩ := not_or.mp (mt List.mem_cons.mpr apart)
  intro inside
  rcases List.mem_append.mp inside with saved | ra
  · exact notSaved (List.mem_of_mem_take (List.mem_reverse.mp saved))
  · exact notRa (List.mem_singleton.mp ra)

/-- The registers of a list, stored or loaded. -/
theorem exec_registers (listed : regNumbers m ≠ 0) (list : type.isMove = false) :
    execAll h (firstOp false type m (firstReg (regNumbers m).toNat) ::
        laterOps false type (firstOffset false type m) (restRegs (regNumbers m).toNat)) =
      some (if type = .push then h.save 4 (h.get 2 - 4) (registerList m)
        else h.restore 4 (h.get 2 + BitVec.ofNat _ (frameBytes false m) - 4)
          (registerList m)) := by
  have registers := registers_eq m listed
  have short := registerList_length m
  have frame := frameBytes_le false m
  by_cases push : type = .push
  · subst push
    have shape : firstOp false .push m (firstReg (regNumbers m).toNat) ::
        laterOps false .push (firstOffset false .push m) (restRegs (regNumbers m).toNat) =
      laterOps false .push (BitVec.ofInt 12 (-4)) (registerList m) := by
      rw [← registers]
      rfl
    have minus : h.get 2 - 4 = h.get 2 + BitVec.ofInt (xlen false) (-4) := by
      rw [BitVec.sub_eq_add_neg, BitVec.ofInt_neg]
      rfl
    rw [shape, exec_saves h _ (by omega) (by decide), if_pos rfl, minus]
  · have imm : itypeImm false type m = BitVec.ofInt 12 (frameBytes false m - 4 : Int) := by
      rw [itypeImm, if_neg push, stackAdj_eq false m listed, ← ofInt_sub_four]
      rfl
    have shape : firstOp false type m (firstReg (regNumbers m).toNat) ::
        laterOps false type (firstOffset false type m) (restRegs (regNumbers m).toNat) =
      laterOps false type (BitVec.ofInt 12 (frameBytes false m - 4 : Int)) (registerList m) := by
      rw [← registers, laterOps, firstOp, firstOffset, laterOp, if_neg push, if_neg push,
        if_neg push, imm]
      rfl
    rw [shape, exec_restores h push _ (not_mem_registerList (by decide) m) (by omega) (by omega),
      if_neg push, ← slot_below, BitVec.ofInt_natCast]
    rfl

/-- On 32-bit registers a register list does what its instruction says. -/
theorem exec_list (listed : regNumbers m ≠ 0) (list : type.isMove = false) :
    execAll h (expansionOps false m type) = some (meaning h m type) := by
  have small := frameBytes_le false m
  have noSp := not_mem_registerList (r := 2) (by decide) m
  have adjust : (spAdjust false type m).signExtend (xlen false) =
      if type = .push then -BitVec.ofNat _ (frameBytes false m)
      else BitVec.ofNat _ (frameBytes false m) := by
    have zero : ∀ x : BitVec 12, x - (if false = true then 4 else 0) = x :=
      fun x => BitVec.sub_zero x
    rw [spAdjust, zero, stackAdj_eq false m listed, ← BitVec.ofInt_natCast, ← BitVec.ofInt_natCast]
    by_cases push : type = .push
    · rw [if_pos push, if_pos push, itypeImm, if_pos push, stackAdj_eq false m listed,
        ← BitVec.ofInt_natCast, ← BitVec.ofInt_neg, ← signExtend_ofInt _ (by omega) (by omega),
        BitVec.ofInt_neg, BitVec.neg_eq_not_add]
      rfl
    · rw [if_neg push, if_neg push, signExtend_ofInt _ (by omega) (by omega)]
  have split : expansionOps false m type = (firstOp false type m (firstReg (regNumbers m).toNat) ::
      laterOps false type (firstOffset false type m) (restRegs (regNumbers m).toNat)) ++
      tailOps false m type := by
    rw [expansionOps, list]
    rfl
  rw [split, execAll_append, exec_registers h listed list, Option.bind_some]
  cases type with
  | mva01s => cases list
  | mvsa01 => cases list
  | push =>
      simp only [tailOps, execAll, addi_encode, exec_last, Option.bind_some, Hart.step, adjust,
        if_true, Hart.get_save, Hart.pc_save, ← BitVec.sub_eq_add_neg]
      rfl
  | pop =>
      simp only [tailOps, execAll, addi_encode, exec_last, Option.bind_some, Hart.step, adjust,
        reduceCtorEq, if_false, Hart.pc_restore]
      rw [Hart.get_restore _ _ _ noSp]
      rfl
  | popret =>
      simp only [tailOps, execAll, addi_encode, retInstr_encode, exec_inner, exec_last,
        Option.bind_some, Hart.step, adjust, reduceCtorEq, if_false, signExtend_zero,
        BitVec.add_zero, Hart.set_zero, Hart.jump_jump, Hart.get_jump]
      rw [Hart.get_restore _ _ _ noSp]
      rfl
  | popretz =>
      have lui : 0#20 ++ 10#5 ++ opcodeLui = (Instr.lui 10 0).encode := rfl
      simp only [tailOps, execAll, addi_encode, lui, retInstr_encode, exec_inner, exec_last,
        Option.bind_some, Hart.step, adjust, reduceCtorEq, if_false, signExtend_zero,
        BitVec.add_zero, Hart.set_zero, Hart.jump_jump, Hart.get_jump, Hart.jump_set]
      have clear : ((0 : BitVec 20) ++ 0#12).signExtend (xlen false) = 0 := rfl
      have clears : ∀ g : Hart (xlen false), g.get 2 = h.get 2 → ∀ v : BitVec (xlen false),
          (g.set 10 0).set 10 ((g.set 10 0).get 10) = g.set 10 0 ∧
          (g.set 10 0).get 2 = h.get 2 ∧ (g.set 10 0).set 2 v = (g.set 2 v).set 10 0 ∧
          ((g.set 2 v).set 10 0).get 1 = (g.set 2 v).get 1 := by
        intro g kept v
        refine ⟨?_, ?_, Hart.set_comm g (by decide) 0 v, Hart.get_set_other _ (by decide) 0⟩
        · rw [Hart.get_set_same g (by decide), Hart.set_set]
        · rw [Hart.get_set_other g (by decide), kept]
      obtain ⟨once, sp, swap, ra⟩ := clears _ (Hart.get_restore h 4
        (h.get 2 + BitVec.ofNat (xlen false) (frameBytes false m) - 4) noSp)
        (h.get 2 + BitVec.ofNat (xlen false) (frameBytes false m))
      rw [clear, once, sp, swap, ra]
      rfl

end Narrow

/-! ## Register lists on 64-bit registers -/

section Wide

/-- A micro-operation that leaves the stack pointer alone, where it can be executed. -/
def KeepsSp (op : MicroOp) : Prop :=
  ∀ h h' : Hart (xlen true), op.exec h = some h' → h'.get 2 = h.get 2

theorem keepsSp_of_decode {instr : BitVec 32}
    (each : ∀ i, decode instr = some i → ∀ (h : Hart (xlen true)) (next : BitVec (xlen true)),
      (h.step next i).get 2 = h.get 2) : KeepsSp (innerOp instr) := by
  intro h h' done
  rw [MicroOp.exec] at done
  change (decode instr).map _ = some h' at done
  obtain ⟨i, decoded, rfl⟩ := Option.map_eq_some_iff.mp done
  exact each i decoded h _

theorem keepsSp_store {instr : BitVec 32} (opcode : instr.extractLsb' 0 7 = opcodeStore) :
    KeepsSp (innerOp instr) := by
  refine keepsSp_of_decode fun i decoded h next => ?_
  obtain ⟨wide, rs2, rs1, imm, rfl⟩ := decode_store opcode decoded
  rfl

theorem keepsSp_load {instr : BitVec 32} (opcode : instr.extractLsb' 0 7 = opcodeLoad)
    (other : instr.extractLsb' 7 5 ≠ 2) : KeepsSp (innerOp instr) := by
  refine keepsSp_of_decode fun i decoded h next => ?_
  obtain ⟨wide, rs1, imm, rfl⟩ := decode_load opcode decoded
  exact Hart.get_set_other h other.symm _

theorem keepsSp_firstOp {reg : BitVec 5} (other : reg ≠ 2) :
    KeepsSp (firstOp true type m reg) := by
  rw [firstOp]
  split
  · exact keepsSp_store (extract_below _ _ (by decide))
  · refine keepsSp_load (extract_below _ _ (by decide)) ?_
    exact fun same => other ((extract_rd _ reg opcodeLoad).symm.trans same)

theorem keepsSp_laterOp {reg : BitVec 5} (other : reg ≠ 2) (offset : BitVec 12) :
    KeepsSp (laterOp true type offset reg) := by
  rw [laterOp]
  split
  · exact keepsSp_store (extract_below _ _ (by decide))
  · refine keepsSp_load (extract_below _ _ (by decide)) ?_
    exact fun same => other ((extract_rd _ reg opcodeLoad).symm.trans same)

theorem sp_of_kept {ops : List MicroOp} (kept : ∀ op ∈ ops, KeepsSp op) {h h' : Hart (xlen true)}
    (done : execAll h ops = some h') : h'.get 2 = h.get 2 := by
  induction ops generalizing h with
  | nil => rw [← Option.some.inj done]
  | cons op ops ih =>
      obtain ⟨h₁, first, rest⟩ := Option.bind_eq_some_iff.mp done
      rw [ih (fun op inside => kept op (List.mem_cons_of_mem _ inside)) rest]
      exact kept op List.mem_cons_self h h₁ first

theorem keepsSp_laterOps {rs : List (BitVec 5)} (noSp : 2 ∉ rs) (offset : BitVec 12) :
    ∀ op ∈ laterOps true type offset rs, KeepsSp op := by
  induction rs generalizing offset with
  | nil => exact fun op inside => absurd inside List.not_mem_nil
  | cons reg rs ih =>
      obtain ⟨other, rest⟩ := not_or.mp (mt List.mem_cons.mpr noSp)
      intro op inside
      rcases List.mem_cons.mp inside with rfl | later
      · exact keepsSp_laterOp (Ne.symm other) offset
      · exact ih rest _ op later

theorem sp_after_tail (list : type.isMove = false) {h h' : Hart (xlen true)}
    (done : execAll h (tailOps true m type) = some h') :
    h'.get 2 = h.get 2 + (spAdjust true type m).signExtend (xlen true) := by
  have lui : 0#20 ++ 10#5 ++ opcodeLui = (Instr.lui 10 0).encode := rfl
  cases type with
  | mva01s => cases list
  | mvsa01 => cases list
  | push | pop | popret | popretz =>
      simp only [tailOps, execAll, addi_encode, lui, retInstr_encode, exec_inner, exec_last,
        Option.bind_some, Hart.step, signExtend_zero, BitVec.add_zero, Hart.set_zero,
        Hart.jump_jump, Hart.get_jump, Hart.jump_set, Option.some.injEq] at done
      subst done
      simp [Hart.get_set_same, Hart.get_set_other]

/-- The adjustment is four bytes short, or long. -/
theorem spAdjust_wrong (listed : regNumbers m ≠ 0) :
    (spAdjust true type m).signExtend (xlen true) ≠
      if type = .push then -BitVec.ofNat _ (frameBytes true m)
      else BitVec.ofNat _ (frameBytes true m) := by
  have small := frameBytes_le true m
  have short : spAdjust true type m = BitVec.ofInt 12
      ((if type = .push then -(frameBytes true m : Int) else frameBytes true m) - 4) := by
    rw [spAdjust, itypeImm, stackAdj_eq true m listed, ← BitVec.ofInt_natCast, ← ofInt_sub_four]
    split
    · rw [BitVec.ofInt_neg, BitVec.neg_eq_not_add]
      rfl
    · rfl
  have moved : ∀ x : BitVec 64, x - BitVec.ofNat 64 4 ≠ x := by
    intro x
    bv_omega
  rw [short, signExtend_ofInt _ (by split <;> omega) (by split <;> omega), ← ofInt_sub_four]
  split
  · rw [BitVec.ofInt_neg, BitVec.ofInt_natCast]
    exact moved _
  · rw [BitVec.ofInt_natCast]
    exact moved _

theorem meaning_sp (h : Hart (xlen true)) (list : type.isMove = false) :
    (meaning h m type).get 2 = h.get 2 +
      if type = .push then -BitVec.ofNat _ (frameBytes true m)
      else BitVec.ofNat _ (frameBytes true m) := by
  cases type with
  | mva01s => cases list
  | mvsa01 => cases list
  | push | pop | popret | popretz =>
      simp [meaning, popped, Hart.get_set_same, Hart.get_set_other, BitVec.sub_eq_add_neg]

end Wide

/-- A legal macro instruction has one expansion; executed in order, it does what the
instruction says on every hart just when registers are 32 bits wide or it is a move. -/
theorem expansion_means (xlen64 : Bool) {m : BitVec 32} {type : MacroInstrType}
    (legal : legalType m = some type) :
    ∃ ops, ops ≠ [] ∧ (∀ ops', ops' ≠ [] → (IsExpansion xlen64 m ops' ↔ ops' = ops)) ∧
      ((∀ h : Hart (xlen xlen64), execAll h ops = some (meaning h m type)) ↔
        xlen64 = false ∨ type.isMove = true) := by
  have sees := legalType_sees_steady legal
  refine ⟨expansionOps xlen64 m type, ?_, fun ops' some => expansion_iff legal some, ?_⟩
  · unfold expansionOps moveOps
    split
    · split <;> exact List.cons_ne_nil _ _
    · exact List.cons_ne_nil _ _
  cases move : type.isMove with
  | true =>
      refine ⟨fun _ => .inr rfl, fun _ h => ?_⟩
      rw [expansionOps, if_pos move]
      exact exec_move h move
  | false =>
      have listed := sees.listed move
      cases xlen64 with
      | false => exact ⟨fun _ => .inl rfl, fun _ h => exec_list h listed move⟩
      | true =>
          refine ⟨fun every => ?_, fun narrow => by simp at narrow⟩
          have done := every ⟨fun _ => 0, fun _ => 0, 0⟩
          have split : expansionOps true m type =
              (firstOp true type m (firstReg (regNumbers m).toNat) ::
                laterOps true type (firstOffset true type m) (restRegs (regNumbers m).toNat)) ++
                tailOps true m type := by
            rw [expansionOps, move]
            rfl
          rw [split, execAll_append] at done
          obtain ⟨h', registers, tail⟩ := Option.bind_eq_some_iff.mp done
          have noSp := not_mem_registerList (r := 2) (by decide) m
          rw [← registers_eq m listed] at noSp
          obtain ⟨first, rest⟩ := not_or.mp (mt List.mem_cons.mpr noSp)
          have kept := sp_of_kept (List.forall_mem_cons.mpr
            ⟨keepsSp_firstOp (Ne.symm first), keepsSp_laterOps rest _⟩) registers
          have moved := sp_after_tail move tail
          rw [meaning_sp _ move, kept] at moved
          exact absurd ((BitVec.add_right_inj _).mp moved).symm (spAdjust_wrong listed)

/-- `cm.push {ra, s0}, -16` -/
def pushInstr : BitVec 32 := 0xb852

theorem expansion_means_push :
    ∃ ops, ops ≠ [] ∧ (∀ ops', ops' ≠ [] → (IsExpansion false pushInstr ops' ↔ ops' = ops)) ∧
      ((∀ h : Hart (xlen false), execAll h ops = some (meaning h pushInstr .push)) ↔
        false = false ∨ MacroInstrType.push.isMove = true) :=
  expansion_means false (by decide)

end Zcmp

end Cva6
