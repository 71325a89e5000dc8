import RiscvCores.Toooba.CsrFile
import Mathlib.Data.List.Find

/-!
# Levels, traps and the choice of an interrupt

What the privileged architecture asks of the CSR file, and what it keeps as long as
software writes no reserved level.  Of several interrupts for one level the code takes the
one with the lowest number, where the architecture has an order of its own.
-/

set_option autoImplicit false

namespace Toooba.CsrFile

/-! ## What is asked -/

/-- The level and the saved level of the machine are user, supervisor or machine. -/
def Legal (s : State) : Prop :=
  (s.prvReg = prvU ∨ s.prvReg = prvS ∨ s.prvReg = prvM) ∧
    (s.mpp = prvU ∨ s.mpp = prvS ∨ s.mpp = prvM)

/-- The cause is delegated. -/
def delegated (s : State) : Trap → Bool
  | .exception e => (medelegCsr s).getLsbD e.pack.toNat
  | .interrupt i => (midelegCsr s).getLsbD i.pack.toNat

def toSupervisor (s : State) (t : Trap) : Bool := s.prvReg != prvM && delegated s t

/-- `BASE`, plus four times the cause for an interrupt in vectored mode. -/
def vector (tvec : Tvec) (t : Trap) : Addr :=
  (tvec.baseHi ++ 0#2) +
    if tvec.modeLow && t.isInterrupt then BitVec.ofNat 64 (4 * t.code.toNat) else 0

/-- Pending, and enabled in `mie`. -/
def raised (s : State) (i : Interrupt) : Bool :=
  (mieCsr s).getLsbD i.pack.toNat && (mipCsr s).getLsbD i.pack.toNat

/-- The machine takes the interrupt. -/
def machineTakes (s : State) (i : Interrupt) : Bool :=
  raised s i && !delegated s (.interrupt i) && (s.prvReg != prvM || s.ieVec.m)

/-- The supervisor takes it. -/
def supervisorTakes (s : State) (i : Interrupt) : Bool :=
  raised s i && delegated s (.interrupt i) &&
    (s.prvReg == prvU || (s.prvReg == prvS && s.ieVec.s))

/-- The first of the machine's interrupts, or else of the supervisor's. -/
def firstTaken (order : List Interrupt) (s : State) : Option Interrupt :=
  (order.find? (machineTakes s)).or (order.find? (supervisorTakes s))

/-- The order of the privileged architecture. -/
def architectural : List Interrupt :=
  [.machineExternal, .machineSoftware, .machineTimer, .supervisorExternal, .supervisorSoftware,
    .supervisorTimer]

/-- The lowest number first. -/
def lowestFirst : List Interrupt :=
  [.supervisorSoftware, .machineSoftware, .supervisorTimer, .machineTimer, .supervisorExternal,
    .machineExternal]

/-- What is asked of the registers `s`, with interrupts in the order `order`. -/
structure Serves (cfg : Config) (order : List Interrupt) (s : State) : Prop where
  levels : Legal s
  entry : ∀ t pc addr inst, (trap s t pc addr inst).1.prvReg =
    if toSupervisor s t then prvS else prvM
  target : ∀ t pc addr inst, (trap s t pc addr inst).2 =
    vector (if toSupervisor s t then s.stvec else s.mtvec) t
  returns : ∀ t pc addr inst, ∀ after ret,
    (if toSupervisor s t then sret else mret) (trap s t pc addr inst).1 = (after, ret) →
      after.prvReg = s.prvReg ∧ after.ieVec = s.ieVec ∧ ret = pc
  quiet : pendingInterrupt s cfg = none ↔
    ∀ i, machineTakes s i = false ∧ supervisorTakes s i = false
  first : pendingInterrupt s cfg = firstTaken order s

/-- A CSR write that puts the reserved level into `mstatus.MPP` or `dcsr.prv`. -/
def Op.WritesReserved (cfg : Config) : Op → Prop
  | .csrInstWr .mstatus x _ => x.extractLsb' 11 2 = 2
  | .csrInstWr .dcsr x _ => cfg.gdbControl = true ∧ x.extractLsb' 0 2 = 2
  | _ => False

/-! ## The levels -/

theorem level_cases {x : BitVec 2} (legal : x ≠ 2) : x = prvU ∨ x = prvS ∨ x = prvM := by
  revert x
  decide

theorem csrInstWr_legal {cfg : Config} {s : State} (legal : Legal s) {csr : CSR} {x : Data}
    {writesCsr : Bool} (ordinary : ¬ (Op.csrInstWr csr x writesCsr).WritesReserved cfg) :
    Legal (csrInstWr s cfg csr x) := by
  cases csr with
  | mstatus => exact ⟨legal.1, level_cases ordinary⟩
  | dcsr =>
      unfold csrInstWr
      cases gdb : cfg.gdbControl with
      | false => exact legal
      | true => exact ⟨level_cases fun reserved => ordinary ⟨gdb, reserved⟩, legal.2⟩
  | _ => exact legal

theorem trap_legal {s : State} (legal : Legal s) (t : Trap) (pc addr : Addr)
    (inst : BitVec 32) : Legal (trap s t pc addr inst).1 := by
  unfold trap
  split
  · exact ⟨.inr (.inl rfl), legal.2⟩
  · exact ⟨.inr (.inr rfl), legal.1⟩

theorem mret_legal {s : State} (legal : Legal s) : Legal (mret s).1 := ⟨legal.2, .inl rfl⟩

theorem sret_legal {s : State} (legal : Legal s) : Legal (sret s).1 := by
  refine ⟨?_, legal.2⟩
  cases saved : s.spp with
  | false =>
      left
      simp only [sret, saved]
      rfl
  | true =>
      right
      left
      simp only [sret, saved]
      rfl

theorem next_legal {cfg : Config} {s : State} (legal : Legal s) {op : Op}
    (ordinary : ¬ op.WritesReserved cfg) : Legal (next cfg s op) := by
  cases op with
  | csrInstWr csr x writesCsr => exact csrInstWr_legal legal ordinary
  | trap t pc addr inst => exact trap_legal legal t pc addr inst
  | mret => exact mret_legal legal
  | sret => exact sret_legal legal
  | setMSIP v | setMTIP v | setMEIP v | setSEIP v => exact legal

/-! ## Traps and returns -/

theorem deleg_eq {s : State} (legal : Legal s) (t : Trap) : deleg s t = toSupervisor s t := by
  have levels : decide (s.prvReg ≤ prvS) = (s.prvReg != prvM) := by
    obtain ⟨user | supervisor | machine, -⟩ := legal
    · rw [user]
      rfl
    · rw [supervisor]
      rfl
    · rw [machine]
      rfl
  unfold deleg toSupervisor
  rw [levels]
  cases t <;> rfl

theorem getNextPc_eq (t : Trap) (tvec : Tvec) : getNextPc t tvec = vector tvec t := by
  have scaled : ((t.code ++ 0#2).setWidth 64 : Addr) = BitVec.ofNat 64 (4 * t.code.toNat) := by
    generalize t.code = code
    revert code
    decide
  unfold getNextPc vector
  cases tvec.modeLow && t.isInterrupt with
  | false => simp
  | true => simp [scaled]

/-- `spp` keeps the level of a trap that goes to the supervisor. -/
theorem saved_level {s : State} (legal : Legal s) {t : Trap} (down : toSupervisor s t = true) :
    (0#1 ++ bit (s.prvReg.getLsbD 0) : BitVec 2) = s.prvReg := by
  obtain ⟨user | supervisor | machine, -⟩ := legal
  · rw [user]
    rfl
  · rw [supervisor]
    rfl
  · rw [toSupervisor, machine] at down
    cases down

theorem trap_returns {s : State} (legal : Legal s) (t : Trap) (pc addr : Addr)
    (inst : BitVec 32) {after : State} {ret : Addr}
    (returned : (if toSupervisor s t then sret else mret) (trap s t pc addr inst).1 =
      (after, ret)) :
    after.prvReg = s.prvReg ∧ after.ieVec = s.ieVec ∧ ret = pc := by
  cases down : toSupervisor s t with
  | false =>
      rw [down, trap, deleg_eq legal, down] at returned
      cases returned
      exact ⟨rfl, rfl, rfl⟩
  | true =>
      rw [down, trap, deleg_eq legal, down] at returned
      cases returned
      exact ⟨saved_level legal down, rfl, rfl⟩

/-! ## The interrupt taken -/

/-- The bits of `mie` and `mip` that can be set. -/
def intNumbers : List Nat := [1, 3, 5, 7, 9, 11]

theorem intCsr_bits : ∀ em es tm ts sm ss : Bool, ∀ n < 16, n ∉ intNumbers →
    (intCsr { s := es, m := em } { s := ts, m := tm } { s := ss, m := sm }).getLsbD n = false := by
  decide +kernel

theorem not_raised (s : State) {n : Nat} (small : n < 16) (absent : n ∉ intNumbers) :
    (mieCsr s).getLsbD n = false :=
  intCsr_bits _ _ _ _ _ _ n small absent

/-- Interrupt `n` is raised and goes to the machine. -/
def machineBit (s : State) (n : Nat) : Bool :=
  (mieCsr s).getLsbD n && (mipCsr s).getLsbD n && !(midelegCsr s).getLsbD n &&
    (s.prvReg != prvM || s.ieVec.m)

def supervisorBit (s : State) (n : Nat) : Bool :=
  (mieCsr s).getLsbD n && (mipCsr s).getLsbD n && (midelegCsr s).getLsbD n &&
    (s.prvReg == prvU || (s.prvReg == prvS && s.ieVec.s))

theorem interruptNum_le (cfg : Config) : interruptNum cfg ≤ 16 ∧ 12 ≤ interruptNum cfg := by
  unfold interruptNum
  split <;> decide

theorem machine_allowed {s : State} (legal : Legal s) :
    (s.prvReg < prvM ∨ (s.prvReg = prvM ∧ s.ieVec.m = true)) ↔
      (s.prvReg != prvM || s.ieVec.m) = true := by
  obtain ⟨user | supervisor | machine, -⟩ := legal
  · rw [user]
    simp [prvU, prvM]
  · rw [supervisor]
    simp [prvS, prvM]
  · rw [machine]
    simp [prvM]

theorem supervisor_allowed {s : State} (legal : Legal s) :
    (s.prvReg < prvS ∨ (s.prvReg = prvS ∧ s.ieVec.s = true)) ↔
      (s.prvReg == prvU || (s.prvReg == prvS && s.ieVec.s)) = true := by
  obtain ⟨user | supervisor | machine, -⟩ := legal
  · rw [user]
    simp [prvU, prvS]
  · rw [supervisor]
    simp [prvU, prvS]
  · rw [machine]
    simp [prvU, prvS, prvM]

theorem eq_zero_iff {n : Nat} (v : BitVec n) : v = 0 ↔ ∀ i < n, v.getLsbD i = false := by
  constructor
  · rintro rfl i -
    exact BitVec.getLsbD_zero
  · intro clear
    exact BitVec.eq_of_getLsbD_eq fun i small => (clear i small).trans BitVec.getLsbD_zero.symm

theorem pendInts_bit (s : State) (cfg : Config) {n : Nat} (small : n < interruptNum cfg) :
    (pendInts s cfg).getLsbD n = ((mieCsr s).getLsbD n && (mipCsr s).getLsbD n) := by
  rw [pendInts, BitVec.getLsbD_setWidth, BitVec.getLsbD_and, decide_eq_true small, Bool.true_and]

theorem machinePart_bit {s : State} (legal : Legal s) (cfg : Config) {n : Nat}
    (small : n < interruptNum cfg) :
    (if s.prvReg < prvM ∨ (s.prvReg = prvM ∧ s.ieVec.m = true) then
        pendInts s cfg &&& ~~~(midelegCsr s).setWidth (interruptNum cfg)
      else 0).getLsbD n = machineBit s n := by
  simp only [machine_allowed legal, machineBit]
  cases s.prvReg != prvM || s.ieVec.m with
  | false => simp
  | true =>
      rw [if_pos rfl, BitVec.getLsbD_and, pendInts_bit s cfg small, BitVec.getLsbD_not,
        BitVec.getLsbD_setWidth, decide_eq_true small, Bool.true_and, Bool.true_and, Bool.and_true]

theorem supervisorPart_bit (s : State) (cfg : Config) {n : Nat} (small : n < interruptNum cfg) :
    (pendInts s cfg &&& (midelegCsr s).setWidth (interruptNum cfg)).getLsbD n =
      ((mieCsr s).getLsbD n && (mipCsr s).getLsbD n && (midelegCsr s).getLsbD n) := by
  rw [BitVec.getLsbD_and, pendInts_bit s cfg small, BitVec.getLsbD_setWidth,
    decide_eq_true small, Bool.true_and]

/-- The scan finds the first interrupt for the machine, or else for the supervisor. -/
theorem find_enabled {s : State} (legal : Legal s) (cfg : Config) :
    (List.range (interruptNum cfg)).find? (fun i => (enabledInts s cfg).getLsbD i) =
      ((List.range (interruptNum cfg)).find? (machineBit s)).or
        ((List.range (interruptNum cfg)).find? (supervisorBit s)) := by
  have machinePart := fun n (small : n < interruptNum cfg) => machinePart_bit legal cfg small
  unfold enabledInts
  simp only []
  revert machinePart
  generalize (if s.prvReg < prvM ∨ (s.prvReg = prvM ∧ s.ieVec.m = true) then
    pendInts s cfg &&& ~~~(midelegCsr s).setWidth (interruptNum cfg) else 0) = machine
  intro machinePart
  cases found : (List.range (interruptNum cfg)).find? (machineBit s) with
  | none =>
      have clear : machine = 0 := by
        rw [eq_zero_iff]
        intro n small
        rw [machinePart n small]
        simpa using List.find?_eq_none.mp found n (List.mem_range.mpr small)
      rw [Option.none_or]
      refine List.find?_congr fun n member => ?_
      have small := List.mem_range.mp member
      simp only [clear, true_and, supervisor_allowed legal, supervisorBit]
      cases s.prvReg == prvU || (s.prvReg == prvS && s.ieVec.s) with
      | false => simp
      | true => simpa using supervisorPart_bit s cfg small
  | some first =>
      have used : machine ≠ 0 := by
        intro clear
        have small := List.mem_range.mp (List.mem_of_find?_eq_some found)
        have set := List.find?_some found
        rw [← machinePart first small, clear] at set
        simp at set
      rw [Option.some_or, ← found]
      refine List.find?_congr fun n member => ?_
      rw [if_neg fun both => used both.1]
      exact machinePart n (List.mem_range.mp member)

/-- The scan over all numbers meets only those with an interrupt. -/
theorem find_numbers (cfg : Config) {p : Nat → Bool}
    (absent : ∀ n < 16, n ∉ intNumbers → p n = false) :
    (List.range (interruptNum cfg)).find? p = intNumbers.find? p := by
  have gaps : p 0 = false ∧ p 2 = false ∧ p 4 = false ∧ p 6 = false ∧ p 8 = false ∧
      p 10 = false ∧ p 12 = false ∧ p 13 = false ∧ p 14 = false ∧ p 15 = false := by
    refine ⟨?_, ?_, ?_, ?_, ?_, ?_, ?_, ?_, ?_, ?_⟩ <;> exact absent _ (by decide) (by decide)
  obtain ⟨h0, h2, h4, h6, h8, h10, h12, h13, h14, h15⟩ := gaps
  unfold interruptNum intNumbers
  split
  · change [0, 1, 2, 3, 4, 5, 6, 7, 8, 9, 10, 11, 12, 13, 14, 15].find? p = _
    simp only [List.find?_cons, h0, h2, h4, h6, h8, h10, h12, h13, h14, h15, List.find?_nil]
  · change [0, 1, 2, 3, 4, 5, 6, 7, 8, 9, 10, 11].find? p = _
    simp only [List.find?_cons, h0, h2, h4, h6, h8, h10, List.find?_nil]

theorem find_lowestFirst (p : Nat → Bool) :
    (intNumbers.find? p).map Interrupt.unpack = lowestFirst.find? fun i => p i.pack.toNat := by
  have numbers : intNumbers = lowestFirst.map fun i => i.pack.toNat := rfl
  rw [numbers, List.find?_map, Option.map_map]
  cases found : lowestFirst.find? (p ∘ fun i => i.pack.toNat) with
  | none => exact found.symm
  | some i =>
      have member := List.mem_of_find?_eq_some found
      have same : Interrupt.unpack i.pack.toNat = i := by
        revert member
        clear found
        revert i
        decide
      rw [Option.map_some, Function.comp_apply, same]
      exact found.symm

theorem pendingInterrupt_eq {s : State} (legal : Legal s) (cfg : Config) :
    pendingInterrupt s cfg = firstTaken lowestFirst s := by
  have absent (n : Nat) (small : n < 16) (noInt : n ∉ intNumbers) :
      machineBit s n = false ∧ supervisorBit s n = false := by
    rw [machineBit, supervisorBit, not_raised s small noInt]
    exact ⟨rfl, rfl⟩
  rw [pendingInterrupt, find_enabled legal,
    find_numbers cfg fun n small noInt => (absent n small noInt).1,
    find_numbers cfg fun n small noInt => (absent n small noInt).2, Option.map_or,
    find_lowestFirst, find_lowestFirst]
  rfl

theorem pendingInterrupt_none {s : State} (legal : Legal s) (cfg : Config) :
    pendingInterrupt s cfg = none ↔
      ∀ i, machineTakes s i = false ∧ supervisorTakes s i = false := by
  have listed (i : Interrupt) (enabled : raised s i = true) : i ∈ lowestFirst := by
    have number : i.pack.toNat ∈ intNumbers := by
      by_contra absent
      rw [raised, not_raised s i.pack.isLt absent] at enabled
      cases enabled
    revert number
    clear enabled
    cases i <;> decide
  rw [pendingInterrupt_eq legal, firstTaken, Option.or_eq_none_iff, List.find?_eq_none,
    List.find?_eq_none]
  constructor
  · rintro ⟨machine, supervisor⟩ i
    cases enabled : raised s i with
    | false =>
        rw [machineTakes, supervisorTakes, enabled]
        exact ⟨rfl, rfl⟩
    | true =>
        have member := listed i enabled
        exact ⟨Bool.eq_false_iff.mpr (machine i member),
          Bool.eq_false_iff.mpr (supervisor i member)⟩
  · intro quiet
    exact ⟨fun i _ => Bool.eq_false_iff.mp (quiet i).1,
      fun i _ => Bool.eq_false_iff.mp (quiet i).2⟩

/-! ## Runs -/

theorem serves_of_legal {s : State} (legal : Legal s) (cfg : Config) :
    Serves cfg lowestFirst s where
  levels := legal
  entry t pc addr inst := by
    unfold trap
    rw [deleg_eq legal]
    cases toSupervisor s t <;> rfl
  target t pc addr inst := by
    unfold trap
    rw [deleg_eq legal]
    cases toSupervisor s t <;> exact getNextPc_eq t _
  returns t pc addr inst _ _ returned := trap_returns legal t pc addr inst returned
  quiet := pendingInterrupt_none legal cfg
  first := pendingInterrupt_eq legal cfg

/-- The CSR file without CSR writes of a reserved level. -/
def legalMachine (cfg : Config) : Clocked.Machine State Op :=
  (machine cfg).restrict fun _ _ op => ¬ op.WritesReserved cfg

theorem serves_of_run {cfg : Config} {cycles : List (State × Op)} {s : State}
    (run : (legalMachine cfg).Run cycles s) : Serves cfg lowestFirst s := by
  refine serves_of_legal ?_ cfg
  induction run with
  | reset => exact ⟨.inr (.inr rfl), .inl rfl⟩
  | cycle _ allowed ih => exact next_legal ih allowed.2

/-! ## Example runs -/

def withDebugger : Config where
  gdbControl := true

/-- The handler is set up, then the first instruction is an `ecall`. -/
def setUpAndCall : List Op :=
  [.csrInstWr .mtvec 0x80000101#64 true, .trap (.exception .envCallM) 0x80000000#64 0 0x73#32]

theorem serves_setUpAndCall :
    Serves withDebugger lowestFirst
      ((legalMachine withDebugger).after reset setUpAndCall) :=
  serves_of_run (Clocked.Machine.run_of_accepts setUpAndCall
    ⟨⟨rfl, id⟩, ⟨trivial, id⟩, trivial⟩)

/-- Software saves the reserved level and returns to it. -/
def reserveLevel : List Op := [.csrInstWr .mstatus 0x1000#64 true, .mret]

/-- The machine's external and software interrupts at once. -/
def bothInterrupts : List Op :=
  [.csrInstWr .mie 0x808#64 true, .csrInstWr .mstatus 0x8#64 true, .setMEIP true, .setMSIP true]

/-- The reserved level is reached, and without it the architectural order is missed. -/
theorem levels_and_order_missed :
    (∃ cycles s, (machine withDebugger).Run cycles s ∧ s.prvReg = 2) ∧
      ∃ cycles s, (legalMachine withDebugger).Run cycles s ∧
        ¬ Serves withDebugger architectural s := by
  have ordinary : ¬ (Op.csrInstWr .mstatus 0x8#64 true).WritesReserved withDebugger := by
    change ¬ (0x8#64).extractLsb' 11 2 = 2#2
    decide
  refine ⟨⟨_, _, Clocked.Machine.run_of_accepts reserveLevel ⟨rfl, trivial, trivial⟩, rfl⟩,
    _, _, Clocked.Machine.run_of_accepts bothInterrupts
      ⟨⟨rfl, id⟩, ⟨rfl, ordinary⟩, ⟨trivial, id⟩, ⟨trivial, id⟩, trivial⟩, ?_⟩
  intro serves
  have first := serves.first
  revert first
  decide

end Toooba.CsrFile
