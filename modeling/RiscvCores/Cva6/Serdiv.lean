import Mathlib.Data.Nat.Log
import RiscvCores.CommonCells.Lzc
import RiscvCores.Lib.Clocked
import RiscvCores.Lib.RestoringDivision

/-!
# The serial divider

`serdiv` for every `WIDTH`.  The operands are kept signed: the dividend is negated when
the signs differ, so that it is always the divisor's sign that decides how the registers
are read, as magnitudes or as negated magnitudes.
-/

set_option autoImplicit false

namespace Cva6.Serdiv

variable {W : Nat} {ι : Type}

inductive State
  | idle
  | divide
  | finish
  deriving DecidableEq, Repr

structure Regs (W : Nat) (ι : Type) where
  state : State
  opA : BitVec W
  opB : BitVec W
  res : BitVec W
  cnt : BitVec (Nat.clog 2 W)
  id : ι
  remSel : Bool
  compInv : Bool
  resInv : Bool
  opBZero : Bool
  opBNegOne : Bool
  divResZero : Bool

/-- `id_i`, `op_a_i`, `op_b_i` and `opcode_i` (0: udiv, 2: urem, 1: div, 3: rem). -/
structure Request (W : Nat) (ι : Type) where
  id : ι
  opA : BitVec W
  opB : BitVec W
  opcode : BitVec 2

structure Input (W : Nat) (ι : Type) where
  request : Request W ι
  inVld : Bool
  flush : Bool
  outRdy : Bool

/-! ## Alignment -/

/-- `cnt_o` of `lzc` in `MODE` 1. -/
def countLeading (x : BitVec W) : Nat := CommonCells.lzcCnt W fun j => x.getLsbD (W - 1 - j)

/-- `empty_o` of `lzc` in `MODE` 1. -/
def noOne (x : BitVec W) : Bool := CommonCells.lzcEmpty W fun j => x.getLsbD (W - 1 - j)

namespace Request

variable (r : Request W ι)

/-- `opcode_i[0]`. -/
def signed : Bool := r.opcode.getLsbD 0

/-- `opcode_i[1]`. -/
def rem : Bool := r.opcode.getLsbD 1

def opASign : Bool := r.opA.msb

def opBSign : Bool := r.opB.msb

def lzcAInput : BitVec W :=
  if r.signed && r.opASign then (~~~r.opA).shiftConcat true else r.opA

def lzcBInput : BitVec W := if r.signed && r.opBSign then ~~~r.opB else r.opB

def opBZero : Bool := noOne r.lzcBInput && !r.opBSign

def opBNegOne : Bool := noOne r.lzcBInput && r.opBSign

def shiftA : BitVec (Nat.clog 2 (W + 1)) :=
  if noOne r.lzcAInput then BitVec.ofNat _ W else BitVec.ofNat _ (countLeading r.lzcAInput)

def divShift : BitVec (Nat.clog 2 (W + 1) + 1) :=
  BitVec.ofNat _ (countLeading r.lzcBInput) - r.shiftA.setWidth _

/-- `op_b`, the aligned divisor. -/
def opBAligned : BitVec W := r.opB <<< r.divShift.toNat

/-- `pm_sel` while a request is loaded. -/
def pmSel : Bool := !(r.signed && (r.opASign ^^ r.opBSign))

def resInv : Bool :=
  (!r.opBZero || r.rem) && r.signed && (r.opASign ^^ r.opBSign ^^ r.opBNegOne)

end Request

/-! ## Datapath and state machine -/

namespace Regs

variable (s : Regs W ι)

/-- The main comparator `ab_comp`. -/
def abComp : Bool :=
  (s.opA == s.opB || (decide (s.opB < s.opA) ^^ s.compInv)) && (s.opA != 0 || s.opBZero)

/-- `b_mux` while no request is loaded. -/
def shiftedB : BitVec W :=
  s.opB >>> 1 ||| if s.compInv then BitVec.twoPow W (W - 1) else 0

def outMux : BitVec W :=
  if s.remSel then (if s.opBNegOne then 0 else s.opA)
  else if s.opBZero then BitVec.allOnes W
  else if s.opBNegOne then s.opA
  else s.res

def resO : BitVec W := if s.resInv then -s.outMux else s.outMux

/-- The result is known without dividing. -/
def known : Bool := s.divResZero || s.opBZero || s.opBNegOne

end Regs

/-- What `p_fsm` drives. -/
structure Ctrl where
  state : State
  inRdy : Bool
  outVld : Bool
  loadEn : Bool
  aRegEn : Bool
  bRegEn : Bool
  resRegEn : Bool

/-- `p_fsm` without the flush; `stable` is `STABLE_HANDSHAKE`. -/
def serve (stable : Bool) (s : Regs W ι) (i : Input W ι) : Ctrl :=
  let rest : Ctrl := ⟨s.state, false, false, false, false, false, false⟩
  match s.state with
  | .idle =>
      if i.inVld then
        { rest with
          inRdy := stable, aRegEn := true, bRegEn := true, loadEn := true, state := .divide }
      else { rest with inRdy := true }
  | .divide =>
      if s.known then
        { rest with outVld := true, state := if i.outRdy then .idle else .finish }
      else
        { rest with
          aRegEn := s.abComp, bRegEn := true, resRegEn := true,
          state := if s.cnt == 0 then .finish else .divide }
  | .finish => { rest with outVld := true, state := if i.outRdy then .idle else .finish }

/-- `p_fsm`. -/
def fsm (stable : Bool) (s : Regs W ι) (i : Input W ι) : Ctrl :=
  if i.flush then
    { serve stable s i with aRegEn := false, bRegEn := false, loadEn := false, state := .idle }
  else serve stable s i

/-- The registers after a cycle. -/
def next (stable : Bool) (s : Regs W ι) (i : Input W ι) : Regs W ι :=
  let c := fsm stable s i
  let r := i.request
  let addMux := if c.loadEn then r.opA else s.opB
  let addTmp := if c.loadEn then 0 else s.opA
  let addOut := if c.loadEn && r.pmSel then addTmp + addMux else addTmp - addMux
  { state := c.state
    opA := if c.aRegEn then addOut else s.opA
    opB := if c.bRegEn then (if c.loadEn then r.opBAligned else s.shiftedB) else s.opB
    res :=
      if c.loadEn then 0 else if c.resRegEn then s.res.shiftConcat s.abComp else s.res
    cnt :=
      if c.loadEn then r.divShift.setWidth _ else if s.cnt == 0 then s.cnt else s.cnt - 1
    id := if c.loadEn then r.id else s.id
    remSel := if c.loadEn then r.rem else s.remSel
    compInv := if c.loadEn then r.signed && r.opBSign else s.compInv
    resInv := if c.loadEn then r.resInv else s.resInv
    opBZero := if c.loadEn then r.opBZero else s.opBZero
    opBNegOne := if c.loadEn then r.opBNegOne else s.opBNegOne
    divResZero := if c.loadEn then r.divShift.msb else s.divResZero }

def machine (W : Nat) (stable : Bool) (zeroId : ι) :
    Clocked.Machine (Regs W ι) (Input W ι) where
  reset :=
    { state := .idle, opA := 0, opB := 0, res := 0, cnt := 0, id := zeroId, remSel := false,
      compInv := false, resInv := false, opBZero := false, opBNegOne := false,
      divResZero := false }
  next := next stable
  allowed _ _ _ := True

/-! ## The result of a division -/

/-- Quotient or remainder, signed or unsigned, as the instruction set defines them. -/
def Request.result (r : Request W ι) : BitVec W :=
  match r.rem, r.signed with
  | false, false => if r.opB = 0 then BitVec.allOnes W else r.opA / r.opB
  | false, true =>
      if r.opB = 0 then BitVec.allOnes W else BitVec.ofInt W (r.opA.toInt.tdiv r.opB.toInt)
  | true, false => if r.opB = 0 then r.opA else r.opA % r.opB
  | true, true =>
      if r.opB = 0 then r.opA else BitVec.ofInt W (r.opA.toInt.tmod r.opB.toInt)

/-! ## Magnitudes -/

theorem noOne_iff (wide : 0 < W) (x : BitVec W) : noOne x = true ↔ x = 0 := by
  rw [noOne, CommonCells.lzcEmpty_iff W _ wide]
  constructor
  · intro clear
    apply BitVec.eq_of_getLsbD_eq
    intro j within
    have same : W - 1 - (W - 1 - j) = j := by omega
    simpa [same] using clear (W - 1 - j) (by omega)
  · rintro rfl j _
    simp

theorem countLeading_bounds {x : BitVec W} (some : x ≠ 0) :
    countLeading x < W ∧ 2 ^ (W - 1 - countLeading x) ≤ x.toNat ∧
      x.toNat < 2 ^ (W - countLeading x) := by
  obtain ⟨k, within, set⟩ : ∃ k, k < W ∧ x.getLsbD k = true := by
    by_contra none
    apply some
    apply BitVec.eq_of_getLsbD_eq
    intro k within
    simpa using fun set => none ⟨k, within, set⟩
  have same : W - 1 - (W - 1 - k) = k := by omega
  obtain ⟨inside, first, before⟩ := CommonCells.lzcCnt_of_set W
    (fun j => x.getLsbD (W - 1 - j)) (W - 1 - k) (by omega) (by simpa [same] using set)
  refine ⟨inside, Nat.ge_two_pow_of_testBit first, ?_⟩
  apply Nat.lt_pow_two_of_testBit
  intro j high
  by_cases out : W ≤ j
  · exact BitVec.getLsbD_of_ge x j out
  · have position : W - 1 - (W - 1 - j) = j := by omega
    have clear : x.getLsbD (W - 1 - (W - 1 - j)) = false :=
      before (W - 1 - j) (by unfold countLeading at high; omega)
    rwa [position] at clear

/-- The absolute value of an operand. -/
def magnitude (signed : Bool) (x : BitVec W) : Nat := if signed then x.abs.toNat else x.toNat

theorem magnitude_of_neg {signed : Bool} {x : BitVec W} (neg : (signed && x.msb) = true) :
    magnitude signed x = 2 ^ W - x.toNat ∧ 2 * x.toNat ≥ 2 ^ W := by
  obtain ⟨isSigned, sign⟩ := Bool.and_eq_true_iff.mp neg
  rw [magnitude, isSigned, if_pos rfl, BitVec.toNat_abs, sign, if_pos rfl]
  exact ⟨rfl, BitVec.msb_eq_true_iff_two_mul_ge.mp sign⟩

theorem magnitude_of_nonneg {signed : Bool} {x : BitVec W} (nonneg : (signed && x.msb) = false) :
    magnitude signed x = x.toNat := by
  cases signed with
  | false => rfl
  | true => rw [magnitude, if_pos rfl, BitVec.toNat_abs, if_neg (by simpa using nonneg)]

theorem magnitude_lt (signed : Bool) (x : BitVec W) :
    magnitude signed x < 2 ^ W := by
  have bound := x.isLt
  cases neg : signed && x.msb with
  | false => rw [magnitude_of_nonneg neg]; exact bound
  | true =>
      obtain ⟨value, high⟩ := magnitude_of_neg neg
      have positive := Nat.two_pow_pos W
      omega

namespace Request

variable {r : Request W ι}

/-- What the alignment knows of the dividend. -/
theorem dividend_lt (wide : 2 ≤ W) :
    r.shiftA.toNat ≤ W ∧ magnitude r.signed r.opA < 2 ^ (W - r.shiftA.toNat) := by
  have enough : W + 1 ≤ 2 ^ Nat.clog 2 (W + 1) := Nat.le_pow_clog (by omega) _
  unfold shiftA
  cases empty : noOne r.lzcAInput with
  | true =>
      rw [if_pos rfl, BitVec.toNat_ofNat, Nat.mod_eq_of_lt (by omega)]
      refine ⟨Nat.le_refl _, ?_⟩
      have none := (noOne_iff (by omega) _).mp empty
      unfold lzcAInput at none
      cases neg : r.signed && r.opASign with
      | false =>
          rw [neg, if_neg (by simp)] at none
          rw [magnitude_of_nonneg neg, none]
          simp
      | true =>
          rw [neg, if_pos rfl] at none
          have low := congrArg (fun x => x.getLsbD 0) none
          simp [BitVec.shiftConcat] at low
          omega
  | false =>
      have some : r.lzcAInput ≠ 0 := by
        intro none
        rw [(noOne_iff (by omega) _).mpr none] at empty
        cases empty
      obtain ⟨inside, -, below⟩ := countLeading_bounds some
      rw [if_neg (by simp), BitVec.toNat_ofNat, Nat.mod_eq_of_lt (by omega)]
      refine ⟨by omega, ?_⟩
      refine Nat.lt_of_le_of_lt ?_ below
      unfold lzcAInput
      cases neg : r.signed && r.opASign with
      | false => rw [if_neg (by simp), magnitude_of_nonneg neg]
      | true =>
          obtain ⟨value, high⟩ := magnitude_of_neg neg
          have bound := r.opA.isLt
          rw [if_pos rfl, value, BitVec.toNat_shiftConcat, BitVec.toNat_not, Nat.shiftLeft_eq,
            Nat.mod_eq_of_lt (by simp; omega)]
          simp
          omega

/-- What the alignment knows of the divisor. -/
theorem divisor_bounds (wide : 2 ≤ W) (notZero : r.opBZero = false) (notOne : r.opBNegOne = false) :
    countLeading r.lzcBInput < W ∧
      2 ^ (W - 1 - countLeading r.lzcBInput) ≤ magnitude r.signed r.opB ∧
      magnitude r.signed r.opB + (if r.signed && r.opBSign then 0 else 1) ≤
        2 ^ (W - countLeading r.lzcBInput) := by
  have some : r.lzcBInput ≠ 0 := by
    intro none
    have empty := (noOne_iff (by omega) _).mpr none
    rw [opBZero, empty] at notZero
    rw [opBNegOne, empty] at notOne
    simp_all
  obtain ⟨inside, least, below⟩ := countLeading_bounds some
  refine ⟨inside, ?_⟩
  generalize countLeading r.lzcBInput = n at inside least below ⊢
  unfold lzcBInput at least below
  cases neg : r.signed && r.opBSign with
  | false =>
      rw [neg, if_neg (by simp)] at least below
      rw [magnitude_of_nonneg neg, if_neg (by simp)]
      exact ⟨least, below⟩
  | true =>
      obtain ⟨value, high⟩ := magnitude_of_neg neg
      have bound := r.opB.isLt
      rw [neg, if_pos rfl, BitVec.toNat_not] at least below
      rw [value, if_pos rfl]
      omega

/-- The shift is negative exactly if the divisor has fewer leading zeros. -/
theorem divShift_spec (wide : 2 ≤ W) (fewer : countLeading r.lzcBInput < W) :
    r.divShift.msb = decide (countLeading r.lzcBInput < r.shiftA.toNat) ∧
      (r.shiftA.toNat ≤ countLeading r.lzcBInput →
        r.divShift.toNat = countLeading r.lzcBInput - r.shiftA.toNat) := by
  have enough : W + 1 ≤ 2 ^ Nat.clog 2 (W + 1) := Nat.le_pow_clog (by omega) _
  have double : 2 ^ (Nat.clog 2 (W + 1) + 1) = 2 * 2 ^ Nat.clog 2 (W + 1) := by
    rw [Nat.pow_succ, Nat.mul_comm]
  obtain ⟨most, -⟩ := r.dividend_lt wide
  have value : r.divShift.toNat =
      (countLeading r.lzcBInput + (2 ^ (Nat.clog 2 (W + 1) + 1) - r.shiftA.toNat)) %
        2 ^ (Nat.clog 2 (W + 1) + 1) := by
    have divisor : countLeading r.lzcBInput % 2 ^ (Nat.clog 2 (W + 1) + 1) =
        countLeading r.lzcBInput := Nat.mod_eq_of_lt (by omega)
    have dividend : r.shiftA.toNat % 2 ^ (Nat.clog 2 (W + 1) + 1) = r.shiftA.toNat :=
      Nat.mod_eq_of_lt (by omega)
    rw [divShift, BitVec.toNat_sub, BitVec.toNat_ofNat, BitVec.toNat_setWidth, divisor, dividend,
      Nat.add_comm]
  by_cases negative : countLeading r.lzcBInput < r.shiftA.toNat
  · rw [Nat.mod_eq_of_lt (by omega)] at value
    refine ⟨?_, by omega⟩
    rw [decide_eq_true negative, BitVec.msb_eq_true_iff_two_mul_ge]
    omega
  · have wrap : countLeading r.lzcBInput + (2 ^ (Nat.clog 2 (W + 1) + 1) - r.shiftA.toNat) =
        countLeading r.lzcBInput - r.shiftA.toNat + 2 ^ (Nat.clog 2 (W + 1) + 1) := by omega
    rw [wrap, Nat.add_mod_right, Nat.mod_eq_of_lt (by omega)] at value
    refine ⟨?_, fun _ => value⟩
    rw [decide_eq_false negative, BitVec.msb_eq_false_iff_two_mul_lt]
    omega

theorem opBZero_iff (wide : 2 ≤ W) : r.opBZero = true ↔ r.opB = 0 := by
  rw [opBZero, Bool.and_eq_true, noOne_iff (by omega), lzcBInput, opBSign]
  cases sign : r.opB.msb with
  | false => simp
  | true =>
      have some : r.opB ≠ 0#W := by
        intro none
        rw [none] at sign
        simp at sign
      simp [some]

theorem opBNegOne_iff (wide : 2 ≤ W) :
    r.opBNegOne = true ↔ r.signed = true ∧ r.opB = BitVec.allOnes W := by
  rw [opBNegOne, Bool.and_eq_true, noOne_iff (by omega), lzcBInput, opBSign]
  have ones : ~~~r.opB = 0#W ↔ r.opB = BitVec.allOnes W := by
    rw [BitVec.not_eq_comm, BitVec.not_zero, eq_comm]
  cases sign : r.opB.msb with
  | false =>
      have other : r.opB ≠ BitVec.allOnes W := by
        intro same
        rw [same, BitVec.msb_allOnes (by omega)] at sign
        cases sign
      simp [other]
  | true =>
      have some : r.opB ≠ 0#W := by
        intro none
        rw [none] at sign
        simp at sign
      cases r.signed <;> simp [ones, some]

end Request

/-! ## One step of the division -/

namespace Regs

variable {s : Regs W ι}

/-- The remainder so far. -/
def magA (s : Regs W ι) : Nat := if s.compInv then (-s.opA).toNat else s.opA.toNat

/-- The shifted divisor; a register of zeros stands for `2 ^ WIDTH` if it is inverted. -/
def magB (s : Regs W ι) : Nat := if s.compInv then 2 ^ W - s.opB.toNat else s.opB.toNat

theorem abComp_eq (notZero : s.opBZero = false) (positive : 0 < s.magB) :
    s.abComp = decide (s.magB ≤ s.magA) := by
  have boundA := s.opA.isLt
  have boundB := s.opB.isLt
  have equal : (s.opA == s.opB) = decide (s.opA.toNat = s.opB.toNat) := by
    rw [Bool.eq_iff_iff, beq_iff_eq, decide_eq_true_iff, BitVec.toNat_inj]
  have zero : (s.opA != 0) = decide (s.opA.toNat ≠ 0) := by
    rw [Bool.eq_iff_iff, bne_iff_ne, decide_eq_true_iff, ne_eq, ne_eq, ← BitVec.toNat_inj]
    simp
  have less : decide (s.opB < s.opA) = decide (s.opB.toNat < s.opA.toNat) :=
    decide_eq_decide.mpr BitVec.lt_def
  rw [abComp, equal, zero, less, notZero, Bool.or_false, Bool.eq_iff_iff]
  cases inverted : s.compInv with
  | false =>
      simp only [magA, magB, inverted, Bool.false_eq_true, if_false, Bool.xor_false,
        Bool.and_eq_true, Bool.or_eq_true, decide_eq_true_iff] at positive ⊢
      omega
  | true =>
      simp only [magA, magB, inverted, if_true, Bool.xor_true, Bool.and_eq_true,
        Bool.or_eq_true, decide_eq_true_iff, Bool.not_eq_true', decide_eq_false_iff_not,
        BitVec.toNat_neg] at positive ⊢
      by_cases none : s.opA.toNat = 0
      · rw [none, Nat.sub_zero, Nat.mod_self]
        omega
      · rw [Nat.mod_eq_of_lt (by omega)]
        omega

/-- The remainder after a trial subtraction. -/
theorem magA_of_step {s' : Regs W ι} (inverted : s'.compInv = s.compInv)
    (value : s'.opA = if s.abComp then s.opA - s.opB else s.opA)
    (comp : s.abComp = decide (s.magB ≤ s.magA)) :
    s'.magA = if s.magB ≤ s.magA then s.magA - s.magB else s.magA := by
  have boundA := s.opA.isLt
  have boundB := s.opB.isLt
  by_cases fits : s.magB ≤ s.magA
  · rw [comp, decide_eq_true fits, if_pos rfl] at value
    rw [if_pos fits]
    cases signs : s.compInv with
    | false =>
        simp only [magA, magB, inverted, value, signs, Bool.false_eq_true, if_false] at fits ⊢
        exact BitVec.toNat_sub_of_le fits
    | true =>
        simp only [magA, magB, inverted, value, signs, if_true, BitVec.toNat_neg,
          BitVec.toNat_sub] at fits ⊢
        have some : s.opA.toNat ≠ 0 := by
          intro none
          rw [none, Nat.sub_zero, Nat.mod_self] at fits
          omega
        have rest : (2 ^ W - s.opA.toNat) % 2 ^ W = 2 ^ W - s.opA.toNat :=
          Nat.mod_eq_of_lt (by omega)
        rw [rest] at fits ⊢
        by_cases same : s.opA.toNat = s.opB.toNat
        · rw [same, Nat.sub_add_cancel (by omega)]
          simp
        · have less : 2 ^ W - s.opB.toNat + s.opA.toNat < 2 ^ W := by omega
          rw [Nat.mod_eq_of_lt less, Nat.mod_eq_of_lt (by omega)]
          omega
  · rw [comp, decide_eq_false fits, if_neg (by simp)] at value
    rw [if_neg fits, magA, inverted, value, magA]

/-- Halving the shifted divisor. -/
theorem magB_of_step {s' : Regs W ι} (wide : 2 ≤ W) (inverted : s'.compInv = s.compInv)
    (value : s'.opB = s.shiftedB) {half : Nat} (even : s.magB = 2 * half) : s'.magB = half := by
  have boundB := s.opB.isLt
  have double : 2 ^ W = 2 * 2 ^ (W - 1) := by
    rw [← Nat.pow_succ']
    congr 1
    omega
  cases signs : s.compInv with
  | false =>
      simp only [magB, shiftedB, inverted, value, signs, Bool.false_eq_true, if_false] at even ⊢
      simp [Nat.shiftRight_eq_div_pow]
      omega
  | true =>
      have apart : s.opB >>> 1 &&& BitVec.twoPow W (W - 1) = 0#W := by
        ext j within
        by_cases last : j = W - 1
        · have out : s.opB.getLsbD (1 + (W - 1)) = false :=
            BitVec.getLsbD_of_ge _ _ (by omega)
          simp [last, out]
        · simp [last]
      have joined := BitVec.toNat_add_of_and_eq_zero apart
      rw [BitVec.add_eq_or_of_and_eq_zero _ _ apart,
        BitVec.toNat_twoPow_of_lt (by omega), BitVec.toNat_ushiftRight,
        Nat.shiftRight_eq_div_pow] at joined
      simp only [magB, shiftedB, inverted, value, signs, if_true, joined] at even ⊢
      omega

end Regs

/-! ## The registers of a request -/

/-- The registers that remember the request. -/
structure Regs.Holds (s : Regs W ι) (r : Request W ι) : Prop where
  id : s.id = r.id
  remSel : s.remSel = r.rem
  compInv : s.compInv = (r.signed && r.opBSign)
  resInv : s.resInv = r.resInv
  opBZero : s.opBZero = r.opBZero
  opBNegOne : s.opBNegOne = r.opBNegOne

/-- The quotient bits above `cnt` are in `res_q`, the rest of the dividend in `op_a_q`. -/
structure Regs.Dividing (s : Regs W ι) (r : Request W ι) : Prop where
  notZero : r.opBZero = false
  notOne : r.opBNegOne = false
  cnt_lt : s.cnt.toNat < W
  part : Restoring.Partial (magnitude r.signed r.opA) (magnitude r.signed r.opB)
    (s.cnt.toNat + 1) s.res.toNat s.magA
  divisor : s.magB = magnitude r.signed r.opB * 2 ^ s.cnt.toNat

variable {s : Regs W ι} {r : Request W ι}

/-- The dividend as it is loaded has the sign of the divisor. -/
theorem Regs.magA_of_load (inverted : s.compInv = (r.signed && r.opBSign))
    (value : s.opA = if r.pmSel then 0 + r.opA else 0 - r.opA) :
    s.magA = magnitude r.signed r.opA := by
  have bound := r.opA.isLt
  unfold Regs.magA magnitude
  rw [inverted, value, Request.pmSel, Request.opASign, Request.opBSign]
  cases r.signed with
  | false => simp
  | true =>
      cases signA : r.opA.msb <;> cases signB : r.opB.msb <;>
        simp [BitVec.toNat_abs, signA, -BitVec.toNat_neg]
      all_goals
        have high := BitVec.msb_eq_true_iff_two_mul_ge.mp signA
        have positive := Nat.two_pow_pos W
        rw [BitVec.toNat_neg, Nat.mod_eq_of_lt (by omega)]

/-- Quotient and remainder as they are put out. -/
theorem Regs.resO_of_divided (wide : 2 ≤ W) (holds : s.Holds r) (notZero : r.opBZero = false)
    (notOne : r.opBNegOne = false)
    (quotient : s.res.toNat = magnitude r.signed r.opA / magnitude r.signed r.opB)
    (remainder : s.magA = magnitude r.signed r.opA % magnitude r.signed r.opB) :
    s.resO = r.result := by
  have some : r.opB ≠ 0#W := by
    intro none
    rw [(Request.opBZero_iff wide).mpr none] at notZero
    cases notZero
  have res : s.res = BitVec.ofNat W (magnitude r.signed r.opA / magnitude r.signed r.opB) := by
    rw [← quotient, BitVec.ofNat_toNat, BitVec.setWidth_eq]
  have opA : s.opA = if r.signed && r.opBSign then
      -BitVec.ofNat W (magnitude r.signed r.opA % magnitude r.signed r.opB)
      else BitVec.ofNat W (magnitude r.signed r.opA % magnitude r.signed r.opB) := by
    rw [← remainder, Regs.magA, holds.compInv]
    cases r.signed && r.opBSign <;> simp [-BitVec.toNat_neg]
  rw [Regs.resO, Regs.outMux, holds.remSel, holds.resInv, holds.opBZero, holds.opBNegOne,
    Request.resInv, notZero, notOne, opA, res, Request.result]
  unfold magnitude
  cases r.signed with
  | false =>
      have boundA := r.opA.isLt
      have small : r.opA.toNat / r.opB.toNat < 2 ^ W :=
        Nat.lt_of_le_of_lt (Nat.div_le_self _ _) boundA
      have rest : r.opA.toNat % r.opB.toNat < 2 ^ W :=
        Nat.lt_of_le_of_lt (Nat.mod_le _ _) boundA
      cases r.rem with
      | false =>
          apply BitVec.eq_of_toNat_eq
          simp [some, Nat.mod_eq_of_lt small]
      | true =>
          apply BitVec.eq_of_toNat_eq
          simp [some, Nat.mod_eq_of_lt rest]
  | true =>
      unfold Request.opASign Request.opBSign
      cases r.rem <;> cases signA : r.opA.msb <;> cases signB : r.opB.msb <;>
        simp [some, signA, signB, Restoring.ofInt_tdiv, Restoring.ofInt_tmod]

/-- The registers after the cycle that loads a request. -/
structure Regs.Loaded (s : Regs W ι) (r : Request W ι) : Prop extends s.Holds r where
  opA : s.opA = if r.pmSel then 0 + r.opA else 0 - r.opA
  opB : s.opB = r.opBAligned
  res : s.res = 0
  cnt : s.cnt = r.divShift.setWidth _
  divResZero : s.divResZero = r.divShift.msb

theorem Regs.Loaded.resO_of_zero (wide : 2 ≤ W) (load : s.Loaded r) (zero : r.opBZero = true) :
    s.resO = r.result := by
  have none := (Request.opBZero_iff wide).mp zero
  have notOne : r.opBNegOne = false := by
    rw [Bool.eq_false_iff, ne_eq, Request.opBNegOne_iff wide, none]
    rintro ⟨-, same⟩
    have low := congrArg (fun x => x.getLsbD 0) same
    simp at low
    omega
  rw [Regs.resO, Regs.outMux, load.remSel, load.resInv, load.opBZero, load.opBNegOne,
    Request.resInv, zero, notOne, load.opA, Request.pmSel, Request.result, none,
    Request.opASign, Request.opBSign, none]
  cases r.rem <;> cases r.signed <;> cases r.opA.msb <;> simp

theorem Regs.Loaded.resO_of_negOne (wide : 2 ≤ W) (load : s.Loaded r)
    (negOne : r.opBNegOne = true) : s.resO = r.result := by
  obtain ⟨isSigned, ones⟩ := (Request.opBNegOne_iff wide).mp negOne
  have notZero : r.opBZero = false := by
    rw [Bool.eq_false_iff, ne_eq, Request.opBZero_iff wide, ones]
    intro same
    have low := congrArg (fun x => x.getLsbD 0) same
    simp at low
    omega
  have some : BitVec.allOnes W ≠ 0#W := by
    rw [← ones]
    intro none
    rw [(Request.opBZero_iff wide).mpr none] at notZero
    cases notZero
  have signB : (BitVec.allOnes W).msb = true := BitVec.msb_allOnes (by omega)
  have value : (BitVec.allOnes W).toInt = -1 := by
    rw [BitVec.toInt_allOnes, if_pos (by omega)]
  rw [Regs.resO, Regs.outMux, load.remSel, load.resInv, load.opBZero, load.opBNegOne,
    Request.resInv, notZero, negOne, load.opA, Request.pmSel, Request.result, isSigned,
    Request.opASign, Request.opBSign, ones, signB, value]
  cases r.rem <;> cases r.opA.msb <;>
    simp [some, Int.tdiv_neg, Int.tmod_neg, BitVec.ofInt_neg, BitVec.ofInt_toInt]

theorem Regs.Loaded.resO_of_smaller (wide : 2 ≤ W) (load : s.Loaded r)
    (notZero : r.opBZero = false) (notOne : r.opBNegOne = false)
    (negative : r.divShift.msb = true) : s.resO = r.result := by
  obtain ⟨inside, least, -⟩ := Request.divisor_bounds wide notZero notOne
  obtain ⟨-, below⟩ := r.dividend_lt wide
  rw [(Request.divShift_spec wide inside).1, decide_eq_true_iff] at negative
  have smaller : magnitude r.signed r.opA < magnitude r.signed r.opB := by
    have shorter : 2 ^ (W - r.shiftA.toNat) ≤ 2 ^ (W - 1 - countLeading r.lzcBInput) :=
      Nat.pow_le_pow_right (by omega) (by omega)
    omega
  apply Regs.resO_of_divided wide load.toHolds notZero notOne
  · rw [load.res, Nat.div_eq_of_lt smaller]
    simp
  · rw [Regs.magA_of_load load.compInv load.opA, Nat.mod_eq_of_lt smaller]

theorem Regs.Loaded.resO_of_known (wide : 2 ≤ W) (load : s.Loaded r) (known : s.known = true) :
    s.resO = r.result := by
  rw [Regs.known, load.divResZero, load.opBZero, load.opBNegOne] at known
  cases zero : r.opBZero with
  | true => exact load.resO_of_zero wide zero
  | false =>
      cases negOne : r.opBNegOne with
      | true => exact load.resO_of_negOne wide negOne
      | false =>
          apply load.resO_of_smaller wide zero negOne
          simpa [zero, negOne] using known

theorem toNat_shiftLeft_of_lt {x : BitVec W} {k m : Nat} (most : x.toNat + 1 ≤ m)
    (fits : m * 2 ^ k ≤ 2 ^ W) : (x <<< k).toNat = x.toNat * 2 ^ k := by
  rw [BitVec.toNat_shiftLeft, Nat.shiftLeft_eq, Nat.mod_eq_of_lt]
  have positive := Nat.two_pow_pos k
  calc x.toNat * 2 ^ k < (x.toNat + 1) * 2 ^ k := Nat.mul_lt_mul_of_pos_right (by omega) positive
    _ ≤ m * 2 ^ k := Nat.mul_le_mul_right _ most
    _ ≤ 2 ^ W := fits

/-- Shifting a negative number left shifts its magnitude. -/
theorem sub_toNat_shiftLeft {x : BitVec W} {k : Nat} (fits : (2 ^ W - x.toNat) * 2 ^ k ≤ 2 ^ W) :
    2 ^ W - (x <<< k).toNat = (2 ^ W - x.toNat) * 2 ^ k := by
  have bound := x.isLt
  have positive := Nat.two_pow_pos k
  have some : 0 < (2 ^ W - x.toNat) * 2 ^ k := Nat.mul_pos (by omega) positive
  have shifted : x.toNat * 2 ^ k =
      2 ^ W - (2 ^ W - x.toNat) * 2 ^ k + 2 ^ W * (2 ^ k - 1) := by
    have whole : x.toNat * 2 ^ k + (2 ^ W - x.toNat) * 2 ^ k = 2 ^ W * 2 ^ k := by
      rw [← Nat.add_mul, Nat.add_sub_cancel' (by omega)]
    have less : 2 ^ W * (2 ^ k - 1) = 2 ^ W * 2 ^ k - 2 ^ W := by
      rw [Nat.mul_sub_one]
    have many : 2 ^ W ≤ 2 ^ W * 2 ^ k := Nat.le_mul_of_pos_right _ positive
    omega
  rw [BitVec.toNat_shiftLeft, Nat.shiftLeft_eq, shifted, Nat.add_mul_mod_self_left,
    Nat.mod_eq_of_lt (by omega)]
  omega

/-- The divisor aligned with the dividend. -/
theorem Regs.Loaded.dividing (wide : 2 ≤ W) (load : s.Loaded r) (known : s.known = false) :
    s.Dividing r := by
  rw [Regs.known, load.divResZero, load.opBZero, load.opBNegOne] at known
  simp only [Bool.or_eq_false_iff] at known
  obtain ⟨⟨shift, notZero⟩, notOne⟩ := known
  obtain ⟨inside, least, most⟩ := Request.divisor_bounds wide notZero notOne
  obtain ⟨shifts, below⟩ := r.dividend_lt wide
  obtain ⟨sign, value⟩ := Request.divShift_spec wide inside
  rw [sign, decide_eq_false_iff_not] at shift
  have amount := value (by omega)
  have enough : W ≤ 2 ^ Nat.clog 2 W := Nat.le_pow_clog (by omega) _
  have cnt : s.cnt.toNat = countLeading r.lzcBInput - r.shiftA.toNat := by
    rw [load.cnt, BitVec.toNat_setWidth, amount, Nat.mod_eq_of_lt (by omega)]
  have fits : 2 ^ (W - countLeading r.lzcBInput) * 2 ^ s.cnt.toNat ≤ 2 ^ W := by
    rw [← Nat.pow_add]
    exact Nat.pow_le_pow_right (by omega) (by omega)
  have aligned : s.magB = magnitude r.signed r.opB * 2 ^ s.cnt.toNat := by
    rw [Regs.magB, load.compInv, load.opB, Request.opBAligned, amount, ← cnt]
    cases neg : r.signed && r.opBSign with
    | false =>
        rw [neg, if_neg (by simp), magnitude_of_nonneg neg] at most
        rw [if_neg (by simp), magnitude_of_nonneg neg]
        exact toNat_shiftLeft_of_lt most fits
    | true =>
        obtain ⟨abs, -⟩ := magnitude_of_neg neg
        rw [neg, if_pos rfl, Nat.add_zero, abs] at most
        rw [if_pos rfl, abs]
        exact sub_toNat_shiftLeft (Nat.le_trans (Nat.mul_le_mul_right _ most) fits)
  refine ⟨notZero, notOne, by omega, ?_, aligned⟩
  rw [load.res, Regs.magA_of_load load.compInv load.opA]
  apply Restoring.Partial.start
  calc magnitude r.signed r.opA < 2 ^ (W - r.shiftA.toNat) := below
    _ = 2 ^ (W - 1 - countLeading r.lzcBInput) * 2 ^ (s.cnt.toNat + 1) := by
      rw [← Nat.pow_add]
      congr 1
      omega
    _ ≤ magnitude r.signed r.opB * 2 ^ (s.cnt.toNat + 1) := Nat.mul_le_mul_right _ least

section Step

variable {stable : Bool} {i : Input W ι}

/-- A cycle that takes a request. -/
def accepts (s : Regs W ι) (i : Input W ι) : Bool := s.state == .idle && i.inVld && !i.flush

variable (stable) in
theorem next_of_accepts (takes : accepts s i = true) :
    (next stable s i).Loaded i.request ∧ (next stable s i).state = .divide := by
  simp only [accepts, Bool.and_eq_true, beq_iff_eq, Bool.not_eq_true'] at takes
  obtain ⟨⟨idle, valid⟩, noFlush⟩ := takes
  have control : fsm stable s i =
      ⟨.divide, stable, false, true, true, true, false⟩ := by
    simp [fsm, serve, idle, valid, noFlush]
  refine ⟨?_, by simp [next, control]⟩
  constructor
  · constructor <;> simp [next, control]
  all_goals simp [next, control]

theorem next_of_flush (flush : i.flush = true) : (next stable s i).state = .idle := by
  simp [next, fsm, flush]

/-- Nothing is loaded while a request is under way. -/
theorem next_of_busy (stable : Bool) (busy : s.state ≠ .idle) (noFlush : i.flush = false) :
    (next stable s i).id = s.id ∧ (next stable s i).remSel = s.remSel ∧
      (next stable s i).compInv = s.compInv ∧ (next stable s i).resInv = s.resInv ∧
      (next stable s i).opBZero = s.opBZero ∧ (next stable s i).opBNegOne = s.opBNegOne ∧
      (next stable s i).divResZero = s.divResZero := by
  have control : (fsm stable s i).loadEn = false := by
    unfold fsm serve
    cases state : s.state with
    | idle => exact absurd state busy
    | divide => cases s.known <;> simp [noFlush]
    | finish => simp [noFlush]
  simp [next, control]

end Step

theorem Regs.Holds.next (stable : Bool) {i : Input W ι} (holds : s.Holds r)
    (busy : s.state ≠ .idle) (noFlush : i.flush = false) : (next stable s i).Holds r := by
  obtain ⟨id, remSel, compInv, resInv, opBZero, opBNegOne, -⟩ :=
    next_of_busy stable busy noFlush
  exact ⟨id.trans holds.id, remSel.trans holds.remSel, compInv.trans holds.compInv,
    resInv.trans holds.resInv, opBZero.trans holds.opBZero, opBNegOne.trans holds.opBNegOne⟩

/-- A cycle of the division proper. -/
theorem next_of_dividing (stable : Bool) {i : Input W ι} (state : s.state = .divide)
    (known : s.known = false) (noFlush : i.flush = false) :
    (next stable s i).state = (if s.cnt = 0 then .finish else .divide) ∧
      (next stable s i).opA = (if s.abComp then s.opA - s.opB else s.opA) ∧
      (next stable s i).opB = s.shiftedB ∧
      (next stable s i).res = s.res.shiftConcat s.abComp ∧
      (next stable s i).cnt = if s.cnt = 0 then s.cnt else s.cnt - 1 := by
  have control : fsm stable s i =
      ⟨if s.cnt == 0 then .finish else .divide, false, false, false, s.abComp, true, true⟩ := by
    simp [fsm, serve, state, known, noFlush]
  simp [next, control]

/-- A waiting result stays as it is. -/
theorem next_of_waiting (stable : Bool) {i : Input W ι}
    (state : s.state = .finish ∨ s.state = .divide ∧ s.known = true) (noFlush : i.flush = false) :
    (next stable s i).state = (if i.outRdy then .idle else .finish) ∧
      (next stable s i).opA = s.opA ∧ (next stable s i).res = s.res := by
  have control : fsm stable s i =
      ⟨if i.outRdy then .idle else .finish, false, true, false, false, false, false⟩ := by
    rcases state with finish | ⟨divide, known⟩
    · simp [fsm, serve, finish, noFlush]
    · simp [fsm, serve, divide, known, noFlush]
  simp [next, control]

theorem Regs.Dividing.magB_pos (part : s.Dividing r) : 0 < s.magB := by
  rw [part.divisor]
  have small := part.part.small
  rw [Nat.pow_succ, ← Nat.mul_assoc] at small
  by_contra none
  rw [Nat.eq_zero_of_not_pos none, Nat.zero_mul] at small
  omega

/-- One quotient bit more. -/
theorem Regs.Dividing.step (stable : Bool) {i : Input W ι} (wide : 2 ≤ W) (holds : s.Holds r)
    (part : s.Dividing r) (state : s.state = .divide) (known : s.known = false)
    (noFlush : i.flush = false) :
    Restoring.Partial (magnitude r.signed r.opA) (magnitude r.signed r.opB) s.cnt.toNat
      (next stable s i).res.toNat (next stable s i).magA := by
  obtain ⟨-, opA, -, res, -⟩ := next_of_dividing stable state known noFlush
  have busy : s.state ≠ .idle := by
    rw [state]
    decide
  have inverted := (next_of_busy stable busy noFlush).2.2.1
  have comp : s.abComp = decide (s.magB ≤ s.magA) :=
    Regs.abComp_eq (holds.opBZero.trans part.notZero) part.magB_pos
  have finer := part.part.step
  rw [← part.divisor, ← Regs.magA_of_step inverted opA comp, ← comp] at finer
  have small := finer.quotient_lt (magnitude_lt r.signed r.opA) (Nat.le_of_lt part.cnt_lt)
  have fits : 2 ^ (W - s.cnt.toNat) ≤ 2 ^ W := Nat.pow_le_pow_right (by omega) (by omega)
  rw [res, BitVec.toNat_shiftConcat, Nat.shiftLeft_eq, Nat.mod_eq_of_lt (by omega),
    Nat.pow_one, Nat.mul_comm]
  exact finer

/-- The division goes on with the next smaller multiple of the divisor. -/
theorem Regs.Dividing.next (stable : Bool) {i : Input W ι} (wide : 2 ≤ W) (holds : s.Holds r)
    (part : s.Dividing r) (state : s.state = .divide) (known : s.known = false)
    (noFlush : i.flush = false) (more : s.cnt ≠ 0) :
    (Serdiv.next stable s i).Dividing r ∧
      (Serdiv.next stable s i).cnt.toNat + 1 = s.cnt.toNat := by
  obtain ⟨-, -, opB, -, cnt⟩ := next_of_dividing stable state known noFlush
  have busy : s.state ≠ .idle := by
    rw [state]
    decide
  have inverted := (next_of_busy stable busy noFlush).2.2.1
  have positive : s.cnt.toNat ≠ 0 := by
    intro none
    exact more (BitVec.eq_of_toNat_eq none)
  have fewer : (Serdiv.next stable s i).cnt.toNat + 1 = s.cnt.toNat := by
    have enough : W ≤ 2 ^ Nat.clog 2 W := Nat.le_pow_clog (by omega) _
    have one : (1 : BitVec (Nat.clog 2 W)).toNat = 1 :=
      (BitVec.toNat_ofNat 1 _).trans (Nat.mod_eq_of_lt (by omega))
    have least : (1 : BitVec (Nat.clog 2 W)) ≤ s.cnt := by
      rw [BitVec.le_def, one]
      exact Nat.one_le_iff_ne_zero.mpr positive
    rw [cnt, if_neg more, BitVec.toNat_sub_of_le least, one,
      Nat.sub_add_cancel (Nat.one_le_iff_ne_zero.mpr positive)]
  have even : s.magB = 2 * (magnitude r.signed r.opB * 2 ^ (Serdiv.next stable s i).cnt.toNat) := by
    rw [part.divisor, ← fewer, Nat.pow_succ]
    ring
  refine ⟨⟨part.notZero, part.notOne, ?_, ?_, Regs.magB_of_step wide inverted opB even⟩, fewer⟩
  · have bound := part.cnt_lt
    omega
  · rw [fewer]
    exact part.step stable wide holds state known noFlush

end Cva6.Serdiv
