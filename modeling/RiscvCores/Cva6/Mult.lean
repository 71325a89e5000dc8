import RiscvCores.Cva6.ArianePkg
import RiscvCores.Cva6.SerdivRuns
import RiscvCores.Lib.CarrylessMul
import RiscvCores.Lib.WordOps

/-!
# The multiplication unit

`mult` puts a `multiplier` with one pipeline register beside the serial divider.  Both
write back over one port, the multiplier first; a word division is a division of extended
operands whose result is cut back.
-/

set_option autoImplicit false

namespace Cva6.Mult

open WordOps

/-- The configuration `mult` reads. -/
structure MultCfg where
  xlen : Nat
  xlen_eq : xlen = 32 ∨ xlen = 64
  rvb : Bool

/-- `IS_XLEN64`. -/
def MultCfg.isXlen64 (cfg : MultCfg) : Bool := cfg.xlen == 64

theorem MultCfg.wide (cfg : MultCfg) : 32 ≤ cfg.xlen := by
  rcases cfg.xlen_eq with size | size <;> omega

variable {cfg : MultCfg} {ι : Type}

/-- The fields of `fu_data_t` that `mult` reads. -/
structure FuData (cfg : MultCfg) (ι : Type) where
  operation : FuOp
  operandA : BitVec cfg.xlen
  operandB : BitVec cfg.xlen
  transId : ι

/-- The operations of the multiplier. -/
def mulOps : List FuOp := [.mul, .mulh, .mulhu, .mulhsu, .mulw, .clmul, .clmulh, .clmulr]

/-- The operations of the divider. -/
def divOps : List FuOp := [.div, .divu, .divw, .divuw, .rem, .remu, .remw, .remuw]

/-- The word operations of the divider. -/
def divWordOps : List FuOp := [.divw, .divuw, .remw, .remuw]

/-! ## The multiplier -/

/-- The registers of `multiplier`. -/
structure Multiplier (cfg : MultCfg) (ι : Type) where
  transId : ι
  multValid : Bool
  operator : FuOp
  multResult : BitVec (2 * cfg.xlen)
  clmul : BitVec cfg.xlen
  clmulr : BitVec cfg.xlen

namespace Multiplier

variable (op : FuOp) (a b : BitVec cfg.xlen)

/-- `sign_a`. -/
def signA : Bool := op == .mulh || op == .mulhsu

/-- `sign_b`. -/
def signB : Bool := op == .mulh

/-- An operand with its sign, or a zero, in front. -/
def extended (sign : Bool) (x : BitVec cfg.xlen) : BitVec (1 + cfg.xlen) :=
  BitVec.ofBool (x.msb && sign) ++ x

/-- `mult_result_d`. -/
def multResultD : BitVec (2 * cfg.xlen) :=
  (extended (signA op) a).signExtend _ * (extended (signB op) b).signExtend _

/-- `clmul_d`. -/
def clmulD : BitVec cfg.xlen :=
  let reversed := op == .clmulr || op == .clmulh
  let operandA := if reversed then a.reverse else a
  let operandB := if reversed then b.reverse else b
  CarrylessMul.loop operandA operandB (cfg.xlen + 1)

/-- `result_o`. -/
def resultO (s : Multiplier cfg ι) : BitVec cfg.xlen :=
  match s.operator with
  | .mulh | .mulhu | .mulhsu => s.multResult.extractLsb' cfg.xlen cfg.xlen
  | .clmul => s.clmul
  | .clmulh => s.clmulr >>> 1
  | .clmulr => s.clmulr
  | operator =>
      if operator == .mulw && cfg.isXlen64 then (s.multResult.setWidth 32).signExtend _
      else s.multResult.setWidth _

/-- The registers after a cycle. -/
def next (multValidI : Bool) (data : FuData cfg ι) : Multiplier cfg ι where
  transId := data.transId
  multValid := multValidI && data.operation ∈ mulOps
  operator := data.operation
  multResult := multResultD data.operation data.operandA data.operandB
  clmul := clmulD data.operation data.operandA data.operandB
  clmulr := (clmulD data.operation data.operandA data.operandB).reverse

end Multiplier

/-! ## The unit -/

structure State (cfg : MultCfg) (ι : Type) where
  multiplier : Multiplier cfg ι
  div : Serdiv.Regs cfg.xlen ι
  wordOp : Bool

structure Input (cfg : MultCfg) (ι : Type) where
  flush : Bool
  multValid : Bool
  data : FuData cfg ι

section Unit

variable (s : State cfg ι) (i : Input cfg ι)

/-- `mul_valid_op`. -/
def mulValidOp : Bool := !i.flush && i.multValid && i.data.operation ∈ mulOps

/-- `div_valid_op`. -/
def divValidOp : Bool := !i.flush && i.multValid && i.data.operation ∈ divOps

/-- `div_signed`. -/
def divSigned : Bool := i.data.operation ∈ [.div, .divw, .rem, .remw]

/-- `rem`. -/
def rem : Bool := i.data.operation ∈ [.rem, .remu, .remw, .remuw]

/-- The word operations are those of a 64-bit core. -/
def isWordOp : Bool := cfg.isXlen64 && i.data.operation ∈ divWordOps

/-- An operand of the divider. -/
def divOperand (x : BitVec cfg.xlen) : BitVec cfg.xlen :=
  if i.multValid && i.data.operation ∈ divOps then
    if isWordOp i then if divSigned i then sextLow 32 x else zextLow 32 x
    else x
  else 0

/-- `word_op_d`. -/
def wordOpD : Bool :=
  if i.multValid && i.data.operation ∈ divOps then isWordOp i else s.wordOp

/-- `id_i`, `op_a_i`, `op_b_i` and `opcode_i` of the divider. -/
def request : Serdiv.Request cfg.xlen ι where
  id := i.data.transId
  opA := divOperand i i.data.operandA
  opB := divOperand i i.data.operandB
  opcode := BitVec.ofBool (rem i) ++ BitVec.ofBool (divSigned i)

/-- What the divider sees. -/
def divIn : Serdiv.Input cfg.xlen ι where
  request := request i
  inVld := divValidOp i
  flush := i.flush
  outRdy := !s.multiplier.multValid

/-- What the divider drives; `STABLE_HANDSHAKE` is 0. -/
def divCtrl : Serdiv.Ctrl := Serdiv.fsm false s.div (divIn s i)

/-- `div_result`. -/
def divResult : BitVec cfg.xlen :=
  if cfg.isXlen64 && s.wordOp then sextLow 32 s.div.resO else s.div.resO

/-- `mult_valid_o`. -/
def multValidO : Bool := (divCtrl s i).outVld || s.multiplier.multValid

/-- `mult_ready_o`. -/
def multReadyO : Bool := (divCtrl s i).inRdy

/-- `mult_trans_id_o`. -/
def multTransIdO : ι := if s.multiplier.multValid then s.multiplier.transId else s.div.id

/-- `result_o`. -/
def resultO : BitVec cfg.xlen :=
  if s.multiplier.multValid then s.multiplier.resultO else divResult s

def next : State cfg ι where
  multiplier := Multiplier.next (mulValidOp i) i.data
  div := Serdiv.next false s.div (divIn s i)
  wordOp := wordOpD s i

end Unit

def reset (zeroId : ι) : State cfg ι where
  multiplier := ⟨zeroId, false, .mul, 0, 0, 0⟩
  div := (Serdiv.machine cfg.xlen false zeroId).reset
  wordOp := false

/-! ## What the instruction set says -/

section Meaning

variable {W : Nat}

/-- The value of an instruction, from the values of its operands. -/
noncomputable def meaning (op : FuOp) (a b : BitVec W) : BitVec W :=
  match op with
  | .mul => a * b
  | .mulh => BitVec.ofInt W (a.toInt * b.toInt / 2 ^ W)
  | .mulhu => BitVec.ofNat W (a.toNat * b.toNat / 2 ^ W)
  | .mulhsu => BitVec.ofInt W (a.toInt * b.toNat / 2 ^ W)
  | .mulw => sextLow 32 (a * b)
  | .clmul => CarrylessMul.slice 0 (CarrylessMul.product a b)
  | .clmulh => CarrylessMul.slice W (CarrylessMul.product a b)
  | .clmulr => CarrylessMul.slice (W - 1) (CarrylessMul.product a b)
  | .div => quotient true a b
  | .divu => quotient false a b
  | .rem => remainder true a b
  | .remu => remainder false a b
  | .divw => (quotient true (a.setWidth 32) (b.setWidth 32)).signExtend W
  | .divuw => (quotient false (a.setWidth 32) (b.setWidth 32)).signExtend W
  | .remw => (remainder true (a.setWidth 32) (b.setWidth 32)).signExtend W
  | .remuw => (remainder false (a.setWidth 32) (b.setWidth 32)).signExtend W
  | _ => 0

end Meaning

/-- The operations that a unit of this configuration is given. -/
def offers (cfg : MultCfg) (op : FuOp) : Prop :=
  op ∈ [.mul, .mulh, .mulhu, .mulhsu, .div, .divu, .rem, .remu] ∨
    cfg.isXlen64 = true ∧ op ∈ FuOp.mulw :: divWordOps ∨
    cfg.rvb = true ∧ op ∈ [.clmul, .clmulh, .clmulr]

instance (cfg : MultCfg) (op : FuOp) : Decidable (offers cfg op) :=
  inferInstanceAs (Decidable (_ ∨ _))

/-! ## Products -/

section Products

variable {n m : Nat}

theorem setWidth_ofInt (z : Int) (fits : m ≤ n) :
    (BitVec.ofInt n z).setWidth m = BitVec.ofInt m z := by
  have divides : ((2 ^ m : Nat) : Int) ∣ ((2 ^ n : Nat) : Int) := by
    exact_mod_cast Nat.pow_dvd_pow 2 fits
  have big : 0 ≤ z % ((2 ^ n : Nat) : Int) := Int.emod_nonneg z (by positivity)
  have small : 0 ≤ z % ((2 ^ m : Nat) : Int) := Int.emod_nonneg z (by positivity)
  apply BitVec.eq_of_toNat_eq
  apply Int.ofNat_inj.mp
  rw [BitVec.toNat_setWidth, BitVec.toNat_ofInt, BitVec.toNat_ofInt, Int.natCast_mod,
    Int.toNat_of_nonneg big, Int.toNat_of_nonneg small, Int.emod_emod_of_dvd z divides]

theorem emod_mul_ediv (z : Int) (k l : Nat) (kPos : 0 < k) (lPos : 0 < l) :
    z % ((k * l : Nat) : Int) / k = z / k % l := by
  have whole := Int.mul_ediv_add_emod z ((k * l : Nat) : Int)
  have low : 0 ≤ z % ((k * l : Nat) : Int) := Int.emod_nonneg z (by positivity)
  have high : z % ((k * l : Nat) : Int) < k * l := by
    have bound := Int.emod_lt_of_pos z (show (0 : Int) < ((k * l : Nat) : Int) by positivity)
    simpa using bound
  generalize z % ((k * l : Nat) : Int) = r at *
  generalize z / ((k * l : Nat) : Int) = q at *
  have shape : z = r + k * (l * q) := by
    rw [← whole]
    push_cast
    ring
  rw [shape, Int.add_mul_ediv_left _ _ (by positivity), Int.add_mul_emod_self_left,
    Int.emod_eq_of_lt (Int.ediv_nonneg low (by positivity))]
  exact Int.ediv_lt_of_lt_mul (by positivity) (by linarith)

theorem extract_ofInt (z : Int) :
    (BitVec.ofInt (n + m) z).extractLsb' n m = BitVec.ofInt m (z / 2 ^ n) := by
  have big : 0 ≤ z % ((2 ^ (n + m) : Nat) : Int) := Int.emod_nonneg z (by positivity)
  have small : 0 ≤ z / 2 ^ n % ((2 ^ m : Nat) : Int) := Int.emod_nonneg _ (by positivity)
  have split := emod_mul_ediv z (2 ^ n) (2 ^ m) (by positivity) (by positivity)
  have cast : ((2 ^ n : Nat) : Int) = 2 ^ n := by push_cast; rfl
  have twice := Int.emod_emod_of_dvd (z / 2 ^ n) (dvd_refl ((2 ^ m : Nat) : Int))
  rw [← pow_add, cast] at split
  apply BitVec.eq_of_toNat_eq
  apply Int.ofNat_inj.mp
  rw [BitVec.extractLsb'_toNat, Nat.shiftRight_eq_div_pow, BitVec.toNat_ofInt, BitVec.toNat_ofInt,
    Int.natCast_mod, Int.natCast_ediv, Int.toNat_of_nonneg big, Int.toNat_of_nonneg small, cast,
    split, twice]

end Products

namespace Multiplier

/-- The number an operand of the multiplier stands for. -/
def value (sign : Bool) (x : BitVec cfg.xlen) : Int := if sign then x.toInt else x.toNat

theorem toInt_extended (sign : Bool) (x : BitVec cfg.xlen) :
    (extended sign x).toInt = value sign x := by
  rw [extended, BitVec.toInt_append, value]
  cases sign with
  | false => simp
  | true =>
      rw [BitVec.toInt_eq_msb_cond]
      cases x.msb
      · simp
      · simp
        ring

theorem multResultD_eq (op : FuOp) (a b : BitVec cfg.xlen) :
    multResultD op a b =
      BitVec.ofInt (2 * cfg.xlen) (value (signA op) a * value (signB op) b) := by
  rw [multResultD, BitVec.ofInt_mul, ← toInt_extended, ← toInt_extended]
  rfl

theorem high_part (op : FuOp) (a b : BitVec cfg.xlen) :
    (multResultD op a b).extractLsb' cfg.xlen cfg.xlen =
      BitVec.ofInt cfg.xlen (value (signA op) a * value (signB op) b / 2 ^ cfg.xlen) := by
  rw [multResultD_eq, Nat.two_mul, extract_ofInt]

theorem low_part (op : FuOp) (a b : BitVec cfg.xlen)
    (unsigned : signA op = false ∧ signB op = false) {m : Nat} (fits : m ≤ cfg.xlen) :
    (multResultD op a b).setWidth m = (a * b).setWidth m := by
  have product : value false a * value false b = ((a.toNat * b.toNat : Nat) : Int) := by
    simp [value]
  rw [multResultD_eq, setWidth_ofInt _ (by omega), unsigned.1, unsigned.2, product,
    BitVec.ofInt_natCast]
  apply BitVec.eq_of_toNat_eq
  rw [BitVec.toNat_ofNat, BitVec.toNat_setWidth, BitVec.toNat_mul,
    Nat.mod_mod_of_dvd _ (Nat.pow_dvd_pow 2 fits)]

/-- What the register of an operation holds is its value. -/
theorem resultO_next (valid : Bool) (data : FuData cfg ι)
    (offered : offers cfg data.operation) (multiplies : data.operation ∈ mulOps) :
    (Multiplier.next valid data).resultO =
      meaning data.operation data.operandA data.operandB := by
  obtain ⟨op, a, b, id⟩ := data
  have fits := cfg.wide
  simp only [mulOps, List.mem_cons, List.not_mem_nil, or_false] at multiplies
  rcases multiplies with rfl | rfl | rfl | rfl | rfl | rfl | rfl | rfl
  · simp only [resultO, Multiplier.next, meaning]
    simpa using low_part .mul a b ⟨rfl, rfl⟩ (le_refl cfg.xlen)
  · exact high_part .mulh a b
  · have unsigned : value (signA .mulhu) a * value (signB .mulhu) b / 2 ^ cfg.xlen =
        ((a.toNat * b.toNat / 2 ^ cfg.xlen : Nat) : Int) := by
      simp [value, signA, signB]
    have high := high_part .mulhu a b
    rw [unsigned, BitVec.ofInt_natCast] at high
    exact high
  · exact high_part .mulhsu a b
  · have wide : cfg.isXlen64 = true := by simpa [offers, divWordOps] using offered
    simp only [resultO, Multiplier.next, meaning, wide, sextLow]
    simpa using congrArg (BitVec.signExtend cfg.xlen) (low_part .mulw a b ⟨rfl, rfl⟩ fits)
  · exact CarrylessMul.loop_eq_low a b
  · exact CarrylessMul.loop_reverse_shift a b
  · exact CarrylessMul.loop_reverse a b

end Multiplier

/-! ## Quotients -/

section Quotients

variable {n m : Nat}

theorem signExtend_eq_zero (y : BitVec n) (fits : n ≤ m) : y.signExtend m = 0 ↔ y = 0 := by
  rw [← BitVec.toInt_inj, BitVec.toInt_signExtend_of_le fits, ← @BitVec.toInt_inj n]
  simp

theorem setWidth_eq_zero (y : BitVec n) (fits : n ≤ m) : y.setWidth m = 0 ↔ y = 0 := by
  rw [← BitVec.toNat_inj, BitVec.toNat_setWidth_of_le fits, ← @BitVec.toNat_inj n]
  simp

theorem setWidth_signExtend (x : BitVec n) (fits : n ≤ m) :
    (x.signExtend m).setWidth n = x := by
  apply BitVec.eq_of_getLsbD_eq
  intro j inside
  have within : j < m := by omega
  rw [BitVec.getLsbD_setWidth, BitVec.getLsbD_signExtend]
  simp [inside, within]

/-- A signed division of wider operands is cut back to the division itself. -/
theorem setWidth_quotient_signExtend (x y : BitVec n) (fits : n ≤ m) :
    (quotient true (x.signExtend m) (y.signExtend m)).setWidth n = quotient true x y := by
  simp only [quotient, signExtend_eq_zero y fits, if_true]
  by_cases none : y = 0
  · rw [if_pos none, if_pos none]
    apply BitVec.eq_of_getLsbD_eq
    intro j inside
    have within : j < m := by omega
    simp [inside, within]
  · rw [if_neg none, if_neg none, BitVec.toInt_signExtend_of_le fits,
      BitVec.toInt_signExtend_of_le fits, setWidth_ofInt _ fits]

theorem setWidth_remainder_signExtend (x y : BitVec n) (fits : n ≤ m) :
    (remainder true (x.signExtend m) (y.signExtend m)).setWidth n = remainder true x y := by
  simp only [remainder, signExtend_eq_zero y fits, if_true]
  by_cases none : y = 0
  · rw [if_pos none, if_pos none, setWidth_signExtend x fits]
  · rw [if_neg none, if_neg none, BitVec.toInt_signExtend_of_le fits,
      BitVec.toInt_signExtend_of_le fits, setWidth_ofInt _ fits]

theorem setWidth_quotient_setWidth (x y : BitVec n) (fits : n ≤ m) :
    (quotient false (x.setWidth m) (y.setWidth m)).setWidth n = quotient false x y := by
  simp only [quotient, setWidth_eq_zero y fits]
  by_cases none : y = 0
  · rw [if_pos none, if_pos none]
    apply BitVec.eq_of_getLsbD_eq
    intro j inside
    have within : j < m := by omega
    simp [inside, within]
  · rw [if_neg none, if_neg none]
    apply BitVec.eq_of_toNat_eq
    have bound := (x / y).isLt
    rw [BitVec.toNat_udiv] at bound
    simp [BitVec.toNat_setWidth_of_le fits, Nat.mod_eq_of_lt bound]

theorem setWidth_remainder_setWidth (x y : BitVec n) (fits : n ≤ m) :
    (remainder false (x.setWidth m) (y.setWidth m)).setWidth n = remainder false x y := by
  simp only [remainder, setWidth_eq_zero y fits]
  by_cases none : y = 0
  · rw [if_pos none, if_pos none, BitVec.setWidth_setWidth_of_le x fits, BitVec.setWidth_eq]
  · rw [if_neg none, if_neg none]
    apply BitVec.eq_of_toNat_eq
    have bound := (x % y).isLt
    rw [BitVec.toNat_umod] at bound
    simp [BitVec.toNat_setWidth_of_le fits, Nat.mod_eq_of_lt bound]

end Quotients

/-! ## The divider's answer -/

theorem result_eq {W : Nat} (r : Serdiv.Request W ι) :
    r.result =
      if r.rem then remainder r.signed r.opA r.opB else quotient r.signed r.opA r.opB := by
  cases remSel : r.rem <;> cases signed : r.signed <;>
    simp [Serdiv.Request.result, remSel, signed, remainder, quotient]

theorem request_kind (i : Input cfg ι) :
    (request i).signed = divSigned i ∧ (request i).rem = rem i := by
  have bits : ∀ high low : Bool, (BitVec.ofBool high ++ BitVec.ofBool low).getLsbD 0 = low ∧
      (BitVec.ofBool high ++ BitVec.ofBool low).getLsbD 1 = high := by decide
  exact bits (rem i) (divSigned i)

/-- The request that is put to the divider is answered with the value of the instruction,
once a word result is extended again. -/
theorem result_request (i : Input cfg ι) (valid : i.multValid = true)
    (offered : offers cfg i.data.operation) (divides : i.data.operation ∈ divOps) :
    (if cfg.isXlen64 && isWordOp i then sextLow 32 (request i).result
      else (request i).result) =
      meaning i.data.operation i.data.operandA i.data.operandB := by
  have fits := cfg.wide
  have operand : ∀ x, divOperand i x =
      if isWordOp i then if divSigned i then sextLow 32 x else zextLow 32 x else x := by
    intro x
    rw [divOperand, if_pos (by simp [valid, divides])]
  obtain ⟨signed, remSel⟩ := request_kind i
  rw [result_eq, signed, remSel]
  simp only [request, operand]
  obtain ⟨flush, multValid, op, a, b, id⟩ := i
  simp only [divOps, List.mem_cons, List.not_mem_nil, or_false] at divides
  rcases divides with rfl | rfl | rfl | rfl | rfl | rfl | rfl | rfl
  · simp [isWordOp, divWordOps, divSigned, rem, meaning]
  · simp [isWordOp, divWordOps, divSigned, rem, meaning]
  · have wide : cfg.isXlen64 = true := by simpa [offers, divWordOps] using offered
    simp [isWordOp, divWordOps, divSigned, rem, meaning, wide, sextLow,
      setWidth_quotient_signExtend _ _ fits]
  · have wide : cfg.isXlen64 = true := by simpa [offers, divWordOps] using offered
    simp [isWordOp, divWordOps, divSigned, rem, meaning, wide, sextLow, zextLow,
      setWidth_quotient_setWidth _ _ fits]
  · simp [isWordOp, divWordOps, divSigned, rem, meaning]
  · simp [isWordOp, divWordOps, divSigned, rem, meaning]
  · have wide : cfg.isXlen64 = true := by simpa [offers, divWordOps] using offered
    simp [isWordOp, divWordOps, divSigned, rem, meaning, wide, sextLow,
      setWidth_remainder_signExtend _ _ fits]
  · have wide : cfg.isXlen64 = true := by simpa [offers, divWordOps] using offered
    simp [isWordOp, divWordOps, divSigned, rem, meaning, wide, sextLow, zextLow,
      setWidth_remainder_setWidth _ _ fits]

end Cva6.Mult
