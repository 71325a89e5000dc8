import Mathlib.Tactic.Common

/-!
# Atomic operations

`amoExec` of the cores and `fn_amo_op` of the MMIO platform beside the operations of
the ISA.  `amoExec` computes 32-bit operations in 64 bits and merges the result into
the old word; `fn_amo_op` is driven by a size and the low bits of the address.
-/

set_option autoImplicit false

namespace Toooba.Amo

inductive AmoFunc where
  | swap | add | xor | and | or | min | max | minu | maxu | none
  deriving DecidableEq

structure AmoInst where
  func : AmoFunc
  doubleWord : Bool
  aq : Bool
  rl : Bool
  deriving DecidableEq

abbrev Data : Type := BitVec 64

/-! ## The ISA -/

/-- The operation of the ISA on a word of any width. -/
def riscvAmo {w : Nat} (func : AmoFunc) (old operand : BitVec w) : BitVec w :=
  match func with
  | .swap => operand
  | .add => old + operand
  | .xor => old ^^^ operand
  | .and => old &&& operand
  | .or => old ||| operand
  | .min => if old.slt operand then old else operand
  | .max => if old.slt operand then operand else old
  | .minu => if old.ult operand then old else operand
  | .maxu => if old.ult operand then operand else old
  | .none => 0#w

section Coincidence

variable {w : Nat}

/-- The operand itself is the result. -/
def OperandWins (func : AmoFunc) (old operand : BitVec w) : Prop :=
  match func with
  | .swap => True
  | .add => old = 0#w
  | .xor => old = 0#w
  | .and => operand &&& old = operand
  | .or => old &&& operand = old
  | .min => ¬old.slt operand
  | .max => ¬operand.slt old
  | .minu => ¬old.ult operand
  | .maxu => ¬operand.ult old
  | .none => operand = 0#w

/-- The words cancel, or the smaller (larger) one is 0. -/
def ResultZero (func : AmoFunc) (old operand : BitVec w) : Prop :=
  match func with
  | .swap => operand = 0#w
  | .add => operand = -old
  | .xor => old = operand
  | .and => old &&& operand = 0#w
  | .or => old = 0#w ∧ operand = 0#w
  | .min => old = 0#w ∧ ¬operand.slt 0#w ∨ operand = 0#w ∧ ¬old.slt 0#w
  | .max => old = 0#w ∧ ¬(0#w).slt operand ∨ operand = 0#w ∧ ¬(0#w).slt old
  | .minu => old = 0#w ∨ operand = 0#w
  | .maxu => old = 0#w ∧ operand = 0#w
  | .none => True

theorem or_eq_operand {old operand : BitVec w} :
    old ||| operand = operand ↔ old &&& operand = old := by
  simp only [BitVec.eq_of_getLsbD_eq_iff, BitVec.getLsbD_or, BitVec.getLsbD_and]
  apply forall_congr'
  intro k
  cases old.getLsbD k <;> cases operand.getLsbD k <;> simp

theorem riscvAmo_eq_operand {func : AmoFunc} {old operand : BitVec w} :
    riscvAmo func old operand = operand ↔ OperandWins func old operand := by
  cases func with
  | swap => exact iff_of_true rfl trivial
  | add =>
      rw [riscvAmo, OperandWins, BitVec.add_comm]
      exact BitVec.add_right_eq_self
  | xor =>
      rw [riscvAmo, OperandWins, ← BitVec.xor_left_inj operand, BitVec.xor_assoc,
        BitVec.xor_self, BitVec.xor_zero]
  | and => rw [riscvAmo, OperandWins, BitVec.and_comm]
  | or => exact or_eq_operand
  | min | max =>
      simp only [riscvAmo, OperandWins, BitVec.slt_iff_toInt_lt]
      split <;> rw [← BitVec.toInt_inj] <;> omega
  | minu | maxu =>
      simp only [riscvAmo, OperandWins, BitVec.ult_iff_toNat_lt]
      split <;> rw [← BitVec.toNat_inj] <;> omega
  | none => exact eq_comm

theorem riscvAmo_eq_zero {func : AmoFunc} {old operand : BitVec w} :
    riscvAmo func old operand = 0#w ↔ ResultZero func old operand := by
  cases func with
  | swap => exact Iff.rfl
  | add =>
      constructor
      · intro zero
        calc operand = -old + riscvAmo .add old operand := by
              rw [riscvAmo, ← BitVec.add_assoc, BitVec.add_left_neg, BitVec.zero_add]
          _ = -old := by rw [zero, BitVec.add_zero]
      · rintro rfl
        exact BitVec.add_right_neg old
  | xor => exact BitVec.xor_eq_zero_iff
  | and => exact Iff.rfl
  | or => exact BitVec.or_eq_zero_iff
  | min | max =>
      simp only [riscvAmo, ResultZero, BitVec.slt_iff_toInt_lt, BitVec.toInt_zero]
      split <;> simp only [← BitVec.toInt_inj, BitVec.toInt_zero] <;> omega
  | minu | maxu =>
      simp only [riscvAmo, ResultZero, BitVec.ult_iff_toNat_lt]
      split <;> simp only [← BitVec.toNat_inj, BitVec.toNat_ofNat, Nat.zero_mod] <;> omega
  | none => exact iff_of_true rfl trivial

end Coincidence

/-! ## `amoExec` -/

section Select

variable {t : Nat} (a b : BitVec t)

def sMax : BitVec t := if a.sle b then b else a
def sMin : BitVec t := if a.sle b then a else b
def uMax : BitVec t := if a.ule b then b else a
def uMin : BitVec t := if a.ule b then a else b

end Select

abbrev lower (x : Data) : BitVec 32 := x.extractLsb 31 0
abbrev upper (x : Data) : BitVec 32 := x.extractLsb 63 32

def amoExec (amoInst : AmoInst) (currentData inData : Data) (upper32Bits : Bool) : Data :=
  let oldData := currentData
  let signed := amoInst.func = .min ∨ amoInst.func = .max
  let half (x : BitVec 32) : Data := if signed then x.signExtend 64 else x.setWidth 64
  let currentData :=
    if amoInst.doubleWord then currentData
    else if !upper32Bits then half (lower currentData)
    -- use upper 32-bits instead
    else half (upper currentData)
  let inData := if amoInst.doubleWord then inData else half (lower inData)
  let newData : Data := match amoInst.func with
    | .swap => inData
    | .add => currentData + inData
    | .xor => currentData ^^^ inData
    | .and => currentData &&& inData
    | .or => currentData ||| inData
    | .min => sMin currentData inData
    | .max => sMax currentData inData
    | .minu => uMin currentData inData
    | .maxu => uMax currentData inData
    | .none => 0#64
  if !amoInst.doubleWord then
    if !upper32Bits then upper oldData ++ lower newData
    -- change upper 32-bits instead
    else lower newData ++ lower oldData
  else newData

section Halves

variable (a b : BitVec 32)

@[simp] theorem lower_signExtend : lower (a.signExtend 64) = a := by
  apply BitVec.eq_of_getLsbD_eq
  intro k below
  have inside : k < 64 := by omega
  simp only [lower, BitVec.getLsbD_extractLsb, Nat.zero_add, BitVec.getLsbD_signExtend, inside,
    below, decide_true, if_true, Bool.true_and]

@[simp] theorem lower_setWidth : lower (a.setWidth 64) = a := by
  apply BitVec.eq_of_getLsbD_eq
  intro k below
  simp [lower, below]

theorem lower_add (x y : Data) : lower (x + y) = lower x + lower y := by
  apply BitVec.eq_of_toNat_eq
  simp [lower, BitVec.toNat_add]

theorem slt_signExtend : (a.signExtend 64).slt (b.signExtend 64) = a.slt b := by
  simp only [BitVec.slt_eq_decide]
  rw [BitVec.toInt_signExtend_of_le (by decide), BitVec.toInt_signExtend_of_le (by decide)]

theorem ult_setWidth : (a.setWidth 64).ult (b.setWidth 64) = a.ult b := by
  simp only [BitVec.ult_eq_decide, BitVec.toNat_setWidth]
  rw [Nat.mod_eq_of_lt (by omega), Nat.mod_eq_of_lt (by omega)]

end Halves

section Same

variable {w : Nat} (a b : BitVec w)

theorem sMin_eq : sMin a b = riscvAmo .min a b := by
  simp only [sMin, riscvAmo, BitVec.sle_eq_decide, BitVec.slt_eq_decide, decide_eq_true_eq]
  rcases Int.lt_trichotomy a.toInt b.toInt with below | same | above
  · rw [if_pos (Int.le_of_lt below), if_pos below]
  · rw [if_pos (Int.le_of_eq same), if_neg (Int.not_lt.mpr (Int.le_of_eq same.symm)),
      BitVec.eq_of_toInt_eq same]
  · rw [if_neg (Int.not_le.mpr above), if_neg (Int.not_lt.mpr (Int.le_of_lt above))]

theorem sMax_eq : sMax a b = riscvAmo .max a b := by
  simp only [sMax, riscvAmo, BitVec.sle_eq_decide, BitVec.slt_eq_decide, decide_eq_true_eq]
  rcases Int.lt_trichotomy a.toInt b.toInt with below | same | above
  · rw [if_pos (Int.le_of_lt below), if_pos below]
  · rw [if_pos (Int.le_of_eq same), if_neg (Int.not_lt.mpr (Int.le_of_eq same.symm)),
      BitVec.eq_of_toInt_eq same]
  · rw [if_neg (Int.not_le.mpr above), if_neg (Int.not_lt.mpr (Int.le_of_lt above))]

theorem uMin_eq : uMin a b = riscvAmo .minu a b := by
  simp only [uMin, riscvAmo, BitVec.ule_eq_decide, BitVec.ult_eq_decide, decide_eq_true_eq]
  rcases Nat.lt_trichotomy a.toNat b.toNat with below | same | above
  · rw [if_pos (Nat.le_of_lt below), if_pos below]
  · rw [if_pos (Nat.le_of_eq same), if_neg (Nat.not_lt.mpr (Nat.le_of_eq same.symm)),
      BitVec.eq_of_toNat_eq same]
  · rw [if_neg (Nat.not_le.mpr above), if_neg (Nat.not_lt.mpr (Nat.le_of_lt above))]

theorem uMax_eq : uMax a b = riscvAmo .maxu a b := by
  simp only [uMax, riscvAmo, BitVec.ule_eq_decide, BitVec.ult_eq_decide, decide_eq_true_eq]
  rcases Nat.lt_trichotomy a.toNat b.toNat with below | same | above
  · rw [if_pos (Nat.le_of_lt below), if_pos below]
  · rw [if_pos (Nat.le_of_eq same), if_neg (Nat.not_lt.mpr (Nat.le_of_eq same.symm)),
      BitVec.eq_of_toNat_eq same]
  · rw [if_neg (Nat.not_le.mpr above), if_neg (Nat.not_lt.mpr (Nat.le_of_lt above))]

end Same

/-- An operation in 64 bits on extended words gives the operation in 32 bits below. -/
theorem lower_riscvAmo (func : AmoFunc) (a b : BitVec 32) :
    let half (x : BitVec 32) : Data :=
      if func = .min ∨ func = .max then x.signExtend 64 else x.setWidth 64
    lower (riscvAmo func (half a) (half b)) = riscvAmo func a b := by
  cases func with
  | add =>
      simp only [riscvAmo, reduceCtorEq, or_self, if_false]
      rw [lower_add, lower_setWidth, lower_setWidth]
  | xor | and | or =>
      apply BitVec.eq_of_getLsbD_eq
      intro k below
      have inside : k < 64 := by omega
      simp [riscvAmo, lower, below, inside]
  | min | max =>
      simp only [riscvAmo, reduceCtorEq, or_false, or_true, if_true, slt_signExtend]
      split <;> exact lower_signExtend _
  | minu | maxu =>
      simp only [riscvAmo, reduceCtorEq, or_false, if_false, ult_setWidth]
      split <;> exact lower_setWidth _
  | swap => exact lower_setWidth b
  | none => rfl

theorem amoExec_eq (amoInst : AmoInst) (old operand : Data) (upper32Bits : Bool) :
    amoExec amoInst old operand upper32Bits =
      if amoInst.doubleWord then riscvAmo amoInst.func old operand
      else if upper32Bits then
        riscvAmo amoInst.func (upper old) (lower operand) ++ lower old
      else upper old ++ riscvAmo amoInst.func (lower old) (lower operand) := by
  obtain ⟨func, doubleWord, aq, rl⟩ := amoInst
  have op : ∀ x y : Data, (match func with
      | .swap => y | .add => x + y | .xor => x ^^^ y | .and => x &&& y | .or => x ||| y
      | .min => sMin x y | .max => sMax x y | .minu => uMin x y | .maxu => uMax x y
      | .none => 0#64) = riscvAmo func x y := by
    intro x y
    cases func with
    | min => exact sMin_eq x y
    | max => exact sMax_eq x y
    | minu => exact uMin_eq x y
    | maxu => exact uMax_eq x y
    | swap | add | xor | and | or | none => rfl
  cases doubleWord with
  | true => simpa [amoExec] using op old operand
  | false =>
      cases upper32Bits with
      | true =>
          have half := lower_riscvAmo func (upper old) (lower operand)
          simp only [amoExec, op, Bool.not_true, Bool.not_false, if_true]
          simp only [Bool.false_eq_true, if_false]
          exact congrArg (· ++ lower old) half
      | false =>
          have half := lower_riscvAmo func (lower old) (lower operand)
          simp only [amoExec, op, Bool.not_false, if_true]
          simp only [Bool.false_eq_true, if_false]
          exact congrArg (upper old ++ ·) half

/-! ## `fn_amo_op` -/

def szB : BitVec 2 := 0b00
def szH : BitVec 2 := 0b01
def szW : BitVec 2 := 0b10
def szD : BitVec 2 := 0b11

section Platform

variable (sz : BitVec 2) (byteAddr : BitVec 64)

def addrLsbs : BitVec 3 := byteAddr.extractLsb 2 0

/-- A field of `64 - lo` bits or less, extended with zeros. -/
abbrev bitsFrom (word : Data) (lo width : Nat) : Data := (word.extractLsb' lo width).setWidth 64

def fnExtractAndExtendBytes (word64 : Data) : Data :=
  let lsbs := addrLsbs byteAddr
  if sz = szB then bitsFrom word64 (8 * lsbs.toNat) 8
  else if sz = szH then
    if lsbs = 0 then bitsFrom word64 0 16
    else if lsbs = 2 then bitsFrom word64 16 16
    else if lsbs = 4 then bitsFrom word64 32 16
    else if lsbs = 6 then bitsFrom word64 48 16
    else 0
  else if sz = szW then
    if lsbs = 0 then bitsFrom word64 0 32
    else if lsbs = 4 then bitsFrom word64 32 32
    else 0
  else if lsbs = 0 then word64
  else 0

/-- `stVal` with `width` bits from `lo` on taken from the low bits of `value`. -/
def merge (stVal value : Data) (lo width : Nat) : Data :=
  let mask : Data := (BitVec.allOnes width).setWidth 64 <<< lo
  (stVal &&& ~~~mask) ||| (value <<< lo &&& mask)

def fnUpdateBytes (value stVal : Data) : Data :=
  let lsbs := addrLsbs byteAddr
  if sz = szB then merge stVal value (8 * lsbs.toNat) 8
  else if sz = szH then
    if lsbs = 0 ∨ lsbs = 2 ∨ lsbs = 4 ∨ lsbs = 6 then merge stVal value (8 * lsbs.toNat) 16
    else 0
  else if sz = szW then
    if lsbs = 0 ∨ lsbs = 4 then merge stVal value (8 * lsbs.toNat) 32 else 0
  else if lsbs = 0 then stVal
  else 0

/-- An unknown operation leaves the result undefined. -/
def fnAmoOp (amofunc : AmoFunc) (addr : BitVec 64) (ldVal stVal : Data) : Data :=
  let w1 := fnExtractAndExtendBytes sz addr ldVal
  let w2 := fnExtractAndExtendBytes sz addr stVal
  let word (w : Data) : Data := if sz = szW then (lower w).setWidth 64 else w
  let int (w : Data) : Data := if sz = szW then (lower w).signExtend 64 else w
  let opResult : Data := match amofunc with
    | .swap => word w2
    | .add => int w1 + int w2
    | .xor => word w1 ^^^ word w2
    | .and => word w1 &&& word w2
    | .or => word w1 ||| word w2
    | .minu => if (word w1).ult (word w2) then word w1 else word w2
    | .maxu => if (word w2).ult (word w1) then word w1 else word w2
    | .min => if (int w1).slt (int w2) then word w1 else word w2
    | .max => if (int w2).slt (int w1) then word w1 else word w2
    | .none => 0#64
  fnUpdateBytes sz addr opResult stVal

/-- The update of a double word drops the result. -/
theorem fnAmoOp_szD (amofunc : AmoFunc) (addr : BitVec 64) (ldVal stVal : Data) :
    fnAmoOp szD amofunc addr ldVal stVal = if addrLsbs addr = 0 then stVal else 0 := rfl

end Platform

end Toooba.Amo
