import Mathlib.Algebra.GroupWithZero.Nat
import Mathlib.Tactic.Common
import RiscvCores.Lib.BitField

/-!
# Operations on words

The operations of a bit-manipulation instruction set on words of any width: the low part
of a word and its extensions, operations byte by byte, bits by index, rotations and quotients.  A
shifter that only shifts right, an adder that only adds and a comparator that only compares
signed numbers give the others: the lemmas say how.
-/

set_option autoImplicit false

namespace WordOps

variable {W : Nat}

/-! ## Parts of a word -/

/-- The low `n` bits, sign-extended. -/
def sextLow (n : Nat) (x : BitVec W) : BitVec W := (x.setWidth n).signExtend W

/-- The low `n` bits, zero-extended. -/
def zextLow (n : Nat) (x : BitVec W) : BitVec W := (x.setWidth n).setWidth W

/-- The byte at index `k`. -/
def byte (x : BitVec W) (k : Nat) : BitVec 8 := x.extractLsb' (8 * k) 8

/-- The word whose byte `k` is `f k`. -/
def ofBytes (f : Nat → BitVec 8) : BitVec W :=
  BitField.pack fun j => (f (j / 8)).getLsbD (j % 8)

/-- Each byte of a word on its own. -/
def mapBytes (f : BitVec 8 → BitVec 8) (x : BitVec W) : BitVec W := ofBytes fun k => f (byte x k)

/-- The bytes of a word in reverse order. -/
def reverseBytes (x : BitVec W) : BitVec W := ofBytes fun k => byte x (W / 8 - 1 - k)

/-- The quotient, rounded towards zero; all ones for a zero divisor. -/
def quotient (signed : Bool) (a b : BitVec W) : BitVec W :=
  if b = 0 then BitVec.allOnes W
  else if signed then BitVec.ofInt W (a.toInt.tdiv b.toInt) else a / b

/-- The remainder, with the sign of the dividend; the dividend for a zero divisor. -/
def remainder (signed : Bool) (a b : BitVec W) : BitVec W :=
  if b = 0 then a
  else if signed then BitVec.ofInt W (a.toInt.tmod b.toInt) else a % b

@[simp] theorem getLsbD_byte (x : BitVec W) (k j : Nat) :
    (byte x k).getLsbD j = (decide (j < 8) && x.getLsbD (8 * k + j)) := by
  simp [byte, BitVec.getLsbD_extractLsb']

theorem getLsbD_ofBytes (f : Nat → BitVec 8) {j : Nat} (inside : j < W) :
    (ofBytes f : BitVec W).getLsbD j = (f (j / 8)).getLsbD (j % 8) := by
  exact BitField.getLsbD_pack (fun j : Fin W => (f (j / 8)).getLsbD (j % 8)) ⟨j, inside⟩

theorem getLsbD_append_byte (x : BitVec W) (y : BitVec 8) (k r : Nat) (inside : r < 8) :
    (x ++ y).getLsbD (8 * k + r) =
      if k = 0 then y.getLsbD r else x.getLsbD (8 * (k - 1) + r) := by
  rw [BitVec.getLsbD_append]
  by_cases first : k = 0
  · subst first
    simp [inside]
  · have above : ¬ 8 * k + r < 8 := by omega
    have position : 8 * k + r - 8 = 8 * (k - 1) + r := by omega
    rw [if_neg above, if_neg first, position]

theorem four_bytes (f : Nat → BitVec 8) : f 3 ++ f 2 ++ f 1 ++ f 0 = (ofBytes f : BitVec 32) := by
  apply BitVec.eq_of_getLsbD_eq
  intro j inside
  have place : 8 * (j / 8) + j % 8 = j := Nat.div_add_mod j 8
  have low : j % 8 < 8 := Nat.mod_lt _ (Nat.succ_pos 7)
  have which : j / 8 = 0 ∨ j / 8 = 1 ∨ j / 8 = 2 ∨ j / 8 = 3 := by omega
  rw [getLsbD_ofBytes f inside]
  nth_rewrite 1 [← place]
  rw [getLsbD_append_byte _ _ _ _ low, getLsbD_append_byte _ _ _ _ low,
    getLsbD_append_byte _ _ _ _ low]
  rcases which with k | k | k | k <;> simp [k]

theorem eight_bytes (f : Nat → BitVec 8) :
    f 7 ++ f 6 ++ f 5 ++ f 4 ++ f 3 ++ f 2 ++ f 1 ++ f 0 = (ofBytes f : BitVec 64) := by
  apply BitVec.eq_of_getLsbD_eq
  intro j inside
  have place : 8 * (j / 8) + j % 8 = j := Nat.div_add_mod j 8
  have low : j % 8 < 8 := Nat.mod_lt _ (Nat.succ_pos 7)
  have which : j / 8 = 0 ∨ j / 8 = 1 ∨ j / 8 = 2 ∨ j / 8 = 3 ∨ j / 8 = 4 ∨ j / 8 = 5 ∨
      j / 8 = 6 ∨ j / 8 = 7 := by omega
  rw [getLsbD_ofBytes f inside]
  nth_rewrite 1 [← place]
  rw [getLsbD_append_byte _ _ _ _ low, getLsbD_append_byte _ _ _ _ low,
    getLsbD_append_byte _ _ _ _ low, getLsbD_append_byte _ _ _ _ low,
    getLsbD_append_byte _ _ _ _ low, getLsbD_append_byte _ _ _ _ low,
    getLsbD_append_byte _ _ _ _ low]
  rcases which with k | k | k | k | k | k | k | k <;> simp [k]

theorem two_words (f : Nat → BitVec 8) :
    (ofBytes fun k => f (k + 4) : BitVec 32) ++ (ofBytes f : BitVec 32) =
      (ofBytes f : BitVec 64) := by
  apply BitVec.eq_of_getLsbD_eq
  intro j inside
  rw [BitVec.getLsbD_append, getLsbD_ofBytes f inside]
  by_cases low : j < 32
  · rw [if_pos low, getLsbD_ofBytes f low]
  · have part : j - 32 < 32 := by omega
    have index : (j - 32) / 8 + 4 = j / 8 := by omega
    have position : (j - 32) % 8 = j % 8 := by omega
    rw [if_neg low, getLsbD_ofBytes _ part, index, position]

theorem extract_low {n : Nat} (x : BitVec W) : x.extractLsb' 0 n = x.setWidth n := by
  rw [← BitVec.setWidth_ushiftRight_eq_extractLsb, BitVec.ushiftRight_zero]

theorem setWidth_zextLow {n : Nat} (x : BitVec W) (fits : n ≤ W) :
    (zextLow n x).setWidth n = x.setWidth n := by
  rw [zextLow, BitVec.setWidth_setWidth_of_le _ fits, BitVec.setWidth_eq]

theorem cpop_zextLow {n : Nat} (x : BitVec W) (fits : n ≤ W) :
    (zextLow n x).cpop = (x.setWidth n).cpop.setWidth W := by
  apply BitVec.eq_of_toNat_eq
  rw [zextLow, BitVec.toNat_cpop_setWidth_eq_of_le fits, BitVec.toNat_setWidth_of_le fits]

theorem reverse_byte (x : BitVec W) (k : Nat) {r : Nat} (inside : r < 8) :
    (byte x k).reverse.getLsbD r = x.getLsbD (8 * k + (7 - r)) := by
  have position : 8 - 1 - r = 7 - r := by omega
  have within : 7 - r < 8 := by omega
  rw [BitVec.getLsbD_reverse, BitVec.getMsbD_eq_getLsbD, getLsbD_byte, position]
  simp [inside, within]

/-! ## Bits of a word -/

/-- `x` with the bits where `mask` is set replaced by those of `f`. -/
def updateBit (x : BitVec W) (k : Nat) (f : Bool → Bool) : BitVec W :=
  BitField.pack fun j => if j.val = k then f (x.getLsbD j) else x.getLsbD j

theorem getLsbD_updateBit (x : BitVec W) (k : Nat) (f : Bool → Bool) {j : Nat} (inside : j < W) :
    (updateBit x k f).getLsbD j = if j = k then f (x.getLsbD j) else x.getLsbD j :=
  BitField.getLsbD_pack (fun j : Fin W => if j.val = k then f (x.getLsbD j) else x.getLsbD j)
    ⟨j, inside⟩

theorem clear_bit (x : BitVec W) (k : Nat) :
    x &&& ~~~BitVec.twoPow W k = updateBit x k fun _ => false := by
  apply BitVec.eq_of_getLsbD_eq
  intro j inside
  rw [getLsbD_updateBit x k _ inside, BitVec.getLsbD_and, BitVec.getLsbD_not,
    BitVec.getLsbD_twoPow]
  by_cases here : j = k
  · subst here
    simp [inside]
  · have away : ¬ k = j := fun same => here same.symm
    simp [inside, here, away]

theorem flip_bit (x : BitVec W) (k : Nat) : x ^^^ BitVec.twoPow W k = updateBit x k not := by
  apply BitVec.eq_of_getLsbD_eq
  intro j inside
  rw [getLsbD_updateBit x k _ inside, BitVec.getLsbD_xor, BitVec.getLsbD_twoPow]
  by_cases here : j = k
  · subst here
    simp [inside]
  · have away : ¬ k = j := fun same => here same.symm
    simp [here, away]

theorem set_bit (x : BitVec W) (k : Nat) :
    x ||| BitVec.twoPow W k = updateBit x k fun _ => true := by
  apply BitVec.eq_of_getLsbD_eq
  intro j inside
  rw [getLsbD_updateBit x k _ inside, BitVec.getLsbD_or, BitVec.getLsbD_twoPow]
  by_cases here : j = k
  · subst here
    simp [inside]
  · have away : ¬ k = j := fun same => here same.symm
    simp [here, away]

/-- Masking with one bit tests it. -/
theorem test_bit (x : BitVec W) (k : Nat) : (x &&& BitVec.twoPow W k != 0) = x.getLsbD k := by
  rw [BitVec.and_twoPow]
  cases set : x.getLsbD k with
  | false => simp
  | true =>
      have inside : k < W := BitVec.lt_of_getLsbD set
      have here : (BitVec.twoPow W k).getLsbD k = true := by simp [inside]
      rw [if_pos rfl, bne_iff_ne]
      intro none
      simp [none] at here

theorem setWidth_ofBool (c : Bool) : (BitVec.ofBool c).setWidth W = if c then 1 else 0 := by
  apply BitVec.eq_of_getLsbD_eq
  intro j inside
  cases c with
  | false => simp
  | true =>
      by_cases first : j = 0
      · subst first
        simp [inside]
      · simp [inside, first]

/-! ## Shifts -/

/-- Reversed, shifted right and reversed again, a word is shifted left. -/
theorem reverse_shift_reverse (x : BitVec W) (n : Nat) : (x.reverse >>> n).reverse = x <<< n := by
  apply BitVec.eq_of_getLsbD_eq
  intro j inside
  simp only [BitVec.getLsbD_reverse, BitVec.getMsbD_eq_getLsbD, BitVec.getLsbD_ushiftRight,
    BitVec.getLsbD_shiftLeft, inside, decide_true, Bool.true_and]
  by_cases low : j < n
  · have out : ¬ n + (W - 1 - j) < W := by omega
    simp [low, out]
  · have within : n + (W - 1 - j) < W := by omega
    have position : W - 1 - (n + (W - 1 - j)) = j - n := by omega
    simp [low, within, position]

theorem getLsbD_sshiftRight_cons (front : Bool) (x : BitVec W) (n j : Nat) (inside : j < W) :
    ((BitVec.ofBool front ++ x).sshiftRight n).getLsbD j =
      if n + j < W then x.getLsbD (n + j) else front := by
  have first : (BitVec.ofBool front ++ x).msb = front := by
    rw [BitVec.msb_append]
    simp
  have high : ¬ 1 + W ≤ j := by omega
  rw [BitVec.getLsbD_sshiftRight, first, BitVec.getLsbD_append]
  by_cases within : n + j < W
  · have enough : n + j < 1 + W := by omega
    simp [high, within, enough]
  · by_cases last : n + j = W
    · have enough : W < 1 + W := by omega
      simp [high, last, enough]
    · have out : ¬ n + j < 1 + W := by omega
      simp [high, within, out]

/-- With the sign bit in front, or a zero, an arithmetic shift is either. -/
theorem sshiftRight_cons (arithmetic : Bool) (x : BitVec W) (n : Nat) :
    ((BitVec.ofBool (arithmetic && x.msb) ++ x).sshiftRight n).setWidth W =
      if arithmetic then x.sshiftRight n else x >>> n := by
  apply BitVec.eq_of_getLsbD_eq
  intro j inside
  have high : ¬ W ≤ j := by omega
  rw [BitVec.getLsbD_setWidth, getLsbD_sshiftRight_cons _ x n j inside]
  cases arithmetic with
  | false =>
      rw [if_neg Bool.false_ne_true, BitVec.getLsbD_ushiftRight]
      by_cases within : n + j < W
      · simp [inside, within]
      · have out : x.getLsbD (n + j) = false := BitVec.getLsbD_of_ge x (n + j) (by omega)
        simp [inside, within, out]
  | true =>
      rw [if_pos rfl, BitVec.getLsbD_sshiftRight]
      simp [inside, high]

/-! ## Addition and comparison -/

/-- The carry of the first place adds the one of a two's complement. -/
theorem add_with_carry (negate : Bool) (x y : BitVec W) :
    ((x ++ 1#1).setWidth (W + 2) +
        ((y ++ 0#1) ^^^ if negate then BitVec.allOnes (W + 1) else 0).setWidth
          (W + 2)).extractLsb' 1 W = if negate then x - y else x + y := by
  have single : 2 ^ (W + 1) = 2 * 2 ^ W := by rw [pow_succ, Nat.mul_comm]
  have double : 2 ^ (W + 2) = 4 * 2 ^ W := by rw [pow_succ, single]; omega
  have xBound := x.isLt
  have yBound := y.isLt
  have xFront : (x ++ 1#1).toNat = 2 * x.toNat + 1 := by
    rw [BitField.toNat_append_add]
    simp [Nat.mul_comm]
  have yFront : (y ++ 0#1).toNat = 2 * y.toNat := by
    rw [BitField.toNat_append_add]
    simp [Nat.mul_comm]
  apply BitVec.eq_of_toNat_eq
  rw [BitVec.extractLsb'_toNat, Nat.shiftRight_eq_div_pow, BitVec.toNat_add,
    BitVec.toNat_setWidth_of_le (by omega), BitVec.toNat_setWidth_of_le (by omega), xFront]
  cases negate with
  | false =>
      have noCarry : 2 * x.toNat + 1 + 2 * y.toNat < 2 ^ (W + 2) := by
        rw [double]
        omega
      have plain : ((y ++ 0#1) ^^^ 0).toNat = 2 * y.toNat := by simpa using yFront
      rw [if_neg Bool.false_ne_true, if_neg Bool.false_ne_true, plain, BitVec.toNat_add,
        Nat.mod_eq_of_lt noCarry]
      congr 1
      omega
  | true =>
      have flipped : ((y ++ 0#1) ^^^ BitVec.allOnes (W + 1)).toNat =
          2 * 2 ^ W - 1 - 2 * y.toNat := by
        rw [BitVec.xor_allOnes, BitVec.toNat_not, yFront, single]
      have noCarry : 2 * x.toNat + 1 + (2 * 2 ^ W - 1 - 2 * y.toNat) < 2 ^ (W + 2) := by
        rw [double]
        omega
      rw [if_pos rfl, if_pos rfl, flipped, BitVec.toNat_sub, Nat.mod_eq_of_lt noCarry]
      congr 1
      omega

/-- With the sign bits in front, or zeros, a signed comparison is either. -/
theorem slt_cons (signed : Bool) (x y : BitVec W) :
    (BitVec.ofBool (signed && x.msb) ++ x).slt (BitVec.ofBool (signed && y.msb) ++ y) =
      if signed then x.slt y else x.ult y := by
  have xBound := x.isLt
  have yBound := y.isLt
  rw [BitVec.slt_eq_ult, BitVec.msb_append, BitVec.msb_append, BitVec.ult_eq_decide,
    BitField.toNat_append_add, BitField.toNat_append_add]
  cases signed with
  | false => simp [BitVec.ult_eq_decide]
  | true =>
      rw [if_pos rfl, BitVec.slt_eq_ult, BitVec.ult_eq_decide]
      cases xSign : x.msb <;> cases ySign : y.msb
      · simp
      · have order : x.toNat < y.toNat := by
          have xLow := BitVec.msb_eq_false_iff_two_mul_lt.mp xSign
          have yHigh := BitVec.msb_eq_true_iff_two_mul_ge.mp ySign
          omega
        have pad : x.toNat < 2 ^ W + y.toNat := by omega
        simp [order, pad]
      · have order : ¬ x.toNat < y.toNat := by
          have xHigh := BitVec.msb_eq_true_iff_two_mul_ge.mp xSign
          have yLow := BitVec.msb_eq_false_iff_two_mul_lt.mp ySign
          omega
        have pad : ¬ 2 ^ W + x.toNat < y.toNat := by omega
        simp [order, pad]
      · simp

/-! ## Rotations -/

theorem rotateLeft_eq (x : BitVec W) {n : Nat} (inside : n < W) :
    x <<< n ||| x >>> (W - n) = x.rotateLeft n := by
  rw [BitVec.rotateLeft_def, Nat.mod_eq_of_lt inside]

theorem rotateRight_eq (x : BitVec W) {n : Nat} (inside : n < W) :
    x >>> n ||| x <<< (W - n) = x.rotateRight n := by
  rw [BitVec.rotateRight_def, Nat.mod_eq_of_lt inside]

/-- The low part of a word is rotated within the word. -/
theorem rotateLeft_low {n m : Nat} (x : BitVec W) (fits : n ≤ W) (inside : m < n) :
    (zextLow n x <<< m ||| zextLow n x >>> (n - m)).setWidth n = (x.setWidth n).rotateLeft m := by
  rw [← rotateLeft_eq _ inside]
  apply BitVec.eq_of_getLsbD_eq
  intro j within
  have wide : j < W := by omega
  by_cases low : j < m
  · have back : n - m + j < n := by omega
    have room : n - m + j < W := by omega
    simp [zextLow, within, wide, low, back, room]
  · have away : ¬ n - m + j < n := by omega
    have room : j - m < W := by omega
    have here : j - m < n := by omega
    simp [zextLow, within, wide, low, away, room, here]

theorem rotateRight_low {n m : Nat} (x : BitVec W) (fits : n ≤ W) (inside : m < n) :
    (zextLow n x >>> m ||| zextLow n x <<< (n - m)).setWidth n =
      (x.setWidth n).rotateRight m := by
  rw [← rotateRight_eq _ inside]
  apply BitVec.eq_of_getLsbD_eq
  intro j within
  have wide : j < W := by omega
  by_cases low : m + j < n
  · have room : m + j < W := by omega
    have early : j < n - m := by omega
    simp [zextLow, within, wide, low, room, early]
  · have room : j - (n - m) < W := by omega
    have late : ¬ j < n - m := by omega
    have here : j - (n - m) < n := by omega
    simp [zextLow, within, wide, low, room, late, here]

end WordOps
