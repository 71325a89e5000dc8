import Mathlib.Algebra.GroupWithZero.Nat
import Mathlib.Tactic.Common

/-!
# Fields of a bit vector

A packed record is a bit vector whose fields are runs of bits.  A field is read
with `field` and written with `setField`; a masked write takes the bits of the
mask from the new value and keeps the others.
-/

set_option autoImplicit false

namespace BitField

variable {n w w' : Nat}

/-- The `w` bits from position `lo` on. -/
def field (x : BitVec n) (lo w : Nat) : BitVec w := x.extractLsb' lo w

/-- The bits of a field. -/
def fieldMask (n lo w : Nat) : BitVec n := (BitVec.allOnes w).setWidth n <<< lo

/-- `x` with the bits from `lo` on replaced by `v`. -/
def setField (x : BitVec n) (lo : Nat) (v : BitVec w) : BitVec n :=
  (x &&& ~~~fieldMask n lo w) ||| (v.setWidth n <<< lo)

/-- A field of one bit. -/
def flag (x : BitVec n) (pos : Nat) : Bool := x.getLsbD pos

/-- `x` with one bit replaced. -/
def setFlag (x : BitVec n) (pos : Nat) (b : Bool) : BitVec n :=
  setField x pos (BitVec.ofBool b)

/-- The bit vector whose bit `k` is `f k`. -/
def pack (f : Fin n → Bool) : BitVec n :=
  (BitVec.ofBoolListLE (List.ofFn f)).cast List.length_ofFn

/-- `x` with the bits of `mask` taken from `y`. -/
def maskedWrite (x y mask : BitVec n) : BitVec n := (x &&& ~~~mask) ||| (y &&& mask)

theorem toNat_append_add {m n : Nat} (x : BitVec m) (y : BitVec n) :
    (x ++ y).toNat = x.toNat * 2 ^ n + y.toNat := by
  rw [BitVec.toNat_append, ← Nat.shiftLeft_add_eq_or_of_lt y.isLt, Nat.shiftLeft_eq]

/-- A part of a part. -/
theorem extract_extract {m : Nat} (x : BitVec m) (lo lo' : Nat) (fits : lo' + w ≤ n) :
    (x.extractLsb' lo n).extractLsb' lo' w = x.extractLsb' (lo + lo') w := by
  apply BitVec.eq_of_getLsbD_eq
  intro k inside
  have within : lo' + k < n := by omega
  simp only [BitVec.getLsbD_extractLsb', inside, within, decide_true, Bool.true_and,
    Nat.add_assoc]

theorem extract_append_low {m : Nat} (x : BitVec m) (y : BitVec n) :
    (x ++ y).extractLsb' 0 n = y := by
  apply BitVec.eq_of_getLsbD_eq
  intro k inside
  simp only [BitVec.getLsbD_extractLsb', BitVec.getLsbD_append, inside, decide_true,
    Bool.true_and, Nat.zero_add, if_true]

theorem extract_append_high {m : Nat} (x : BitVec m) (y : BitVec n) :
    (x ++ y).extractLsb' n m = x := by
  apply BitVec.eq_of_getLsbD_eq
  intro k inside
  have above : ¬n + k < n := by omega
  simp only [BitVec.getLsbD_extractLsb', BitVec.getLsbD_append, inside, decide_true,
    Bool.true_and, above, if_false, Nat.add_sub_cancel_left]

/-- A word with its low bits replaced. -/
theorem high_append_ofNat (k x : Nat) (low : BitVec k) :
    (BitVec.ofNat (w + k) x).extractLsb' k w ++ low =
      BitVec.ofNat (w + k) (x / 2 ^ k * 2 ^ k + low.toNat) := by
  apply BitVec.eq_of_toNat_eq
  have small := low.isLt
  have positive : 0 < 2 ^ w := Nat.two_pow_pos w
  have whole : x / 2 ^ k * 2 ^ k + low.toNat =
      x / 2 ^ k % 2 ^ w * 2 ^ k + low.toNat + x / 2 ^ k / 2 ^ w * (2 ^ w * 2 ^ k) := by
    have split := Nat.mod_add_div (x / 2 ^ k) (2 ^ w)
    calc x / 2 ^ k * 2 ^ k + low.toNat
        = (x / 2 ^ k % 2 ^ w + 2 ^ w * (x / 2 ^ k / 2 ^ w)) * 2 ^ k + low.toNat := by rw [split]
      _ = x / 2 ^ k % 2 ^ w * 2 ^ k + low.toNat + x / 2 ^ k / 2 ^ w * (2 ^ w * 2 ^ k) := by
          rw [Nat.add_mul, Nat.mul_comm (2 ^ w), Nat.mul_assoc]
          omega
  have inside : x / 2 ^ k % 2 ^ w * 2 ^ k + low.toNat < 2 ^ w * 2 ^ k := by
    have below : x / 2 ^ k % 2 ^ w + 1 ≤ 2 ^ w := Nat.mod_lt _ positive
    calc x / 2 ^ k % 2 ^ w * 2 ^ k + low.toNat
        < (x / 2 ^ k % 2 ^ w + 1) * 2 ^ k := by
          rw [Nat.add_mul]
          omega
      _ ≤ 2 ^ w * 2 ^ k := Nat.mul_le_mul_right _ below
  rw [toNat_append_add, BitVec.extractLsb'_toNat, BitVec.toNat_ofNat, BitVec.toNat_ofNat,
    Nat.shiftRight_eq_div_pow, Nat.pow_add, Nat.mod_mul_left_div_self, Nat.mod_mod, whole,
    Nat.add_mul_mod_self_right, Nat.mod_eq_of_lt inside]

theorem getLsbD_pack (f : Fin n → Bool) (k : Fin n) : (pack f).getLsbD k = f k := by
  rw [pack, BitVec.getLsbD_cast, BitVec.getLsbD_ofBoolListLE, List.getD_eq_getElem?_getD,
    List.getElem?_ofFn, dif_pos k.isLt]
  rfl

theorem getLsbD_field (x : BitVec n) (lo w i : Nat) :
    (field x lo w).getLsbD i = (decide (i < w) && x.getLsbD (lo + i)) := by
  rw [field, BitVec.getLsbD_extractLsb']

theorem toNat_field (x : BitVec n) (lo w : Nat) :
    (field x lo w).toNat = x.toNat / 2 ^ lo % 2 ^ w := by
  rw [field, BitVec.extractLsb'_toNat, Nat.shiftRight_eq_div_pow]

theorem field_beq (x : BitVec n) (lo k : Nat) (small : k < 2 ^ w) :
    (field x lo w == BitVec.ofNat w k) = decide (x.toNat / 2 ^ lo % 2 ^ w = k) := by
  rw [Bool.eq_iff_iff, beq_iff_eq, decide_eq_true_iff, ← BitVec.toNat_inj, toNat_field,
    BitVec.toNat_ofNat, Nat.mod_eq_of_lt small]

theorem getLsbD_setField_inside (x : BitVec n) (lo : Nat) (v : BitVec w) (i : Nat)
    (inside : i < w) (fits : lo + w ≤ n) :
    (setField x lo v).getLsbD (lo + i) = v.getLsbD i := by
  have bound : lo + i < n := by omega
  simp only [setField, fieldMask, BitVec.getLsbD_or, BitVec.getLsbD_and, BitVec.getLsbD_not,
    BitVec.getLsbD_shiftLeft, BitVec.getLsbD_setWidth, BitVec.getLsbD_allOnes]
  have position : lo + i - lo = i := by omega
  have notBelow : ¬ lo + i < lo := by omega
  have small : i < n := by omega
  simp [bound, position, notBelow, inside, small]

theorem getLsbD_setField_outside (x : BitVec n) (lo : Nat) (v : BitVec w) (i : Nat)
    (outside : i < lo ∨ lo + w ≤ i) : (setField x lo v).getLsbD i = x.getLsbD i := by
  by_cases bound : i < n
  · simp only [setField, fieldMask, BitVec.getLsbD_or, BitVec.getLsbD_and, BitVec.getLsbD_not,
      BitVec.getLsbD_shiftLeft, BitVec.getLsbD_setWidth, BitVec.getLsbD_allOnes]
    rcases outside with below | above
    · simp [bound, below]
    · have beyond : ¬ i - lo < w := by omega
      simp [beyond, bound, BitVec.getLsbD_of_ge v (i - lo) (by omega)]
  · rw [BitVec.getLsbD_of_ge _ _ (by omega), BitVec.getLsbD_of_ge _ _ (by omega)]

/-- A written field reads back. -/
@[simp]
theorem field_setField_same (x : BitVec n) (lo : Nat) (v : BitVec w) (fits : lo + w ≤ n) :
    field (setField x lo v) lo w = v := by
  apply BitVec.eq_of_getLsbD_eq
  intro i bound
  rw [getLsbD_field, getLsbD_setField_inside x lo v i bound fits]
  simp [bound]

/-- Writing a field keeps the fields beside it. -/
theorem field_setField_disjoint (x : BitVec n) (lo lo' : Nat) (v : BitVec w)
    (apart : lo' + w' ≤ lo ∨ lo + w ≤ lo') :
    field (setField x lo v) lo' w' = field x lo' w' := by
  apply BitVec.eq_of_getLsbD_eq
  intro i bound
  rw [getLsbD_field, getLsbD_field, getLsbD_setField_outside x lo v _ (by omega)]

theorem flag_setField_outside (x : BitVec n) (lo pos : Nat) (v : BitVec w)
    (outside : pos < lo ∨ lo + w ≤ pos) : flag (setField x lo v) pos = flag x pos :=
  getLsbD_setField_outside x lo v pos outside

theorem flag_setFlag_same (x : BitVec n) (pos : Nat) (b : Bool) (inside : pos < n) :
    flag (setFlag x pos b) pos = b := by
  have bit := getLsbD_setField_inside x pos (BitVec.ofBool b) 0 Nat.one_pos inside
  cases b <;> exact bit

theorem flag_setFlag_other (x : BitVec n) (pos pos' : Nat) (b : Bool) (other : pos' ≠ pos) :
    flag (setFlag x pos b) pos' = flag x pos' :=
  flag_setField_outside x pos pos' (BitVec.ofBool b) (by omega)

theorem field_setFlag_disjoint (x : BitVec n) (lo pos : Nat) (b : Bool)
    (apart : lo + w ≤ pos ∨ pos + 1 ≤ lo) :
    field (setFlag x pos b) lo w = field x lo w :=
  field_setField_disjoint x pos lo (BitVec.ofBool b) apart

/-- Writing the last bit. -/
theorem toNat_setFlag_zero (x : BitVec n) (b : Bool) (wide : 0 < n) :
    (setFlag x 0 b).toNat = x.toNat / 2 * 2 + b.toNat := by
  have bit : (setFlag x 0 b).toNat % 2 = b.toNat := by
    have last : (setFlag x 0 b).toNat.testBit 0 = b := flag_setFlag_same x 0 b wide
    rw [Nat.testBit_zero] at last
    cases b
    · simpa using last
    · simpa using last
  have rest : (setFlag x 0 b).toNat / 2 = x.toNat / 2 := by
    have kept := congrArg BitVec.toNat
      (field_setFlag_disjoint x 1 0 b (.inr (Nat.le_refl 1)) : field _ 1 (n - 1) = _)
    have half : 2 ^ n = 2 * 2 ^ (n - 1) := by
      rw [← Nat.pow_succ', Nat.succ_eq_add_one, Nat.sub_add_cancel wide]
    have new := (setFlag x 0 b).isLt
    have old := x.isLt
    rwa [toNat_field, toNat_field, Nat.pow_one, Nat.mod_eq_of_lt (by omega),
      Nat.mod_eq_of_lt (by omega)] at kept
  omega

/-- A word assembled field by field contains each of them. -/
theorem field_foldl_setField (part : Nat → BitVec w) (step : BitVec n → Nat → BitVec n)
    (x : BitVec n) (count : Nat) (fits : w * count ≤ n)
    (each : ∀ word k, k < count → step word k = setField word (w * k) (part k)) (j : Nat)
    (inside : j < count) :
    field ((List.range count).foldl step x) (w * j) w = part j := by
  induction count with
  | zero => exact absurd inside (Nat.not_lt_zero j)
  | succ count ih =>
      rw [List.range_succ, List.foldl_append, List.foldl_cons, List.foldl_nil,
        each _ count (Nat.lt_succ_self count)]
      have room : w * count + w ≤ n := by rwa [Nat.mul_succ] at fits
      rcases Nat.lt_succ_iff_lt_or_eq.mp inside with earlier | rfl
      · have apart : w * j + w ≤ w * count := by
          rw [← Nat.mul_succ]
          exact Nat.mul_le_mul_left w earlier
        rw [field_setField_disjoint _ _ _ _ (.inl apart)]
        exact ih (by omega) (fun word k below => each word k (by omega)) earlier
      · exact field_setField_same _ _ _ room

/-- Writing a field adds it to what is left. -/
theorem setField_eq_add (x : BitVec n) (lo : Nat) (v : BitVec w) :
    setField x lo v = (x &&& ~~~fieldMask n lo w) + v.setWidth n <<< lo := by
  rw [setField, BitVec.add_eq_or_of_and_eq_zero]
  apply BitVec.eq_of_getLsbD_eq
  intro i bound
  simp only [fieldMask, BitVec.getLsbD_and, BitVec.getLsbD_not, BitVec.getLsbD_shiftLeft,
    BitVec.getLsbD_setWidth, BitVec.getLsbD_allOnes, BitVec.getLsbD_zero]
  by_cases inside : i - lo < w
  · simp [inside, bound]
    omega
  · rw [BitVec.getLsbD_of_ge v (i - lo) (by omega)]
    simp

/-- Writing a field is an addition exactly where the field was zero. -/
theorem setField_eq_add_iff (x : BitVec n) (lo : Nat) (v : BitVec w) (fits : lo + w ≤ n) :
    setField x lo v = x + v.setWidth n <<< lo ↔ field x lo w = 0 := by
  have kept : setField x lo (field x lo w) = x := by
    apply BitVec.eq_of_getLsbD_eq
    intro i bound
    by_cases inside : lo ≤ i ∧ i < lo + w
    · obtain ⟨k, rfl⟩ := Nat.exists_eq_add_of_le inside.1
      rw [getLsbD_setField_inside x lo _ k (by omega) fits, getLsbD_field]
      simp
      omega
    · exact getLsbD_setField_outside x lo _ i (by omega)
  rw [setField_eq_add] at kept ⊢
  have moved : x &&& ~~~fieldMask n lo w = x ↔ (field x lo w).setWidth n <<< lo = 0 := by
    generalize x &&& ~~~fieldMask n lo w = rest, (field x lo w).setWidth n <<< lo = old at kept
    rw [← kept, BitVec.self_eq_add_right]
    exact Iff.rfl
  rw [BitVec.add_left_inj, moved]
  constructor
  · intro none
    apply BitVec.eq_of_getLsbD_eq
    intro i bound
    have bit : ((field x lo w).setWidth n <<< lo).getLsbD (lo + i) = false := by
      rw [none]
      exact BitVec.getLsbD_zero
    rw [BitVec.getLsbD_shiftLeft, BitVec.getLsbD_setWidth, Nat.add_sub_cancel_left] at bit
    have inside : lo + i < n := by omega
    have low : i < n := by omega
    simpa [inside, low] using bit
  · intro zero
    rw [zero]
    simp

/-- A masked write keeps a field that the mask leaves out. -/
theorem field_maskedWrite (x y mask : BitVec n) (lo : Nat) (out : field mask lo w = 0) :
    field (maskedWrite x y mask) lo w = field x lo w := by
  apply BitVec.eq_of_getLsbD_eq
  intro i bound
  have clear : mask.getLsbD (lo + i) = false := by
    have bit : (field mask lo w).getLsbD i = false := by simp [out]
    rw [getLsbD_field] at bit
    simpa [bound] using bit
  rw [getLsbD_field, getLsbD_field, maskedWrite, BitVec.getLsbD_or, BitVec.getLsbD_and,
    BitVec.getLsbD_and, BitVec.getLsbD_not, clear]
  by_cases inRange : lo + i < n
  · simp [inRange]
  · simp [BitVec.getLsbD_of_ge x (lo + i) (by omega)]

theorem flag_maskedWrite (x y mask : BitVec n) (pos : Nat) (out : flag mask pos = false) :
    flag (maskedWrite x y mask) pos = flag x pos := by
  have clear : mask.getLsbD pos = false := out
  by_cases inside : pos < n
  · rw [flag, maskedWrite, BitVec.getLsbD_or, BitVec.getLsbD_and, BitVec.getLsbD_and,
      BitVec.getLsbD_not, clear]
    simp [flag, inside]
  · rw [flag, flag, BitVec.getLsbD_of_ge _ pos (by omega), BitVec.getLsbD_of_ge _ pos (by omega)]

end BitField
