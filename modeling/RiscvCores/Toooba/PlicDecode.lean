import RiscvCores.Toooba.PlicMap

/-!
# Where the decoder of the interrupt controller and its map agree

The bit slices of the decoder in numbers, and the aligned offsets at which they select
the register that the map puts there.
-/

set_option autoImplicit false

namespace Toooba.Plic

variable {p : Params}

theorem mask_bit : ∀ i < 32, (0xFFFF0FFF#32).getLsbD i = (decide (i < 12) || decide (16 ≤ i)) := by
  decide

/-- The mask drops the bits 12 to 15. -/
theorem toNat_masked (x : BitVec 32) :
    (x &&& 0xFFFF0FFF#32).toNat = 2 ^ 16 * (x.toNat / 2 ^ 16) + x.toNat % 2 ^ 12 := by
  have small : x.toNat % 2 ^ 12 < 2 ^ 16 := by omega
  apply Nat.eq_of_testBit_eq
  intro i
  rw [Nat.testBit_two_pow_mul_add _ small, BitVec.toNat_and, Nat.testBit_and,
    BitVec.testBit_toNat, BitVec.testBit_toNat, Nat.testBit_mod_two_pow, Nat.testBit_div_two_pow,
    BitVec.testBit_toNat, BitVec.testBit_toNat]
  by_cases inside : i < 32
  · rw [mask_bit i inside]
    by_cases low : i < 16
    · rw [if_pos low, decide_eq_false (by omega : ¬ 16 ≤ i), Bool.or_false, Bool.and_comm]
    · rw [if_neg low, decide_eq_true (by omega : 16 ≤ i), Bool.or_true, Bool.and_true,
        Nat.sub_add_cancel (by omega)]
  · rw [if_neg (by omega), BitVec.getLsbD_of_ge x i (by omega), Bool.false_and,
      BitVec.getLsbD_of_ge x _ (by omega)]

/-- The offsets at which the code serves a register. -/
def Register.Served (o : Nat) : Register p → Prop
  | .priority source => o < 0x1000 ∧ o / 4 = source.val + 1
  | .pending word => 0x1000 ≤ o ∧ o < 0x2000 ∧ 32 * (o % 0x1000) % 1024 = 32 * word.val
  | .enable t word =>
      0x2000 ≤ o ∧ o < 0x3000 ∧ o / 0x80 % 32 = t.val ∧ 32 * (o % 0x80) % 1024 = 32 * word.val
  | .threshold t =>
      0x3000 ≤ o ∧ o % 2 ^ 32 / 0x10000 = 0x20 ∧ o % 0x1000 = 0 ∧ o / 0x1000 % 32 = t.val
  | .claim t =>
      0x3000 ≤ o ∧ o % 2 ^ 32 / 0x10000 = 0x20 ∧ o % 0x1000 = 4 ∧ o / 0x1000 % 32 = t.val

theorem masked_eq_iff (o : Addr) (c : BitVec 32) (low : Nat) (small : low < 0x1000)
    (value : c.toNat = 0x200000 + low) :
    o.extractLsb' 0 32 &&& 0xFFFF0FFF#32 = c ↔
      o.toNat % 2 ^ 32 / 0x10000 = 0x20 ∧ o.toNat % 0x1000 = low := by
  rw [← BitVec.toNat_inj, toNat_masked, value, BitVec.extractLsb'_toNat, Nat.shiftRight_zero]
  omega

theorem register_priority {x : BitVec 10} {r : Register p} :
    (Selected.priority x).register p = some r ↔ ∃ k, r = .priority k ∧ x.toNat = k.val + 1 := by
  simp only [Selected.register, Option.dite_none_right_eq_some, Option.some.injEq]
  constructor
  · rintro ⟨inRange, rfl⟩
    exact ⟨_, rfl, (Nat.sub_add_cancel inRange.1).symm⟩
  · rintro ⟨k, rfl, named⟩
    have bound := k.isLt
    exact ⟨⟨by omega, by omega⟩, by simp only [named, Nat.add_sub_cancel]⟩

theorem register_pending {base : BitVec 10} {r : Register p} (whole : 32 ∣ base.toNat) :
    (Selected.pending base).register p = some r ↔
      ∃ k, r = .pending k ∧ base.toNat = 32 * k.val := by
  simp only [Selected.register, Option.dite_none_right_eq_some, Option.some.injEq]
  constructor
  · rintro ⟨inRange, rfl⟩
    exact ⟨_, rfl, (Nat.mul_div_cancel' whole).symm⟩
  · rintro ⟨k, rfl, named⟩
    have bound : k.val < p.nExternalSources / 32 + 1 := k.isLt
    exact ⟨by omega, by simp only [named, Nat.mul_div_cancel_left _ (by decide : 0 < 32)]⟩

theorem register_enable {target : BitVec 5} {base : BitVec 10} {r : Register p}
    (whole : 32 ∣ base.toNat) :
    (Selected.enable target base).register p = some r ↔
      ∃ t k, r = .enable t k ∧ target.toNat = t.val ∧ base.toNat = 32 * k.val := by
  simp only [Selected.register, Option.dite_none_right_eq_some, Option.some.injEq]
  constructor
  · rintro ⟨inRange, rfl⟩
    exact ⟨_, _, rfl, rfl, (Nat.mul_div_cancel' whole).symm⟩
  · rintro ⟨t, k, rfl, target, named⟩
    have bound : k.val < p.nExternalSources / 32 + 1 := k.isLt
    exact ⟨⟨by omega, by omega⟩,
      by simp only [named, target, Nat.mul_div_cancel_left _ (by decide : 0 < 32)]⟩

theorem register_threshold {target : BitVec 5} {r : Register p} :
    (Selected.threshold target).register p = some r ↔
      ∃ t, r = .threshold t ∧ target.toNat = t.val := by
  simp only [Selected.register, Option.dite_none_right_eq_some, Option.some.injEq]
  constructor
  · rintro ⟨inRange, rfl⟩
    exact ⟨_, rfl, rfl⟩
  · rintro ⟨t, rfl, named⟩
    exact ⟨by omega, by simp only [named]⟩

theorem register_claim {target : BitVec 5} {r : Register p} :
    (Selected.claim target).register p = some r ↔ ∃ t, r = .claim t ∧ target.toNat = t.val := by
  simp only [Selected.register, Option.dite_none_right_eq_some, Option.some.injEq]
  constructor
  · rintro ⟨inRange, rfl⟩
    exact ⟨_, rfl, rfl⟩
  · rintro ⟨t, rfl, named⟩
    exact ⟨by omega, by simp only [named]⟩

theorem decoded_iff (o : Addr) (r : Register p) :
    decoded p o = some r ↔ r.Served o.toNat := by
  have slice (lo n : Nat) : (o.extractLsb' lo n).toNat = o.toNat / 2 ^ lo % 2 ^ n := by
    rw [BitVec.extractLsb'_toNat, Nat.shiftRight_eq_div_pow]
  have target : ((o.extractLsb' 12 9).setWidth 5 : BitVec 5).toNat = o.toNat / 0x1000 % 32 := by
    rw [BitVec.toNat_setWidth, slice]
    omega
  have whole {n : Nat} (x : BitVec n) : 32 ∣ ((x ++ 0#5).setWidth 10 : BitVec 10).toNat := by
    rw [toNat_shifted]
    omega
  unfold decoded select
  by_cases priority : o < 0x1000#64
  · have inNat : o.toNat < 0x1000 := priority
    rw [if_pos priority, Option.bind_some, register_priority, slice]
    cases r <;> simp [Register.Served] <;> omega
  rw [if_neg priority]
  have above : 0x1000 ≤ o.toNat := Nat.not_lt.mp priority
  by_cases pending : 0x1000#64 ≤ o ∧ o < 0x2000#64
  · have inNat : o.toNat < 0x2000 := pending.2
    rw [if_pos pending, Option.bind_some, register_pending (whole _), toNat_shifted, slice]
    cases r <;> simp [Register.Served] <;> omega
  rw [if_neg pending]
  have above' : 0x2000 ≤ o.toNat := Nat.not_lt.mp fun low => pending ⟨above, low⟩
  by_cases enable : 0x2000#64 ≤ o ∧ o < 0x3000#64
  · have inNat : o.toNat < 0x3000 := enable.2
    rw [if_pos enable, Option.bind_some, register_enable (whole _), toNat_shifted, slice, slice]
    cases r <;> simp [Register.Served] <;> omega
  rw [if_neg enable]
  have above'' : 0x3000 ≤ o.toNat := Nat.not_lt.mp fun low => enable ⟨above', low⟩
  have threshold_iff := masked_eq_iff o 0x00200000#32 0 (by decide) rfl
  have claim_iff := masked_eq_iff o 0x00200004#32 4 (by decide) rfl
  by_cases threshold : o.extractLsb' 0 32 &&& 0xFFFF0FFF#32 = 0x00200000#32
  · rw [if_pos threshold, Option.bind_some, register_threshold, target]
    rw [threshold_iff] at threshold
    cases r <;> simp [Register.Served] <;> omega
  rw [if_neg threshold]
  rw [threshold_iff] at threshold
  by_cases claim : o.extractLsb' 0 32 &&& 0xFFFF0FFF#32 = 0x00200004#32
  · rw [if_pos claim, Option.bind_some, register_claim, target]
    rw [claim_iff] at claim
    cases r <;> simp [Register.Served] <;> omega
  rw [if_neg claim, Option.bind_none]
  rw [claim_iff] at claim
  cases r <;> simp [Register.Served] <;> omega

/-! ## Agreement with the map -/

/-- The `k`-th word of the pending or of the enable bits is the first one, or neither the
map nor the code finds a source in it. -/
def WordDecodes (p : Params) (k : Nat) : Prop :=
  k = 0 ∨ (p.nExternalSources < 32 * k ∧ p.nExternalSources < 128 * k % 1024)

/-- The offset lies outside the registers that the code misplaces: later words of the bit
arrays, the targets from 16 on, and what lies 4 GiB or more beyond a target. -/
structure Decodes (p : Params) (o : Nat) : Prop where
  pending : 0x1000 ≤ o → o < 0x2000 → WordDecodes p ((o - 0x1000) / 4)
  enable : 0x2000 ≤ o → o < 0x3000 → (o - 0x2000) / 0x80 < p.nTargets →
    WordDecodes p (o % 0x80 / 4)
  target : 0x210000 ≤ o → o < 2 ^ 32 → o % 0x1000 ≤ 4 → p.nTargets ≤ (o - 0x200000) / 0x1000
  far : 2 ^ 32 ≤ o → o % 2 ^ 32 / 0x10000 = 0x20 → o % 0x1000 ≤ 4 →
    p.nTargets ≤ o / 0x1000 % 32

theorem Decodes.pending_iff {o : Nat} (decodes : Decodes p o) (aligned : 4 ∣ o)
    (k : Fin (words p)) : (Register.pending k).Served o ↔ o = (Register.pending k).offset := by
  have bound : k.val < p.nExternalSources / 32 + 1 := k.isLt
  have sourcesFit := p.sourcesFit
  simp only [Register.Served, Register.offset]
  constructor
  · rintro ⟨low, high, same⟩
    rcases decodes.pending low high with first | ⟨-, outside⟩ <;> omega
  · rintro rfl
    rcases decodes.pending (by omega) (by omega) with first | ⟨outside, -⟩ <;> omega

theorem Decodes.enable_iff {o : Nat} (decodes : Decodes p o) (aligned : 4 ∣ o) (t : TargetId p)
    (k : Fin (words p)) : (Register.enable t k).Served o ↔ o = (Register.enable t k).offset := by
  have bound : k.val < p.nExternalSources / 32 + 1 := k.isLt
  have bound' := t.isLt
  have sourcesFit := p.sourcesFit
  have targetsFit := p.targetsFit
  simp only [Register.Served, Register.offset]
  constructor
  · rintro ⟨low, high, target, same⟩
    rcases decodes.enable low high (by omega) with first | ⟨-, outside⟩ <;> omega
  · rintro rfl
    rcases decodes.enable (by omega) (by omega) (by omega) with first | ⟨outside, -⟩ <;> omega

/-- Where the offset of a target lies in the block from `0x200000` on. -/
theorem Decodes.target_iff {o : Nat} (decodes : Decodes p o) (t : TargetId p) {low : Nat}
    (small : low ≤ 4) :
    (0x3000 ≤ o ∧ o % 2 ^ 32 / 0x10000 = 0x20 ∧ o % 0x1000 = low ∧ o / 0x1000 % 32 = t.val) ↔
      o = 0x200000 + 0x1000 * t.val + low := by
  have bound := t.isLt
  have targetsFit := p.targetsFit
  constructor
  · rintro ⟨-, block, slot, target⟩
    by_cases inside : o < 2 ^ 32
    · omega
    · have outside := decodes.far (by omega) block (by omega)
      omega
  · intro here
    by_cases inside : o < 0x210000
    · omega
    · have outside := decodes.target (by omega) (by omega) (by omega)
      omega

theorem Decodes.served_iff {o : Nat} (decodes : Decodes p o) (aligned : 4 ∣ o)
    (r : Register p) : r.Served o ↔ o = r.offset := by
  cases r with
  | priority source =>
      have bound := source.isLt
      have sourcesFit := p.sourcesFit
      simp only [Register.Served, Register.offset]
      omega
  | pending k => exact decodes.pending_iff aligned k
  | enable t k => exact decodes.enable_iff aligned t k
  | threshold t => exact decodes.target_iff t (Nat.zero_le 4)
  | claim t => exact decodes.target_iff t (Nat.le_refl 4)

/-- A word of the bit arrays that the code misplaces: the map or the code has a word there
and not the same. -/
theorem wordDecodes_of {k : Nat}
    (map : ∀ w : Fin (words p), w.val = k → 128 * k % 1024 = 32 * w.val)
    (code : ∀ w : Fin (words p), 128 * k % 1024 = 32 * w.val → w.val = k) : WordDecodes p k := by
  by_contra misplaced
  rw [WordDecodes, not_or, not_and_or, Nat.not_lt, Nat.not_lt] at misplaced
  obtain ⟨later, inMap | inCode⟩ := misplaced
  · have here := map ⟨k, by unfold words; omega⟩ rfl
    simp only at here
    omega
  · have here := code ⟨128 * k % 1024 / 32, by unfold words; omega⟩ (by simp only; omega)
    simp only at here
    omega

/-- Everywhere else the code serves another register or none. -/
theorem decodes_of_served_iff {o : Nat} (aligned : 4 ∣ o)
    (agree : ∀ r : Register p, r.Served o ↔ o = r.offset) : Decodes p o := by
  have targetsFit := p.targetsFit
  refine ⟨fun low high => ?_, fun low high inRange => ?_, fun low high slot => ?_,
    fun low block slot => ?_⟩
  · obtain ⟨k, here⟩ : ∃ k, o = 0x1000 + 4 * k := ⟨(o - 0x1000) / 4, by omega⟩
    rw [(by omega : (o - 0x1000) / 4 = k)]
    apply wordDecodes_of
    · intro w found
      have served := (agree (.pending w)).mpr (by simp only [Register.offset]; omega)
      obtain ⟨-, -, same⟩ := served
      omega
    · intro w same
      have located := (agree (.pending w)).mp ⟨low, high, by omega⟩
      simp only [Register.offset] at located
      omega
  · obtain ⟨t, named⟩ : ∃ t : TargetId p, t.val = (o - 0x2000) / 0x80 := ⟨⟨_, inRange⟩, rfl⟩
    apply wordDecodes_of
    · intro w here
      have served := (agree (.enable t w)).mpr (by simp only [Register.offset]; omega)
      obtain ⟨-, -, -, same⟩ := served
      omega
    · intro w same
      have located := (agree (.enable t w)).mp ⟨low, high, by omega, by omega⟩
      simp only [Register.offset] at located
      omega
  · by_contra inRange
    obtain ⟨t, named⟩ : ∃ t : TargetId p, t.val = (o - 0x200000) / 0x1000 :=
      ⟨⟨_, Nat.not_le.mp inRange⟩, rfl⟩
    rcases (by omega : o % 0x1000 = 0 ∨ o % 0x1000 = 4) with slot | slot
    · have served := (agree (.threshold t)).mpr (by simp only [Register.offset]; omega)
      obtain ⟨-, block, -⟩ := served
      omega
    · have served := (agree (.claim t)).mpr (by simp only [Register.offset]; omega)
      obtain ⟨-, block, -⟩ := served
      omega
  · by_contra inRange
    obtain ⟨t, named⟩ : ∃ t : TargetId p, t.val = o / 0x1000 % 32 :=
      ⟨⟨_, Nat.not_le.mp inRange⟩, rfl⟩
    rcases (by omega : o % 0x1000 = 0 ∨ o % 0x1000 = 4) with slot | slot
    · have located := (agree (.threshold t)).mp ⟨by omega, block, slot, named.symm⟩
      simp only [Register.offset] at located
      omega
    · have located := (agree (.claim t)).mp ⟨by omega, block, slot, named.symm⟩
      simp only [Register.offset] at located
      omega

/-- The condition is exact. -/
theorem decodes_iff {o : Nat} (aligned : 4 ∣ o) :
    Decodes p o ↔ ∀ r : Register p, r.Served o ↔ o = r.offset :=
  ⟨fun decodes r => decodes.served_iff aligned r, decodes_of_served_iff aligned⟩

/-- With at most 31 sources and 16 targets the code has every register where the map has it. -/
theorem decodes_offset (fewSources : p.nExternalSources < 32) (fewTargets : p.nTargets ≤ 16)
    (r : Register p) : Decodes p r.offset := by
  have single : ∀ k : Fin (words p), k.val = 0 := by
    intro k
    have bound : k.val < p.nExternalSources / 32 + 1 := k.isLt
    omega
  cases r with
  | priority k =>
      have bound := k.isLt
      simp only [Register.offset]
      exact ⟨by omega, by omega, by omega, by omega⟩
  | pending k =>
      have first := single k
      simp only [Register.offset]
      exact ⟨fun _ _ => .inl (by omega), by omega, by omega, by omega⟩
  | enable t k =>
      have first := single k
      have bound := t.isLt
      simp only [Register.offset]
      exact ⟨by omega, fun _ _ _ => .inl (by omega), by omega, by omega⟩
  | threshold t | claim t =>
      have bound := t.isLt
      simp only [Register.offset]
      exact ⟨by omega, by omega, by omega, by omega⟩

end Toooba.Plic
