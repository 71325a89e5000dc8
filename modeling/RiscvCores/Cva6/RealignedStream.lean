import RiscvCores.Cva6.InstrRealign
import Mathlib.Data.List.Forall2

/-!
# The realigned stream is the parse of memory

Between two flushes the valid slots of `instr_realign`, in order, are the instructions of
memory from the first halfword fed on, each in the block with its last halfword.  What the
registers carry from block to block is the first half of the instruction at which the
parse of the halfwords fed so far stops.
-/

set_option autoImplicit false

namespace Cva6.Realign

open BitField HalfwordParse

variable {c : FetchWidth} {w : Nat} {mem : Nat → BitVec 16}

/-- A halfword with low bits 11 starts an instruction of four bytes. -/
def long (mem : Nat → BitVec 16) (p : Nat) : Bool := (mem p).extractLsb' 0 2 == 3#2

/-- The slot shows the instruction at a halfword. -/
structure Emits (mem : Nat → BitVec 16) (q : Nat) (lane : Lane w) : Prop where
  addr : lane.addr = BitVec.ofNat (w + 3) (2 * q)
  low : lane.instr.extractLsb' 0 16 = mem q
  high : long mem q = true → lane.instr.extractLsb' 16 16 = mem (q + 1)

/-- The registers carry what the parse up to `limit`, which stopped at `q`, left over. -/
inductive Carries (mem : Nat → BitVec 16) (s : State w) (limit q : Nat) : Prop
  | nothing (aligned : s.unaligned = false) (here : q = limit)
  | first (unaligned : s.unaligned = true) (before : q + 1 = limit) (isLong : long mem q = true)
      (instr : s.unalignedInstr = mem q)
      (address : s.unalignedAddress = BitVec.ofNat (w + 3) (2 * q))

/-- The end of the block with a halfword. -/
def blockEnd (c : FetchWidth) (p : Nat) : Nat := blockBase c p + c.halves

/-! ## Bits of a block -/

theorem half_shifted {m : Nat} (data : BitVec m) (shift i : Nat) :
    half (data >>> (16 * shift)) i = half data (shift + i) := by
  apply BitVec.eq_of_getLsbD_eq
  intro k inside
  simp [half, Nat.mul_add, Nat.add_assoc]

theorem half_fetchBlock (p i : Nat) :
    half (fetchBlock c mem p) i = if i < c.halves then mem (blockBase c p + i) else 0 := by
  apply BitVec.eq_of_getLsbD_eq
  intro k inside
  rw [half, BitVec.getLsbD_extractLsb']
  by_cases within : i < c.halves
  · have bit : 16 * i + k < 16 * c.halves := by omega
    have place : (16 * i + k) / 16 = i := by omega
    have rest : (16 * i + k) % 16 = k := by omega
    have read := getLsbD_pack
      (fun k : Fin (16 * c.halves) => (mem (blockBase c p + k.val / 16)).getLsbD (k.val % 16))
      ⟨16 * i + k, bit⟩
    rw [if_pos within, fetchBlock, read]
    simp [place, rest, inside]
  · rw [if_neg within, BitVec.getLsbD_of_ge _ (16 * i + k) (by omega)]
    simp

theorem half_icacheData {p i : Nat} (within : p % c.halves + i < c.halves) :
    half (icacheData c mem p) i = mem (p + i) := by
  have split := Nat.div_add_mod p c.halves
  rw [icacheData, half_shifted, half_fetchBlock, if_pos within, blockBase]
  congr 1
  rw [← Nat.add_assoc, Nat.mul_comm, split]

theorem isCompressed_eq {m : Nat} (data : BitVec m) (i : Nat) :
    isCompressed data i = !((half data i).extractLsb' 0 2 == 3#2) := by
  rw [isCompressed, half, extract_extract data (16 * i) 0 (by decide), Nat.add_zero]

theorem isCompressed_icacheData {p i : Nat} (within : p % c.halves + i < c.halves) :
    isCompressed (icacheData c mem p) i = !long mem (p + i) := by
  rw [isCompressed_eq, half_icacheData within, long]

theorem word_low {m : Nat} (data : BitVec m) (i : Nat) :
    (word data i).extractLsb' 0 16 = half data i :=
  extract_extract data (16 * i) 0 (by decide)

theorem word_high {m : Nat} (data : BitVec m) (i : Nat) :
    (word data i).extractLsb' 16 16 = half data (i + 1) :=
  extract_extract data (16 * i) 16 (by decide)

theorem append_low (x y : BitVec 16) : (x ++ y : BitVec 32).extractLsb' 0 16 = y :=
  extract_append_low x y

theorem append_high (x y : BitVec 16) : (x ++ y : BitVec 32).extractLsb' 16 16 = x :=
  extract_append_high x y

/-! ## Addresses -/

theorem slotAddress_eq (p : Nat) (slot : BitVec 2) :
    slotAddress (BitVec.ofNat (w + 3) (2 * p)) slot =
      BitVec.ofNat (w + 3) (2 * (p / 4 * 4 + slot.toNat)) := by
  have offset := toNat_append_add slot 0#1
  rw [slotAddress, high_append_ofNat, offset]
  congr 1
  simp
  omega

theorem slotAddress_of_offset (p : Nat) (slot : BitVec 2) (i : Nat) (sum : p % 4 + i = slot.toNat) :
    slotAddress (BitVec.ofNat (w + 3) (2 * p)) slot = BitVec.ofNat (w + 3) (2 * (p + i)) := by
  rw [slotAddress_eq]
  congr 2
  omega

theorem highAddress_eq (p : Nat) :
    ((BitVec.ofNat (w + 3) (2 * p)).extractLsb' 2 (w + 1) ++ 2#2 : BitVec (w + 1 + 2)) =
      BitVec.ofNat (w + 3) (2 * (p / 2 * 2 + 1)) := by
  have high := high_append_ofNat (w := w + 1) 2 (2 * p) 2#2
  refine high.trans ?_
  congr 1
  simp
  omega

theorem addressSlot_eq (p : Nat) :
    (BitVec.ofNat (w + 3) (2 * p)).extractLsb' 1 2 = BitVec.ofNat 2 p := by
  apply BitVec.eq_of_toNat_eq
  have wide : 2 ^ (w + 3) = 2 * (4 * 2 ^ w) := by rw [Nat.pow_add]; omega
  rw [BitVec.extractLsb'_toNat, BitVec.toNat_ofNat, BitVec.toNat_ofNat,
    Nat.shiftRight_eq_div_pow, wide, Nat.mul_mod_mul_left, Nat.pow_one,
    Nat.mul_div_cancel_left _ (by decide)]
  exact Nat.mod_mod_of_dvd p (Nat.dvd_mul_right 4 _)

theorem addressBit_eq (p : Nat) :
    (BitVec.ofNat (w + 3) (2 * p))[1] = decide (p % 2 = 1) := by
  rw [← BitVec.getLsbD_eq_getElem, BitVec.getLsbD_ofNat, show 2 * p = p * 2 ^ 1 by omega,
    Nat.testBit_mul_two_pow]
  simp

/-! ## One block -/

theorem emits_iff {q : Nat} {lane : Lane w} :
    Emits mem q lane ↔ lane.addr = BitVec.ofNat (w + 3) (2 * q) ∧
      lane.instr.extractLsb' 0 16 = mem q ∧
      (long mem q = true → lane.instr.extractLsb' 16 16 = mem (q + 1)) :=
  ⟨fun emits => ⟨emits.addr, emits.low, emits.high⟩, fun ⟨addr, low, high⟩ => ⟨addr, low, high⟩⟩

theorem carries_iff {s : State w} {limit q : Nat} :
    Carries mem s limit q ↔ s.unaligned = false ∧ q = limit ∨
      s.unaligned = true ∧ q + 1 = limit ∧ long mem q = true ∧ s.unalignedInstr = mem q ∧
        s.unalignedAddress = BitVec.ofNat (w + 3) (2 * q) := by
  constructor
  · rintro (⟨aligned, here⟩ | ⟨unaligned, before, isLong, instr, address⟩)
    · exact .inl ⟨aligned, here⟩
    · exact .inr ⟨unaligned, before, isLong, instr, address⟩
  · rintro (⟨aligned, here⟩ | ⟨unaligned, before, isLong, instr, address⟩)
    · exact .nothing aligned here
    · exact .first unaligned before isLong instr address

/-- The slots and registers are those of a parse that goes on at `q` up to `limit`. -/
structure Advances (mem : Nat → BitVec 16) (q limit : Nat) (out : List (Lane w) × State w) :
    Prop where
  lanes : List.Forall₂ (Emits mem) (starts (long mem) (limit - q) q) (out.1.filter (·.valid))
  carries : Carries mem out.2 limit (stop (long mem) (limit - q) q)

theorem Advances.of_eq {q limit n : Nat} {out : List (Lane w) × State w} (count : limit - q = n)
    (lanes : List.Forall₂ (Emits mem) (starts (long mem) n q) (out.1.filter (·.valid)))
    (carries : Carries mem out.2 limit (stop (long mem) n q)) : Advances mem q limit out := by
  subst count
  exact ⟨lanes, carries⟩

/-- The lanes of a block show memory from a halfword on. -/
def Shows {m : Nat} (mem : Nat → BitVec 16) (data : BitVec m) (p count : Nat) : Prop :=
  ∀ i < count, half data i = mem (p + i) ∧ isCompressed data i = !long mem (p + i)

section Block64

variable {s : State w} {p : Nat} {data : BitVec 64}

theorem slot_eq {k : Nat} (offset : p % 4 = k) :
    (BitVec.ofNat (w + 3) (2 * p)).extractLsb' 1 2 = BitVec.ofNat 2 k := by
  rw [addressSlot_eq, ← offset]
  apply BitVec.eq_of_toNat_eq
  simp

theorem fresh64_0 (fresh : s.unaligned = false) (offset : p % 4 = 0)
    (shows : Shows mem data p 4) :
    Advances mem p (p + 4) (realign64 s true (BitVec.ofNat (w + 3) (2 * p)) data) := by
  obtain ⟨h0, c0⟩ := shows 0 (by decide)
  obtain ⟨h1, c1⟩ := shows 1 (by decide)
  obtain ⟨h2, c2⟩ := shows 2 (by decide)
  obtain ⟨h3, c3⟩ := shows 3 (by decide)
  have slot := slot_eq (w := w) offset
  have a1 := slotAddress_of_offset (w := w) p 1#2 1 (by rw [offset]; rfl)
  have a2 := slotAddress_of_offset (w := w) p 2#2 2 (by rw [offset]; rfl)
  have a3 := slotAddress_of_offset (w := w) p 3#2 3 (by rw [offset]; rfl)
  cases l0 : long mem p <;> cases l1 : long mem (p + 1) <;> cases l2 : long mem (p + 2) <;>
    cases l3 : long mem (p + 3) <;> refine .of_eq (n := 4) (by omega) ?_ ?_ <;>
    simp [realign64, slot, fresh, c0, c1, c2, c3, l0, l1, l2, l3, starts, stop, emits_iff,
      carries_iff, word_low, word_high, append_low, h0, h1, h2, h3, a1, a2, a3]

/-- The first slot completes the instruction carried over. -/
theorem carried64 {q : Nat} (carried : s.unaligned = true) (isLong : long mem q = true)
    (instr : s.unalignedInstr = mem q)
    (address : s.unalignedAddress = BitVec.ofNat (w + 3) (2 * q)) (offset : (q + 1) % 4 = 0)
    (shows : Shows mem data (q + 1) 4) :
    Advances mem q (q + 1 + 4)
      (realign64 s true (BitVec.ofNat (w + 3) (2 * (q + 1))) data) := by
  obtain ⟨h0, c0⟩ := shows 0 (by decide)
  obtain ⟨h1, c1⟩ := shows 1 (by decide)
  obtain ⟨h2, c2⟩ := shows 2 (by decide)
  obtain ⟨h3, c3⟩ := shows 3 (by decide)
  have slot := slot_eq (w := w) offset
  have a1 := slotAddress_of_offset (w := w) (q + 1) 1#2 1 (by rw [offset]; rfl)
  have a2 := slotAddress_of_offset (w := w) (q + 1) 2#2 2 (by rw [offset]; rfl)
  have a3 := slotAddress_of_offset (w := w) (q + 1) 3#2 3 (by rw [offset]; rfl)
  cases l1 : long mem (q + 1 + 1) <;> cases l2 : long mem (q + 1 + 2) <;>
    cases l3 : long mem (q + 1 + 3) <;> refine .of_eq (n := 5) (by omega) ?_ ?_ <;>
    simp [realign64, slot, carried, isLong, instr, address, c1, c2, c3, l1, l2, l3, starts, stop,
      emits_iff, carries_iff, word_low, word_high, append_low, append_high, h0, h1, h2, h3, a1, a2,
      a3]

theorem fresh64_1 (offset : p % 4 = 1)
    (shows : Shows mem data p 3) :
    Advances mem p (p + 3) (realign64 s true (BitVec.ofNat (w + 3) (2 * p)) data) := by
  obtain ⟨h0, c0⟩ := shows 0 (by decide)
  obtain ⟨h1, c1⟩ := shows 1 (by decide)
  obtain ⟨h2, c2⟩ := shows 2 (by decide)
  have slot := slot_eq (w := w) offset
  have a0 := slotAddress_of_offset (w := w) p 1#2 0 (by rw [offset]; rfl)
  have a1 := slotAddress_of_offset (w := w) p 2#2 1 (by rw [offset]; rfl)
  have a2 := slotAddress_of_offset (w := w) p 3#2 2 (by rw [offset]; rfl)
  cases l0 : long mem p <;> cases l1 : long mem (p + 1) <;> cases l2 : long mem (p + 2) <;>
    refine .of_eq (n := 3) (by omega) ?_ ?_ <;>
    simp [realign64, slot, c0, c1, c2, l0, l1, l2, starts, stop, emits_iff, carries_iff, word_low,
      word_high, h0, h1, h2, a0, a1, a2]

theorem fresh64_2 (offset : p % 4 = 2)
    (shows : Shows mem data p 2) :
    Advances mem p (p + 2) (realign64 s true (BitVec.ofNat (w + 3) (2 * p)) data) := by
  obtain ⟨h0, c0⟩ := shows 0 (by decide)
  obtain ⟨h1, c1⟩ := shows 1 (by decide)
  have slot := slot_eq (w := w) offset
  have a0 := slotAddress_of_offset (w := w) p 2#2 0 (by rw [offset]; rfl)
  have a1 := slotAddress_of_offset (w := w) p 3#2 1 (by rw [offset]; rfl)
  cases l0 : long mem p <;> cases l1 : long mem (p + 1) <;>
    refine .of_eq (n := 2) (by omega) ?_ ?_ <;>
    simp [realign64, slot, c0, c1, l0, l1, starts, stop, emits_iff, carries_iff, word_low,
      word_high, h0, h1, a0, a1]

theorem fresh64_3 (offset : p % 4 = 3)
    (shows : Shows mem data p 1) :
    Advances mem p (p + 1) (realign64 s true (BitVec.ofNat (w + 3) (2 * p)) data) := by
  obtain ⟨h0, c0⟩ := shows 0 (by decide)
  have slot := slot_eq (w := w) offset
  have a0 := slotAddress_of_offset (w := w) p 3#2 0 (by rw [offset]; rfl)
  cases l0 : long mem p <;> refine .of_eq (n := 1) (by omega) ?_ ?_ <;>
    simp [realign64, slot, c0, l0, starts, stop, emits_iff, carries_iff, word_low, h0, a0]

end Block64

section Block32

variable {s : State w} {p : Nat} {data : BitVec 32}

theorem whole_word (data : BitVec 32) : word data 0 = data := by
  apply BitVec.eq_of_getLsbD_eq
  intro k inside
  simp [word, inside]

theorem fresh32_0 (fresh : s.unaligned = false) (offset : p % 2 = 0)
    (shows : Shows mem data p 2) :
    Advances mem p (p + 2) (realign32 s true (BitVec.ofNat (w + 3) (2 * p)) data) := by
  obtain ⟨h0, c0⟩ := shows 0 (by decide)
  obtain ⟨h1, c1⟩ := shows 1 (by decide)
  have low := word_low data 0
  have high := word_high data 0
  rw [whole_word] at low high
  have slot := addressBit_eq (w := w) p
  have a1 := highAddress_eq (w := w) p
  have base : p / 2 * 2 = p := by omega
  cases l0 : long mem p <;> cases l1 : long mem (p + 1) <;>
    refine .of_eq (n := 2) (by omega) ?_ ?_ <;>
    simp [realign32, slot, offset, fresh, c0, c1, l0, l1, starts, stop, emits_iff, carries_iff,
      low, high, append_low, h0, h1, a1, base]

theorem carried32 {q : Nat} (carried : s.unaligned = true) (isLong : long mem q = true)
    (instr : s.unalignedInstr = mem q)
    (address : s.unalignedAddress = BitVec.ofNat (w + 3) (2 * q)) (offset : (q + 1) % 2 = 0)
    (shows : Shows mem data (q + 1) 2) :
    Advances mem q (q + 1 + 2)
      (realign32 s true (BitVec.ofNat (w + 3) (2 * (q + 1))) data) := by
  obtain ⟨h0, c0⟩ := shows 0 (by decide)
  obtain ⟨h1, c1⟩ := shows 1 (by decide)
  have slot := addressBit_eq (w := w) (q + 1)
  have a1 := highAddress_eq (w := w) (q + 1)
  have base : (q + 1) / 2 * 2 = q + 1 := by omega
  cases l1 : long mem (q + 1 + 1) <;> refine .of_eq (n := 3) (by omega) ?_ ?_ <;>
    simp [realign32, slot, offset, carried, isLong, instr, address, c1, l1, starts, stop, emits_iff,
      carries_iff, append_low, append_high, h0, h1, a1, base]

theorem fresh32_1 (fresh : s.unaligned = false) (offset : p % 2 = 1)
    (shows : Shows mem data p 1) (zeros : half data 1 = 0) :
    Advances mem p (p + 1) (realign32 s true (BitVec.ofNat (w + 3) (2 * p)) data) := by
  obtain ⟨h0, c0⟩ := shows 0 (by decide)
  have c1 : isCompressed data 1 = true := by
    rw [isCompressed_eq, zeros]
    rfl
  have low := word_low data 0
  rw [whole_word] at low
  have slot := addressBit_eq (w := w) p
  have a1 := highAddress_eq (w := w) p
  have base : p / 2 * 2 + 1 = p := by omega
  cases l0 : long mem p <;> refine .of_eq (n := 1) (by omega) ?_ ?_ <;>
    simp [realign32, slot, offset, fresh, c0, c1, l0, starts, stop, emits_iff, carries_iff,
      low, h0, a1, base]

end Block32

variable (c mem) in
/-- The lanes of a block are the halfwords from the one addressed to its end. -/
theorem shows_icacheData (p : Nat) :
    Shows mem (icacheData c mem p) p (c.halves - p % c.halves) := fun i below =>
  ⟨half_icacheData (by omega), isCompressed_icacheData (by omega)⟩

/-- A block after a flush, or the one behind the last. -/
theorem realign_advances {s : State w} {p q : Nat} (carries : Carries mem s p q)
    (aligned : q ≠ p → p % c.halves = 0) :
    Advances mem q (blockEnd c p)
      (realign c s true (BitVec.ofNat (w + 3) (2 * p)) (icacheData c mem p)) := by
  have shows := shows_icacheData c mem p
  cases c with
  | w32 =>
      change Shows mem _ p (2 - p % 2) at shows
      rcases carries with ⟨fresh, rfl⟩ | ⟨carried, rfl, isLong, instr, address⟩
      · rcases Nat.mod_two_eq_zero_or_one q with offset | offset
        · rw [show blockEnd .w32 q = q + 2 by simp [blockEnd, blockBase, FetchWidth.halves]; omega]
          rw [offset] at shows
          exact fresh32_0 fresh offset shows
        · rw [show blockEnd .w32 q = q + 1 by simp [blockEnd, blockBase, FetchWidth.halves]; omega]
          rw [offset] at shows
          refine fresh32_1 fresh offset shows ?_
          have shifted := half_shifted (fetchBlock .w32 mem q) (q % 2) 1
          rw [half_fetchBlock, if_neg (by rw [offset]; decide)] at shifted
          exact shifted
      · have offset : (q + 1) % 2 = 0 := aligned (by omega)
        rw [show blockEnd .w32 (q + 1) = q + 1 + 2 by
          simp [blockEnd, blockBase, FetchWidth.halves]; omega]
        rw [offset] at shows
        exact carried32 carried isLong instr address offset shows
  | w64 =>
      change Shows mem _ p (4 - p % 4) at shows
      rcases carries with ⟨fresh, rfl⟩ | ⟨carried, rfl, isLong, instr, address⟩
      · have below := Nat.mod_lt q (show 0 < 4 by decide)
        rcases (by omega : q % 4 = 0 ∨ q % 4 = 1 ∨ q % 4 = 2 ∨ q % 4 = 3) with
          offset | offset | offset | offset
        · rw [show blockEnd .w64 q = q + 4 by simp [blockEnd, blockBase, FetchWidth.halves]; omega]
          rw [offset] at shows
          exact fresh64_0 fresh offset shows
        · rw [show blockEnd .w64 q = q + 3 by simp [blockEnd, blockBase, FetchWidth.halves]; omega]
          rw [offset] at shows
          exact fresh64_1 offset shows
        · rw [show blockEnd .w64 q = q + 2 by simp [blockEnd, blockBase, FetchWidth.halves]; omega]
          rw [offset] at shows
          exact fresh64_2 offset shows
        · rw [show blockEnd .w64 q = q + 1 by simp [blockEnd, blockBase, FetchWidth.halves]; omega]
          rw [offset] at shows
          exact fresh64_3 offset shows
      · have offset : (q + 1) % 4 = 0 := aligned (by omega)
        rw [show blockEnd .w64 (q + 1) = q + 1 + 4 by
          simp [blockEnd, blockBase, FetchWidth.halves]; omega]
        rw [offset] at shows
        exact carried64 carried isLong instr address offset shows

theorem realign32_idle (s : State w) (address : BitVec (w + 3)) (data : BitVec 32) :
    (realign32 s false address data).1.filter (·.valid) = [] := by
  simp only [realign32, Bool.false_and, Bool.false_eq_true, if_false]
  cases s.unaligned <;> cases isCompressed data 0 <;> cases isCompressed data 1 <;> rfl

theorem realign64_idle (s : State w) (address : BitVec (w + 3)) (data : BitVec 64) :
    (realign64 s false address data).1.filter (·.valid) = [] := by
  unfold realign64
  dsimp only
  split_ifs <;> rfl

/-- Without `valid_i` no slot is valid. -/
theorem realign_idle (s : State w) (address : BitVec (w + 3)) (data : BitVec (16 * c.halves)) :
    (realign c s false address data).1.filter (·.valid) = [] := by
  cases c with
  | w32 => exact realign32_idle s address data
  | w64 => exact realign64_idle s address data

/-! ## Runs -/

section Runs

variable (mem : Nat → BitVec 16) (before : List (State w × Feed c w)) (s : State w)
  (i : Feed c w)

/-- The valid slots since the last flush. -/
def emitted : List (Lane w) :=
  before.foldl (fun lanes now =>
    if now.2.flush then [] else lanes ++ validLanes mem now.1 now.2) []

/-- Where the parse starts when the block with halfword `p` is fed. -/
def startOf (p : Nat) : Nat := ((fed before).map Prod.fst).getD p

/-- The instructions parsed up to the end of the block with halfword `p`. -/
def parsed (p : Nat) : List Nat :=
  starts (long mem) (blockEnd c p - startOf before p) (startOf before p)

/-- The slots of a cycle after `before` continue the parse of memory. -/
structure Realigned : Prop where
  idle : i.block = none → validLanes mem s i = []
  /-- Everything shown since the last flush is the parse so far. -/
  stream : ∀ p ∈ i.block,
    List.Forall₂ (Emits mem) (parsed mem before p) (emitted mem before ++ validLanes mem s i)
  /-- The block shows the instructions whose last halfword it contains. -/
  own : ∀ p ∈ i.block, List.Forall₂ (Emits mem)
    ((parsed mem before p).filter fun q => blockBase c p < q + size (long mem) q)
    (validLanes mem s i)

/-- What a run has led to: nothing fed since a flush, or blocks up to `limit`. -/
inductive Phase (mem : Nat → BitVec 16) (cycles : List (State w × Feed c w)) (s : State w) : Prop
  | fresh (none : fed cycles = none) (aligned : s.unaligned = false)
      (silent : emitted mem cycles = [])
  | streaming (start limit : Nat) (range : fed cycles = some (start, limit))
      (onward : start ≤ limit) (aligned : limit % c.halves = 0)
      (carries : Carries mem s limit (stop (long mem) (limit - start) start))
      (lanes : List.Forall₂ (Emits mem) (starts (long mem) (limit - start) start)
        (emitted mem cycles))

end Runs

section Runs

variable {cycles : List (State w × Feed c w)} {s : State w} {i : Feed c w}

theorem fed_append (now : State w × Feed c w) :
    fed (cycles ++ [now]) =
      if now.2.flush then none
      else match now.2.block with
        | none => fed cycles
        | some p => some (startOf cycles p, blockEnd c p) := by
  rw [fed, List.foldl_append]
  rfl

theorem emitted_append (now : State w × Feed c w) :
    emitted mem (cycles ++ [now]) =
      if now.2.flush then [] else emitted mem cycles ++ validLanes mem now.1 now.2 := by
  simp [emitted]

variable (mem s) in
theorem validLanes_idle (idle : i.block = none) : validLanes mem s i = [] := by
  unfold validLanes comb
  rw [idle]
  exact realign_idle s _ _

/-- The block fed in a cycle advances the parse. -/
theorem Phase.advances (phase : Phase mem cycles s) (allowed : (machine mem).allowed cycles s i)
    {p : Nat} (block : i.block = some p) :
    ∃ m, startOf cycles p + m = p ∧ Carries mem s p (stop (long mem) m (startOf cycles p)) ∧
      (stop (long mem) m (startOf cycles p) ≠ p → p % c.halves = 0) ∧
      (fed cycles ≠ none → p % c.halves = 0) ∧
      List.Forall₂ (Emits mem) (starts (long mem) m (startOf cycles p)) (emitted mem cycles) := by
  rcases phase with ⟨none, aligned, silent⟩ | ⟨start, limit, range, onward, aligned, carries, lanes⟩
  · have start : startOf cycles p = p := by simp [startOf, none]
    refine ⟨0, ?_, ?_, ?_, ?_, ?_⟩
    · rw [start, Nat.add_zero]
    · rw [start]
      exact .nothing aligned rfl
    · intro other
      exact absurd start other
    · intro some
      exact absurd none some
    · rw [silent]
      exact .nil
  · have here : p = limit := allowed p block (start, limit) range
    subst here
    have same : startOf cycles p = start := by simp [startOf, range]
    rw [same]
    exact ⟨p - start, by omega, carries, fun _ => aligned, fun _ => aligned, lanes⟩

theorem blockEnd_facts (c : FetchWidth) (p : Nat) :
    p < blockEnd c p ∧ blockEnd c p % c.halves = 0 ∧
      (p % c.halves = 0 → blockBase c p = p) ∧ blockBase c p ≤ p := by
  have positive : 0 < c.halves := by cases c <;> decide
  have split := Nat.div_add_mod p c.halves
  have small := Nat.mod_lt p positive
  rw [Nat.mul_comm] at split
  unfold blockEnd blockBase
  refine ⟨by omega, ?_, fun aligned => by omega, by omega⟩
  rw [Nat.add_mod_right, Nat.mul_mod_left]

/-- A block appends to the parse what follows where it stopped. -/
theorem parsed_split {p m : Nat} (whole : startOf cycles p + m = p) :
    parsed mem cycles p = starts (long mem) m (startOf cycles p) ++
      starts (long mem) (blockEnd c p - stop (long mem) m (startOf cycles p))
        (stop (long mem) m (startOf cycles p)) := by
  have ahead := (blockEnd_facts c p).1
  have count : blockEnd c p - startOf cycles p = m + (blockEnd c p - p) := by omega
  rw [parsed, count, starts_add, show startOf cycles p + (m + (blockEnd c p - p)) = blockEnd c p by
    omega]

theorem validLanes_block {p : Nat} (block : i.block = some p) :
    validLanes mem s i =
      (realign c s true (BitVec.ofNat (w + 3) (2 * p)) (icacheData c mem p)).1.filter
        (·.valid) := by
  simp only [validLanes, comb, Feed.addressI, Feed.dataI, block, Option.isSome_some]

theorem Phase.realigned (phase : Phase mem cycles s)
    (allowed : (machine mem).allowed cycles s i) : Realigned mem cycles s i := by
  refine ⟨validLanes_idle _ _, fun p block => ?_, fun p block => ?_⟩
  · obtain ⟨m, whole, carries, aligned, _, lanes⟩ := phase.advances allowed block
    have advances := realign_advances carries aligned
    rw [parsed_split whole, validLanes_block block]
    exact List.rel_append lanes advances.lanes
  · obtain ⟨m, whole, carries, aligned, continued, _⟩ := phase.advances allowed block
    have advances := realign_advances carries aligned
    obtain ⟨_, _, base, below⟩ := blockEnd_facts c p
    have shownBefore : (starts (long mem) m (startOf cycles p)).filter
        (fun q => blockBase c p < q + size (long mem) q) = [] := by
      rw [List.filter_eq_nil_iff]
      intro q member
      have bounds := mem_starts member
      rcases h : fed cycles with _ | range
      · have start : startOf cycles p = p := by simp [startOf, h]
        rw [show m = 0 by omega] at member
        simp [starts] at member
      · have here := base (continued (by simp [h]))
        simp only [decide_eq_true_eq]
        omega
    have shownHere : ∀ q ∈ starts (long mem) (blockEnd c p - stop (long mem) m (startOf cycles p))
        (stop (long mem) m (startOf cycles p)), blockBase c p < q + size (long mem) q := by
      intro q member
      have bounds := (mem_starts member).1
      have positive : 0 < size (long mem) q := by
        unfold size
        split <;> decide
      rcases carries with ⟨_, here⟩ | ⟨_, before, isLong, _, _⟩
      · omega
      · rcases Nat.eq_or_lt_of_le bounds with same | later
        · rw [← same, size, if_pos isLong]
          omega
        · omega
    rw [parsed_split whole, List.filter_append, shownBefore, List.nil_append,
      List.filter_eq_self.mpr (fun q member => by simpa using shownHere q member),
      validLanes_block block]
    exact advances.lanes

theorem Carries.of_eq {s s' : State w} {limit q : Nat} (carries : Carries mem s limit q)
    (unaligned : s'.unaligned = s.unaligned) (instr : s'.unalignedInstr = s.unalignedInstr)
    (address : s'.unalignedAddress = s.unalignedAddress) : Carries mem s' limit q := by
  rw [carries_iff] at carries ⊢
  rwa [unaligned, instr, address]

theorem Phase.step (phase : Phase mem cycles s) (allowed : (machine mem).allowed cycles s i) :
    Phase mem (cycles ++ [(s, i)]) (next mem s i) := by
  cases flush : i.flush with
  | true =>
      refine .fresh ?_ ?_ ?_
      · simp [fed_append, flush]
      · simp [next, flush]
      · simp [emitted_append, flush]
  | false =>
      cases block : i.block with
      | none =>
          have silent := validLanes_idle mem s block
          rcases phase with ⟨none, aligned, empty⟩ |
            ⟨start, limit, range, onward, aligned, carries, lanes⟩
          · refine .fresh ?_ ?_ ?_
            · simp [fed_append, flush, block, none]
            · simp [next, flush, block, aligned]
            · simp [emitted_append, flush, empty, silent]
          · refine .streaming start limit ?_ onward aligned ?_ ?_
            · simp [fed_append, flush, block, range]
            · exact carries.of_eq (by simp [next, flush, block]) (by simp [next, block])
                (by simp [next, block])
            · simpa [emitted_append, flush, silent] using lanes
      | some p =>
          have stream := (phase.realigned allowed).stream p block
          obtain ⟨m, whole, carries, aligned, _, _⟩ := phase.advances allowed block
          have advances := realign_advances carries aligned
          obtain ⟨ahead, multiple, _, _⟩ := blockEnd_facts c p
          have regs : (comb mem s i).2 =
              (realign c s true (BitVec.ofNat (w + 3) (2 * p)) (icacheData c mem p)).2 := by
            simp only [comb, Feed.addressI, Feed.dataI, block, Option.isSome_some]
          have stopped : stop (long mem) (blockEnd c p - startOf cycles p) (startOf cycles p) =
              stop (long mem) (blockEnd c p - stop (long mem) m (startOf cycles p))
                (stop (long mem) m (startOf cycles p)) := by
            have count : blockEnd c p - startOf cycles p = m + (blockEnd c p - p) := by omega
            rw [count, stop_add,
              show startOf cycles p + (m + (blockEnd c p - p)) = blockEnd c p by omega]
          refine .streaming (startOf cycles p) (blockEnd c p) ?_ (by omega) multiple ?_ ?_
          · simp [fed_append, flush, block]
          · rw [stopped]
            exact advances.carries.of_eq (by simp [next, flush, block, regs])
              (by simp [next, block, regs]) (by simp [next, block, regs])
          · simpa [emitted_append, flush, parsed] using stream

theorem phase_of_run (run : (machine mem).Run cycles s) : Phase mem cycles s := by
  induction run with
  | reset => exact .fresh rfl rfl rfl
  | cycle _ allowed ih => exact ih.step allowed

/-- In every cycle of a run the valid slots go on with the parse of memory from the first
halfword fed since the last flush. -/
theorem stream_is_parse (run : (machine mem).Run cycles s)
    (allowed : (machine mem).allowed cycles s i) : Realigned mem cycles s i :=
  (phase_of_run run).realigned allowed

end Runs

/-- Every halfword starts an instruction of four bytes. -/
private def longHalves (_ : Nat) : BitVec 16 := 3

private def feedBlock (p : Nat) : Feed .w64 61 where
  flush := false
  block := some p
  address := 0
  data := 0

/-- A start at halfword 1, and the instruction from halfword 3 in the second block. -/
theorem stream_is_parse_twoBlocks :
    let m : Clocked.Machine (State 61) (Feed .w64 61) := machine longHalves
    Realigned longHalves (m.cyclesOf m.reset [feedBlock 1]) (m.after m.reset [feedBlock 1])
      (feedBlock 4) := by
  intro m
  have first : m.Accepts [] m.reset [feedBlock 1] := by
    refine ⟨fun p _ range nothing => ?_, trivial⟩
    simp [fed] at nothing
  refine stream_is_parse (Clocked.Machine.run_of_accepts _ first) ?_
  intro p block range fed
  cases block
  cases fed
  rfl

end Cva6.Realign
