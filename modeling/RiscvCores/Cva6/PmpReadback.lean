import RiscvCores.Cva6.CsrPmp

/-!
# The PMP regions that software reads

`csr_regfile` stores `pmpaddr` as it was written and forces its last bit when it is read,
by the mode of the entry.  `pmp_entry` compares with the stored value.  What is read is
interpreted by the specification with grain `G = 1`: regions are multiples of 8 bytes and
the last bit of `pmpaddr` does not affect top-of-range matching.
-/

set_option autoImplicit false

namespace Cva6.CsrRegfile

open BitField
open Cva6.Pmp (PrivLvl PmpAddrMode PmpCfg pmpMatch confAddrPrev trailingOnes trailOnes
  trailOnes_spec trailOnes_eq pmpRegion shiftedAddr_toNat toNat_and_mask length_takeWhile_range)

/-! ## What is read -/

section Read

variable {cfg : CsrCfg} (s : Regs cfg) (pins : Pins cfg)

/-- `csr_rdata` of a permitted read of an address. -/
def readAt (a : BitVec 12) : BitVec cfg.xlen :=
  (csrReadCase s pins a (csrReg (convCsrAddr s a))).csrRdata

/-- The `pmpcfg` register with entry `k`; with `XLEN = 64` every second one is there. -/
def pmpcfgAddress (cfg : CsrCfg) (k : Fin 64) : BitVec 12 :=
  if cfg.isXlen64 then 0x3A0 + BitVec.ofNat 12 (k.val / 8 * 2)
  else 0x3A0 + BitVec.ofNat 12 (k.val / 4)

/-- Entry `k` as read from its `pmpcfg`. -/
def readCfg (k : Fin 64) : PmpCfg :=
  pmpcfgOfBits (field (readAt s pins (pmpcfgAddress cfg k)) (8 * (k.val % (cfg.xlen / 8))) 8)

def readAddr (k : Fin 64) : BitVec cfg.xlen := readAt s pins (0x3B0 + BitVec.ofNat 12 k.val)

/-- The region of an entry under the grain of 8 bytes, where `NA4` is not selectable. -/
def grainRegion {w : Nat} (addr prev : BitVec w) : PmpAddrMode → Nat × Nat
  | .off | .na4 => (0, 0)
  | .tor => (prev.toNat / 2 * 8, addr.toNat / 2 * 8)
  | .napot => pmpRegion addr prev .napot

/-- Software reads the region that is enforced. -/
def ReadsBack (k : Fin 64) : Prop :=
  ∀ addr : BitVec (cfg.plen - 2 + 2),
    let region := grainRegion (readAddr s pins k) (confAddrPrev (readAddr s pins) k)
      (readCfg s pins k).addrMode
    (region.1 ≤ addr.toNat ∧ addr.toNat < region.2) ↔ pmpMatch addr s.pmpaddr s.pmpcfg k = true

/-- The stored value has the last bit the read forces, where the region depends on it. -/
def Granular (k : Fin 64) : Prop :=
  let addr := s.pmpaddr k
  let prev := confAddrPrev s.pmpaddr k
  match (s.pmpcfg k).addrMode with
  | .off | .na4 => True
  | .tor => addr.toNat ≤ prev.toNat ∨ addr.getLsbD 0 = false ∧ prev.getLsbD 0 = false
  | .napot => addr.getLsbD 0 = true

end Read

/-! ## The registers -/

section Registers

variable {cfg : CsrCfg} {s : Regs cfg} {pins : Pins cfg}

theorem convertVsAccessCsr_pmp (v : Bool) (j : Fin 80) :
    csrReg (convertVsAccessCsr (0x3A0 + BitVec.ofNat 12 j.val) v) =
        (if j.val < 16 then .pmpcfg else .pmpaddr) ∧
      csrReg (0x3A0 + BitVec.ofNat 12 j.val) = if j.val < 16 then .pmpcfg else .pmpaddr := by
  revert v j
  decide +kernel

theorem csrReg_pmp (s : Regs cfg) (j : Fin 80) :
    csrReg (convCsrAddr s (0x3A0 + BitVec.ofNat 12 j.val)) =
      if j.val < 16 then .pmpcfg else .pmpaddr := by
  unfold convCsrAddr
  split
  · exact (convertVsAccessCsr_pmp s.v j).1
  · exact (convertVsAccessCsr_pmp s.v j).2

theorem pmpaddr_address (k : Fin 64) :
    (0x3B0 + BitVec.ofNat 12 k.val : BitVec 12) = 0x3A0 + BitVec.ofNat 12 (k.val + 16) ∧
      pmpaddrIndex (0x3B0 + BitVec.ofNat 12 k.val) = k.val := by
  revert k
  decide

theorem readAddr_eq (k : Fin 64) : readAddr s pins k = pmpaddrRead s k.val := by
  obtain ⟨address, index⟩ := pmpaddr_address k
  have reg := csrReg_pmp s ⟨k.val + 16, by omega⟩
  rw [← address, if_neg (by simp)] at reg
  rw [readAddr, readAt, reg]
  change pmpaddrRead s (pmpaddrIndex _) = _
  rw [index]

/-- The bit that a read forces into the last place. -/
def forcedBit (mode : PmpAddrMode) : Bool := flag (addrModeBits mode) 1

variable (s pins) in
theorem readAddr_toNat (k : Fin 64) :
    (readAddr s pins k).toNat =
      (s.pmpaddr k).toNat / 2 * 2 + (forcedBit (s.pmpcfg k).addrMode).toNat := by
  have narrow : cfg.plen - 2 ≤ cfg.xlen := by
    unfold CsrCfg.plen CsrCfg.xlen
    split <;> decide
  have wide : 0 < cfg.plen - 2 := by
    unfold CsrCfg.plen
    split <;> decide
  rw [readAddr_eq, pmpaddrRead, dif_pos k.isLt, BitVec.toNat_setWidth_of_le narrow,
    toNat_setFlag_zero _ _ wide]
  rfl

/-- The number of the `pmpcfg` register with entry `k`. -/
def pmpcfgNumber (isXlen64 : Bool) (k : Fin 64) : Nat :=
  if isXlen64 then k.val / 8 * 2 else k.val / 4

theorem pmpcfgNumber_spec (isXlen64 : Bool) (k : Fin 64) :
    pmpcfgNumber isXlen64 k < 16 ∧
      pmpcfgIndex (0x3A0 + BitVec.ofNat 12 (pmpcfgNumber isXlen64 k)) = pmpcfgNumber isXlen64 k ∧
      (isXlen64 && pmpcfgNumber isXlen64 k % 2 == 1) = false := by
  revert isXlen64 k
  decide

theorem pmpcfgAddress_eq (k : Fin 64) :
    pmpcfgAddress cfg k = 0x3A0 + BitVec.ofNat 12 (pmpcfgNumber cfg.isXlen64 k) := by
  unfold pmpcfgAddress pmpcfgNumber
  split <;> rfl

variable (cfg) in
/-- The place of an entry in its register. -/
theorem pmpcfgNumber_entry (k : Fin 64) :
    0 < cfg.xlen / 8 ∧ pmpcfgNumber cfg.isXlen64 k * 4 + k.val % (cfg.xlen / 8) = k.val ∧
      ∀ j < cfg.xlen / 8, pmpcfgNumber cfg.isXlen64 k * 4 + j < 64 := by
  have inside := k.isLt
  unfold pmpcfgNumber CsrCfg.xlen
  cases cfg.isXlen64 with
  | true =>
      refine ⟨by decide, ?_, fun j below => ?_⟩
      · change k.val / 8 * 2 * 4 + k.val % 8 = k.val
        omega
      · change j < 8 at below
        change k.val / 8 * 2 * 4 + j < 64
        omega
  | false =>
      refine ⟨by decide, ?_, fun j below => ?_⟩
      · change k.val / 4 * 4 + k.val % 4 = k.val
        omega
      · change j < 4 at below
        change k.val / 4 * 4 + j < 64
        omega

theorem pmpcfgOfBits_pmpcfgBits (c : PmpCfg) : pmpcfgOfBits (pmpcfgBits c) = c := by
  obtain ⟨locked, reserved, mode, access⟩ := c
  cases mode <;> revert locked reserved access <;> decide

/-- The configuration is read as it is stored. -/
theorem readCfg_eq (k : Fin 64) : readCfg s pins k = s.pmpcfg k := by
  obtain ⟨small, index, present⟩ := pmpcfgNumber_spec cfg.isXlen64 k
  obtain ⟨positive, entry, inside⟩ := pmpcfgNumber_entry cfg k
  have reg := csrReg_pmp s ⟨pmpcfgNumber cfg.isXlen64 k, by omega⟩
  rw [if_pos small] at reg
  have word : readAt s pins (pmpcfgAddress cfg k) =
      pmpcfgRead s (pmpcfgNumber cfg.isXlen64 k) := by
    rw [readAt, pmpcfgAddress_eq, reg]
    change (Read.when _ (pmpcfgRead s (pmpcfgIndex _))).csrRdata = _
    rw [index, present]
    rfl
  have part := field_foldl_setField
    (fun j => pmpcfgBits (s.pmpcfg (Fin.ofNat 64 (pmpcfgNumber cfg.isXlen64 k * 4 + j))))
    (fun word j =>
      if h : pmpcfgNumber cfg.isXlen64 k * 4 + j < 64 then
        setField word (8 * j) (pmpcfgBits (s.pmpcfg ⟨pmpcfgNumber cfg.isXlen64 k * 4 + j, h⟩))
      else word)
    (0 : BitVec cfg.xlen) (cfg.xlen / 8) (Nat.mul_div_le _ _)
    (fun word j below => by
      have within := inside j below
      have same : (⟨_, within⟩ : Fin 64) = Fin.ofNat 64 _ :=
        Fin.ext (Nat.mod_eq_of_lt within).symm
      rw [dif_pos within, same])
    (k.val % (cfg.xlen / 8)) (Nat.mod_lt _ positive)
  rw [readCfg, word]
  change pmpcfgOfBits (field (List.foldl _ _ _) _ 8) = _
  rw [part, entry, pmpcfgOfBits_pmpcfgBits]
  congr 1
  exact Fin.ext (Nat.mod_eq_of_lt k.isLt)

end Registers

/-! ## Regions -/

section Regions

/-- Rounding both ends of a range to eight bytes keeps it only if they were rounded. -/
theorem tor_grain_iff (prev addr bound : Nat) (inside : addr * 4 < bound) :
    (∀ a < bound, (prev / 2 * 8 ≤ a ∧ a < addr / 2 * 8) ↔ (prev * 4 ≤ a ∧ a < addr * 4)) ↔
      addr ≤ prev ∨ addr % 2 = 0 ∧ prev % 2 = 0 := by
  constructor
  · intro same
    by_contra other
    obtain ⟨below, odd⟩ := not_or.mp other
    have first := same (prev * 4) (by omega)
    have last := same (addr * 4 - 1) (by omega)
    have start := same (prev / 2 * 8) (by omega)
    omega
  · intro rounded a _
    omega

variable {w w' : Nat}

theorem trailingOnes_of_toNat (x : BitVec w) (y : BitVec w') (wider : w ≤ w')
    (same : y.toNat = x.toNat) : trailingOnes y = trailingOnes x := by
  obtain ⟨atMost, ones, stop⟩ := trailOnes_spec x
  have bits : ∀ k, y.getLsbD k = x.getLsbD k := by
    intro k
    rw [BitVec.getLsbD, BitVec.getLsbD, same]
  rw [← trailOnes_eq x]
  refine length_takeWhile_range _ w' _ (by omega) (fun k below => ?_) (fun _ => ?_)
  · rw [bits]
    exact ones k below
  · rw [bits]
    rcases Nat.lt_or_ge (trailOnes x) w with inside | beyond
    · exact stop inside
    · exact BitVec.getLsbD_of_ge x _ beyond

theorem trailingOnes_pos_iff (x : BitVec w) (wide : 0 < w) :
    0 < trailingOnes x ↔ x.getLsbD 0 = true := by
  obtain ⟨_, ones, stop⟩ := trailOnes_spec x
  rw [← trailOnes_eq]
  constructor
  · exact ones 0
  · intro odd
    by_contra none
    have zero : trailOnes x = 0 := by omega
    rw [zero, odd] at stop
    cases stop wide

/-- A block of 16 bytes or more is not a block of 8 bytes. -/
theorem block_ne (v x t bound : Nat) (inside : v * 4 < 16 * bound) :
    ¬∀ a < 16 * bound,
      (v * 4 / 2 ^ (t + 1 + 3) * 2 ^ (t + 1 + 3) ≤ a ∧
          a < v * 4 / 2 ^ (t + 1 + 3) * 2 ^ (t + 1 + 3) + 2 ^ (t + 1 + 3)) ↔
        (x * 4 / 2 ^ 3 * 2 ^ 3 ≤ a ∧ a < x * 4 / 2 ^ 3 * 2 ^ 3 + 2 ^ 3) := by
  intro same
  have size : 2 ^ (t + 1 + 3) = 16 * 2 ^ t := by
    rw [show t + 1 + 3 = 4 + t by omega, Nat.pow_add]
  have split := Nat.div_add_mod (v * 4) (16 * 2 ^ t)
  have rest := Nat.mod_lt (v * 4)
    (show 0 < 16 * 2 ^ t from Nat.mul_pos (by omega) (Nat.two_pow_pos t))
  have base : v * 4 / (16 * 2 ^ t) * (16 * 2 ^ t) = 16 * (v * 4 / (16 * 2 ^ t) * 2 ^ t) := by
    rw [Nat.mul_left_comm]
  rw [Nat.mul_comm (16 * 2 ^ t)] at split
  rw [size] at same
  -- the two halves of the 16 bytes around `v * 4`
  have low := same (v * 4 / 16 * 16) (by omega)
  have high := same (v * 4 / 16 * 16 + 8) (by omega)
  omega

/-- The block of a `NAPOT` register read with its last bit set. -/
theorem napot_grain_iff (x : BitVec w) (v : BitVec w') (wide : 2 ≤ w) (wider : w ≤ w')
    (read : v.toNat = x.toNat / 2 * 2 + 1) :
    (∀ a < 2 ^ (w + 2), ((pmpRegion v v .napot).1 ≤ a ∧ a < (pmpRegion v v .napot).2) ↔
        ((pmpRegion x x .napot).1 ≤ a ∧ a < (pmpRegion x x .napot).2)) ↔
      x.getLsbD 0 = true := by
  have bit : x.getLsbD 0 = decide (x.toNat % 2 = 1) := by
    rw [BitVec.getLsbD, Nat.testBit_zero]
  constructor
  · intro same
    by_contra even
    rw [Bool.not_eq_true] at even
    have none : trailingOnes x = 0 := by
      by_contra some
      have odd := (trailingOnes_pos_iff x (by omega)).mp (by omega)
      rw [even] at odd
      cases odd
    have odd : v.getLsbD 0 = true := by
      rw [BitVec.getLsbD, Nat.testBit_zero, read]
      simp
    obtain ⟨t, count⟩ := Nat.exists_eq_add_of_lt ((trailingOnes_pos_iff v (by omega)).mpr odd)
    rw [Nat.zero_add] at count
    obtain ⟨more, rfl⟩ := Nat.exists_eq_add_of_le wide
    have bound : 2 ^ (2 + more + 2) = 16 * 2 ^ more := by
      rw [show 2 + more + 2 = 4 + more by omega, Nat.pow_add]
    have quarter : 2 ^ (2 + more) = 4 * 2 ^ more := Nat.pow_add 2 2 more
    have inside := x.isLt
    simp only [pmpRegion, none, count, bound, Nat.zero_add] at same
    exact block_ne v.toNat x.toNat t (2 ^ more) (by omega) same
  · intro odd a _
    rw [bit, decide_eq_true_iff] at odd
    have same : v.toNat = x.toNat := by omega
    simp only [pmpRegion, trailingOnes_of_toNat x v wider same, same]

/-- Two regions agree on all addresses. -/
theorem forall_region_iff (r r' : Nat × Nat) :
    (∀ a : BitVec w, (r.1 ≤ a.toNat ∧ a.toNat < r.2) ↔ (r'.1 ≤ a.toNat ∧ a.toNat < r'.2)) ↔
      ∀ a < 2 ^ w, (r.1 ≤ a ∧ a < r.2) ↔ (r'.1 ≤ a ∧ a < r'.2) := by
  constructor
  · intro all a inside
    simpa [Nat.mod_eq_of_lt inside] using all (BitVec.ofNat w a)
  · intro all a
    exact all a.toNat a.isLt

end Regions

section Readback

variable {cfg : CsrCfg} (s : Regs cfg) (pins : Pins cfg) (k : Fin 64)

/-- The last bit of the address below is not read for a range. -/
theorem readPrev_half :
    (confAddrPrev (readAddr s pins) k).toNat / 2 = (confAddrPrev s.pmpaddr k).toNat / 2 := by
  unfold confAddrPrev
  split
  · simp
  · rw [readAddr_toNat]
    have bit := Bool.toNat_le (forcedBit (s.pmpcfg ⟨k.val - 1, by omega⟩).addrMode)
    omega

/-- What software reads describes the enforced region if and only if the last bit of the
stored value is the one that is read, or does not matter. -/
theorem readsBack_iff_granular : ReadsBack s pins k ↔ Granular s k := by
  have wide : 2 ≤ cfg.plen - 2 := by
    unfold CsrCfg.plen
    split <;> decide
  have narrow : cfg.plen - 2 ≤ cfg.xlen := by
    unfold CsrCfg.plen CsrCfg.xlen
    split <;> decide
  have own := readAddr_toNat s pins k
  unfold ReadsBack Granular
  rw [readCfg_eq]
  cases mode : (s.pmpcfg k).addrMode with
  | off => simp [grainRegion, pmpMatch, Pmp.pmpEntryMatch, mode]
  | na4 => simp [grainRegion, pmpMatch, Pmp.pmpEntryMatch, mode]
  | tor =>
      have matching := fun addr =>
        Pmp.pmpMatch_iff addr s.pmpaddr s.pmpcfg k (by rw [mode]; decide)
      have half : (readAddr s pins k).toNat / 2 = (s.pmpaddr k).toNat / 2 := by
        rw [own, mode]
        change ((s.pmpaddr k).toNat / 2 * 2 + 0) / 2 = _
        omega
      have inside := (s.pmpaddr k).isLt
      have room : 2 ^ (cfg.plen - 2 + 2) = 4 * 2 ^ (cfg.plen - 2) := by
        rw [Nat.pow_add, Nat.mul_comm]
      simp only [matching, Pmp.InRegion, mode, grainRegion, pmpRegion, half, readPrev_half]
      refine ((forall_region_iff (_, _) (_, _)).trans
        (tor_grain_iff _ _ (2 ^ (cfg.plen - 2 + 2)) (by omega))).trans ?_
      simp [BitVec.getLsbD, Nat.testBit_zero]
  | napot =>
      have matching := fun addr =>
        Pmp.pmpMatch_iff addr s.pmpaddr s.pmpcfg k (by rw [mode]; decide)
      rw [mode] at own
      simp only [matching, Pmp.InRegion, mode, grainRegion]
      rw [← napot_grain_iff (s.pmpaddr k) (readAddr s pins k) wide narrow own]
      exact forall_region_iff _ _

end Readback

/-! ## A block of eight bytes -/

/-- Entry 0 becomes `NAPOT` over `pmpaddr0 = 0`. -/
def napotInputs : List (Input cv64a6Imafdch) :=
  [{ csrOp := .csrWrite, csrAddr := 0x3A0, pins := { csrWdata := 0x18 } }]

/-- Software reads 16 bytes where 8 are enforced. -/
theorem napot_zero_misread :
    (csrMachine cv64a6Imafdch).Run
        ((csrMachine cv64a6Imafdch).cyclesOf (csrMachine cv64a6Imafdch).reset napotInputs)
        ((csrMachine cv64a6Imafdch).after (csrMachine cv64a6Imafdch).reset napotInputs) ∧
      ¬ReadsBack ((csrMachine cv64a6Imafdch).after (csrMachine cv64a6Imafdch).reset napotInputs)
        {} 0 := by
  refine ⟨(csrMachine cv64a6Imafdch).run_of_accepts napotInputs ⟨trivial, trivial⟩, fun same => ?_⟩
  have address := same 8
  revert address
  decide +kernel

end Cva6.CsrRegfile
