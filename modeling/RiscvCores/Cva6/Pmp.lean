import Mathlib.Algebra.Order.Ring.Nat
import Mathlib.Tactic.Common
import RiscvCores.CommonCells.Lzc

/-!
# Physical memory protection: `pmp` and `pmp_entry`

The model follows the two modules for `PLEN = width + 2`, so that a `pmpaddr`
register is a `BitVec width`.  The rule of the privileged specification is
stated over natural-number address ranges, without masks or shifts.
-/

set_option autoImplicit false

namespace Cva6.Pmp

open CommonCells

/-- `riscv::priv_lvl_t`. -/
inductive PrivLvl where
  | m | hs | s | u
  deriving DecidableEq, Repr

/-- `riscv::pmp_addr_mode_t`. -/
inductive PmpAddrMode where
  | off | tor | na4 | napot
  deriving DecidableEq, Repr

/-- `riscv::pmpcfg_t`, with the access bits in the order `x`, `w`, `r`. -/
structure PmpCfg where
  locked : Bool
  reserved : BitVec 2 := 0
  addrMode : PmpAddrMode
  accessType : BitVec 3
  deriving DecidableEq, Repr

section Model

variable {width n : Nat}

/-! ## `pmp_entry` -/

/-- `conf_addr_n = {2'b11, ~conf_addr_i}`, as the input of the `lzc`. -/
def confAddrN (confAddr : BitVec width) : BitVec (2 + width) :=
  3#2 ++ ~~~confAddr

/-- `trail_ones`. -/
def trailOnes (confAddr : BitVec width) : Nat :=
  lzcCnt (width + 2) (confAddrN confAddr).getLsbD

/-- `{2'b0, conf_addr_i} << 2`. -/
def shiftedAddr (confAddr : BitVec width) : BitVec (width + 2) :=
  confAddr.setWidth (width + 2) <<< 2

/-- `match_o` of `pmp_entry`. -/
def pmpEntryMatch (addr : BitVec (width + 2)) (confAddr confAddrPrev : BitVec width)
    (mode : PmpAddrMode) : Bool :=
  match mode with
  | .tor =>
      decide (shiftedAddr confAddrPrev ≤ addr) && decide (addr < shiftedAddr confAddr)
  | .napot =>
      let size := trailOnes confAddr + 3
      let mask := BitVec.allOnes (width + 2) <<< size
      let base := shiftedAddr confAddr &&& mask
      addr &&& mask == base
  | .off => false
  | .na4 => false

/-! ## `pmp` -/

/-- `conf_addr_prev`. -/
def confAddrPrev (confAddr : Fin n → BitVec width) (i : Fin n) : BitVec width :=
  if i.val = 0 then 0 else confAddr ⟨i.val - 1, by omega⟩

/-- The wire `match[i]`. -/
def pmpMatch (addr : BitVec (width + 2)) (confAddr : Fin n → BitVec width)
    (conf : Fin n → PmpCfg) (i : Fin n) : Bool :=
  pmpEntryMatch addr (confAddr i) (confAddrPrev confAddr i) (conf i).addrMode

/-- All requested permission bits are set. -/
def permits (accessType : BitVec 3) (cfg : PmpCfg) : Bool :=
  accessType &&& cfg.accessType == accessType

/-- The priority loop of `pmp`; `none` when it runs off the end. -/
def pmpScan (priv : PrivLvl) (accessType : BitVec 3) (conf : Fin n → PmpCfg)
    (hit : Fin n → Bool) : List (Fin n) → Option Bool
  | [] => none
  | i :: rest =>
      if priv ≠ .m ∨ (conf i).locked = true then
        if hit i then some (permits accessType (conf i))
        else pmpScan priv accessType conf hit rest
      else pmpScan priv accessType conf hit rest

/-- `allow_o`. -/
def pmpAllow (addr : BitVec (width + 2)) (accessType : BitVec 3) (priv : PrivLvl)
    (confAddr : Fin n → BitVec width) (conf : Fin n → PmpCfg) : Bool :=
  if 0 < n then
    match pmpScan priv accessType conf (pmpMatch addr confAddr conf) (List.finRange n) with
    | some allow => allow
    | none => priv == .m
  else true

end Model

/-! ## The rule of the privileged specification -/

section Specification

variable {width n : Nat}

/-- The number of trailing ones of a `pmpaddr` register. -/
def trailingOnes (confAddr : BitVec width) : Nat :=
  ((List.range width).takeWhile fun k => confAddr.getLsbD k).length

/-- The byte addresses an entry covers, as a half-open interval. -/
def pmpRegion (confAddr confAddrPrev : BitVec width) : PmpAddrMode → Nat × Nat
  | .off => (0, 0)
  | .tor => (confAddrPrev.toNat * 4, confAddr.toNat * 4)
  | .na4 => (confAddr.toNat * 4, confAddr.toNat * 4 + 4)
  | .napot =>
      let size := 2 ^ (trailingOnes confAddr + 3)
      let base := confAddr.toNat * 4 / size * size
      (base, base + size)

/-- Entry `i` matches `addr`. -/
def InRegion (addr : BitVec (width + 2)) (confAddr : Fin n → BitVec width)
    (conf : Fin n → PmpCfg) (i : Fin n) : Prop :=
  let region := pmpRegion (confAddr i) (confAddrPrev confAddr i) (conf i).addrMode
  region.1 ≤ addr.toNat ∧ addr.toNat < region.2

instance (addr : BitVec (width + 2)) (confAddr : Fin n → BitVec width)
    (conf : Fin n → PmpCfg) (i : Fin n) : Decidable (InRegion addr confAddr conf i) :=
  inferInstanceAs (Decidable (_ ∧ _))

/-- The lowest-numbered entry that satisfies `p`. -/
def lowest (p : Fin n → Bool) : Option (Fin n) := (List.finRange n).find? p

/-- The lowest-numbered matching entry decides; without one only M-mode
accesses succeed. -/
def specAllow (addr : BitVec (width + 2)) (accessType : BitVec 3) (priv : PrivLvl)
    (confAddr : Fin n → BitVec width) (conf : Fin n → PmpCfg) : Bool :=
  match lowest fun i => decide (InRegion addr confAddr conf i) with
  | some i =>
      if priv ≠ .m ∨ (conf i).locked = true then permits accessType (conf i) else true
  | none => priv == .m

end Specification

/-! ## Address matching -/

section Matching

variable {width n : Nat}

theorem confAddrN_getLsbD (confAddr : BitVec width) (k : Nat) :
    (confAddrN confAddr).getLsbD k =
      if k < width then !confAddr.getLsbD k else decide (k < width + 2) := by
  by_cases low : k < width
  · simp [confAddrN, BitVec.getLsbD_append, low]
  · rw [confAddrN, BitVec.getLsbD_append, if_neg low, if_neg low]
    by_cases inside : k < width + 2
    · rcases (by omega : k - width = 0 ∨ k - width = 1) with bit | bit <;>
        simp [bit, inside]
    · simp [BitVec.getLsbD_of_ge (3#2) (k - width) (by omega), inside]

/-- The two ones above the inverted register stop the count at `width`. -/
theorem trailOnes_spec (confAddr : BitVec width) :
    trailOnes confAddr ≤ width ∧
      (∀ k, k < trailOnes confAddr → confAddr.getLsbD k = true) ∧
      (trailOnes confAddr < width → confAddr.getLsbD (trailOnes confAddr) = false) := by
  have top : (confAddrN confAddr).getLsbD width = true := by
    simp [confAddrN_getLsbD]
  obtain ⟨_, set, least⟩ :=
    lzcCnt_of_set (width + 2) (confAddrN confAddr).getLsbD width (by omega) top
  have atMost : trailOnes confAddr ≤ width := by
    by_contra beyond
    have clear := least width (Nat.lt_of_not_le beyond)
    rw [top] at clear
    cases clear
  refine ⟨atMost, ?_, ?_⟩
  · intro k below
    have clear := least k below
    rw [confAddrN_getLsbD, if_pos (by omega)] at clear
    simpa using clear
  · intro inside
    have found : (confAddrN confAddr).getLsbD (trailOnes confAddr) = true := set
    rw [confAddrN_getLsbD, if_pos inside] at found
    simpa using found

theorem length_takeWhile_range (p : Nat → Bool) (bound count : Nat)
    (atMost : count ≤ bound) (ones : ∀ k, k < count → p k = true)
    (stop : count < bound → p count = false) :
    ((List.range bound).takeWhile p).length = count := by
  obtain ⟨rest, rfl⟩ := Nat.exists_eq_add_of_le atMost
  rw [List.range_add, List.takeWhile_append_of_pos (by simpa using ones)]
  cases rest with
  | zero => simp
  | succ rest =>
      have first : p count = false := stop (by omega)
      rw [List.range_succ_eq_map]
      simp [first]

theorem trailOnes_eq (confAddr : BitVec width) :
    trailOnes confAddr = trailingOnes confAddr := by
  obtain ⟨atMost, ones, stop⟩ := trailOnes_spec confAddr
  exact (length_takeWhile_range _ width _ atMost ones stop).symm

theorem shiftedAddr_toNat (confAddr : BitVec width) :
    (shiftedAddr confAddr).toNat = confAddr.toNat * 4 := by
  have bound := confAddr.isLt
  have fits : confAddr.toNat * 4 < 2 ^ (width + 2) := by
    rw [pow_add]
    omega
  have small : confAddr.toNat < 2 ^ (width + 2) := by omega
  rw [shiftedAddr, BitVec.toNat_shiftLeft, BitVec.toNat_setWidth,
    Nat.mod_eq_of_lt small, Nat.shiftLeft_eq]
  exact Nat.mod_eq_of_lt fits

/-- Masking clears the low `size` bits, also when `size` exceeds the width. -/
theorem toNat_and_mask {w : Nat} (x : BitVec w) (size : Nat) :
    (x &&& BitVec.allOnes w <<< size).toNat = x.toNat / 2 ^ size * 2 ^ size := by
  have same : x &&& BitVec.allOnes w <<< size = (x >>> size) <<< size := by
    ext k within
    by_cases low : k < size
    · simp [low]
    · simp only [BitVec.getElem_and, BitVec.getElem_shiftLeft, low]
      have inside : k - size < w := by omega
      have restored : size + (k - size) = k := by omega
      simp [restored, BitVec.getLsbD_eq_getElem within]
  rw [same, BitVec.toNat_shiftLeft, BitVec.toNat_ushiftRight, Nat.shiftRight_eq_div_pow,
    Nat.shiftLeft_eq]
  apply Nat.mod_eq_of_lt
  exact lt_of_le_of_lt (Nat.div_mul_le_self _ _) x.isLt

theorem div_mul_eq_iff (x base size : Nat) (positive : 0 < size) :
    x / size * size = base / size * size ↔
      base / size * size ≤ x ∧ x < base / size * size + size := by
  have split := Nat.div_add_mod x size
  have small := Nat.mod_lt x positive
  have comm : size * (x / size) = x / size * size := Nat.mul_comm _ _
  constructor
  · intro same
    omega
  · rintro ⟨low, high⟩
    have quotient : x / size = base / size := by
      apply Nat.div_eq_of_lt_le
      · exact low
      · rw [Nat.add_mul, Nat.one_mul]
        exact high
    rw [quotient]

/-- `match_o` holds exactly on the region of the entry. -/
theorem pmpMatch_iff (addr : BitVec (width + 2)) (confAddr : Fin n → BitVec width)
    (conf : Fin n → PmpCfg) (i : Fin n) (supported : (conf i).addrMode ≠ .na4) :
    pmpMatch addr confAddr conf i = true ↔ InRegion addr confAddr conf i := by
  unfold pmpMatch InRegion pmpRegion pmpEntryMatch
  cases mode : (conf i).addrMode with
  | off => simp
  | tor =>
      simp only [Bool.and_eq_true, decide_eq_true_eq, BitVec.le_def, BitVec.lt_def,
        shiftedAddr_toNat]
  | na4 => exact absurd mode supported
  | napot =>
      simp only [beq_iff_eq, ← BitVec.toNat_inj, toNat_and_mask, shiftedAddr_toNat,
        trailOnes_eq]
      exact div_mul_eq_iff _ _ _ (Nat.two_pow_pos _)

end Matching

/-! ## The priority scan -/

section Priority

variable {width n : Nat}

theorem pmpScan_eq_find (priv : PrivLvl) (accessType : BitVec 3) (conf : Fin n → PmpCfg)
    (hit : Fin n → Bool) (entries : List (Fin n)) :
    pmpScan priv accessType conf hit entries =
      (entries.find? fun i => decide (priv ≠ .m ∨ (conf i).locked = true) && hit i).map
        fun i => permits accessType (conf i) := by
  induction entries with
  | nil => rfl
  | cons i rest ih =>
      rw [pmpScan, List.find?_cons, ih]
      by_cases applies : priv ≠ .m ∨ (conf i).locked = true
      · cases hit i <;> simp [applies]
      · simp [applies]

/-- If the first element with `p` also has `q`, it is the first with both. -/
theorem find_and_of_find {α : Type} (p q : α → Bool) (l : List α) (a : α)
    (first : l.find? p = some a) (also : q a = true) :
    l.find? (fun x => q x && p x) = some a := by
  rw [List.find?_eq_some_iff_append] at first ⊢
  obtain ⟨holds, before, after, split, fails⟩ := first
  refine ⟨by simp [also, holds], before, after, split, ?_⟩
  intro x member
  have no := fails x member
  simp only [Bool.not_eq_true', Bool.and_eq_false_imp] at no ⊢
  intro _
  simpa using no

theorem find_and_eq_none {α : Type} (p q : α → Bool) (l : List α)
    (fails : l.find? p = none) : l.find? (fun x => q x && p x) = none := by
  rw [List.find?_eq_none] at fails ⊢
  intro x member
  simp [fails x member]

/-- The lowest-numbered entry matching `addr`. -/
def firstMatch (addr : BitVec (width + 2)) (confAddr : Fin n → BitVec width)
    (conf : Fin n → PmpCfg) : Option (Fin n) :=
  lowest fun i => decide (InRegion addr confAddr conf i)

/-- The lowest-numbered locked entry matching `addr`. -/
def firstLockedMatch (addr : BitVec (width + 2)) (confAddr : Fin n → BitVec width)
    (conf : Fin n → PmpCfg) : Option (Fin n) :=
  lowest fun i => (conf i).locked && decide (InRegion addr confAddr conf i)

/-- In M-mode, when the deciding entry is unlocked, the first locked entry behind
it does not deny the access. -/
def NoLockedDenialBehind (addr : BitVec (width + 2)) (accessType : BitVec 3)
    (priv : PrivLvl) (confAddr : Fin n → BitVec width) (conf : Fin n → PmpCfg) : Prop :=
  priv = .m → ∀ i, firstMatch addr confAddr conf = some i → (conf i).locked = false →
    ∀ j, firstLockedMatch addr confAddr conf = some j →
      permits accessType (conf j) = true

theorem pmpAllow_eq (addr : BitVec (width + 2)) (accessType : BitVec 3) (priv : PrivLvl)
    (confAddr : Fin n → BitVec width) (conf : Fin n → PmpCfg)
    (supported : ∀ i, (conf i).addrMode ≠ .na4) :
    pmpAllow addr accessType priv confAddr conf =
      match lowest fun i => decide (priv ≠ .m ∨ (conf i).locked = true) &&
          decide (InRegion addr confAddr conf i) with
      | some i => permits accessType (conf i)
      | none => priv == .m || n == 0 := by
  have hits : pmpMatch addr confAddr conf =
      fun i => decide (InRegion addr confAddr conf i) := by
    funext i
    rw [Bool.eq_iff_iff, pmpMatch_iff addr confAddr conf i (supported i)]
    simp
  unfold pmpAllow lowest
  by_cases implemented : 0 < n
  · rw [if_pos implemented, pmpScan_eq_find, hits]
    have notZero : (n == 0) = false := by simp; omega
    cases (List.finRange n).find? fun i => decide (priv ≠ .m ∨ (conf i).locked = true) &&
        decide (InRegion addr confAddr conf i) with
    | none => simp [notZero]
    | some i => simp
  · have zero : n = 0 := by omega
    subst zero
    simp

theorem specAllow_eq (addr : BitVec (width + 2)) (accessType : BitVec 3) (priv : PrivLvl)
    (confAddr : Fin n → BitVec width) (conf : Fin n → PmpCfg) :
    specAllow addr accessType priv confAddr conf =
      match firstMatch addr confAddr conf with
      | some i =>
          if priv ≠ .m ∨ (conf i).locked = true then permits accessType (conf i) else true
      | none => priv == .m := rfl

/-- Outside M-mode no entry is skipped; without entries every access is allowed. -/
theorem pmpAllow_eq_spec_of_su (addr : BitVec (width + 2)) (accessType : BitVec 3)
    (priv : PrivLvl) (confAddr : Fin n → BitVec width) (conf : Fin n → PmpCfg)
    (supported : ∀ i, (conf i).addrMode ≠ .na4) (su : priv ≠ .m) :
    pmpAllow addr accessType priv confAddr conf =
      specAllow addr accessType priv confAddr conf ↔ n ≠ 0 := by
  rw [pmpAllow_eq addr accessType priv confAddr conf supported, specAllow_eq]
  cases n with
  | zero => simp [su, firstMatch, lowest]
  | succ n => simp [su, firstMatch]

/-- In M-mode the scan sees the locked entries only. -/
theorem pmpAllow_machine (addr : BitVec (width + 2)) (accessType : BitVec 3)
    (confAddr : Fin n → BitVec width) (conf : Fin n → PmpCfg)
    (supported : ∀ i, (conf i).addrMode ≠ .na4) :
    pmpAllow addr accessType .m confAddr conf =
      match firstLockedMatch addr confAddr conf with
      | some i => permits accessType (conf i)
      | none => true := by
  rw [pmpAllow_eq addr accessType .m confAddr conf supported]
  simp [firstLockedMatch]

/-- `pmp_entry` matches exactly its region and `allow_o` is the specification's
answer, if and only if an M-mode access whose deciding entry is unlocked is not
denied by the first locked entry behind it, and an S/U access meets at least one
implemented entry. -/
theorem pmp_eq_spec_iff (addr : BitVec (width + 2)) (accessType : BitVec 3)
    (priv : PrivLvl) (confAddr : Fin n → BitVec width) (conf : Fin n → PmpCfg)
    (supported : ∀ i, (conf i).addrMode ≠ .na4) :
    ((∀ i, pmpMatch addr confAddr conf i = true ↔ InRegion addr confAddr conf i) ∧
        pmpAllow addr accessType priv confAddr conf =
          specAllow addr accessType priv confAddr conf) ↔
      NoLockedDenialBehind addr accessType priv confAddr conf ∧ (priv ≠ .m → n ≠ 0) := by
  have matching : ∀ i, pmpMatch addr confAddr conf i = true ↔
      InRegion addr confAddr conf i :=
    fun i => pmpMatch_iff addr confAddr conf i (supported i)
  rw [and_iff_right matching]
  by_cases su : priv ≠ .m
  · rw [pmpAllow_eq_spec_of_su addr accessType priv confAddr conf supported su]
    constructor
    · intro implemented
      exact ⟨fun machine => absurd machine su, fun _ => implemented⟩
    · intro condition
      exact condition.2 su
  · have machine : priv = .m := not_not.mp su
    subst machine
    rw [and_iff_left fun su => absurd rfl su]
    rw [pmpAllow_machine addr accessType confAddr conf supported, specAllow_eq]
    unfold NoLockedDenialBehind
    cases first : firstMatch addr confAddr conf with
    | none =>
        have noLocked : firstLockedMatch addr confAddr conf = none :=
          find_and_eq_none _ _ _ first
        simp [noLocked]
    | some i =>
        cases locked : (conf i).locked with
        | true =>
            have sameEntry : firstLockedMatch addr confAddr conf = some i :=
              find_and_of_find _ (fun i => (conf i).locked) _ i first locked
            simp [sameEntry, locked]
        | false =>
            cases firstLockedMatch addr confAddr conf <;> simp [locked]

end Priority

/-! ## An unlocked entry in front of a locked one -/

/-- Entry 0 covers the first page unlocked, entry 2 covers it again, locked and
without any permission. -/
def shadowedConf : Fin 3 → PmpCfg
  | 0 => { locked := false, addrMode := .tor, accessType := 0b111 }
  | 1 => { locked := false, addrMode := .off, accessType := 0b000 }
  | 2 => { locked := true, addrMode := .tor, accessType := 0b000 }

def shadowedAddr : Fin 3 → BitVec 54
  | 0 => 0x400
  | 1 => 0
  | 2 => 0x400

theorem pmp_machine_read_denied :
    ¬ ∀ (width n : Nat) (addr : BitVec (width + 2)) (accessType : BitVec 3)
        (priv : PrivLvl) (confAddr : Fin n → BitVec width) (conf : Fin n → PmpCfg),
      (∀ i, (conf i).addrMode ≠ .na4) →
        (∀ i, pmpMatch addr confAddr conf i = true ↔ InRegion addr confAddr conf i) ∧
          pmpAllow addr accessType priv confAddr conf =
            specAllow addr accessType priv confAddr conf := by
  intro claim
  have agree := (claim 54 3 0x100 0b001 .m shadowedAddr shadowedConf (by decide)).2
  revert agree
  decide

/-- A supervisor read of the same page is decided by entry 0. -/
theorem pmp_eq_spec_iff_supervisor :
    ((∀ i, pmpMatch 0x100 shadowedAddr shadowedConf i = true ↔
          InRegion 0x100 shadowedAddr shadowedConf i) ∧
        pmpAllow 0x100 0b001 .s shadowedAddr shadowedConf =
          specAllow 0x100 0b001 .s shadowedAddr shadowedConf) ↔
      NoLockedDenialBehind 0x100 0b001 .s shadowedAddr shadowedConf ∧
        (PrivLvl.s ≠ .m → 3 ≠ 0) :=
  pmp_eq_spec_iff 0x100 0b001 .s shadowedAddr shadowedConf (by decide)

end Cva6.Pmp
