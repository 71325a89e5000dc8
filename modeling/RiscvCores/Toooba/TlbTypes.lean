import RiscvCores.Lib.BitField
import RiscvCores.Lib.RadixWalk

/-!
# Sv39 page tables as the TLBs see them

Virtual and physical page numbers, page-table entries and the walk of a virtual page number
from the root of the tables.
-/

set_option autoImplicit false

namespace Toooba.Tlb

open RadixWalk

abbrev Addr := BitVec 64

abbrev Data := BitVec 64

abbrev Vpn := BitVec 27

abbrev Ppn := BitVec 44

/-- `AsidSz` is 0: address-space identifiers are not really implemented. -/
abbrev Asid := BitVec 0

/-- 2: 1GB page, 1: 2MB page, 0: 4KB page. -/
abbrev PageWalkLevel := BitVec 2

def maxPageWalkLevel : PageWalkLevel := 2

structure PTEType where
  dirty : Bool
  accessed : Bool
  global : Bool
  user : Bool
  executable : Bool
  writable : Bool
  readable : Bool
deriving DecidableEq

structure PTESv39 where
  ppn : Ppn
  pteType : PTEType
  valid : Bool

def PTESv39.unpack (data : Data) : PTESv39 where
  ppn := BitField.field data 10 44
  pteType :=
    { dirty := BitField.flag data 7
      accessed := BitField.flag data 6
      global := BitField.flag data 5
      user := BitField.flag data 4
      executable := BitField.flag data 3
      writable := BitField.flag data 2
      readable := BitField.flag data 1 }
  valid := BitField.flag data 0

structure TlbEntry where
  vpn : Vpn
  ppn : Ppn
  pteType : PTEType
  level : PageWalkLevel
  asid : Asid
deriving DecidableEq

/-- The fields the second-level TLB reads. -/
structure VMInfo where
  asid : Asid
  sv39 : Bool
  basePPN : Ppn
deriving DecidableEq

def getPTBaseAddr (basePpn : Ppn) : Addr := (basePpn ++ 0#12).setWidth 64

/-- The index of `vpn` in a table of `level`. -/
def vpnIdx (vpn : Vpn) (level : PageWalkLevel) : BitVec 9 :=
  BitField.field vpn (9 * level.toNat) 9

def getPTEAddr (baseAddr : Addr) (vpn : Vpn) (level : PageWalkLevel) : Addr :=
  baseAddr + (vpnIdx vpn level).setWidth 64 <<< 3

def isLeafPTE (t : PTEType) : Bool := t.executable || t.readable || t.writable

def getMaskedVpn (vpn : Vpn) (level : PageWalkLevel) : Vpn :=
  if level = 0 then vpn
  else if level = 1 then vpn >>> 9 <<< 9
  else if level = 2 then vpn >>> 18 <<< 18
  else 0

def getMaskedPpn (ppn : Ppn) (level : PageWalkLevel) : Ppn :=
  if level = 0 then ppn
  else if level = 1 then ppn >>> 9 <<< 9
  else if level = 2 then ppn >>> 18 <<< 18
  else 0

def isPpnAligned (ppn : Ppn) (level : PageWalkLevel) : Bool :=
  if level = 0 then true
  else if level = 1 then ppn.setWidth 9 == 0
  else if level = 2 then ppn.setWidth 18 == 0
  else false

/-! ## The walk -/

/-- The entry made of a leaf. -/
def leafEntry (asid : Asid) (vpn : Vpn) (level : PageWalkLevel) (pte : PTESv39) : TlbEntry where
  vpn := getMaskedVpn vpn level
  ppn := getMaskedPpn pte.ppn level
  pteType := pte.pteType
  level := level
  asid := asid

/-- What a page-table entry of `level` says of `vpn`. -/
def decodePTE (asid : Asid) (vpn : Vpn) (level : PageWalkLevel) (pte : PTESv39) :
    Entry Ppn TlbEntry Unit :=
  if !pte.valid then .fault ()
  else if !isLeafPTE pte.pteType then .pointer pte.ppn
  else if !isPpnAligned pte.ppn level then .fault ()
  else .leaf (leafEntry asid vpn level pte)

theorem decodePTE_pointer {asid : Asid} {vpn : Vpn} {level : PageWalkLevel} {pte : PTESv39}
    {next : Ppn} (decoded : decodePTE asid vpn level pte = .pointer next) : next = pte.ppn := by
  unfold decodePTE at decoded
  split at decoded
  · cases decoded
  · split at decoded
    · cases decoded
      rfl
    · split at decoded <;> cases decoded

theorem decodePTE_leaf {asid : Asid} {vpn : Vpn} {level : PageWalkLevel} {pte : PTESv39}
    {leaf : TlbEntry} (decoded : decodePTE asid vpn level pte = .leaf leaf) :
    leaf = leafEntry asid vpn level pte := by
  unfold decodePTE at decoded
  split at decoded
  · cases decoded
  · split at decoded
    · cases decoded
    · split at decoded
      · cases decoded
      · cases decoded
        rfl

/-- The page tables of an address space, as `vpn` is looked up in them. -/
def sv39Tree (asid : Asid) (vpn : Vpn) : Radix Addr Ppn Data TlbEntry Unit where
  slot i base := getPTEAddr (getPTBaseAddr base) vpn (BitVec.ofNat 2 i)
  decode i _ data := decodePTE asid vpn (BitVec.ofNat 2 i) (PTESv39.unpack data)
  missing := ()

def readTables (mem : Addr → Data) (addr : Addr) : Probe Addr Unit Data :=
  ⟨[addr], .ok (mem addr)⟩

/-- The leaf entry the walk of `vpn` from the root comes to, if it comes to one. -/
def sv39Walk (asid : Asid) (basePPN : Ppn) (mem : Addr → Data) (vpn : Vpn) : Option TlbEntry :=
  (walk (sv39Tree asid vpn) (readTables mem) maxPageWalkLevel.toNat basePPN).outcome.toOption

/-- The walk of `vpn` uses the table `base` at `level`. -/
def WalkUses (asid : Asid) (basePPN : Ppn) (mem : Addr → Data) (vpn : Vpn)
    (level : PageWalkLevel) (base : Ppn) : Prop :=
  Reaches (sv39Tree asid vpn) (readTables mem) maxPageWalkLevel.toNat basePPN level.toNat base

/-- The entry a walk reads at `level` in the table `base`. -/
def walkPTE (mem : Addr → Data) (vpn : Vpn) (level : PageWalkLevel) (base : Ppn) : PTESv39 :=
  PTESv39.unpack (mem (getPTEAddr (getPTBaseAddr base) vpn level))

/-! ## Steps of the walk -/

section Walk

variable {asid : Asid} {basePPN base : Ppn} {mem : Addr → Data} {vpn : Vpn}
  {level : PageWalkLevel}

theorem decode_walkPTE :
    (sv39Tree asid vpn).decode level.toNat base
        (mem ((sv39Tree asid vpn).slot level.toNat base)) =
      decodePTE asid vpn level (walkPTE mem vpn level base) := by
  simp only [sv39Tree, walkPTE, BitVec.ofNat_toNat, BitVec.setWidth_eq]

theorem WalkUses.root : WalkUses asid basePPN mem vpn maxPageWalkLevel basePPN := Reaches.start

theorem WalkUses.le (uses : WalkUses asid basePPN mem vpn level base) : level.toNat ≤ 2 :=
  Reaches.le uses

theorem WalkUses.fault (uses : WalkUses asid basePPN mem vpn level base)
    (entry : decodePTE asid vpn level (walkPTE mem vpn level base) = .fault ()) :
    sv39Walk asid basePPN mem vpn = none := by
  rw [← decode_walkPTE] at entry
  rw [sv39Walk, Reaches.outcome uses, walk_fault _ rfl entry]
  rfl

theorem WalkUses.leaf {leaf : TlbEntry} (uses : WalkUses asid basePPN mem vpn level base)
    (entry : decodePTE asid vpn level (walkPTE mem vpn level base) = .leaf leaf) :
    sv39Walk asid basePPN mem vpn = some leaf := by
  rw [← decode_walkPTE] at entry
  rw [sv39Walk, Reaches.outcome uses, walk_leaf _ rfl entry]
  rfl

theorem WalkUses.missing {next : Ppn} (uses : WalkUses asid basePPN mem vpn level base)
    (last : level = 0)
    (entry : decodePTE asid vpn level (walkPTE mem vpn level base) = .pointer next) :
    sv39Walk asid basePPN mem vpn = none := by
  subst last
  rw [← decode_walkPTE] at entry
  rw [sv39Walk, Reaches.outcome uses]
  exact congrArg (fun probe : Probe Addr Unit TlbEntry => probe.outcome.toOption)
    (walk_missing _ rfl entry)

/-- A pointer leads to the table of the next level. -/
theorem WalkUses.pointer {next : Ppn} (uses : WalkUses asid basePPN mem vpn level base)
    (above : level ≠ 0)
    (entry : decodePTE asid vpn level (walkPTE mem vpn level base) = .pointer next) :
    WalkUses asid basePPN mem vpn (level - 1) next := by
  have positive : level.toNat = (level - 1).toNat + 1 := by
    have nonzero : level.toNat ≠ 0 := fun zero => above (BitVec.toNat_inj.mp zero)
    bv_omega
  rw [← decode_walkPTE] at entry
  unfold WalkUses at uses ⊢
  rw [positive] at uses entry
  exact .pointer uses rfl entry

/-- A walk that ends in a leaf uses the table that holds it. -/
theorem walkUses_of_sv39Walk {leaf : TlbEntry} (walks : sv39Walk asid basePPN mem vpn = some leaf) :
    ∃ level base, WalkUses asid basePPN mem vpn level base ∧
      decodePTE asid vpn level (walkPTE mem vpn level base) = .leaf leaf := by
  have ends : (walk (sv39Tree asid vpn) (readTables mem) maxPageWalkLevel.toNat
      basePPN).outcome = .ok leaf := by
    unfold sv39Walk at walks
    cases outcome : (walk (sv39Tree asid vpn) (readTables mem) maxPageWalkLevel.toNat
        basePPN).outcome with
    | error f =>
        rw [outcome] at walks
        exact nomatch walks
    | ok l =>
        rw [outcome] at walks
        exact congrArg Except.ok (Option.some.inj walks)
  obtain ⟨j, base, word, reaches, read, entry⟩ := Reaches.leaf .start ends
  have top : j ≤ 2 := reaches.le
  have levelOf : (BitVec.ofNat 2 j).toNat = j := by
    rw [BitVec.toNat_ofNat]
    omega
  refine ⟨BitVec.ofNat 2 j, base, ?_, ?_⟩
  · unfold WalkUses
    rw [levelOf]
    exact reaches
  · cases read
    rw [← decode_walkPTE, levelOf]
    exact entry

end Walk

/-! ## The pages of one entry share their walk -/

theorem shiftLeft_shiftRight_agree {w : Nat} {x y : BitVec w} {k : Nat}
    (same : x >>> k <<< k = y >>> k <<< k) (i : Nat) (high : k ≤ i) :
    x.getLsbD i = y.getLsbD i := by
  by_cases inside : i < w
  · have bit := congrArg (fun v => v.getLsbD i) same
    simpa [inside, high, Nat.not_lt.mpr high] using bit
  · rw [BitVec.getLsbD_of_ge _ _ (by omega), BitVec.getLsbD_of_ge _ _ (by omega)]

theorem level_cases {level : PageWalkLevel} (top : level.toNat ≤ 2) :
    level = 0 ∨ level = 1 ∨ level = 2 := by
  have kinds : ∀ l : PageWalkLevel, l.toNat ≤ 2 → l = 0 ∨ l = 1 ∨ l = 2 := by decide
  exact kinds level top

/-- `v` and `w` have the same indices at the levels from `level` on. -/
def AgreeFrom (level : Nat) (v w : Vpn) : Prop :=
  ∀ i, 9 * level ≤ i → v.getLsbD i = w.getLsbD i

section Agree

variable {v w : Vpn}

theorem agreeFrom_of_getMaskedVpn {level : PageWalkLevel} (top : level.toNat ≤ 2)
    (same : getMaskedVpn v level = getMaskedVpn w level) : AgreeFrom level.toNat v w := by
  intro i high
  rcases level_cases top with rfl | rfl | rfl
  · exact congrArg (fun v => v.getLsbD i) same
  · exact shiftLeft_shiftRight_agree same i high
  · exact shiftLeft_shiftRight_agree same i high

theorem AgreeFrom.vpnIdx {n : Nat} (agree : AgreeFrom n v w) {level : PageWalkLevel}
    (above : n ≤ level.toNat) : vpnIdx v level = vpnIdx w level := by
  apply BitVec.eq_of_getLsbD_eq
  intro i inside
  rw [Tlb.vpnIdx, Tlb.vpnIdx, BitField.getLsbD_field, BitField.getLsbD_field,
    agree (9 * level.toNat + i) (by omega)]

theorem shiftLeft_shiftRight_eq {k : Nat} (agree : ∀ i, k ≤ i → v.getLsbD i = w.getLsbD i) :
    v >>> k <<< k = w >>> k <<< k := by
  have shifted : v >>> k = w >>> k := by
    apply BitVec.eq_of_getLsbD_eq
    intro i inside
    rw [BitVec.getLsbD_ushiftRight, BitVec.getLsbD_ushiftRight, agree (k + i) (by omega)]
  rw [shifted]

theorem AgreeFrom.getMaskedVpn {n : Nat} (agree : AgreeFrom n v w) {level : PageWalkLevel}
    (above : n ≤ level.toNat) : getMaskedVpn v level = getMaskedVpn w level := by
  have later : ∀ i, 9 * level.toNat ≤ i → v.getLsbD i = w.getLsbD i :=
    fun i high => agree i (by omega)
  unfold Tlb.getMaskedVpn
  split
  next zero =>
    subst zero
    exact BitVec.eq_of_getLsbD_eq fun i _ => later i (Nat.zero_le i)
  · split
    next one =>
      subst one
      exact shiftLeft_shiftRight_eq later
    · split
      next two =>
        subst two
        exact shiftLeft_shiftRight_eq later
      · rfl

theorem AgreeFrom.decodePTE {n : Nat} (agree : AgreeFrom n v w) {level : PageWalkLevel}
    (above : n ≤ level.toNat) (asid : Asid) (pte : PTESv39) :
    decodePTE asid v level pte = decodePTE asid w level pte := by
  simp only [Tlb.decodePTE, leafEntry, agree.getMaskedVpn above]

variable {asid : Asid} {basePPN base : Ppn} {mem : Addr → Data} {level : PageWalkLevel}

/-- Walks go together as long as the indices agree. -/
theorem AgreeFrom.walkUses (agree : AgreeFrom (level.toNat + 1) v w)
    (uses : WalkUses asid basePPN mem v level base) : WalkUses asid basePPN mem w level base := by
  apply Reaches.congr uses
  intro k below top
  have small : k ≤ 2 := top
  have levelOf : (BitVec.ofNat 2 k).toNat = k := by
    rw [BitVec.toNat_ofNat]
    omega
  have above : level.toNat + 1 ≤ (BitVec.ofNat 2 k).toNat := by omega
  constructor
  · funext base
    simp only [sv39Tree, getPTEAddr, agree.vpnIdx above]
  · funext base data
    simp only [sv39Tree, agree.decodePTE above]

theorem AgreeFrom.walkPTE (agree : AgreeFrom level.toNat v w) :
    walkPTE mem v level base = walkPTE mem w level base := by
  simp only [Tlb.walkPTE, getPTEAddr, agree.vpnIdx (Nat.le_refl _)]

/-- The pages that a leaf of `v` covers all have that leaf. -/
theorem WalkUses.leaf_covers {leaf : TlbEntry} (uses : WalkUses asid basePPN mem v level base)
    (entry : Tlb.decodePTE asid v level (Tlb.walkPTE mem v level base) = .leaf leaf)
    (same : Tlb.getMaskedVpn v level = Tlb.getMaskedVpn w level) :
    sv39Walk asid basePPN mem w = some leaf := by
  have agree := agreeFrom_of_getMaskedVpn uses.le same
  have together : WalkUses asid basePPN mem w level base :=
    AgreeFrom.walkUses (fun i high => agree i (by omega)) uses
  apply together.leaf
  rw [← agree.decodePTE (Nat.le_refl _), ← agree.walkPTE, entry]

/-- The pages below a pointer of `v` all take that pointer. -/
theorem WalkUses.pointer_covers {next : Ppn} (uses : WalkUses asid basePPN mem v level base)
    (above : level ≠ 0)
    (entry : Tlb.decodePTE asid v level (Tlb.walkPTE mem v level base) = .pointer next)
    (same : Tlb.getMaskedVpn v level = Tlb.getMaskedVpn w level) :
    WalkUses asid basePPN mem w (level - 1) next := by
  have agree := agreeFrom_of_getMaskedVpn uses.le same
  have together : WalkUses asid basePPN mem w level base :=
    AgreeFrom.walkUses (fun i high => agree i (by omega)) uses
  apply together.pointer above
  rw [← agree.decodePTE (Nat.le_refl _), ← agree.walkPTE, entry]

/-- The pages that the leaf of a walk covers all have that leaf. -/
theorem sv39Walk_covers {leaf : TlbEntry} (walks : sv39Walk asid basePPN mem v = some leaf)
    (same : Tlb.getMaskedVpn w leaf.level = leaf.vpn) :
    sv39Walk asid basePPN mem w = some leaf := by
  obtain ⟨level, base, uses, entry⟩ := walkUses_of_sv39Walk walks
  have shape := decodePTE_leaf entry
  rw [shape] at same
  exact uses.leaf_covers entry same.symm

end Agree

end Toooba.Tlb
