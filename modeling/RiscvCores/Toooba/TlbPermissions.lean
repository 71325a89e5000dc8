import Mathlib.Algebra.GroupWithZero.Nat
import Mathlib.Tactic.MkIffOfInductiveProp
import Mathlib.Data.Nat.Init
import RiscvCores.Toooba.CsrFile
import RiscvCores.Toooba.TlbTypes

/-!
# Permissions and translation of an access

What the first-level TLBs check and compute once they have the entry of a page.
-/

set_option autoImplicit false

namespace Toooba.Tlb

open CsrFile (Exception prvU prvS prvM)

/-- The fields the first-level TLBs read besides those of the second-level TLB. -/
structure L1VMInfo extends VMInfo where
  prv : BitVec 2
  exeReadable : Bool
  userAccessibleByS : Bool
deriving DecidableEq

def L1VMInfo.defaultValue : L1VMInfo where
  prv := prvM
  asid := 0
  sv39 := false
  exeReadable := false
  userAccessibleByS := false
  basePPN := 0

inductive TlbAccessType
  | InstFetch
  | DataLoad
  | DataStore
deriving DecidableEq

structure TlbReq where
  addr : Addr
  write : Bool
deriving DecidableEq

/-- The translated address, or a fault, beside which the code leaves the address open. -/
abbrev TlbResp := Except Exception Addr

def getVpn (addr : Addr) : Vpn := BitField.field addr 12 27

def getPageOffset (addr : Addr) : BitVec 12 := addr.setWidth 12

def validVirtualAddress (addr : Addr) : Bool :=
  BitField.field addr 39 25 == BitField.field addr 39 1 ++ BitField.field addr 40 24

def translate (addr : Addr) (ppn : Ppn) (level : PageWalkLevel) : Addr :=
  if level = 0 then (ppn ++ getPageOffset addr).setWidth 64
  else if level = 1 then (BitField.field ppn 9 35 ++ addr.setWidth 21).setWidth 64
  else if level = 2 then (BitField.field ppn 18 26 ++ addr.setWidth 30).setWidth 64
  else 0

def hasVMPermission (vm_info : L1VMInfo) (pte_type : PTEType) (ppn : Ppn)
    (level : PageWalkLevel) (access : TlbAccessType) : Bool :=
  let fault :=
    !vm_info.sv39 ||
    (pte_type.writable && !pte_type.readable) ||
    !isPpnAligned ppn level ||
    (if pte_type.user then
      vm_info.prv == prvS && (access == .InstFetch || !vm_info.userAccessibleByS)
    else vm_info.prv == prvU) ||
    (match access with
      | .InstFetch => !pte_type.executable
      | .DataLoad => !pte_type.readable && !(pte_type.executable && vm_info.exeReadable)
      | .DataStore => !(pte_type.readable && pte_type.writable)) ||
    !pte_type.accessed ||
    (access == .DataStore && !pte_type.dirty)
  !fault

def TlbReq.access (r : TlbReq) : TlbAccessType := if r.write then .DataStore else .DataLoad

def TlbReq.pageFault (r : TlbReq) : Exception :=
  if r.write then .storePageFault else .loadPageFault

/-- The response to a load or a store once the entry of its page is there. -/
def entryResp (vm_info : L1VMInfo) (r : TlbReq) (entry : TlbEntry) : TlbResp :=
  if hasVMPermission vm_info entry.pteType entry.ppn entry.level r.access then
    .ok (translate r.addr entry.ppn entry.level)
  else .error r.pageFault

/-! ## The rules for loads and stores -/

/-- May a load or a store use a page of this type? -/
@[mk_iff]
structure Permits (vm_info : L1VMInfo) (t : PTEType) (write : Bool) : Prop where
  wellFormed : t.writable = true → t.readable = true
  supervisor : t.user = true → vm_info.prv = prvS → vm_info.userAccessibleByS = true
  user : t.user = false → vm_info.prv ≠ prvU
  load : write = false → t.readable = true ∨ t.executable = true ∧ vm_info.exeReadable = true
  store : write = true → t.readable = true ∧ t.writable = true ∧ t.dirty = true
  accessed : t.accessed = true

/-- Where `addr` lies in the page of an entry. -/
def physical (ppn : Ppn) (level : PageWalkLevel) (addr : Addr) : Addr :=
  getPTBaseAddr ppn + (addr.setWidth (12 + 9 * level.toNat)).setWidth 64

instance (vm_info : L1VMInfo) (t : PTEType) (write : Bool) :
    Decidable (Permits vm_info t write) :=
  decidable_of_iff' _ (permits_iff vm_info t write)

/-- What a load or a store is to be answered, by the walks of the tables. -/
def dataAnswer (vm_info : L1VMInfo) (walk : Vpn → Option TlbEntry) (r : TlbReq) : TlbResp :=
  if !vm_info.sv39 then .ok r.addr
  else if !validVirtualAddress r.addr then .error r.pageFault
  else
    match walk (getVpn r.addr) with
    | some entry =>
        if Permits vm_info entry.pteType r.write then .ok (physical entry.ppn entry.level r.addr)
        else .error r.pageFault
    | none => .error r.pageFault

theorem hasVMPermission_iff (vm_info : L1VMInfo) (t : PTEType) (ppn : Ppn)
    (level : PageWalkLevel) (r : TlbReq) :
    hasVMPermission vm_info t ppn level r.access = true ↔
      vm_info.sv39 = true ∧ isPpnAligned ppn level = true ∧ Permits vm_info t r.write := by
  rw [permits_iff]
  unfold hasVMPermission TlbReq.access
  cases r.write <;> cases t.user
  all_goals
    simp [and_assoc, -not_and]
    grind

/-- Bit 38 is not among the bits that must agree. -/
theorem validVirtualAddress_iff (addr : Addr) :
    validVirtualAddress addr = true ↔
      ∀ k, 39 ≤ k → k < 64 → addr.getLsbD k = addr.getLsbD 39 := by
  unfold validVirtualAddress
  rw [beq_iff_eq]
  constructor
  · intro same k low high
    have bits : ∀ j, j < 25 → (BitField.field addr 39 25).getLsbD j =
        (BitField.field addr 39 1 ++ BitField.field addr 40 24 : BitVec 25).getLsbD j := by
      intro j _
      rw [same]
    induction k, low using Nat.le_induction with
    | base => rfl
    | succ k low ih =>
        have step := bits (k - 39) (by omega)
        have inside : k - 39 < 25 := by omega
        have below : k - 39 < 24 := by omega
        have here : 39 + (k - 39) = k := by omega
        have next : 40 + (k - 39) = k + 1 := by omega
        rw [BitVec.getLsbD_append, BitField.getLsbD_field, if_pos below,
          BitField.getLsbD_field] at step
        simp only [inside, below, here, next, decide_true, Bool.true_and] at step
        rw [← step]
        exact ih (by omega)
  · intro same
    apply BitVec.eq_of_getLsbD_eq
    intro j inside
    rw [BitVec.getLsbD_append, BitField.getLsbD_field]
    by_cases below : j < 24
    · rw [if_pos below, BitField.getLsbD_field]
      simp only [inside, below, decide_true, Bool.true_and]
      rw [same (39 + j) (by omega) (by omega), same (40 + j) (by omega) (by omega)]
    · rw [if_neg below, BitField.getLsbD_field]
      have last : j - 24 = 0 := by omega
      simp only [inside, last, decide_true, Bool.true_and, Nat.add_zero]
      exact same (39 + j) (by omega) (by omega)

theorem isPpnAligned_level {ppn : Ppn} {level : PageWalkLevel}
    (aligned : isPpnAligned ppn level = true) :
    level.toNat ≤ 2 ∧ ppn.toNat % 2 ^ (9 * level.toNat) = 0 := by
  unfold isPpnAligned at aligned
  split at aligned
  next zero =>
    subst zero
    exact ⟨by decide, Nat.mod_one _⟩
  · split at aligned
    next one =>
      subst one
      refine ⟨by decide, ?_⟩
      have low := congrArg BitVec.toNat (beq_iff_eq.mp aligned)
      simpa using low
    · split at aligned
      next two =>
        subst two
        refine ⟨by decide, ?_⟩
        have low := congrArg BitVec.toNat (beq_iff_eq.mp aligned)
        simpa using low
      · exact nomatch aligned

/-- The translation of an address lies in its page at the same offset. -/
theorem translate_eq {ppn : Ppn} {level : PageWalkLevel} (addr : Addr)
    (aligned : isPpnAligned ppn level = true) :
    translate addr ppn level = physical ppn level addr := by
  obtain ⟨top, low⟩ := isPpnAligned_level aligned
  have bound := ppn.isLt
  have offset := addr.isLt
  apply BitVec.eq_of_toNat_eq
  unfold physical getPTBaseAddr
  rw [BitVec.toNat_add, BitVec.toNat_setWidth, BitField.toNat_append_add, BitVec.toNat_setWidth,
    BitVec.toNat_setWidth]
  unfold translate getPageOffset
  rcases level_cases top with rfl | rfl | rfl
  · rw [if_pos rfl, BitVec.toNat_setWidth, BitField.toNat_append_add, BitVec.toNat_setWidth]
    simp
  · rw [if_neg (by decide), if_pos rfl, BitVec.toNat_setWidth, BitField.toNat_append_add,
      BitField.toNat_field, BitVec.toNat_setWidth]
    simp at low ⊢
    omega
  · rw [if_neg (by decide), if_neg (by decide), if_pos rfl, BitVec.toNat_setWidth,
      BitField.toNat_append_add, BitField.toNat_field, BitVec.toNat_setWidth]
    simp at low ⊢
    omega

theorem sv39Walk_aligned {asid : Asid} {basePPN : Ppn} {mem : Addr → Data} {vpn : Vpn}
    {entry : TlbEntry} (walks : sv39Walk asid basePPN mem vpn = some entry) :
    isPpnAligned entry.ppn entry.level = true := by
  obtain ⟨level, base, uses, decoded⟩ := walkUses_of_sv39Walk walks
  rw [decodePTE_leaf decoded]
  change isPpnAligned (getMaskedPpn _ level) level = true
  generalize (walkPTE mem vpn level base).ppn = ppn
  rcases level_cases uses.le with rfl | rfl | rfl
  · rfl
  · unfold isPpnAligned getMaskedPpn
    simp only [if_neg (by decide : ¬ (1 : PageWalkLevel) = 0), if_true, beq_iff_eq]
    apply BitVec.eq_of_getLsbD_eq
    intro k below
    simp [below]
  · unfold isPpnAligned getMaskedPpn
    simp only [if_neg (by decide : ¬ (2 : PageWalkLevel) = 0),
      if_neg (by decide : ¬ (2 : PageWalkLevel) = 1), if_true, beq_iff_eq]
    apply BitVec.eq_of_getLsbD_eq
    intro k below
    simp [below]

/-- With the entry that the walk of its page ends in, an access is answered as it is due. -/
theorem entryResp_eq {vm_info : L1VMInfo} {r : TlbReq} {walk : Vpn → Option TlbEntry}
    {entry : TlbEntry} (sv39 : vm_info.sv39 = true)
    (valid : validVirtualAddress r.addr = true)
    (aligned : isPpnAligned entry.ppn entry.level = true)
    (walks : walk (getVpn r.addr) = some entry) :
    entryResp vm_info r entry = dataAnswer vm_info walk r := by
  have allowed : hasVMPermission vm_info entry.pteType entry.ppn entry.level r.access = true ↔
      Permits vm_info entry.pteType r.write := by
    rw [hasVMPermission_iff]
    exact ⟨fun h => h.2.2, fun h => ⟨sv39, aligned, h⟩⟩
  unfold entryResp dataAnswer
  simp only [sv39, valid, walks, allowed, translate_eq r.addr aligned, Bool.not_true,
    Bool.false_eq_true, if_false]

end Toooba.Tlb
