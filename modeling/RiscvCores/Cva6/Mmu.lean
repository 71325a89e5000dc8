import RiscvCores.Cva6.PtwRuns
import RiscvCores.Cva6.RiscvPkg
import RiscvCores.Cva6.Tlb

/-!
# The memory management unit

`cva6_mmu` without the hypervisor extension and with `UseSharedTlb`: the two
first-level buffers, the shared buffer, the walker with its port of the data cache,
and the interfaces of the fetch and of the load/store unit.
-/

set_option autoImplicit false

namespace Cva6

structure MmuCfg where
  scheme : Scheme
  setBits : Nat
  instrTlbEntries : Nat
  dataTlbEntries : Nat
  pmpEntries : Nat
  dcacheIndexWidth : Nat
  tvalEn : Bool

/-- The widths of the buffers; the shared one has two ways. -/
abbrev MmuCfg.tlb (m : MmuCfg) : TlbCfg where
  rvh := false
  ptLevels := m.scheme.ptLevels
  partWidth := m.scheme.partWidth
  extraWidth := 0
  noExtra := TlbCfg.no_extra false
  vlen := m.scheme.xlen
  svWidth := m.scheme.sv
  xlen := m.scheme.xlen
  asidWidth := m.scheme.asidWidth
  vmidWidth := m.scheme.vmidWidth
  ways := 2
  setBits := m.setBits

namespace Mmu

open BitField Pmp

variable {m : MmuCfg}

/-- `exception_t` -/
structure MmuException (m : MmuCfg) where
  valid : Bool
  cause : Nat
  tval : VAddr m.scheme
  deriving DecidableEq

structure State (m : MmuCfg) where
  itlb : Tlb.State m.tlb m.instrTlbEntries
  dtlb : Tlb.State m.tlb m.dataTlbEntries
  shared : SharedTlb.State m.tlb
  walker : Ptw.System m.scheme
  lsuVaddrQ : VAddr m.scheme
  lsuReqQ : Bool
  lsuIsStoreQ : Bool
  dtlbPteQ : Pte m.scheme
  dtlbHitQ : Bool
  dtlbIsPageQ : BitVec (m.tlb.ptLevels - 1)

structure Input (m : MmuCfg) where
  flush : Bool
  enableTranslation : Bool
  enLdStTranslation : Bool
  fetchReq : Bool
  fetchVaddr : VAddr m.scheme
  misalignedEx : MmuException m
  lsuReq : Bool
  lsuVaddr : VAddr m.scheme
  lsuIsStore : Bool
  privLvl : PrivLvl
  ldStPrivLvl : PrivLvl
  sum : Bool
  mxr : Bool
  satpPpn : Ppn m.scheme
  asid : BitVec m.scheme.asidWidth
  vsAsid : BitVec m.scheme.asidWidth
  vmid : BitVec m.scheme.vmidWidth
  asidToBeFlushed : BitVec m.scheme.asidWidth
  vaddrToBeFlushed : VAddr m.scheme
  flushTlb : Bool
  flushTlbVvma : Bool
  flushTlbGvma : Bool
  dataGnt : Bool
  dataRvalid : Bool
  dataRdata : Pte m.scheme
  pmpcfg : Fin m.pmpEntries → PmpCfg
  pmpaddr : Fin m.pmpEntries → BitVec m.scheme.pmpWidth

/-- `icache_areq_o` -/
structure FetchAnswer (m : MmuCfg) where
  fetchValid : Bool
  fetchPaddr : PAddr m.scheme
  fetchException : MmuException m

structure LsuAnswer (m : MmuCfg) where
  lsuValid : Bool
  lsuPaddr : PAddr m.scheme
  lsuException : MmuException m

section Wiring

variable (memory : PAddr m.scheme → Pte m.scheme) (s : State m) (i : Input m)

/-! ## Look-ups -/

def itlbInput (update : Option (SharedTlb.TlbUpdate m.tlb)) : Tlb.Input m.tlb where
  flush := i.flushTlb
  sStEnbl := i.enableTranslation
  update := update
  luAccess := i.fetchReq
  luAsid := i.asid
  luVaddr := i.fetchVaddr
  asidToBeFlushed := i.asidToBeFlushed
  vaddrToBeFlushed := i.vaddrToBeFlushed

def dtlbInput (update : Option (SharedTlb.TlbUpdate m.tlb)) : Tlb.Input m.tlb where
  flush := i.flushTlb
  sStEnbl := i.enLdStTranslation
  update := update
  luAccess := i.lsuReq
  luAsid := i.asid
  luVaddr := i.lsuVaddr
  asidToBeFlushed := i.asidToBeFlushed
  vaddrToBeFlushed := i.vaddrToBeFlushed

def itlbLuHit : Bool := Tlb.luHit s.itlb (itlbInput i none)

def itlbContent : Pte m.scheme := Tlb.luContent s.itlb (itlbInput i none)

def itlbIsPage : BitVec (m.tlb.ptLevels - 1) := Tlb.luIsPage s.itlb (itlbInput i none)

def dtlbLuHit : Bool := Tlb.luHit s.dtlb (dtlbInput i none)

def dtlbContent : Pte m.scheme := Tlb.luContent s.dtlb (dtlbInput i none)

def dtlbIsPage : BitVec (m.tlb.ptLevels - 1) := Tlb.luIsPage s.dtlb (dtlbInput i none)

/-! ## The shared buffer and the walker -/

def noUpdate : SharedTlb.TlbUpdate m.tlb where
  valid := false
  isPageS := 0
  isPageG := 0
  vpn := 0
  asid := 0
  vmid := 0
  vStEnbl := { v := false, g := false, s := false }
  content := 0
  gContent := 0

/-- The bits of a page flag. -/
def pageBits {n : Nat} (flags : Fin n → Bool) : BitVec n :=
  (BitVec.iunfoldr (fun x (_ : Unit) => ((), flags x)) ()).2

/-- `shared_tlb_update_o` of the walker as the shared buffer takes it. -/
def walkerUpdate (u : Ptw.Update m.scheme) : SharedTlb.TlbUpdate m.tlb where
  valid := true
  isPageS := pageBits u.isPageS
  isPageG := pageBits u.isPageS
  vpn := u.vpn.setWidth _
  asid := u.asid
  vmid := u.vmid
  vStEnbl := { v := false, g := false, s := false }
  content := u.content
  gContent := u.gContent

def sharedInput (sharedTlbMiss : Bool) (update : SharedTlb.TlbUpdate m.tlb) :
    SharedTlb.Input m.tlb where
  flush := i.flushTlb
  flushVvma := i.flushTlbVvma
  flushGvma := i.flushTlbGvma
  sStEnbl := i.enableTranslation
  gStEnbl := false
  v := false
  sLdStEnbl := i.enLdStTranslation
  gLdStEnbl := false
  ldStV := false
  dtlbAsid := if i.flushTlbVvma then i.vsAsid else i.asid
  itlbAsid := i.asid
  luVmid := i.vmid
  itlbAccess := i.fetchReq
  itlbHit := itlbLuHit s i
  itlbVaddr := i.fetchVaddr
  dtlbAccess := i.lsuReq
  dtlbHit := dtlbLuHit s i
  dtlbVaddr := i.lsuVaddr
  sharedTlbMiss := sharedTlbMiss
  sharedTlbUpdate := update

/-- The comparison reads the enables of the inputs only. -/
def compareInput : SharedTlb.Input m.tlb := sharedInput s i false noUpdate

def walkerInput : Ptw.Input m.scheme m.pmpEntries where
  access :=
    { lsuIsStore := i.lsuIsStore, mxr := i.mxr, hlvxInst := false, pmpcfg := i.pmpcfg,
      pmpaddr := i.pmpaddr }
  hyp :=
    { enableTranslation := i.enableTranslation, enableGTranslation := false,
      enLdStTranslation := i.enLdStTranslation, enLdStGTranslation := false, v := false,
      ldStV := false, vmxr := false, hgatpPpn := 0 }
  flush := i.flush
  dataGnt := i.dataGnt
  dataRvalid := i.dataRvalid
  dataRdata := i.dataRdata
  asid := i.asid
  vsAsid := i.vsAsid
  vmid := i.vmid
  sharedTlbAccess := s.shared.sharedTlbAccessQ
  sharedTlbHit := SharedTlb.sharedTlbHit s.shared (compareInput s i)
  sharedTlbVaddr := s.shared.sharedTlbVaddrQ
  itlbReq := s.shared.itlbReqQ
  satpPpn := i.satpPpn
  vsatpPpn := 0

/-- The inputs of the walker with the answers of the data cache. -/
def wiredInput : Ptw.Input m.scheme m.pmpEntries :=
  Ptw.wire m.dcacheIndexWidth memory s.walker (walkerInput s i)

def walkerDrive : Ptw.Drive m.scheme := Ptw.drive (wiredInput memory s i) s.walker.ptw

/-- `update_shared_tlb` -/
def updateSharedTlb : SharedTlb.TlbUpdate m.tlb :=
  let d := walkerDrive memory s i
  if d.sharedTlbUpdateValid then
    walkerUpdate (Ptw.sharedTlbUpdate (walkerInput s i).hyp s.walker.ptw)
  else noUpdate

def sharedTlbInput : SharedTlb.Input m.tlb :=
  sharedInput s i (walkerDrive memory s i).sharedTlbMiss (updateSharedTlb memory s i)

/-- `update_itlb` -/
def updateItlb : Option (SharedTlb.TlbUpdate m.tlb) :=
  SharedTlb.itlbUpdate s.shared (compareInput s i)

/-- `update_dtlb` -/
def updateDtlb : Option (SharedTlb.TlbUpdate m.tlb) :=
  SharedTlb.dtlbUpdate s.shared (compareInput s i)

/-! ## Answers -/

/-- `PPNWMin` -/
def ppnwMin (c : Scheme) : Nat := if c.ppnw - 1 > 29 then 29 else c.ppnw - 1

/-- The bits that a superpage takes from the virtual address. -/
def splice {n k : Nat} (target : BitVec n) (vaddr : BitVec k)
    (isPage : BitVec (m.tlb.ptLevels - 1)) : BitVec n :=
  let c := m.scheme
  let width := ppnwMin c - 11
  let target :=
    if c.ptLevels = 3 ∧ isPage.getLsbD (c.ptLevels - 2) = true then
      setField target 12 (field vaddr 12 (width - c.partWidth))
    else target
  if isPage.getLsbD 0 then setField target 12 (field vaddr 12 width) else target

/-- `{ppn, vaddr[11:0]}` with the bits of a superpage. -/
def translated (pte : Pte m.scheme) (vaddr : VAddr m.scheme)
    (isPage : BitVec (m.tlb.ptLevels - 1)) : PAddr m.scheme :=
  splice ((pte.ppn ++ field vaddr 0 12).setWidth (m.scheme.pmpWidth + 2)) vaddr isPage

/-- The bits from `SV-1` on are equal. -/
def canonical (vaddr : VAddr m.scheme) : Bool :=
  let high := vaddr >>> (m.scheme.sv - 1)
  high == 0 || high == BitVec.allOnes m.scheme.xlen >>> (m.scheme.sv - 1)

def raise (cause : Nat) (tval : VAddr m.scheme) : MmuException m where
  valid := true
  cause := cause
  tval := if m.tvalEn then tval else 0

def noException : MmuException m := { valid := false, cause := 0, tval := 0 }

/-- `iaccess_err` -/
def iaccessErr : Bool :=
  i.fetchReq && i.enableTranslation &&
    (i.privLvl == .u && !(itlbContent s i).u || i.privLvl == .s && (itlbContent s i).u)

/-- `instr_interface` -/
def instrInterface : FetchAnswer m :=
  if i.enableTranslation then
    let early :=
      if i.fetchReq && !canonical i.fetchVaddr then
        raise instrPageFault i.fetchVaddr
      else noException
    let paddr := translated (itlbContent s i) i.fetchVaddr (itlbIsPage s i)
    let d := walkerDrive memory s i
    if itlbLuHit s i then
      { fetchValid := i.fetchReq
        fetchPaddr := paddr
        fetchException :=
          if iaccessErr s i then raise instrPageFault i.fetchVaddr else early }
    else if Ptw.ptwActive s.walker.ptw && Ptw.walkingInstr s.walker.ptw then
      { fetchValid := d.ptwError || d.ptwAccessException
        fetchPaddr := paddr
        fetchException :=
          if d.ptwError then raise instrPageFault s.walker.ptw.vaddr
          else raise instrAccessFault s.walker.ptw.vaddr }
    else { fetchValid := false, fetchPaddr := paddr, fetchException := early }
  else
    { fetchValid := i.fetchReq
      fetchPaddr := i.fetchVaddr.setWidth _
      fetchException := noException }

/-- `daccess_err` -/
def daccessErr : Bool :=
  i.enLdStTranslation &&
    (i.ldStPrivLvl == .s && !i.sum && s.dtlbPteQ.u ||
      i.ldStPrivLvl == .u && !s.dtlbPteQ.u)

/-- `canonical_addr_check` -/
def canonicalAddrCheck : Bool :=
  i.lsuReq && i.enLdStTranslation && !canonical i.lsuVaddr

/-- `lsu_dtlb_hit_o` -/
def lsuDtlbHit : Bool := if i.enLdStTranslation then dtlbLuHit s i else true

/-- `lsu_dtlb_ppn_o`, with the page flags of the last cycle. -/
def lsuDtlbPpn : Ppn m.scheme :=
  if i.enLdStTranslation && !i.misalignedEx.valid then
    splice (dtlbContent s i).ppn i.lsuVaddr s.dtlbIsPageQ
  else (i.lsuVaddr >>> 12).setWidth _

/-- `data_interface` -/
def dataInterface : LsuAnswer m :=
  let d := walkerDrive memory s i
  let walked := s.walker.ptw.vaddr
  if i.enLdStTranslation && !i.misalignedEx.valid then
    let paddr := translated s.dtlbPteQ s.lsuVaddrQ s.dtlbIsPageQ
    if s.dtlbHitQ && s.lsuReqQ then
      let refused := daccessErr s i || canonicalAddrCheck i
      { lsuValid := true
        lsuPaddr := paddr
        lsuException :=
          if s.lsuIsStoreQ then
            if !s.dtlbPteQ.w || refused || !s.dtlbPteQ.d then
              raise storePageFault s.lsuVaddrQ
            else i.misalignedEx
          else if refused then raise loadPageFault s.lsuVaddrQ
          else i.misalignedEx }
    else if Ptw.ptwActive s.walker.ptw && !Ptw.walkingInstr s.walker.ptw then
      { lsuValid := d.ptwError || d.ptwAccessException
        lsuPaddr := paddr
        lsuException :=
          if d.ptwAccessException then
            raise
              (if s.lsuIsStoreQ && m.scheme.ptLevels == 3 then stAccessFault
              else ldAccessFault) walked
          else if d.ptwError then
            raise
              (if s.lsuIsStoreQ then storePageFault else loadPageFault)
              walked
          else i.misalignedEx }
    else { lsuValid := false, lsuPaddr := paddr, lsuException := i.misalignedEx }
  else
    { lsuValid := s.lsuReqQ
      lsuPaddr := s.lsuVaddrQ.setWidth _
      lsuException := i.misalignedEx }

/-! ## Registers -/

def next : State m where
  itlb := Tlb.next s.itlb (itlbInput i (updateItlb s i))
  dtlb := Tlb.next s.dtlb (dtlbInput i (updateDtlb s i))
  shared := SharedTlb.next s.shared (sharedTlbInput memory s i)
  walker := Ptw.systemNext m.dcacheIndexWidth memory s.walker (walkerInput s i)
  lsuVaddrQ := i.lsuVaddr
  lsuReqQ := i.lsuReq
  lsuIsStoreQ := i.lsuIsStore
  dtlbPteQ := dtlbContent s i
  dtlbHitQ := dtlbLuHit s i
  dtlbIsPageQ := dtlbIsPage s i

end Wiring

/-- The memories of the shared buffer are not reset. -/
def reset (memories : SharedTlb.PowerOn m.tlb) : State m where
  itlb := Tlb.reset
  dtlb := Tlb.reset
  shared := SharedTlb.reset memories
  walker := { ptw := Ptw.reset, port := .free }
  lsuVaddrQ := 0
  lsuReqQ := false
  lsuIsStoreQ := false
  dtlbPteQ := 0
  dtlbHitQ := false
  dtlbIsPageQ := 0

/-- The unit over a memory that holds the page tables, rooted in `satpPpn`. -/
def machine (memories : SharedTlb.PowerOn m.tlb) (memory : PAddr m.scheme → Pte m.scheme)
    (satpPpn : Ppn m.scheme) : Clocked.Machine (State m) (Input m) where
  reset := reset memories
  next := next memory
  allowed _ _ i := i.satpPpn = satpPpn

end Mmu

end Cva6
