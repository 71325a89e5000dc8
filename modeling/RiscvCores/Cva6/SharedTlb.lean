import Mathlib.Data.Fintype.Basic
import Mathlib.Logic.Function.Basic
import RiscvCores.CommonCells.Lzc
import RiscvCores.Lib.Clocked
import RiscvCores.TechCells.TcSram

/-!
# The shared translation buffer

`cva6_shared_tlb` with `UseSharedTlb`, for both values of `HYP_EXT`, any number
of ways and `2 ^ setBits` sets.  A lookup reads the tag and PTE memories in one
cycle and compares in the next.
-/

set_option autoImplicit false

namespace Cva6

/-- Without the hypervisor extension a page number has no bits above its levels. -/
structure TlbCfg where
  rvh : Bool
  ptLevels : Nat
  partWidth : Nat
  extraWidth : Nat
  noExtra : rvh = false → extraWidth = 0
  vlen : Nat
  svWidth : Nat
  xlen : Nat
  asidWidth : Nat
  vmidWidth : Nat
  ways : Nat
  setBits : Nat

theorem TlbCfg.no_extra (rvh : Bool) : rvh = false → 0 = 0 := fun _ => rfl

/-- `VpnLen`; `partWidth` is `VpnLen / PtLevels`, `extraWidth` is `VpnLen % PtLevels`. -/
abbrev TlbCfg.vpnLen (cfg : TlbCfg) : Nat := cfg.partWidth * cfg.ptLevels + cfg.extraWidth

namespace SharedTlb

open CommonCells TechCells

variable {cfg : TlbCfg}

/-- `{v, g-stage enabled, s-stage enabled}` -/
structure StageEnbl where
  v : Bool
  g : Bool
  s : Bool
  deriving DecidableEq, Repr

/-- The bits `[HYP_EXT*2:0]`. -/
def StageEnbl.visible (cfg : TlbCfg) (st : StageEnbl) : StageEnbl :=
  if cfg.rvh then st else { v := false, g := false, s := st.s }

/-- `vpn[PtLevels+HYP_EXT-1:0]` -/
structure VpnParts (cfg : TlbCfg) where
  part : Fin cfg.ptLevels → BitVec cfg.partWidth
  extra : BitVec cfg.extraWidth
  deriving DecidableEq

/-- `tlb_update_cva6_t`; bit `k` of `isPageS` is `is_page[k][0]`. -/
structure TlbUpdate (cfg : TlbCfg) where
  valid : Bool
  isPageS : BitVec (cfg.ptLevels - 1)
  isPageG : BitVec (cfg.ptLevels - 1)
  vpn : BitVec cfg.vpnLen
  asid : BitVec cfg.asidWidth
  vmid : BitVec cfg.vmidWidth
  vStEnbl : StageEnbl
  content : BitVec cfg.xlen
  gContent : BitVec cfg.xlen
  deriving DecidableEq

structure SharedTag (cfg : TlbCfg) where
  asid : BitVec cfg.asidWidth
  vmid : BitVec cfg.vmidWidth
  vpn : VpnParts cfg
  isPageS : BitVec (cfg.ptLevels - 1)
  isPageG : BitVec (cfg.ptLevels - 1)
  vStEnbl : StageEnbl
  deriving DecidableEq

abbrev SetIndex (cfg : TlbCfg) : Type := BitVec cfg.setBits

structure State (cfg : TlbCfg) where
  tagSram : Fin cfg.ways → Sram (SetIndex cfg) (SharedTag cfg)
  pteSram : Fin cfg.ways → Sram (SetIndex cfg) (BitVec cfg.xlen)
  gPteSram : Fin cfg.ways → Sram (SetIndex cfg) (BitVec cfg.xlen)
  sharedTagValidQ : SetIndex cfg → Fin cfg.ways → Bool
  sharedTagValid : Fin cfg.ways → Bool
  itlbVpnQ : BitVec cfg.vpnLen
  dtlbVpnQ : BitVec cfg.vpnLen
  tlbUpdateAsidQ : BitVec cfg.asidWidth
  tlbUpdateVmidQ : BitVec cfg.vmidWidth
  sharedTlbAccessQ : Bool
  sharedTlbVaddrQ : BitVec cfg.vlen
  vpnQ : VpnParts cfg
  itlbReqQ : Bool
  dtlbReqQ : Bool
  /-- `i_req_q`: set for the instruction side. -/
  iReqQ : Bool
  lfsrQ : BitVec 8

structure Input (cfg : TlbCfg) where
  flush : Bool
  flushVvma : Bool
  flushGvma : Bool
  sStEnbl : Bool
  gStEnbl : Bool
  v : Bool
  sLdStEnbl : Bool
  gLdStEnbl : Bool
  ldStV : Bool
  dtlbAsid : BitVec cfg.asidWidth
  itlbAsid : BitVec cfg.asidWidth
  luVmid : BitVec cfg.vmidWidth
  itlbAccess : Bool
  itlbHit : Bool
  itlbVaddr : BitVec cfg.vlen
  dtlbAccess : Bool
  dtlbHit : Bool
  dtlbVaddr : BitVec cfg.vlen
  sharedTlbMiss : Bool
  sharedTlbUpdate : TlbUpdate cfg

/-- `v_st_enbl[i_req]` -/
def vStEnbl (i : Input cfg) (iReq : Bool) : StageEnbl :=
  if iReq then { v := i.v, g := i.gStEnbl, s := i.sStEnbl }
  else { v := i.ldStV, g := i.gLdStEnbl, s := i.sLdStEnbl }

/-- `|v_st_enbl[i_req][HYP_EXT:0]` -/
def stageOn (cfg : TlbCfg) (st : StageEnbl) : Bool := st.s || cfg.rvh && st.g

/-! ## `itlb_dtlb_miss` -/

def itlbLookup (i : Input cfg) : Bool :=
  stageOn cfg (vStEnbl i true) && i.itlbAccess && !i.itlbHit && !i.dtlbAccess

def dtlbLookup (i : Input cfg) : Bool :=
  !itlbLookup i && stageOn cfg (vStEnbl i false) && i.dtlbAccess && !i.dtlbHit

/-- `tag_rd_en` and `pte_rd_en`. -/
def rdEn (i : Input cfg) : Bool := itlbLookup i || dtlbLookup i

/-- The virtual address of the side that looks up. -/
def lookupVaddr (i : Input cfg) : BitVec cfg.vlen :=
  if itlbLookup i then i.itlbVaddr else i.dtlbVaddr

/-- `tag_rd_addr` and `pte_rd_addr`. -/
def rdAddr (i : Input cfg) : SetIndex cfg :=
  if rdEn i then (lookupVaddr i).extractLsb' 12 cfg.setBits else 0

def itlbMiss (i : Input cfg) : Bool := itlbLookup i && i.sharedTlbMiss

def dtlbMiss (i : Input cfg) : Bool := dtlbLookup i && i.sharedTlbMiss

/-- `vpn_d` for a lookup; the extra bits are taken from below bit `VpnLen`. -/
def lookupParts (vaddr : BitVec cfg.vlen) : VpnParts cfg where
  part w := vaddr.extractLsb' (12 + cfg.partWidth * w.val) cfg.partWidth
  extra := vaddr.extractLsb' (cfg.vpnLen - cfg.extraWidth) cfg.extraWidth

def vpnD (s : State cfg) (i : Input cfg) : VpnParts cfg :=
  if rdEn i then lookupParts (lookupVaddr i) else s.vpnQ

/-! ## Page, page-number and level matches -/

def pageMatch (tag : SharedTag cfg) (st : StageEnbl) (x : Nat) : Bool :=
  let isS := fun k => tag.isPageS.getLsbD k
  let isG := fun k => tag.isPageG.getLsbD k
  let top := cfg.ptLevels - 1
  if x = 0 then true
  else if cfg.rvh = false ∨ x = top then
    (isS (top - x) || !st.s) && (!cfg.rvh || (isG (top - x) || !st.g))
  else if st.s && st.g then
    isS (top - x) && (isG (top - 1 - x) || isG (top - x)) ||
      isG (top - x) && (isS (top - 1 - x) || isS (top - x))
  else isS (top - x) && st.s || isG (top - x) && st.g

def vpnMatch (tag : SharedTag cfg) (vpnQ : VpnParts cfg) (st : StageEnbl)
    (x : Fin cfg.ptLevels) : Bool :=
  if cfg.rvh ∧ x.val = cfg.ptLevels - 1 ∧ st.s = false then
    vpnQ.part x == tag.vpn.part x && vpnQ.extra == tag.vpn.extra
  else vpnQ.part x == tag.vpn.part x

def levelMatch (tag : SharedTag cfg) (vpnQ : VpnParts cfg) (st : StageEnbl)
    (x : Fin cfg.ptLevels) : Bool :=
  decide (∀ y, x ≤ y → vpnMatch tag vpnQ st y = true) && pageMatch tag st x.val

/-- The last element of a list that satisfies `p`, found by a loop, does satisfy it. -/
theorem holds_of_foldl_last {α : Type} (p : α → Bool) (order : List α) {last : α}
    (found : order.foldl (fun found a => if p a then some a else found) none = some last) :
    p last = true := by
  have holds : ∀ (order : List α) (start : Option α), (∀ a, start = some a → p a = true) →
      ∀ a, order.foldl (fun found a => if p a then some a else found) start = some a →
        p a = true := by
    intro order
    induction order with
    | nil => exact fun start holds => holds
    | cons first rest ih =>
        intro start holds
        apply ih
        intro a chosen
        dsimp only at chosen
        split at chosen
        · rename_i hit
          cases chosen
          exact hit
        · exact holds a chosen
  exact holds order none (fun _ none => by cases none) last found

/-! ## `tag_comparison` -/

section Comparison

variable (s : State cfg) (i : Input cfg) (w : Fin cfg.ways)

/-- `shared_tag_rd[w]` -/
def sharedTagRd : SharedTag cfg := (s.tagSram w).rdata

/-- `pte[w][0]` -/
def pte : BitVec cfg.xlen := (s.pteSram w).rdata

/-- `pte[w][HYP_EXT]` -/
def gPte : BitVec cfg.xlen := if cfg.rvh then (s.gPteSram w).rdata else (s.pteSram w).rdata

/-- The stage enables of the side that looked up, as they are in the compare cycle. -/
def compareStages : StageEnbl := vStEnbl i s.iReqQ

/-- The `g` bit of a PTE. -/
def isGlobal (content : BitVec cfg.xlen) : Bool := content.getLsbD 5

/-- `match_asid[w]` -/
def matchAsid : Bool :=
  (s.tlbUpdateAsidQ == (sharedTagRd s w).asid || isGlobal (pte s w)) &&
      (compareStages s i).s ||
    !(compareStages s i).s

/-- `match_vmid[w]` -/
def matchVmid : Bool :=
  s.tlbUpdateVmidQ == (sharedTagRd s w).vmid && (compareStages s i).g ||
    !(compareStages s i).g

/-- The test `match_asid` in iteration `w` of the loop: some bit is set so far. -/
def anyMatchAsid : Bool := decide (∃ j, j ≤ w ∧ matchAsid s i j = true)

def anyMatchVmid : Bool := !cfg.rvh || decide (∃ j, j ≤ w ∧ matchVmid s i j = true)

def matchStage : Bool := (sharedTagRd s w).vStEnbl == (compareStages s i).visible cfg

def anyLevelMatch : Bool :=
  decide (∃ x, levelMatch (sharedTagRd s w) s.vpnQ (compareStages s i) x = true)

/-- Iteration `w` of the loop sets `shared_tlb_hit_d`. -/
def wayHits : Bool :=
  s.sharedTagValid w && anyMatchAsid s i w && anyMatchVmid s i w && matchStage s i w &&
    anyLevelMatch s i w

/-- `shared_tlb_hit_o` -/
def sharedTlbHit : Bool := decide (∃ w, wayHits s i w = true)

/-- What way `w` hands to the first-level buffer. -/
def fill (vpn : BitVec cfg.vpnLen) : TlbUpdate cfg where
  valid := true
  isPageS := (sharedTagRd s w).isPageS
  isPageG := (sharedTagRd s w).isPageG
  vpn := vpn
  asid := s.tlbUpdateAsidQ
  vmid := s.tlbUpdateVmidQ
  vStEnbl := (sharedTagRd s w).vStEnbl
  content := pte s w
  gContent := gPte s w

/-- The last iteration that hits. -/
def lastHit : Option (Fin cfg.ways) :=
  (List.finRange cfg.ways).foldl (fun found w => if wayHits s i w then some w else found) none

/-- `itlb_update_o`, when it is valid. -/
def itlbUpdate : Option (TlbUpdate cfg) :=
  if s.itlbReqQ then (lastHit s i).map fun w => fill s w s.itlbVpnQ else none

/-- `dtlb_update_o`, when it is valid. -/
def dtlbUpdate : Option (TlbUpdate cfg) :=
  if !s.itlbReqQ && s.dtlbReqQ then (lastHit s i).map fun w => fill s w s.dtlbVpnQ else none

end Comparison

/-! ## `update_flush` -/

def anyFlush (i : Input cfg) : Bool := i.flush || i.flushVvma || i.flushGvma

/-- `tag_wr_addr` and `pte_wr_addr`. -/
def wrAddr (i : Input cfg) : SetIndex cfg := i.sharedTlbUpdate.vpn.extractLsb' 0 cfg.setBits

/-- `way_valid` -/
def wayValid (s : State cfg) (i : Input cfg) (k : Nat) : Bool :=
  if inside : k < cfg.ways then s.sharedTagValidQ (wrAddr i) ⟨k, inside⟩ else false

def allWaysValid (s : State cfg) (i : Input cfg) : Bool :=
  lzcEmpty cfg.ways fun k => !wayValid s i k

def invWay (s : State cfg) (i : Input cfg) : Nat := lzcCnt cfg.ways fun k => !wayValid s i k

def rndWay (s : State cfg) : Nat := s.lfsrQ.toNat % 2 ^ Nat.clog 2 cfg.ways

def replWay (s : State cfg) (i : Input cfg) : Nat :=
  if allWaysValid s i then rndWay s else invWay s i

/-- `tag_wr_en[w]` and `pte_wr_en[w]`. -/
def wrEn (s : State cfg) (i : Input cfg) (w : Fin cfg.ways) : Bool :=
  !anyFlush i && i.sharedTlbUpdate.valid && decide (w.val = replWay s i)

def sharedTagValidD (s : State cfg) (i : Input cfg) (set : SetIndex cfg) (w : Fin cfg.ways) :
    Bool :=
  if anyFlush i then false
  else if wrEn s i w && set == wrAddr i then true else s.sharedTagValidQ set w

/-- `shared_tag_wr` -/
def sharedTagWr (s : State cfg) (i : Input cfg) : SharedTag cfg where
  asid := i.sharedTlbUpdate.asid
  vmid := i.sharedTlbUpdate.vmid
  vpn :=
    { part := fun z => i.sharedTlbUpdate.vpn.extractLsb' (cfg.partWidth * z.val) cfg.partWidth
      extra := i.sharedTlbUpdate.vpn.extractLsb' (cfg.vpnLen - cfg.extraWidth) cfg.extraWidth }
  isPageS := i.sharedTlbUpdate.isPageS
  isPageG := i.sharedTlbUpdate.isPageG
  vStEnbl := (vStEnbl i s.iReqQ).visible cfg

/-- `tag_addr` and `pte_addr`: a write to any way takes the address from the reads. -/
def sramAddr (s : State cfg) (i : Input cfg) : SetIndex cfg :=
  if ∃ w, wrEn s i w = true then wrAddr i else rdAddr i

/-- The port of a tag or PTE memory of way `w`. -/
def sramPort {Data : Type} (s : State cfg) (i : Input cfg) (w : Fin cfg.ways) (wdata : Data) :
    SramPort (SetIndex cfg) Data where
  req := wrEn s i w || rdEn i
  we := wrEn s i w
  addr := sramAddr s i
  wdata := wdata

/-! ## Registers -/

/-- The feedback mask of an 8-bit `lfsr`. -/
def lfsrNext (lfsr : BitVec 8) (en : Bool) : BitVec 8 :=
  if en then (lfsr >>> 1) ^^^ (if lfsr.getLsbD 0 then 0xfa#8 else 0#8) else lfsr

def next (s : State cfg) (i : Input cfg) : State cfg where
  tagSram w := (s.tagSram w).cycle (sramPort s i w (sharedTagWr s i))
  pteSram w := (s.pteSram w).cycle (sramPort s i w i.sharedTlbUpdate.content)
  gPteSram w := (s.gPteSram w).cycle (sramPort s i w i.sharedTlbUpdate.gContent)
  sharedTagValidQ := sharedTagValidD s i
  sharedTagValid := s.sharedTagValidQ (rdAddr i)
  itlbVpnQ := (i.itlbVaddr.extractLsb' 12 (cfg.svWidth - 12)).setWidth cfg.vpnLen
  dtlbVpnQ := (i.dtlbVaddr.extractLsb' 12 (cfg.svWidth - 12)).setWidth cfg.vpnLen
  tlbUpdateAsidQ :=
    if itlbLookup i then i.itlbAsid else if dtlbLookup i then i.dtlbAsid else s.tlbUpdateAsidQ
  tlbUpdateVmidQ := if cfg.rvh && rdEn i then i.luVmid else s.tlbUpdateVmidQ
  sharedTlbAccessQ := rdEn i
  sharedTlbVaddrQ := if rdEn i then lookupVaddr i else s.sharedTlbVaddrQ
  vpnQ := vpnD s i
  itlbReqQ := itlbLookup i
  dtlbReqQ := dtlbLookup i
  iReqQ := if itlbLookup i then true else if dtlbLookup i then false else s.iReqQ
  lfsrQ := lfsrNext s.lfsrQ (i.sharedTlbUpdate.valid && allWaysValid s i)

/-- What the memories hold at power-on, which reset leaves alone. -/
structure PowerOn (cfg : TlbCfg) where
  tagSram : Fin cfg.ways → Sram (SetIndex cfg) (SharedTag cfg)
  pteSram : Fin cfg.ways → Sram (SetIndex cfg) (BitVec cfg.xlen)
  gPteSram : Fin cfg.ways → Sram (SetIndex cfg) (BitVec cfg.xlen)

def reset (memories : PowerOn cfg) : State cfg where
  tagSram := memories.tagSram
  pteSram := memories.pteSram
  gPteSram := memories.gPteSram
  sharedTagValidQ := fun _ _ => false
  sharedTagValid := fun _ => false
  itlbVpnQ := 0
  dtlbVpnQ := 0
  tlbUpdateAsidQ := 0
  tlbUpdateVmidQ := 0
  sharedTlbAccessQ := false
  sharedTlbVaddrQ := 0
  vpnQ := { part := fun _ => 0, extra := 0 }
  itlbReqQ := false
  dtlbReqQ := false
  iReqQ := false
  lfsrQ := 0xff

def machine (memories : PowerOn cfg) : Clocked.Machine (State cfg) (Input cfg) where
  reset := reset memories
  next := next
  allowed _ _ _ := True

end SharedTlb

end Cva6
