import RiscvCores.Cva6.Pmp
import RiscvCores.Lib.BitField
import RiscvCores.Lib.Clocked

/-!
# The page table walker

`cva6_ptw` for Sv32, Sv39 and Sv39x4.  `ptw_lvl_q[HYP_EXT]`, `gpaddr_q`,
`gptw_pptr_q`, `gpte_q` and `ptw_stage_q` are read with the hypervisor extension
only.
-/

set_option autoImplicit false

namespace Cva6

/-- The translation schemes the walker is built for. -/
inductive Scheme where
  | sv32 | sv39 | sv39x4
  deriving DecidableEq, Repr

namespace Scheme

abbrev rvh : Scheme → Bool
  | sv32 | sv39 => false
  | sv39x4 => true

/-- `HYP_EXT` -/
abbrev hypExt : Scheme → Nat
  | sv32 | sv39 => 0
  | sv39x4 => 1

abbrev xlen : Scheme → Nat
  | sv32 => 32
  | sv39 | sv39x4 => 64

abbrev ptLevels : Scheme → Nat
  | sv32 => 2
  | sv39 | sv39x4 => 3

abbrev vpnLen : Scheme → Nat
  | sv32 => 20
  | sv39 => 27
  | sv39x4 => 29

/-- `VpnLen / PtLevels` -/
abbrev partWidth : Scheme → Nat
  | sv32 => 10
  | sv39 | sv39x4 => 9

abbrev ppnw : Scheme → Nat
  | sv32 => 22
  | sv39 | sv39x4 => 44

abbrev gppnw : Scheme → Nat
  | sv32 => 22
  | sv39 | sv39x4 => 29

/-- `PLEN - 2` -/
abbrev pmpWidth : Scheme → Nat
  | sv32 => 32
  | sv39 | sv39x4 => 54

abbrev gplen : Scheme → Nat
  | sv32 => 34
  | sv39 | sv39x4 => 41

/-- `SV` -/
abbrev sv : Scheme → Nat
  | sv32 => 32
  | sv39 | sv39x4 => 39

abbrev asidWidth : Scheme → Nat
  | sv32 => 1
  | sv39 | sv39x4 => 16

abbrev vmidWidth : Scheme → Nat
  | sv32 => 1
  | sv39 | sv39x4 => 14

end Scheme

/-- `PLEN`; `VLEN` is `XLEN` in the configurations with an MMU. -/
abbrev PAddr (c : Scheme) : Type := BitVec (c.pmpWidth + 2)

abbrev VAddr (c : Scheme) : Type := BitVec c.xlen

abbrev GPAddr (c : Scheme) : Type := BitVec c.gplen

abbrev Ppn (c : Scheme) : Type := BitVec c.ppnw

/-- `pte_cva6_t`; what lies above `XLEN` is zero. -/
abbrev Pte (c : Scheme) : Type := BitVec c.xlen

namespace Pte

open BitField

variable {c : Scheme}

def v (pte : Pte c) : Bool := flag pte 0
def r (pte : Pte c) : Bool := flag pte 1
def w (pte : Pte c) : Bool := flag pte 2
def x (pte : Pte c) : Bool := flag pte 3
def u (pte : Pte c) : Bool := flag pte 4
def g (pte : Pte c) : Bool := flag pte 5
def a (pte : Pte c) : Bool := flag pte 6
def d (pte : Pte c) : Bool := flag pte 7
def ppn (pte : Pte c) : Ppn c := field pte 10 c.ppnw
def reserved (pte : Pte c) : BitVec 10 := field pte (10 + c.ppnw) 10

end Pte

namespace Ptw

open BitField Pmp

/-- `state_q` -/
inductive Fsm where
  | idle | waitGrant | pteLookup | waitRvalid | propagateError | propagateAccessError | latency
  deriving DecidableEq, Repr

/-- `ptw_stage_q` -/
inductive Stage where
  | sStage | gIntermedStage | gFinalStage
  deriving DecidableEq, Repr

structure Regs (c : Scheme) where
  state : Fsm
  ptwStage : Stage
  /-- `ptw_lvl_q[0]` -/
  ptwLvl : Nat
  /-- `ptw_lvl_q[HYP_EXT]` -/
  ptwLvlHyp : Nat
  isInstrPtw : Bool
  globalMapping : Bool
  tagValid : Bool
  tlbUpdateAsid : BitVec c.asidWidth
  tlbUpdateVmid : BitVec c.vmidWidth
  vaddr : VAddr c
  gpaddr : GPAddr c
  ptwPptr : PAddr c
  gptwPptr : PAddr c
  gpte : Pte c
  dataRvalid : Bool
  dataRdata : Pte c

/-- What the look-up of a PTE reads of the environment without the hypervisor
extension. -/
structure AccessPins (c : Scheme) (n : Nat) where
  lsuIsStore : Bool
  mxr : Bool
  hlvxInst : Bool
  pmpcfg : Fin n → PmpCfg
  pmpaddr : Fin n → BitVec c.pmpWidth

/-- What it reads besides with the hypervisor extension. -/
structure HypPins (c : Scheme) where
  enableTranslation : Bool
  enableGTranslation : Bool
  enLdStTranslation : Bool
  enLdStGTranslation : Bool
  v : Bool
  ldStV : Bool
  vmxr : Bool
  hgatpPpn : Ppn c

structure Input (c : Scheme) (n : Nat) where
  access : AccessPins c n
  hyp : HypPins c
  flush : Bool
  dataGnt : Bool
  dataRvalid : Bool
  dataRdata : Pte c
  asid : BitVec c.asidWidth
  vsAsid : BitVec c.asidWidth
  vmid : BitVec c.vmidWidth
  sharedTlbAccess : Bool
  sharedTlbHit : Bool
  sharedTlbVaddr : VAddr c
  itlbReq : Bool
  satpPpn : Ppn c
  vsatpPpn : Ppn c

/-- `tlb_update_cva6_t`; bit `x` of `isPageS` and `isPageG` is `is_page[x][0]` and
`is_page[x][HYP_EXT]`. -/
structure Update (c : Scheme) where
  vpn : BitVec c.vpnLen
  isPageS : Fin (c.ptLevels - 1) → Bool
  isPageG : Fin (c.ptLevels - 1) → Bool
  content : Pte c
  gContent : Pte c
  asid : BitVec c.asidWidth
  vmid : BitVec c.vmidWidth

/-- What the process `ptw` drives: the next registers and its outputs. -/
structure Drive (c : Scheme) where
  regs : Regs c
  dataReq : Bool := false
  ptwError : Bool := false
  ptwErrorAtGSt : Bool := false
  ptwErrAtGIntSt : Bool := false
  ptwAccessException : Bool := false
  sharedTlbUpdateValid : Bool := false
  sharedTlbMiss : Bool := false

/-- What the look-up of a PTE drives. -/
structure Lookup (c : Scheme) where
  regs : Regs c
  sharedTlbUpdateValid : Bool

section Model

variable {c : Scheme} {n : Nat}

/-- The registered answer of the data cache. -/
def pte (s : Regs c) : Pte c := s.dataRdata

/-! ## TLB update -/

/-- The page number part below level `z`: `vaddr_lvl[w][z]` for the address of stage `w`. -/
def vaddrLvl {m : Nat} (addr : BitVec m) (z : Nat) : BitVec c.partWidth :=
  field addr (12 + c.partWidth * (c.ptLevels - z - 2)) c.partWidth

/-- `|misaligned_page` -/
def misalignedPage (s : Regs c) : Bool :=
  decide (s.ptwLvl < c.ptLevels - 1) &&
    (pte s).ppn.setWidth (c.partWidth * (c.ptLevels - 1 - s.ptwLvl)) != 0

def gpaddrBase (s : Regs c) : GPAddr c :=
  ((pte s).ppn.setWidth c.gppnw ++ field s.vaddr 0 12).setWidth c.gplen

/-- `gpaddr[ptw_lvl_q[0]]` -/
def gpaddr (s : Regs c) : GPAddr c :=
  if s.ptwLvl = c.ptLevels - 1 then gpaddrBase s
  else
    let low := c.vpnLen - c.partWidth + 1
    let base := setField (gpaddrBase s) 0 (field s.vaddr 0 low)
    if s.ptwLvl = 0 then setField base low (field s.vaddr low c.partWidth) else base

def isPageS (h : HypPins c) (s : Regs c) (x : Fin (c.ptLevels - 1)) : Bool :=
  if h.enableGTranslation && h.enableTranslation ||
      h.enLdStGTranslation && h.enLdStTranslation && c.rvh then
    s.ptwLvlHyp == x.val && c.rvh || s.ptwLvl == x.val && !c.rvh
  else if h.enableTranslation || h.enLdStTranslation || !c.rvh then s.ptwLvl == x.val
  else false

def isPageG (h : HypPins c) (s : Regs c) (x : Fin (c.ptLevels - 1)) : Bool :=
  if h.enableGTranslation && h.enableTranslation ||
      h.enLdStGTranslation && h.enLdStTranslation && c.rvh then s.ptwLvl == x.val
  else if h.enableTranslation || h.enLdStTranslation || !c.rvh then
    !c.rvh && s.ptwLvl == x.val
  else s.ptwLvl == x.val

/-- `global_mapping_q << 5` -/
def globalBit (s : Regs c) : Pte c := (BitVec.ofBool s.globalMapping).setWidth c.xlen <<< 5

/-- `shared_tlb_update_o` -/
def sharedTlbUpdate (h : HypPins c) (s : Regs c) : Update c where
  vpn := (field s.vaddr 12 (c.sv + c.hypExt * 2 - 12)).setWidth c.vpnLen
  isPageS := isPageS h s
  isPageG := isPageG h s
  content :=
    if (h.enableGTranslation || h.enLdStGTranslation) && c.rvh then s.gpte ||| globalBit s
    else pte s ||| globalBit s
  gContent := if (h.enableGTranslation || h.enLdStGTranslation) && c.rvh then pte s else 0
  asid := s.tlbUpdateAsid
  vmid := s.tlbUpdateVmid

/-- `allow_access`: PTEs are read as if in S-mode. -/
def allowAccess (p : AccessPins c n) (s : Regs c) : Bool :=
  pmpAllow s.ptwPptr 1#3 .s p.pmpaddr p.pmpcfg

/-! ## Pointers -/

/-- `{ppn, part, PtLevels'(0)}` -/
def tablePointer (ppn : Ppn c) (part : BitVec c.partWidth) : PAddr c :=
  (ppn ++ part ++ 0#c.ptLevels).setWidth (c.pmpWidth + 2)

/-- `{satp_ppn_i, vaddr[SV-1:SV-VpnLen/PtLevels], PtLevels'(0)}` -/
def rootPointer (ppn : Ppn c) (vaddr : VAddr c) : PAddr c :=
  tablePointer ppn (field vaddr (c.sv - c.partWidth) c.partWidth)

/-- `{hgatp_ppn_i[PPNW-1:2], addr[SV+HYP_EXT*2-1:SV-VpnLen/PtLevels], PtLevels'(0)}` -/
def gRootPointer {m : Nat} (hgatpPpn : Ppn c) (addr : BitVec m) : PAddr c :=
  (field hgatpPpn 2 (c.ppnw - 2) ++
      field addr (c.sv - c.partWidth) (c.hypExt * 2 + c.partWidth) ++
      0#c.ptLevels).setWidth (c.pmpWidth + 2)

/-- The address of the VS-stage PTE whose guest address the G-stage has translated. -/
def intermedPointer (s : Regs c) : PAddr c :=
  let pptr : PAddr c :=
    ((pte s).ppn.setWidth c.gppnw ++ field s.gptwPptr 0 12).setWidth (c.pmpWidth + 2)
  if s.ptwLvl = 1 then setField pptr 0 (field s.gptwPptr 0 21)
  else if s.ptwLvl = 0 then setField pptr 0 (field s.gptwPptr 0 30)
  else pptr

/-! ## The process `ptw` -/

/-- The default assignments. -/
def hold (s : Regs c) : Drive c := { regs := { s with tagValid := false } }

/-- The stage a walk starts in and its pointers. -/
def startStage (i : Input c n) (s : Regs c) : Regs c :=
  let h := i.hyp
  let va := i.sharedTlbVaddr
  if (h.enableTranslation && h.enableGTranslation ||
      h.enLdStTranslation && h.enLdStGTranslation) && c.rvh then
    let pptr := rootPointer i.vsatpPpn va
    { s with
      ptwStage := .gIntermedStage
      gptwPptr := pptr
      ptwPptr := gRootPointer h.hgatpPpn pptr }
  else if ((h.enableTranslation || h.enableGTranslation) && !h.enableTranslation ||
      (h.enLdStTranslation || h.enLdStGTranslation) && !h.enLdStTranslation) && c.rvh then
    { s with
      ptwStage := .gFinalStage
      gpaddr := (field va 0 (c.sv + c.hypExt * 2)).setWidth c.gplen
      ptwPptr := gRootPointer h.hgatpPpn va }
  else
    { s with
      ptwStage := .sStage
      ptwPptr :=
        if (h.v || h.ldStV) && c.rvh then rootPointer i.vsatpPpn va
        else rootPointer i.satpPpn va }

/-- A walk starts in this cycle. -/
def starts (i : Input c n) : Bool :=
  (h i || !c.rvh) && i.sharedTlbAccess && !i.sharedTlbHit
where
  h (i : Input c n) : Bool :=
    i.hyp.enableTranslation || i.hyp.enableGTranslation || i.hyp.enLdStTranslation ||
      i.hyp.enLdStGTranslation

def idle (i : Input c n) (s : Regs c) : Drive c :=
  let cleared : Regs c :=
    { s with
      tagValid := false
      ptwLvl := 0
      ptwLvlHyp := 0
      globalMapping := false
      isInstrPtw := false
      gpte := if c.rvh then 0 else s.gpte
      gpaddr := if c.rvh then 0 else s.gpaddr }
  if starts i then
    { regs :=
        { startStage i cleared with
          isInstrPtw := i.itlbReq
          vaddr := i.sharedTlbVaddr
          state := .waitGrant
          tlbUpdateAsid :=
            if (if i.itlbReq then i.hyp.v else i.hyp.ldStV) then i.vsAsid else i.asid
          tlbUpdateVmid := if c.rvh then i.vmid else s.tlbUpdateVmid }
      sharedTlbMiss := true }
  else { regs := cleared }

def waitGrant (i : Input c n) (s : Regs c) : Drive c :=
  { regs :=
      if i.dataGnt then { s with tagValid := true, state := .pteLookup }
      else { s with tagValid := false }
    dataReq := true }

/-- The G-stage is on for the side that walks. -/
def gTranslates (h : HypPins c) (s : Regs c) : Bool :=
  s.isInstrPtw && h.enableGTranslation || !s.isInstrPtw && h.enLdStGTranslation

/-- The V bit of the side that walks. -/
def virtual (h : HypPins c) (s : Regs c) : Bool :=
  h.v && s.isInstrPtw || h.ldStV && !s.isInstrPtw

/-- The guest page number has bits above the guest address width. -/
def beyondGuest (h : HypPins c) (s : Regs c) : Bool :=
  virtual h s && s.ptwStage == .sStage &&
    (pte s).ppn >>> (c.gppnw - 1 + c.hypExt) != 0

/-- `state_d = PROPAGATE_ERROR` with the stage kept. -/
def Lookup.fail (d : Lookup c) (s : Regs c) : Lookup c :=
  { d with
    regs :=
      { d.regs with
        state := .propagateError
        ptwStage := if c.rvh then s.ptwStage else d.regs.ptwStage } }

/-- A leaf in the S-stage leads to the final G-stage, one in the intermediate G-stage
back to the S-stage. -/
def leafStage (h : HypPins c) (s : Regs c) (d : Lookup c) : Lookup c :=
  match s.ptwStage with
  | .sStage =>
      if gTranslates h s then
        { d with
          regs :=
            { d.regs with
              state := .waitGrant
              ptwStage := .gFinalStage
              gpte := pte s
              ptwLvlHyp := s.ptwLvl
              gpaddr := gpaddr s
              ptwPptr := gRootPointer h.hgatpPpn (gpaddr s)
              ptwLvl := 0 } }
      else d
  | .gIntermedStage =>
      { d with
        regs :=
          { d.regs with
            state := .waitGrant
            ptwStage := .sStage
            ptwLvl := s.ptwLvlHyp
            ptwPptr := intermedPointer s } }
  | .gFinalStage => d

/-- The checks of an instruction walk. -/
def leafFetch (h : HypPins c) (s : Regs c) (d : Lookup c) : Lookup c :=
  if !(pte s).x || !(pte s).a then d.fail s
  else if c.rvh && (s.ptwStage == .gFinalStage || !h.enableGTranslation) || !c.rvh then
    { d with sharedTlbUpdateValid := true }
  else d

/-- A load may read through the PTE. -/
def readable (p : AccessPins c n) (h : HypPins c) (s : Regs c) : Bool :=
  (pte s).a && ((pte s).r && !p.hlvxInst ||
    (pte s).x && (p.mxr || p.hlvxInst ||
      s.ptwStage == .sStage && h.vmxr && h.ldStV && c.rvh))

/-- The checks of a load or store walk. -/
def leafData (p : AccessPins c n) (h : HypPins c) (s : Regs c) (d : Lookup c) : Lookup c :=
  let d :=
    if readable p h s then
      if c.rvh && (s.ptwStage == .gFinalStage || !h.enLdStGTranslation) || !c.rvh then
        { d with sharedTlbUpdateValid := true }
      else d
    else d.fail s
  if p.lsuIsStore && (!(pte s).w || !(pte s).d) then
    { d.fail s with sharedTlbUpdateValid := false }
  else d

/-- A leaf has been read; `d` arrives with `state_d = LATENCY`. -/
def leafPte (p : AccessPins c n) (h : HypPins c) (s : Regs c) (d : Lookup c) : Lookup c :=
  let d := if c.rvh then leafStage h s d else d
  let d := if s.isInstrPtw then leafFetch h s d else leafData p h s d
  let d := if misalignedPage s then { d.fail s with sharedTlbUpdateValid := false } else d
  if c.rvh && beyondGuest h s then
    { d with regs := { d.regs with state := .propagateError, ptwStage := .gFinalStage } }
  else d

/-- The pointer to the next table. -/
def nextTable (h : HypPins c) (s : Regs c) (r : Regs c) : Regs c :=
  let pptr := tablePointer (pte s).ppn (vaddrLvl s.vaddr s.ptwLvl)
  if c.rvh then
    match s.ptwStage with
    | .sStage =>
        if gTranslates h s then
          { r with
            ptwStage := .gIntermedStage
            gpte := pte s
            ptwLvlHyp := s.ptwLvl + 1
            gptwPptr := pptr
            ptwPptr := gRootPointer h.hgatpPpn pptr
            ptwLvl := 0 }
        else { r with ptwPptr := pptr }
    | .gIntermedStage =>
        { r with ptwPptr := tablePointer (pte s).ppn (vaddrLvl s.gptwPptr s.ptwLvl) }
    | .gFinalStage =>
        { r with ptwPptr := tablePointer (pte s).ppn (vaddrLvl s.gpaddr s.ptwLvl) }
  else { r with ptwPptr := pptr }

/-- A pointer to the next level has been read. -/
def pointerPte (h : HypPins c) (s : Regs c) (d : Lookup c) : Lookup c :=
  let d :=
    if s.ptwLvl = c.ptLevels - 1 then d.fail s
    else
      let d :=
        { d with
          regs := nextTable h s { d.regs with ptwLvl := s.ptwLvl + 1, state := .waitGrant } }
      if c.rvh && ((pte s).a || (pte s).d || (pte s).u) then d.fail s else d
  if c.rvh && beyondGuest h s then d.fail s else d

/-- `pte.v = 0`, or `pte.r = 0` and `pte.w = 1`, or reserved bits with `XLEN` 64. -/
def invalidPte (pte : Pte c) : Bool :=
  !pte.v || (!pte.r && pte.w) || pte.reserved != 0 && c.xlen == 64

/-- A PTE has arrived. -/
def checkPte (p : AccessPins c n) (h : HypPins c) (s : Regs c) : Lookup c :=
  let d : Lookup c := { regs := { s with tagValid := false }, sharedTlbUpdateValid := false }
  let d :=
    if (pte s).g && (s.ptwStage == .sStage || !c.rvh) then
      { d with regs := { d.regs with globalMapping := true } }
    else d
  let d :=
    if invalidPte (pte s) then { d with regs := { d.regs with state := .propagateError } }
    else
      let d := { d with regs := { d.regs with state := .latency } }
      if (pte s).r || (pte s).x then leafPte p h s d else pointerPte h s d
  if !allowAccess p s then
    { d with
      sharedTlbUpdateValid := false
      regs :=
        { d.regs with
          ptwPptr := s.ptwPptr
          ptwStage := if c.rvh then s.ptwStage else d.regs.ptwStage
          state := .propagateAccessError } }
  else d

def pteLookup (i : Input c n) (s : Regs c) : Drive c :=
  if s.dataRvalid then
    let d := checkPte i.access i.hyp s
    { regs := d.regs, sharedTlbUpdateValid := d.sharedTlbUpdateValid }
  else hold s

def propagateError (s : Regs c) : Drive c :=
  { regs := { s with tagValid := false, state := .latency }
    ptwError := true
    ptwErrorAtGSt := c.rvh && s.ptwStage != .sStage
    ptwErrAtGIntSt := c.rvh && s.ptwStage == .gIntermedStage }

/-- The case over `state_q`. -/
def dispatch (i : Input c n) (s : Regs c) : Drive c :=
  match s.state with
  | .idle => idle i s
  | .waitGrant => waitGrant i s
  | .pteLookup => pteLookup i s
  | .propagateError => propagateError s
  | .propagateAccessError =>
      { regs := { s with tagValid := false, state := .latency }, ptwAccessException := true }
  | .waitRvalid =>
      { regs :=
          { s with tagValid := false, state := if s.dataRvalid then .idle else s.state } }
  | .latency => { regs := { s with tagValid := false, state := .idle } }

/-- `state_d` on a flush. -/
def flushState (i : Input c n) (s : Regs c) : Fsm :=
  if (s.state == .pteLookup || s.state == .waitRvalid) && !s.dataRvalid ||
      s.state == .waitGrant && i.dataGnt then .waitRvalid
  else .latency

def drive (i : Input c n) (s : Regs c) : Drive c :=
  let d := dispatch i s
  if i.flush then { d with regs := { d.regs with state := flushState i s } } else d

/-! ## Registers and outputs -/

def next (s : Regs c) (i : Input c n) : Regs c :=
  { (drive i s).regs with dataRvalid := i.dataRvalid, dataRdata := i.dataRdata }

def reset : Regs c where
  state := .idle
  ptwStage := .sStage
  ptwLvl := 0
  ptwLvlHyp := 0
  isInstrPtw := false
  globalMapping := false
  tagValid := false
  tlbUpdateAsid := 0
  tlbUpdateVmid := 0
  vaddr := 0
  gpaddr := 0
  ptwPptr := 0
  gptwPptr := 0
  gpte := 0
  dataRvalid := false
  dataRdata := 0

def ptwActive (s : Regs c) : Bool := s.state != .idle

def walkingInstr (s : Regs c) : Bool := s.isInstrPtw

/-- `bad_paddr_o` -/
def badPaddr (s : Regs c) (i : Input c n) : PAddr c :=
  if (drive i s).ptwAccessException then s.ptwPptr else 0

/-- `bad_gpaddr_o` -/
def badGpaddr (s : Regs c) (i : Input c n) : GPAddr c :=
  if (drive i s).ptwErrorAtGSt then
    if s.ptwStage == .gIntermedStage then s.gptwPptr.setWidth c.gplen else s.gpaddr
  else 0

end Model

end Ptw

end Cva6
