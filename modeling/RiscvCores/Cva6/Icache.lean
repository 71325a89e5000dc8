import RiscvCores.CommonCells.Lzc
import RiscvCores.Cva6.SharedTlb
import RiscvCores.Cva6.WtAxiAdapter
import RiscvCores.Lib.Clocked
import RiscvCores.TechCells.TcSram

/-!
# The instruction cache `cva6_icache`

Tags and lines are read while the address is translated, and compared in the cycle after.
A line is a function of its bytes.  The user bits beside the data are left out.
-/

set_option autoImplicit false

namespace Cva6.Icache

open CommonCells TechCells
open SharedTlb (lfsrNext)
open AxiAdapter (IReq)

structure IcacheCfg where
  tagWidth : Nat
  indexWidth : Nat
  offsetWidth : Nat
  setAssoc : Nat
  fetchAlignBits : Nat
  /-- `NOCType == NOC_TYPE_AXI4_ATOP` -/
  axi : Bool
  nonIdemPotenceEn : Bool
  isInsideCacheableRegions : Nat → Bool
  isInsideNonidempotentRegions : Nat → Bool
  rdTxId : Nat
  doubleInLine : 3 ≤ offsetWidth
  lineInIndex : offsetWidth ≤ indexWidth
  /-- Fetches are words or double words; the L1.5 cache returns words. -/
  fetchAlign : fetchAlignBits = 2 ∨ axi = true ∧ fetchAlignBits = 3

namespace IcacheCfg

variable (cfg : IcacheCfg)

/-- `ICACHE_NUM_WORDS` -/
def numWords : Nat := 2 ^ (cfg.indexWidth - cfg.offsetWidth)

instance : NeZero cfg.numWords := ⟨Nat.pos_iff_ne_zero.mp (Nat.two_pow_pos _)⟩

def lineBytes : Nat := 2 ^ cfg.offsetWidth

def fetchBytes : Nat := 2 ^ cfg.fetchAlignBits

/-- `SET_ASSOC_WIDTH` -/
def setAssocWidth : Nat := if cfg.setAssoc > 1 then Nat.clog 2 cfg.setAssoc else cfg.setAssoc

abbrev Index : Type := Fin cfg.numWords

abbrev Way : Type := Fin cfg.setAssoc

abbrev Line : Type := Fin cfg.lineBytes → BitVec 8

abbrev Word : Type := Fin cfg.fetchBytes → BitVec 8

/-- The bits of an address that select a set. -/
def index (addr : Nat) : cfg.Index := Fin.ofNat cfg.numWords (addr / 2 ^ cfg.offsetWidth)

/-- The address of a fetch is aligned to its width. -/
def align (addr : Nat) : Nat := addr / 2 ^ cfg.fetchAlignBits * 2 ^ cfg.fetchAlignBits

end IcacheCfg

inductive FsmState
  | flush | idle | read | miss | killAtrans | killMiss
deriving DecidableEq

/-- `icache_in_t` -/
inductive RtrnType
  | invReq | ifillAck
deriving DecidableEq

/-- `icache_inval_t` -/
structure Inval where
  vld : Bool := false
  all : Bool := false
  idx : Nat := 0
  way : Nat := 0

structure Rtrn (cfg : IcacheCfg) where
  rtype : RtrnType := .invReq
  data : cfg.Line := fun _ => 0
  inv : Inval := {}

structure State (cfg : IcacheCfg) where
  clTag : Nat
  flushCnt : cfg.Index
  vaddr : Nat
  cmpEn : Bool
  cacheEn : Bool
  flush : Bool
  state : FsmState
  clOffset : Nat
  replWayOh : cfg.Way → Bool
  inv : Bool
  lfsr : BitVec 8
  /-- The valid bit and the tag of each line. -/
  tagSram : cfg.Way → Sram cfg.Index (Bool × Nat)
  dataSram : cfg.Way → Sram cfg.Index cfg.Line

structure Input (cfg : IcacheCfg) where
  flush : Bool := false
  en : Bool := false
  fetchValid : Bool := false
  fetchPaddr : Nat := 0
  fetchException : Bool := false
  req : Bool := false
  killS1 : Bool := false
  killS2 : Bool := false
  spec : Bool := false
  vaddr : Nat := 0
  memRtrnVld : Bool := false
  memRtrn : Rtrn cfg := {}
  memDataAck : Bool := false

variable {cfg : IcacheCfg}

section Signals

variable (s : State cfg) (i : Input cfg)

/-! ## Addresses and tags -/

def tagOf (cfg : IcacheCfg) (paddr : Nat) : Nat :=
  paddr / 2 ^ cfg.indexWidth % 2 ^ cfg.tagWidth

/-- `cl_tag_d` -/
def clTagD : Nat := if i.fetchValid then tagOf cfg i.fetchPaddr else s.clTag

def isNc (cfg : IcacheCfg) (cacheEn : Bool) (tag : Nat) : Bool :=
  !cacheEn || !cfg.isInsideCacheableRegions (tag * 2 ^ cfg.indexWidth)

def paddrIsNc : Bool := isNc cfg s.cacheEn (clTagD s i)

def addrNi : Bool := cfg.isInsideNonidempotentRegions i.fetchPaddr

/-- `areq_o.fetch_vaddr` -/
def fetchVaddr : Nat := cfg.align s.vaddr

/-! ## Tag comparison -/

def vldRdata (k : cfg.Way) : Bool := (s.tagSram k).rdata.1

def clHit (k : cfg.Way) : Bool := (s.tagSram k).rdata.2 == clTagD s i && vldRdata s k

def anyHit : Bool := decide (∃ k, clHit s i k = true)

/-- A vector of ways by its index. -/
def bits (v : cfg.Way → Bool) (k : Nat) : Bool :=
  if inside : k < cfg.setAssoc then v ⟨k, inside⟩ else false

def hitIdx : Nat := lzcCnt cfg.setAssoc (bits (clHit s i))

/-- A part-select from the byte `offset` on. -/
def select (line : cfg.Line) (offset : Nat) : cfg.Word := fun j =>
  if inside : offset + j.val < cfg.lineBytes then line ⟨offset + j.val, inside⟩ else 0

def clSel (k : cfg.Way) : cfg.Word := select (s.dataSram k).rdata s.clOffset

/-- `dreq_o.data` -/
def dreqData : cfg.Word :=
  if s.cmpEn then
    if inside : hitIdx s i < cfg.setAssoc then clSel s ⟨hitIdx s i, inside⟩ else fun _ => 0
  else select i.memRtrn.data s.clOffset

/-! ## Replacement -/

def allWaysValid : Bool := lzcEmpty cfg.setAssoc fun k => !bits (vldRdata s) k

def invWay : Nat := lzcCnt cfg.setAssoc fun k => !bits (vldRdata s) k

def rndWay : Nat := s.lfsr.toNat % 2 ^ cfg.setAssocWidth

def replWay : Nat := if allWaysValid s then rndWay s else invWay s

def icacheWayBin2oh (way : Nat) : cfg.Way → Bool := fun k => decide (k.val = way)

def replWayOhD : cfg.Way → Bool :=
  if s.cmpEn then icacheWayBin2oh (replWay s) else s.replWayOh

/-! ## The state machine -/

structure Ctrl where
  state : FsmState
  cacheEnD : Bool
  flushD : Bool
  flushEn : Bool := false
  cmpEnD : Bool := false
  cacheRden : Bool := false
  cacheWren : Bool := false
  ready : Bool := false
  fetchReq : Bool := false
  valid : Bool := false
  memDataReq : Bool := false

/-- `flush_done` -/
def flushDone : Bool := decide (s.flushCnt.val = cfg.numWords - 1)

def invEn : Bool := i.memRtrnVld && i.memRtrn.rtype == .invReq

def ifill : Bool := i.memRtrnVld && i.memRtrn.rtype == .ifillAck

/-- The translation is there, and a speculative request may go to its address. -/
def translated : Bool :=
  i.fetchValid && (!i.spec || (cfg.nonIdemPotenceEn && !addrNi i || !cfg.nonIdemPotenceEn))

/-- The values before the case distinction. -/
def defaults : Ctrl where
  state := s.state
  cacheEnD := s.cacheEn && i.en
  flushD := s.flush || i.flush

/-- `p_fsm` -/
def ctrl : Ctrl :=
  let dflt := defaults s i
  match s.state with
  | .flush =>
      if flushDone s then
        { dflt with flushEn := true, state := .idle, flushD := false, cacheEnD := i.en }
      else { dflt with flushEn := true }
  | .idle =>
      if dflt.flushD || i.en && !s.cacheEn then
        { dflt with cmpEnD := s.cacheEn, state := .flush }
      else
        { dflt with
          cmpEnD := s.cacheEn
          ready := !i.memRtrnVld
          cacheRden := !i.memRtrnVld && i.req
          state := if i.killS1 then .idle
            else if !i.memRtrnVld && i.req then .read
            else .idle }
  | .read =>
      let read := { dflt with fetchReq := true, cmpEnD := s.cacheEn, cacheRden := s.cacheEn }
      if translated i then
        if dflt.flushD then { read with state := .idle }
        else if (anyHit s i && s.cacheEn || i.fetchException) && !s.inv then
          { read with
            valid := !i.killS2
            ready := !i.memRtrnVld
            state := if i.killS1 then .idle
              else if !i.memRtrnVld && i.req then .read
              else .idle }
        else if i.killS2 then { read with state := .idle }
        else if !s.inv then
          { read with
            cmpEnD := false
            memDataReq := true
            state := if i.memDataAck then .miss else .read }
        else read
      else if i.killS2 || dflt.flushD then { read with state := .killAtrans }
      else read
  | .miss =>
      if ifill i then
        if i.killS2 || dflt.flushD then { dflt with state := .idle }
        else { dflt with state := .idle, valid := true, cacheWren := !paddrIsNc s i }
      else if i.killS2 || dflt.flushD then { dflt with state := .killMiss }
      else dflt
  | .killAtrans =>
      { dflt with fetchReq := true, state := if i.fetchValid then .idle else .killAtrans }
  | .killMiss => { dflt with state := if ifill i then .idle else .killMiss }

/-- `miss_o` -/
def missO : Bool := (ctrl s i).memDataReq && i.memDataAck && !paddrIsNc s i

/-! ## The registers -/

def accepts : Bool := (ctrl s i).ready && i.req

def vaddrD : Nat := if accepts s i then i.vaddr else s.vaddr

/-- `cl_index` -/
def clIndex : cfg.Index := cfg.index (vaddrD s i)

/-- The offset of a request in its line. -/
def offsetOf (cfg : IcacheCfg) (vaddr : Nat) : Nat :=
  (if cfg.axi then cfg.align vaddr else vaddr / 4 * 4) % cfg.lineBytes

/-- With AXI a word comes at the offset 0 or 4 of its double word. -/
def ncOffset (offset : Nat) : Nat := offset / 4 % 2 * 4

def clOffsetD : Nat :=
  if accepts s i then offsetOf cfg i.vaddr
  else if cfg.axi && paddrIsNc s i && (ctrl s i).memDataReq then ncOffset s.clOffset
  else s.clOffset

/-- The address that is sent for a request: of its double word, its word or its line. -/
def memPaddr (cfg : IcacheCfg) (nc : Bool) (tag vaddr : Nat) : Nat :=
  let unit := if nc then if cfg.axi then 8 else 4 else cfg.lineBytes
  tag * 2 ^ cfg.indexWidth + vaddr % 2 ^ cfg.indexWidth / unit * unit

def memData : IReq where
  way := replWay s
  paddr := memPaddr cfg (paddrIsNc s i) (clTagD s i) s.vaddr
  nc := paddrIsNc s i
  tid := cfg.rdTxId

/-- `vld_addr` -/
def vldAddr : cfg.Index :=
  if (ctrl s i).flushEn then s.flushCnt
  else if invEn i then cfg.index i.memRtrn.inv.idx
  else clIndex s i

/-- `vld_req` -/
def vldReq (k : cfg.Way) : Bool :=
  if (ctrl s i).flushEn || (ctrl s i).cacheRden then true
  else if i.memRtrn.inv.all && invEn i then true
  else if i.memRtrn.inv.vld && invEn i then icacheWayBin2oh i.memRtrn.inv.way k
  else s.replWayOh k

def vldWe : Bool := (ctrl s i).cacheWren || invEn i || (ctrl s i).flushEn

def clReq (k : cfg.Way) : Bool :=
  if (ctrl s i).cacheRden then true else (ctrl s i).cacheWren && s.replWayOh k

def tagPort (k : cfg.Way) : SramPort cfg.Index (Bool × Nat) where
  req := vldReq s i k
  we := vldWe s i
  addr := vldAddr s i
  wdata := ((ctrl s i).cacheWren, s.clTag)

def dataPort (k : cfg.Way) : SramPort cfg.Index cfg.Line where
  req := clReq s i k
  we := (ctrl s i).cacheWren
  addr := clIndex s i
  wdata := i.memRtrn.data

def next : State cfg where
  clTag := clTagD s i
  flushCnt :=
    if flushDone s then 0 else if (ctrl s i).flushEn then s.flushCnt + 1 else s.flushCnt
  vaddr := vaddrD s i
  cmpEn := (ctrl s i).cmpEnD
  cacheEn := (ctrl s i).cacheEnD
  flush := (ctrl s i).flushD
  state := (ctrl s i).state
  clOffset := clOffsetD s i
  replWayOh := replWayOhD s
  inv := invEn i
  lfsr := lfsrNext s.lfsr ((ctrl s i).cacheWren && allWaysValid s)
  tagSram k := (s.tagSram k).cycle (tagPort s i k)
  dataSram k := (s.dataSram k).cycle (dataPort s i k)

end Signals

/-- The registers after reset; the memories hold anything. -/
def reset (tagSram : cfg.Way → Sram cfg.Index (Bool × Nat))
    (dataSram : cfg.Way → Sram cfg.Index cfg.Line) : State cfg where
  clTag := 0
  flushCnt := 0
  vaddr := 0
  cmpEn := false
  cacheEn := false
  flush := false
  state := .flush
  clOffset := 0
  replWayOh _ := false
  inv := false
  lfsr := 0xff
  tagSram := tagSram
  dataSram := dataSram

end Cva6.Icache
