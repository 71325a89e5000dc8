import Mathlib.Data.Fintype.Basic
import Mathlib.Data.Fintype.Pi
import RiscvCores.CommonCells.RrArbFair
import RiscvCores.Cva6.FifoV3
import RiscvCores.Lib.Clocked

/-!
# The coalescing write buffer `wt_dcache_wbuffer`

Words are vectors of bytes and masks vectors of bits over the byte lanes.  Addresses are
numbers; where the source shifts a word tag inside a concatenation, the shift keeps the
width of the tag.
-/

set_option autoImplicit false

namespace Cva6

open CommonCells

/-- The parameters of the write-through data cache. -/
structure DcacheCfg where
  xlen64 : Bool
  tagWidth : Nat
  indexWidth : Nat
  offsetWidth : Nat
  setAssoc : Nat
  memTidWidth : Nat
  wbufDepth : Nat
  fpgaEn : Bool
  dataUserEn : Bool
  nonIdemPotenceEn : Bool
  isInsideCacheableRegions : Nat → Bool
  isInsideNonidempotentRegions : Nat → Bool
  someEntries : 0 < wbufDepth
  /-- `DCACHE_LINE_WIDTH > XLEN` -/
  wordInLine : (if xlen64 then 3 else 2) < offsetWidth
  lineInIndex : offsetWidth ≤ indexWidth
  wordInTag : (if xlen64 then 3 else 2) ≤ tagWidth

namespace DcacheCfg

variable (cfg : DcacheCfg)

def xlenAlignBytes : Nat := if cfg.xlen64 then 3 else 2

/-- `XLEN / 8` -/
abbrev bytes : Nat := 2 ^ cfg.xlenAlignBytes

def plen : Nat := cfg.tagWidth + cfg.indexWidth

/-- `DCACHE_MAX_TX` -/
abbrev maxTx : Nat := 2 ^ cfg.memTidWidth

instance : NeZero cfg.wbufDepth := ⟨Nat.pos_iff_ne_zero.mp cfg.someEntries⟩

abbrev Lane : Type := Fin cfg.bytes

abbrev Mask : Type := cfg.Lane → Bool

abbrev Word : Type := cfg.Lane → BitVec 8

abbrev TxId : Type := Fin cfg.maxTx

abbrev Ptr : Type := Fin cfg.wbufDepth

end DcacheCfg

namespace Wbuffer

variable {cfg : DcacheCfg}

/-- `|mask` -/
def anyByte (mask : cfg.Mask) : Bool := decide (∃ l, mask l = true)

/-- The `n` lanes from `lo` on. -/
def lanesFrom (lo n : Nat) : cfg.Mask := fun l => decide (lo ≤ l.val ∧ l.val < lo + n)

/-! ## Sizes and replication -/

def toSize64 (be : cfg.Mask) : Nat :=
  if be = lanesFrom 0 8 then 3
  else if be = lanesFrom 0 4 ∨ be = lanesFrom 4 4 then 2
  else if be = lanesFrom 6 2 ∨ be = lanesFrom 4 2 ∨ be = lanesFrom 2 2 ∨ be = lanesFrom 0 2 then 1
  else 0

def toSize32 (be : cfg.Mask) : Nat :=
  if be = lanesFrom 0 4 then 2
  else if be = lanesFrom 2 2 ∨ be = lanesFrom 0 2 then 1
  else 0

def toByteEnable8 (offset size : Nat) : cfg.Mask :=
  match size with
  | 0 => lanesFrom offset 1
  | 1 => lanesFrom offset 2
  | 2 => lanesFrom offset 4
  | _ => fun _ => true

def toByteEnable4 (offset size : Nat) : cfg.Mask :=
  match size with
  | 0 => lanesFrom offset 1
  | 1 => lanesFrom offset 2
  | _ => fun _ => true

/-- The byte of lane `n`. -/
def byteAt (data : cfg.Word) (n : Nat) : BitVec 8 :=
  if inside : n < cfg.bytes then data ⟨n, inside⟩ else 0

def repData64 (data : cfg.Word) (offset size : Nat) : cfg.Word :=
  match size with
  | 0 => fun _ => byteAt data offset
  | 1 => fun l => byteAt data (offset + l.val % 2)
  | 2 => fun l => byteAt data (offset + l.val % 4)
  | _ => data

def repData32 (data : cfg.Word) (offset size : Nat) : cfg.Word :=
  match size with
  | 0 => fun _ => byteAt data offset
  | 1 => fun l => byteAt data (offset + l.val % 2)
  | _ => data

/-! ## Registers and ports -/

/-- `wbuffer_t` -/
structure Entry (cfg : DcacheCfg) where
  wtag : Nat := 0
  data : cfg.Word := fun _ => 0
  user : cfg.Word := fun _ => 0
  dirty : cfg.Mask := fun _ => false
  valid : cfg.Mask := fun _ => false
  txblock : cfg.Mask := fun _ => false
  checked : Bool := false
  hitOh : Fin cfg.setAssoc → Bool := fun _ => false

/-- `tx_stat_t` -/
structure TxStat (cfg : DcacheCfg) where
  vld : Bool := false
  be : cfg.Mask := fun _ => false
  ptr : cfg.Ptr := 0

structure State (cfg : DcacheCfg) where
  wbuffer : cfg.Ptr → Entry cfg
  txStat : cfg.TxId → TxStat cfg
  niPending : cfg.Ptr → Bool
  checkPtr : cfg.Ptr
  checkPtr1 : cfg.Ptr
  checkEn : Bool
  checkEn1 : Bool
  rdTag : Nat
  rdHitOh : Fin cfg.setAssoc → Bool
  wrClVld : Bool
  wrClIdx : Nat
  /-- `i_rtrn_id_fifo` -/
  rtrnIds : Fifo cfg.maxTx cfg.TxId
  /-- `i_tx_id_rr`, `i_dirty_rr` and `i_clean_rr`. -/
  txIdRr : RrState cfg.maxTx
  dirtyRr : RrState cfg.wbufDepth
  cleanRr : RrState cfg.wbufDepth

structure Input (cfg : DcacheCfg) where
  cacheEn : Bool := true
  dataReq : Bool := false
  addressTag : BitVec cfg.tagWidth := 0
  addressIndex : BitVec cfg.indexWidth := 0
  dataWdata : cfg.Word := fun _ => 0
  dataWuser : cfg.Word := fun _ => 0
  dataBe : cfg.Mask := fun _ => false
  missAck : Bool := false
  missRtrnVld : Bool := false
  missRtrnId : cfg.TxId := 0
  rdAck : Bool := false
  rdHitOh : Fin cfg.setAssoc → Bool := fun _ => false
  wrClVld : Bool := false
  wrClIdx : Nat := 0
  wrAck : Bool := false

section Signals

variable (s : State cfg) (i : Input cfg)

/-! ## Status bits -/

def valid (k : cfg.Ptr) : Bool := anyByte (s.wbuffer k).valid

/-- `bdirty[k]`: a word that is in flight is not sent again. -/
def bdirty (k : cfg.Ptr) : cfg.Mask :=
  if anyByte (s.wbuffer k).txblock then fun _ => false
  else fun l => (s.wbuffer k).dirty l && (s.wbuffer k).valid l

def dirty (k : cfg.Ptr) : Bool := anyByte (bdirty s k)

/-- The word tag of the request. -/
def reqWtag : Nat :=
  i.addressTag.toNat * 2 ^ (cfg.indexWidth - cfg.xlenAlignBytes) +
    i.addressIndex.toNat / 2 ^ cfg.xlenAlignBytes

def wbufferHitOh (k : cfg.Ptr) : Bool := valid s k && (s.wbuffer k).wtag == reqWtag i

/-- `wtag_comp[k]` -/
def wtagComp (k : cfg.Ptr) : Nat :=
  (s.wbuffer k).wtag / 2 ^ (cfg.offsetWidth - cfg.xlenAlignBytes) %
    2 ^ (cfg.indexWidth - cfg.offsetWidth)

def invalHit (k : cfg.Ptr) : Bool :=
  i.wrClVld && valid s k && wtagComp s k == i.wrClIdx ||
    s.wrClVld && valid s k && wtagComp s k == s.wrClIdx

def tocheck (k : cfg.Ptr) : Bool := !(s.wbuffer k).checked && valid s k

def full : Bool := lzcEmpty cfg.wbufDepth (RrState.bits fun k => !valid s k)

def nextPtr : cfg.Ptr := Fin.ofNat _ (lzcCnt cfg.wbufDepth (RrState.bits fun k => !valid s k))

def hitPtr : cfg.Ptr := Fin.ofNat _ (lzcCnt cfg.wbufDepth (RrState.bits (wbufferHitOh s i)))

/-- `|wbuffer_hit_oh` -/
def anyHit : Bool := decide (∃ k, wbufferHitOh s i k = true)

def wrPtr : cfg.Ptr := if anyHit s i then hitPtr s i else nextPtr s

def rdy : Bool := anyHit s i || !full s

def isNi : Bool :=
  cfg.isInsideNonidempotentRegions (i.addressTag.toNat * 2 ^ cfg.indexWidth)

def niInside : Bool := decide (∃ k, s.niPending k = true)

def niConflict : Bool := cfg.nonIdemPotenceEn && isNi i && niInside s

/-- `empty_o` -/
def empty : Bool := decide (∀ k, valid s k = false)

/-- `not_ni_o` -/
def notNi : Bool := !niInside s

/-! ## Transmission -/

/-- `idx_o` of `i_dirty_rr`. -/
def dirtyPtr : cfg.Ptr := s.dirtyRr.idxO true (dirty s)

def bdirtyOff : Nat := lzcCnt cfg.bytes (RrState.bits (bdirty s (dirtyPtr s)))

/-- `tx_vld_o` -/
def txVld (k : cfg.TxId) : Bool := (s.txStat k).vld

/-- A word tag shifted to a byte address; the result is as wide as the tag. -/
def wordPaddr (cfg : DcacheCfg) (wtag : Nat) : Nat :=
  wtag * 2 ^ cfg.xlenAlignBytes % 2 ^ (cfg.plen - cfg.xlenAlignBytes)

/-- `tx_paddr_o` -/
def txPaddr (k : cfg.TxId) : Nat :=
  wordPaddr cfg (s.wbuffer (s.txStat k).ptr).wtag

def freeTxSlots : Bool := decide (∃ k, txVld s k = false)

/-- `idx_o` of `i_tx_id_rr`, also `miss_id_o`. -/
def txId : cfg.TxId := s.txIdRr.idxO true fun k => !txVld s k

def missReq : Bool := decide (∃ k, dirty s k = true) && freeTxSlots s

def missPaddr : Nat := (s.wbuffer (dirtyPtr s)).wtag * cfg.bytes + bdirtyOff s

def missSize : Nat :=
  if cfg.xlen64 then toSize64 (bdirty s (dirtyPtr s)) else toSize32 (bdirty s (dirtyPtr s))

def repData (data : cfg.Word) : cfg.Word :=
  if cfg.xlen64 then repData64 data (bdirtyOff s) (missSize s)
  else repData32 data (bdirtyOff s) (missSize s)

def missWdata : cfg.Word := repData s (s.wbuffer (dirtyPtr s)).data

def missWuser : cfg.Word :=
  if cfg.dataUserEn then repData s (s.wbuffer (dirtyPtr s)).user else fun _ => 0

def missNc : Bool :=
  !i.cacheEn || !cfg.isInsideCacheableRegions
    (missPaddr s / 2 ^ cfg.indexWidth % 2 ^ cfg.tagWidth * 2 ^ cfg.indexWidth)

def txBe : cfg.Mask :=
  if cfg.xlen64 then toByteEnable8 (bdirtyOff s) (missSize s)
  else toByteEnable4 (bdirtyOff s) (missSize s)

def dirtyRdEn : Bool := missReq s && i.missAck

/-! ## Returned transactions -/

def rtrnCfg (cfg : DcacheCfg) : FifoCfg := ⟨false, cfg.fpgaEn, false⟩

def rtrnEmpty : Bool := s.rtrnIds.empty (rtrnCfg cfg) i.missRtrnVld

/-- The queue does not fall through. -/
def rtrnId : cfg.TxId := s.rtrnIds.stored (rtrnCfg cfg)

def rtrnPtr : cfg.Ptr := (s.txStat (rtrnId s)).ptr

def wrDataBe : cfg.Mask := fun l =>
  (s.txStat (rtrnId s)).be l && !(s.wbuffer (rtrnPtr s)).dirty l

/-- The returned word is written to the cache. -/
def updates : Bool :=
  anyByte (wrDataBe s) && decide (∃ way, (s.wbuffer (rtrnPtr s)).hitOh way = true)

def returned : Bool := !rtrnEmpty s i && (s.wbuffer (rtrnPtr s)).checked

def wrReq (way : Fin cfg.setAssoc) : Bool :=
  returned s i && updates s && (s.wbuffer (rtrnPtr s)).hitOh way

def evict : Bool := returned s i && (!updates s || i.wrAck)

def wrPaddr : Nat := wordPaddr cfg (s.wbuffer (rtrnPtr s)).wtag

def wrIdx : Nat := wrPaddr s / 2 ^ cfg.offsetWidth % 2 ^ (cfg.indexWidth - cfg.offsetWidth)

def wrOff : Nat := wrPaddr s % 2 ^ cfg.offsetWidth

def wrData : cfg.Word := (s.wbuffer (rtrnPtr s)).data

def wrUser : cfg.Word := (s.wbuffer (rtrnPtr s)).user

/-- `tx_stat_d` -/
def txStatD : cfg.TxId → TxStat cfg :=
  let cleared :=
    if evict s i then
      Function.update s.txStat (rtrnId s) { s.txStat (rtrnId s) with vld := false }
    else s.txStat
  if dirtyRdEn s i then
    Function.update cleared (txId s) { vld := true, be := txBe s, ptr := dirtyPtr s }
  else cleared

/-! ## Lookups in the cache -/

/-- `idx_o` of `i_clean_rr`. -/
def checkPtrD : cfg.Ptr := s.cleanRr.idxO false (tocheck s)

def rdPaddr : Nat := wordPaddr cfg (s.wbuffer (checkPtrD s)).wtag

def rdTagD : Nat := rdPaddr s / 2 ^ cfg.indexWidth % 2 ^ cfg.tagWidth

def rdReq : Bool := decide (∃ k, tocheck s k = true)

def rdIdx : Nat := rdPaddr s / 2 ^ cfg.offsetWidth % 2 ^ (cfg.indexWidth - cfg.offsetWidth)

def rdOff : Nat := rdPaddr s % 2 ^ cfg.offsetWidth

def checkEnD : Bool := rdReq s && i.rdAck

/-! ## `p_buffer`, assignment by assignment -/

abbrev Buffer (cfg : DcacheCfg) : Type := cfg.Ptr → Entry cfg

/-- The write strobe of entry `k`. -/
def strobe (enable : Bool) (ptr k : cfg.Ptr) : Bool := enable && decide (k = ptr)

/-- Change the entry at `ptr`. -/
def Buffer.modify (buffer : Buffer cfg) (enable : Bool) (ptr : cfg.Ptr)
    (f : Entry cfg → Entry cfg) : Buffer cfg := fun k =>
  if strobe enable ptr k then f (buffer k) else buffer k

/-- A lookup returns. -/
def checkBlock (buffer : Buffer cfg) : Buffer cfg :=
  buffer.modify (s.checkEn1 && valid s s.checkPtr1) s.checkPtr1 fun entry =>
    { entry with checked := true, hitOh := s.rdHitOh }

/-- The cache line of a word changes. -/
def invalBlock (buffer : Buffer cfg) : Buffer cfg := fun k =>
  if invalHit s i k then { buffer k with checked := false } else buffer k

/-- The bytes of a returned transaction leave unless they are dirty again. -/
def release (entry : Entry cfg) : Entry cfg :=
  let be := (s.txStat (rtrnId s)).be
  { entry with
    txblock := fun l => entry.txblock l && !be l
    valid := fun l => entry.valid l && !(be l && !(s.wbuffer (rtrnPtr s)).dirty l) }

def evictBlock (buffer : Buffer cfg) : Buffer cfg :=
  buffer.modify (evict s i) (rtrnPtr s) fun entry =>
    let released := release s entry
    { released with checked := released.checked && anyByte released.valid }

/-- Bytes are sent. -/
def sendBlock (buffer : Buffer cfg) : Buffer cfg :=
  buffer.modify (dirtyRdEn s i) (dirtyPtr s) fun entry =>
    { entry with
      dirty := fun l => entry.dirty l && !txBe s l
      txblock := fun l => entry.txblock l || txBe s l }

/-- `data_gnt` -/
def dataGnt : Bool := i.dataReq && rdy s i && !niConflict s i

def storeBlock (buffer : Buffer cfg) : Buffer cfg :=
  buffer.modify (dataGnt s i) (wrPtr s i) fun entry =>
    { entry with
      checked := false
      wtag := reqWtag i
      valid := fun l => entry.valid l || i.dataBe l
      dirty := fun l => entry.dirty l || i.dataBe l
      data := fun l => if i.dataBe l then i.dataWdata l else entry.data l
      user := fun l => if cfg.dataUserEn && i.dataBe l then i.dataWuser l else entry.user l }

/-- `wbuffer_d` -/
def wbufferD : Buffer cfg :=
  storeBlock s i (sendBlock s i (evictBlock s i (invalBlock s i (checkBlock s s.wbuffer))))

/-- `ni_pending_d` -/
def niPendingD : cfg.Ptr → Bool :=
  let left :=
    if evict s i && !anyByte (release s (s.wbuffer (rtrnPtr s))).valid then
      Function.update s.niPending (rtrnPtr s) false
    else s.niPending
  if dataGnt s i then Function.update left (wrPtr s i) (isNi i) else left

def next : State cfg where
  wbuffer := wbufferD s i
  txStat := txStatD s i
  niPending := niPendingD s i
  checkPtr := checkPtrD s
  checkPtr1 := s.checkPtr
  checkEn := checkEnD s i
  checkEn1 := s.checkEn
  rdTag := rdTagD s
  rdHitOh := i.rdHitOh
  wrClVld := i.wrClVld
  wrClIdx := i.wrClIdx
  rtrnIds :=
    s.rtrnIds.cycle (rtrnCfg cfg)
      { flush := false, push := i.missRtrnVld, data := i.missRtrnId, pop := evict s i } 0
  txIdRr := s.txIdRr.next true (fun k => !txVld s k) (dirtyRdEn s i)
  dirtyRr := s.dirtyRr.next true (dirty s) (dirtyRdEn s i)
  cleanRr := s.cleanRr.next false (tocheck s) (checkEnD s i)

end Signals

def reset : State cfg where
  wbuffer _ := {}
  txStat _ := {}
  niPending _ := false
  checkPtr := 0
  checkPtr1 := 0
  checkEn := false
  checkEn1 := false
  rdTag := 0
  rdHitOh _ := false
  wrClVld := false
  wrClIdx := 0
  rtrnIds := Fifo.reset 0
  txIdRr := {}
  dirtyRr := {}
  cleanRr := {}

end Wbuffer

end Cva6
