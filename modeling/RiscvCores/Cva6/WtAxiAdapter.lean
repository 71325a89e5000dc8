import RiscvCores.CommonCells.RrArbFair
import RiscvCores.Cva6.ArianePkg
import RiscvCores.Cva6.FifoV3
import RiscvCores.Lib.Clocked

/-!
# The AXI adapter of the write-through caches

`wt_axi_adapter` with its `axi_shim`.  Requests wait in one queue for each cache and go
out one at a time; their ids wait in three queues until the answers come.  The user bits
that are sent along with stores are left out.
-/

set_option autoImplicit false

namespace Cva6.AxiAdapter

open CommonCells

/-- A line is a number of words of the AXI data width. -/
structure AdapterCfg where
  rva : Bool
  xlen : Nat
  xlen64 : Bool
  axiAddrWidth : Nat
  /-- The logarithm of the bytes of an AXI word. -/
  lgAxiBytes : Nat
  axiUserEn : Bool
  axiUserWidth : Nat
  axiBurstWriteEn : Bool
  icacheWords : Nat
  dcacheWords : Nat
  icacheUserWords : Nat
  dcacheUserWords : Nat
  reqFifoDepth : Nat
  metaFifoDepth : Nat
  fpgaEn : Bool
  fpgaAlteraEn : Bool
  dcacheIndexWidth : Nat
  someIcacheWords : 0 < icacheWords
  someDcacheWords : 0 < dcacheWords
  someReqs : 0 < reqFifoDepth
  someIds : 0 < metaFifoDepth

namespace AdapterCfg

variable (cfg : AdapterCfg)

/-- `AxiDataWidth / 8` -/
def axiBytes : Nat := 2 ^ cfg.lgAxiBytes

abbrev AxiData : Type := BitVec (8 * cfg.axiBytes)

abbrev AxiUser : Type := BitVec cfg.axiUserWidth

def axiNumWords : Nat := max cfg.icacheWords cfg.dcacheWords

instance : NeZero cfg.reqFifoDepth := ⟨Nat.ne_of_gt cfg.someReqs⟩

instance : NeZero cfg.metaFifoDepth := ⟨Nat.ne_of_gt cfg.someIds⟩

end AdapterCfg

/-! ## Requests, packets and channels -/

/-- `icache_req_t` -/
structure IReq where
  way : Nat := 0
  paddr : Nat := 0
  nc : Bool := false
  tid : Nat := 0
deriving DecidableEq

/-- `dcache_out_t` -/
inductive DReqType
  | store | load | atomic | int
deriving DecidableEq

/-- `dcache_req_t` -/
structure DReq (cfg : AdapterCfg) where
  rtype : DReqType := .store
  size : BitVec 3 := 0
  way : Nat := 0
  paddr : Nat := 0
  data : BitVec cfg.xlen := 0
  nc : Bool := false
  tid : Nat := 0
  amoOp : Amo := .none
deriving DecidableEq

/-- `dcache_in_t` -/
inductive DRtrnType
  | invReq | storeAck | loadAck | atomicAck | intAck
deriving DecidableEq

/-- The fields of `dcache_inval_t` that the adapter sets. -/
structure DInval where
  all : Bool := false
  idx : Nat := 0

structure IRtrn (cfg : AdapterCfg) where
  tid : Nat
  data : Fin cfg.icacheWords → cfg.AxiData
  user : Fin cfg.icacheUserWords → cfg.AxiUser

structure DRtrn (cfg : AdapterCfg) where
  rtype : DRtrnType
  inv : DInval
  tid : Nat
  data : Fin cfg.dcacheWords → cfg.AxiData
  user : Fin cfg.dcacheUserWords → cfg.AxiUser

/-- The address channel of a read, without its constant fields. -/
structure ArChan where
  id : Nat
  addr : Nat
  len : Nat
  size : Nat
  lock : Bool
deriving DecidableEq

structure AwChan where
  id : Nat
  addr : Nat
  len : Nat
  size : Nat
  lock : Bool
  atop : BitVec 6
deriving DecidableEq

structure WChan (cfg : AdapterCfg) where
  data : cfg.AxiData
  strb : Nat → Bool
  last : Bool

/-- `RESP_EXOKAY` is one of the four responses. -/
inductive Resp
  | okay | exokay | slverr | decerr
deriving DecidableEq

structure RBeat (cfg : AdapterCfg) where
  id : Nat := 0
  data : cfg.AxiData := 0
  user : cfg.AxiUser := 0
  last : Bool := false

structure BResp where
  id : Nat := 0
  resp : Resp := .okay
deriving DecidableEq

/-! ## Registers and ports -/

inductive WrState
  | idle | waitAwReady | waitLastWReady | waitLastWReadyAwReady | waitAwReadyBurst
deriving DecidableEq

structure State (cfg : AdapterCfg) where
  icacheData : Fifo cfg.reqFifoDepth IReq
  dcacheData : Fifo cfg.reqFifoDepth (DReq cfg)
  icacheIds : Fifo cfg.metaFifoDepth Nat
  dcacheRdIds : Fifo cfg.metaFifoDepth Nat
  dcacheWrIds : Fifo cfg.metaFifoDepth Nat
  /-- `i_b_fifo` -/
  bs : Fifo cfg.metaFifoDepth (Bool × Nat)
  arb : RrState 2
  amoOff : Nat
  amoGenR : Bool
  wrState : WrState
  wrCnt : Nat
  icacheFirst : Bool
  dcacheFirst : Bool
  icacheShift : Fin cfg.icacheWords → cfg.AxiData
  dcacheShift : Fin cfg.dcacheWords → cfg.AxiData
  icacheShiftUser : Fin cfg.icacheUserWords → cfg.AxiUser
  dcacheShiftUser : Fin cfg.dcacheUserWords → cfg.AxiUser
  icacheRtrnVld : Bool
  icacheRtrnTid : Nat
  dcacheRtrnVld : Bool
  dcacheRtrnTid : Nat
  dcacheRtrnType : DRtrnType
  dcacheRtrnInv : DInval

structure Input (cfg : AdapterCfg) where
  icacheReq : Option IReq := none
  dcacheReq : Option (DReq cfg) := none
  arReady : Bool := false
  awReady : Bool := false
  wReady : Bool := false
  r : Option (RBeat cfg) := none
  b : Option BResp := none
  /-- An external invalidation with its address. -/
  inval : Option Nat := none

variable {cfg : AdapterCfg}

def reqCfg (cfg : AdapterCfg) : FifoCfg := ⟨false, cfg.fpgaEn, cfg.fpgaAlteraEn⟩

def idCfg (cfg : AdapterCfg) : FifoCfg := ⟨false, cfg.fpgaEn, false⟩

def bCfg (cfg : AdapterCfg) : FifoCfg := ⟨true, cfg.fpgaEn, false⟩

section Signals

variable (s : State cfg) (i : Input cfg)

/-! ## The request path -/

def icacheHead : IReq := s.icacheData.stored (reqCfg cfg)

def dcacheHead : DReq cfg := s.dcacheData.stored (reqCfg cfg)

def icacheDataAck : Bool := i.icacheReq.isSome && !s.icacheData.full

def dcacheDataAck : Bool := i.dcacheReq.isSome && !s.dcacheData.full

/-- `arb_req`: the instruction cache is input 0.  The queues do not fall through. -/
def arbReq (k : Fin 2) : Bool :=
  if k = 0 then !(s.icacheData.empty (reqCfg cfg) false || s.icacheIds.full)
  else !(s.dcacheData.empty (reqCfg cfg) false || s.dcacheWrIds.full || s.dcacheRdIds.full)

def anyReq : Bool := arbReq s 0 || arbReq s 1

def arbIdx : Fin 2 := s.arb.idxO true (arbReq s)

end Signals

/-! ## What a request sends -/

section Requests

variable (r : DReq cfg)

def isLoad : Bool := r.rtype == .load

def isStore : Bool := r.rtype == .store

def isAtomic : Bool := r.rtype == .atomic

def isLr : Bool := r.rtype == .atomic && r.amoOp == .lr

def isSc : Bool := r.rtype == .atomic && r.amoOp == .sc

/-- The atomics that are sent as writes and return a read beat. -/
def isRmw : Bool := r.rtype == .atomic && r.amoOp != .lr && r.amoOp != .sc

/-- `axi_rd_req` for a data request. -/
def asksRead : Bool := isLoad r || cfg.rva && isLr r

/-- `axi_wr_req` for a data request. -/
def asksWrite : Bool := isStore r || cfg.rva && (isSc r || isRmw r)

/-- Atomics have an id of their own. -/
def dcacheId : Nat := if isAtomic r then 3 else 1

/-- `AxiRdBlenDcache` for a line; the MSB of the size asks for it. -/
def dcacheLen : Nat := if r.size.msb then cfg.dcacheWords - 1 else 0

def icacheLen (cfg : AdapterCfg) (r : IReq) : Nat := if r.nc then 0 else cfg.icacheWords - 1

def icacheAr (cfg : AdapterCfg) (r : IReq) : ArChan where
  id := 0
  addr := r.paddr % 2 ^ cfg.axiAddrWidth
  len := icacheLen cfg r
  size := cfg.lgAxiBytes % 8
  lock := false

def dcacheAr : ArChan where
  id := dcacheId r
  addr := r.paddr % 2 ^ cfg.axiAddrWidth
  len := dcacheLen r
  size := if r.size.msb then cfg.lgAxiBytes % 8 else r.size.toNat
  lock := isLr r

/-- `axi_wr_atop` -/
def atop : BitVec 6 :=
  if isAtomic r then
    match r.amoOp with
    | .swap => 0b110000
    | .add => 0b100000
    | .and => 0b100001
    | .or => 0b100011
    | .xor => 0b100010
    | .max => 0b100100
    | .maxu => 0b100110
    | .min => 0b100101
    | .minu => 0b100111
    | .none | .lr | .sc => 0
  else 0

def dcacheAw : AwChan where
  id := dcacheId r
  addr := r.paddr % 2 ^ cfg.axiAddrWidth
  len := 0
  size := r.size.toNat
  lock := isSc r
  atop := atop r

/-- `axi_wr_be`: the bytes from the offset on, of which a double word needs 64 bits except
in an atomic. -/
def wrBe (n : Nat) : Bool :=
  let off := r.paddr % cfg.axiBytes
  match (r.size.toNat % 4 : Nat) with
  | 0 => decide (n = off)
  | 1 => decide (off ≤ n ∧ n < off + 2)
  | 2 => decide (off ≤ n ∧ n < off + 4)
  | _ => (cfg.xlen64 || isAtomic r) && decide (off ≤ n ∧ n < off + 8)

/-- The word repeated over the bus. -/
def repeatData : cfg.AxiData :=
  BitVec.ofNat _ ((List.range (8 * cfg.axiBytes / cfg.xlen)).foldl
    (fun acc _ => acc * 2 ^ cfg.xlen + r.data.toNat) 0)

def wrData : cfg.AxiData :=
  if isAtomic r && r.amoOp == .and then ~~~ repeatData r else repeatData r

/-- `amo_off_d` of a store-conditional. -/
def scOff : Nat := r.paddr % cfg.axiBytes / 2 ^ (r.size.toNat % 4) * 2 ^ (r.size.toNat % 4)

end Requests

section Signals

variable (s : State cfg) (i : Input cfg)

/-! ## The shim -/

/-- `axi_rd_req` -/
def rdReq : Bool :=
  anyReq s && if arbIdx s = 0 then true else asksRead (dcacheHead s)

/-- `axi_wr_req` -/
def wrReq : Bool := anyReq s && arbIdx s = 1 && asksWrite (dcacheHead s)

/-- An atomic is at the head and selected. -/
def atomicTurn : Bool :=
  anyReq s && arbIdx s = 1 && cfg.rva && isAtomic (dcacheHead s)

def arChan : ArChan :=
  if arbIdx s = 0 then icacheAr cfg (icacheHead s) else dcacheAr (dcacheHead s)

def awChan : AwChan := dcacheAw (dcacheHead s)

/-- Writes are single words. -/
def wrBlen : Nat := 0

def wrSingleReq : Bool := wrBlen == 0

def wrCntDone : Bool := s.wrCnt == wrBlen

def wChan : WChan cfg where
  data := wrData (dcacheHead s)
  strb := wrBe (dcacheHead s)
  last := wrCntDone s

/-- The write channel of the shim. -/
structure WrFsm where
  state : WrState
  awValid : Bool := false
  wValid : Bool := false
  gnt : Bool := false
  cntEn : Bool := false
  cntClr : Bool := false

/-- `p_axi_write_fsm` -/
def writeFsm : WrFsm :=
  match s.wrState with
  | .idle =>
      if wrReq s then
        if cfg.axiBurstWriteEn && !wrSingleReq then
          { state :=
              match i.awReady, i.wReady with
              | true, _ => .waitLastWReady
              | false, true => .waitLastWReadyAwReady
              | false, false => .idle
            awValid := true, wValid := true, cntEn := i.wReady }
        else if wrSingleReq then
          { state :=
              match i.awReady, i.wReady with
              | false, true => .waitAwReady
              | true, false => .waitLastWReady
              | _, _ => .idle
            awValid := true, wValid := true, gnt := i.awReady && i.wReady, cntClr := true }
        else { state := .idle, awValid := true, wValid := true }
      else { state := .idle }
  | .waitAwReady =>
      { state := if i.awReady then .idle else .waitAwReady, awValid := true, gnt := i.awReady }
  | .waitLastWReady =>
      if cfg.axiBurstWriteEn && i.wReady && !wrCntDone s then
        { state := .waitLastWReady, wValid := true, cntEn := true }
      else if wrCntDone s && i.wReady then
        { state := .idle, wValid := true, gnt := true, cntClr := true }
      else { state := .waitLastWReady, wValid := true }
  | .waitLastWReadyAwReady =>
      if cfg.axiBurstWriteEn then
        match i.awReady, i.wReady with
        | false, true =>
            if wrCntDone s then
              { state := .waitAwReadyBurst, awValid := true, wValid := true, cntClr := true }
            else { state := .waitLastWReadyAwReady, awValid := true, wValid := true, cntEn := true }
        | true, false => { state := .waitLastWReady, awValid := true, wValid := true }
        | true, true =>
            if wrCntDone s then
              { state := .idle, awValid := true, wValid := true, gnt := true, cntClr := true }
            else { state := .waitLastWReady, awValid := true, wValid := true, cntEn := true }
        | false, false => { state := .waitLastWReadyAwReady, awValid := true, wValid := true }
      else { state := .idle }
  | .waitAwReadyBurst =>
      if cfg.axiBurstWriteEn then
        { state := if i.awReady then .idle else .waitAwReadyBurst, awValid := true
          gnt := i.awReady }
      else { state := .idle }

def rdGnt : Bool := rdReq s && i.arReady

def wrGnt : Bool := (writeFsm s i).gnt

def arbGnt : Bool := rdGnt s i || wrGnt s i

/-- `arb_ack` -/
def arbAck (k : Fin 2) : Bool := arbGnt s i && arbIdx s = k

/-- `invalidate`: an atomic has been sent. -/
def invalidate : Bool := atomicTurn s && arbGnt s i

/-! ## The return path -/

def rdRdy : Bool := !invalidate s i

/-- The read beat that is taken, when its id satisfies a test. -/
def beatIf (test : Nat → Bool) : Option (RBeat cfg) :=
  i.r.filter fun r => test r.id && rdRdy s i

def icacheBeat : Option (RBeat cfg) := beatIf s i fun id => id == 0

/-- The decoder of the data cache comes to the read responses. -/
def dcacheBeat : Option (RBeat cfg) :=
  if i.inval.isSome || cfg.rva && invalidate s i then none
  else beatIf s i fun id => id.testBit 0

def icacheDone : Bool := (icacheBeat s i).any fun r => r.last

def dcacheDone : Bool := (dcacheBeat s i).any fun r => r.last

/-- The beat belongs to an atomic. -/
def atomicBeat : Bool := (dcacheBeat s i).any fun r => cfg.rva && r.id.testBit 1

def bPush : Bool := i.b.isSome && !s.bs.full

/-- `{axi_wr_exokay, axi_wr_id_out}` -/
def bData : Bool × Nat :=
  match i.b with
  | some b => (b.resp == .exokay, b.id)
  | none => (false, 0)

def bIn (pop : Bool) : FifoIn (Bool × Nat) :=
  { flush := false, push := bPush s i, data := bData i, pop := pop }

def bEmpty : Bool := s.bs.empty (bCfg cfg) (bPush s i)

/-- The decoder comes to the write responses. -/
def bPop : Bool :=
  !(i.inval.isSome || cfg.rva && invalidate s i) && (dcacheBeat s i).isNone && !bEmpty s i

/-- `{wr_exokay, wr_id_out}` -/
def bOut : Bool × Nat := s.bs.dataO (bCfg cfg) (bIn s i false)

/-- The write response belongs to an atomic. -/
def atomicB : Bool := bPop s i && cfg.rva && (bOut s i).2.testBit 1

/-- `dcache_sc_rtrn` -/
def scRtrn : Bool := atomicB s i && !s.amoGenR

def dcacheWrPop : Bool :=
  dcacheDone s i && atomicBeat s i && !s.dcacheWrIds.empty (idCfg cfg) false ||
    bPop s i && (!atomicB s i || !s.amoGenR)

def dcacheRdPop : Bool :=
  dcacheDone s i && !(atomicBeat s i && !s.dcacheWrIds.empty (idCfg cfg) false)

/-- `dcache_rtrn_vld_d` -/
def dcacheRtrnVldD : Bool :=
  i.inval.isSome || cfg.rva && invalidate s i || dcacheDone s i ||
    bPop s i && (!atomicB s i || !s.amoGenR)

def dcacheRtrnTypeD : DRtrnType :=
  if i.inval.isSome || cfg.rva && invalidate s i then .invReq
  else if (dcacheBeat s i).isSome then if atomicBeat s i then .atomicAck else .loadAck
  else if bPop s i then if atomicB s i then .atomicAck else .storeAck
  else .loadAck

def dcacheRtrnInvD : DInval :=
  match i.inval with
  | some addr => { all := true, idx := addr % 2 ^ cfg.dcacheIndexWidth }
  | none =>
      if cfg.rva && invalidate s i then
        { all := true, idx := (dcacheHead s).paddr % 2 ^ cfg.dcacheIndexWidth }
      else {}

def dcacheRtrnTidD : Nat :=
  if dcacheWrPop s i then s.dcacheWrIds.stored (idCfg cfg)
  else s.dcacheRdIds.stored (idCfg cfg)

/-- Shift in a word; the first word of a burst also goes to the front. -/
def shiftIn {α : Type} {n : Nat} (first : Bool) (x : α) (q : Fin n → α) : Fin n → α := fun j =>
  if first && j.val == 0 then x
  else if inside : j.val + 1 < n then q ⟨j.val + 1, inside⟩
  else x

/-- The word that encodes the outcome of a store-conditional. -/
def scWord {n : Nat} (off : Nat) (exokay : Bool) : BitVec n :=
  if exokay then 0 else BitVec.ofNat n 1 <<< (8 * off)

/-- The first word is replaced. -/
def setFront {α : Type} {n : Nat} (x : α) (q : Fin n → α) : Fin n → α := fun j =>
  if j.val = 0 then x else q j

/-- `axi_rd_user` -/
def rdUser (r : RBeat cfg) : cfg.AxiUser := if cfg.axiUserEn then r.user else 0

def icacheOut : Option (IRtrn cfg) :=
  if s.icacheRtrnVld then some ⟨s.icacheRtrnTid, s.icacheShift, s.icacheShiftUser⟩ else none

def dcacheOut : Option (DRtrn cfg) :=
  if s.dcacheRtrnVld then
    some ⟨s.dcacheRtrnType, s.dcacheRtrnInv, s.dcacheRtrnTid, s.dcacheShift, s.dcacheShiftUser⟩
  else none

def icacheDataIn : FifoIn IReq :=
  { flush := false, push := icacheDataAck s i, data := i.icacheReq.getD {}, pop := arbAck s i 0 }

def dcacheDataIn : FifoIn (DReq cfg) :=
  { flush := false, push := dcacheDataAck s i, data := i.dcacheReq.getD {}, pop := arbAck s i 1 }

def next : State cfg where
  icacheData := s.icacheData.cycle (reqCfg cfg) (icacheDataIn s i) {}
  dcacheData := s.dcacheData.cycle (reqCfg cfg) (dcacheDataIn s i) {}
  icacheIds := s.icacheIds.cycle (idCfg cfg)
    { flush := false, push := arbAck s i 0 && rdGnt s i, data := (icacheHead s).tid,
      pop := icacheDone s i } 0
  dcacheRdIds := s.dcacheRdIds.cycle (idCfg cfg)
    { flush := false, push := arbAck s i 1 && rdGnt s i, data := (dcacheHead s).tid,
      pop := dcacheRdPop s i } 0
  dcacheWrIds := s.dcacheWrIds.cycle (idCfg cfg)
    { flush := false, push := arbAck s i 1 && wrGnt s i, data := (dcacheHead s).tid,
      pop := dcacheWrPop s i } 0
  bs := s.bs.cycle (bCfg cfg) (bIn s i (bPop s i)) (false, 0)
  arb := s.arb.next true (arbReq s) (arbGnt s i)
  amoOff := if atomicTurn s && isSc (dcacheHead s) then scOff (dcacheHead s) else s.amoOff
  amoGenR := if atomicTurn s then !isSc (dcacheHead s) else s.amoGenR
  wrState := (writeFsm s i).state
  wrCnt :=
    if (writeFsm s i).cntClr then 0
    else if (writeFsm s i).cntEn && cfg.axiBurstWriteEn then s.wrCnt + 1
    else s.wrCnt
  icacheFirst := match icacheBeat s i with
    | some r => r.last
    | none => s.icacheFirst
  dcacheFirst := match dcacheBeat s i with
    | some r => r.last
    | none => s.dcacheFirst
  icacheShift := match icacheBeat s i with
    | some r => shiftIn s.icacheFirst r.data s.icacheShift
    | none => s.icacheShift
  dcacheShift := match dcacheBeat s i with
    | some r => shiftIn s.dcacheFirst r.data s.dcacheShift
    | none =>
        if cfg.rva && scRtrn s i then setFront (scWord s.amoOff (bOut s i).1) s.dcacheShift
        else s.dcacheShift
  icacheShiftUser := match icacheBeat s i with
    | some r => shiftIn s.icacheFirst (rdUser r) s.icacheShiftUser
    | none => s.icacheShiftUser
  dcacheShiftUser := match dcacheBeat s i with
    | some r => shiftIn s.dcacheFirst (rdUser r) s.dcacheShiftUser
    | none =>
        if cfg.rva && scRtrn s i then setFront (scWord s.amoOff (bOut s i).1) s.dcacheShiftUser
        else s.dcacheShiftUser
  icacheRtrnVld := icacheDone s i
  icacheRtrnTid := s.icacheIds.stored (idCfg cfg)
  dcacheRtrnVld := dcacheRtrnVldD s i
  dcacheRtrnTid := dcacheRtrnTidD s i
  dcacheRtrnType := dcacheRtrnTypeD s i
  dcacheRtrnInv := dcacheRtrnInvD s i

end Signals

def reset (cfg : AdapterCfg) : State cfg where
  icacheData := Fifo.reset {}
  dcacheData := Fifo.reset {}
  icacheIds := Fifo.reset 0
  dcacheRdIds := Fifo.reset 0
  dcacheWrIds := Fifo.reset 0
  bs := Fifo.reset (false, 0)
  arb := {}
  amoOff := 0
  amoGenR := false
  wrState := .idle
  wrCnt := 0
  icacheFirst := true
  dcacheFirst := true
  icacheShift _ := 0
  dcacheShift _ := 0
  icacheShiftUser _ := 0
  dcacheShiftUser _ := 0
  icacheRtrnVld := false
  icacheRtrnTid := 0
  dcacheRtrnVld := false
  dcacheRtrnTid := 0
  dcacheRtrnType := .loadAck
  dcacheRtrnInv := {}

end Cva6.AxiAdapter
