import RiscvCores.Cva6.WtDcacheWbuffer
import RiscvCores.Lib.BitField

/-!
# The read port controller of the write-through cache

`wt_dcache_ctrl` between a load port, the memories of the cache and the miss unit.  A
granted request may hit, miss, be replayed and be killed; the history records the request
that is owed an answer and the miss that the miss unit has accepted.
-/

set_option autoImplicit false

namespace Cva6

open BitField

/-- The parameters of the controller. -/
structure DcacheCtrlCfg extends DcacheCfg where
  idWidth : Nat
  userWidth : Nat
  rdTxId : BitVec memTidWidth

namespace DcacheCtrl

abbrev Tag (cfg : DcacheCtrlCfg) : Type := BitVec cfg.tagWidth

/-- `DCACHE_CL_IDX_WIDTH` -/
abbrev Idx (cfg : DcacheCtrlCfg) : Type := BitVec (cfg.indexWidth - cfg.offsetWidth)

abbrev Off (cfg : DcacheCtrlCfg) : Type := BitVec cfg.offsetWidth

abbrev Ways (cfg : DcacheCtrlCfg) : Type := Fin cfg.setAssoc → Bool

/-- `state_e` -/
inductive Fsm where
  | idle | read | missReq | missWait | killMiss | killMissAck | replayReq | replayRead
  deriving DecidableEq, Repr

structure Regs (cfg : DcacheCtrlCfg) where
  state : Fsm
  addressTag : Tag cfg
  addressIdx : Idx cfg
  addressOff : Off cfg
  id : BitVec cfg.idWidth
  vldData : Ways cfg
  dataSize : BitVec 2
  rdReq : Bool
  rdAck : Bool

structure Input (cfg : DcacheCtrlCfg) where
  cacheEn : Bool
  /-- `req_port_i` -/
  dataReq : Bool
  addressIndex : BitVec cfg.indexWidth
  addressTag : Tag cfg
  dataId : BitVec cfg.idWidth
  dataSize : BitVec 2
  tagValid : Bool
  killReq : Bool
  missAck : Bool
  missReplay : Bool
  missRtrnVld : Bool
  wrClVld : Bool
  rdAck : Bool
  rdData : BitVec (8 * cfg.bytes)
  rdUser : BitVec cfg.userWidth
  rdVldBits : Ways cfg
  rdHitOh : Ways cfg

/-- What the process `p_fsm` drives. -/
structure Drive where
  state : Fsm
  saveTag : Bool := false
  rdReq : Bool := false
  missReq : Bool := false
  dataRvalid : Bool := false
  dataGnt : Bool := false

section Model

variable {cfg : DcacheCtrlCfg} (s : Regs cfg) (i : Input cfg)

def anyHit : Bool := decide (∃ k, i.rdHitOh k = true)

/-- The states `READ` and `REPLAY_READ`. -/
def lookUp : Drive :=
  if i.killReq then { state := .idle, rdReq := true, dataRvalid := true }
  else if i.tagValid || s.state == .replayRead then
    let saveTag := s.state != .replayRead
    if i.wrClVld || !s.rdAck then { state := .replayReq, rdReq := true, saveTag := saveTag }
    else if anyHit i && i.cacheEn then
      if i.rdAck && i.dataReq then
        { state := .read, rdReq := true, saveTag := saveTag, dataRvalid := true, dataGnt := true }
      else { state := .idle, rdReq := true, saveTag := saveTag, dataRvalid := true }
    else { state := .missReq, rdReq := true, saveTag := saveTag }
  else { state := s.state, rdReq := true }

def missReqState : Drive :=
  if i.killReq then
    { state := if i.missAck then .killMiss else .killMissAck, missReq := true, dataRvalid := true }
  else if i.missReplay then { state := .replayReq, missReq := true }
  else { state := if i.missAck then .missWait else s.state, missReq := true }

def missWaitState : Drive :=
  if i.killReq then
    { state := if i.missRtrnVld then .idle else .killMiss, dataRvalid := true }
  else if i.missRtrnVld then { state := .idle, dataRvalid := true }
  else { state := s.state }

def replayReqState : Drive :=
  if i.killReq then { state := .idle, rdReq := true, dataRvalid := true }
  else { state := if i.rdAck then .replayRead else s.state, rdReq := true }

/-- The process `p_fsm`. -/
def drive : Drive :=
  match s.state with
  | .idle =>
      if i.dataReq then
        { state := if i.rdAck then .read else s.state, rdReq := true, dataGnt := i.rdAck }
      else { state := s.state }
  | .read | .replayRead => lookUp s i
  | .missReq => missReqState s i
  | .missWait => missWaitState s i
  | .replayReq => replayReqState s i
  | .killMissAck =>
      { state :=
          if i.missReplay then .idle else if i.missAck then .killMiss else s.state
        missReq := true }
  | .killMiss => { state := if i.missRtrnVld then .idle else s.state }

/-- `address_index[DCACHE_INDEX_WIDTH-1:DCACHE_OFFSET_WIDTH]` -/
def idxOf (index : BitVec cfg.indexWidth) : Idx cfg :=
  field index cfg.offsetWidth (cfg.indexWidth - cfg.offsetWidth)

def offOf (index : BitVec cfg.indexWidth) : Off cfg := field index 0 cfg.offsetWidth

def next : Regs cfg where
  state := (drive s i).state
  addressTag := if (drive s i).saveTag then i.addressTag else s.addressTag
  addressIdx := if (drive s i).dataGnt then idxOf i.addressIndex else s.addressIdx
  addressOff := if (drive s i).dataGnt then offOf i.addressIndex else s.addressOff
  id := if (drive s i).dataGnt then i.dataId else s.id
  vldData := if s.rdReq then i.rdVldBits else s.vldData
  dataSize := if (drive s i).dataGnt then i.dataSize else s.dataSize
  rdReq := (drive s i).rdReq
  rdAck := i.rdAck

/-! ## Outputs -/

/-- `miss_paddr_o` -/
def missPaddr : BitVec (cfg.tagWidth + ((cfg.indexWidth - cfg.offsetWidth) + cfg.offsetWidth)) :=
  s.addressTag ++ (s.addressIdx ++ s.addressOff)

/-- `miss_nc_o` -/
def missNc : Bool :=
  !i.cacheEn || !cfg.isInsideCacheableRegions (s.addressTag.toNat * 2 ^ cfg.indexWidth)

/-- `miss_size_o` -/
def missSize : BitVec 3 := if missNc s i then 0#1 ++ s.dataSize else 7

/-- `miss_vld_bits_o` -/
def missVldBits : Ways cfg := s.vldData

/-- `req_port_o.data_rid` -/
def dataRid : BitVec cfg.idWidth := s.id

/-- `req_port_o.data_rdata` -/
def dataRdata : BitVec (8 * cfg.bytes) := i.rdData

def reset : Regs cfg where
  state := .idle
  addressTag := 0
  addressIdx := 0
  addressOff := 0
  id := 0
  vldData := fun _ => false
  dataSize := 0
  rdReq := false
  rdAck := false

end Model

end DcacheCtrl

end Cva6
