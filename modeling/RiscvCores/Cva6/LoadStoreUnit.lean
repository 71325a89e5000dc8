import RiscvCores.CommonCells.Lzc
import RiscvCores.Cva6.ArianePkg
import RiscvCores.Cva6.StoreBuffer

/-!
# The data path of `load_store_unit`

`lsu_bypass` holds the requests, `store_unit` with its store buffer serves the stores
and `load_unit` the loads.  Address translation and the data cache are inputs; of the
translation the model keeps the address that was given to it one cycle before, since
page offsets are not translated.
-/

set_option autoImplicit false

namespace Cva6

/-- The parameters of the unit; `nonIdempotent` is the region check of a page number. -/
structure LsuCfg extends StoreCfg where
  vlen : Nat
  ppnw : Nat
  transIdBits : Nat
  mmuPresent : Bool
  rva : Bool
  nonIdemPotenceEn : Bool
  nonIdempotent : BitVec ppnw → Bool
  nrLoadBufEntries : Nat
  someLoadBuf : 0 < nrLoadBufEntries

/-- `lsu_ctrl_t`, without what only the translation reads. -/
structure LsuCtrl (cfg : LsuCfg) where
  valid : Bool
  vaddr : BitVec cfg.vlen
  data : BitVec cfg.xlen
  be : BitVec (cfg.xlen / 8)
  fu : Fu
  operation : FuOp
  transId : BitVec cfg.transIdBits
  deriving DecidableEq

def LsuCtrl.zero (cfg : LsuCfg) : LsuCtrl cfg where
  valid := false
  vaddr := 0
  data := 0
  be := 0
  fu := .none
  operation := .add
  transId := 0

/-! ## `lsu_bypass` -/

namespace LsuBypass

variable {cfg : LsuCfg}

structure State (cfg : LsuCfg) where
  mem : Fin 2 → LsuCtrl cfg
  readPointer : Fin 2
  writePointer : Fin 2
  statusCnt : BitVec 2

structure Input (cfg : LsuCfg) where
  flush : Bool
  lsuReq : LsuCtrl cfg
  lsuReqValid : Bool
  popLd : Bool
  popSt : Bool

variable (s : State cfg) (i : Input cfg)

def empty : Bool := s.statusCnt == 0

/-- `ready_o` -/
def ready : Bool := empty s

/-- `lsu_ctrl_o` -/
def lsuCtrl (lsuReq : LsuCtrl cfg) : LsuCtrl cfg :=
  if empty s then lsuReq else s.mem s.readPointer

def written : Fin 2 → LsuCtrl cfg :=
  if i.lsuReqValid then Function.update s.mem s.writePointer i.lsuReq else s.mem

/-- A pop invalidates the entry at the registered read pointer. -/
def popped : Fin 2 → LsuCtrl cfg :=
  if i.popSt && i.popLd then fun _ => LsuCtrl.zero cfg
  else if i.popSt || i.popLd then
    Function.update (written s i) s.readPointer
      { written s i s.readPointer with valid := false }
  else written s i

def readPointerN : Fin 2 :=
  let afterLd := if i.popLd then s.readPointer + 1 else s.readPointer
  if i.popSt then afterLd + 1 else afterLd

def statusCntN : BitVec 2 :=
  let afterReq := if i.lsuReqValid then s.statusCnt + 1 else s.statusCnt
  let afterLd := if i.popLd then afterReq - 1 else afterReq
  if i.popSt then afterLd - 1 else afterLd

def next : State cfg where
  mem := if i.flush then fun _ => LsuCtrl.zero cfg else popped s i
  readPointer := if i.flush then 0 else readPointerN s i
  writePointer :=
    if i.flush then 0 else if i.lsuReqValid then s.writePointer + 1 else s.writePointer
  statusCnt := if i.flush then 0 else statusCntN s i

def reset (cfg : LsuCfg) : State cfg where
  mem _ := LsuCtrl.zero cfg
  readPointer := 0
  writePointer := 0
  statusCnt := 0

end LsuBypass

/-! ## `store_unit` -/

namespace StoreUnit

inductive Control where
  | idle | validStore | waitTranslation | waitStoreReady
  deriving DecidableEq, Repr

variable {cfg : LsuCfg}

structure State (cfg : LsuCfg) where
  control : Control
  stData : BitVec cfg.xlen
  stBe : BitVec (cfg.xlen / 8)
  stDataSize : BitVec 2
  amoOp : Amo
  transId : BitVec cfg.transIdBits

structure Input (cfg : LsuCfg) where
  flush : Bool
  valid : Bool
  lsuCtrl : LsuCtrl cfg
  exValid : Bool
  dtlbHit : Bool

/-- `data_align`: the data is rotated to its place in the word. -/
def dataAlign (addr : BitVec 3) (data : BitVec cfg.xlen) : BitVec cfg.xlen :=
  let addrTmp := if cfg.xlen = 64 then addr else addr &&& 3
  data.rotateLeft (8 * addrTmp.toNat)

/-- `amo_op_d` -/
def amoOpOf (cfg : LsuCfg) (op : FuOp) : Amo :=
  if cfg.rva then
    if op ∈ [.amoLrw, .amoLrd] then .lr
    else if op ∈ [.amoScw, .amoScd] then .sc
    else if op ∈ [.amoSwapw, .amoSwapd] then .swap
    else if op ∈ [.amoAddw, .amoAddd] then .add
    else if op ∈ [.amoAndw, .amoAndd] then .and
    else if op ∈ [.amoOrw, .amoOrd] then .or
    else if op ∈ [.amoXorw, .amoXord] then .xor
    else if op ∈ [.amoMaxw, .amoMaxd] then .max
    else if op ∈ [.amoMaxwu, .amoMaxdu] then .maxu
    else if op ∈ [.amoMinw, .amoMind] then .min
    else if op ∈ [.amoMinwu, .amoMindu] then .minu
    else .none
  else .none

variable (s : State cfg) (i : Input cfg)

/-- `st_valid` -/
def stValid : Bool := s.control == .validStore && !i.flush && !i.exValid

def stValidWithoutFlush : Bool := s.control == .validStore

/-- The exception handling applies. -/
def excepts : Bool := i.exValid && s.control != .idle

/-- A valid store that the control takes up, from the idle or the valid state. -/
def takesUp : Bool :=
  match s.control with
  | .idle => i.valid
  | .validStore =>
      i.valid && cfg.rva && !isAmo i.lsuCtrl.operation || i.valid && !cfg.rva
  | _ => false

/-- The translation is not there yet. -/
def misses : Bool := cfg.mmuPresent && !i.dtlbHit

/-- `pop_st_o` -/
def popSt (stReady : Bool) : Bool :=
  excepts s i || takesUp s i && !misses i && stReady

/-- `translation_req_o` -/
def translationReq : Bool :=
  takesUp s i || s.control == .waitStoreReady || s.control == .waitTranslation && cfg.mmuPresent

/-- `valid_o` -/
def validO : Bool := s.control == .validStore || excepts s i

/-- `state_d` -/
def controlD (stReady : Bool) : Control :=
  if i.flush || excepts s i then .idle
  else if takesUp s i then
    if !stReady then .waitStoreReady else if misses i then .waitTranslation else .validStore
  else
    match s.control with
    | .idle => .idle
    | .validStore => .idle
    | .waitStoreReady => if stReady && i.dtlbHit then .idle else .waitStoreReady
    | .waitTranslation =>
        if cfg.mmuPresent && i.dtlbHit then .idle else .waitTranslation

def storeBufferValid : Bool := stValid s i && (!cfg.rva || s.amoOp == .none)

def amoBufferValid : Bool := stValid s i && (cfg.rva && s.amoOp != .none)

def next (stReady : Bool) : State cfg where
  control := controlD s i stReady
  stData :=
    if cfg.rva && isAmo i.lsuCtrl.operation then i.lsuCtrl.data
    else dataAlign (i.lsuCtrl.vaddr.extractLsb' 0 3) i.lsuCtrl.data
  stBe := i.lsuCtrl.be
  stDataSize := extractTransferSize i.lsuCtrl.operation
  amoOp := amoOpOf cfg i.lsuCtrl.operation
  transId := i.lsuCtrl.transId

def reset (cfg : LsuCfg) : State cfg where
  control := .idle
  stData := 0
  stBe := 0
  stDataSize := 0
  amoOp := .none
  transId := 0

end StoreUnit

/-! ## `load_unit` -/

namespace LoadUnit

inductive Control where
  | idle | waitGnt | sendTag | waitPageOffset | abortTransaction | abortTransactionNi
  | waitTranslation | waitFlush | waitWbEmpty
  deriving DecidableEq, Repr

variable {cfg : LsuCfg}

instance : NeZero cfg.nrLoadBufEntries := ⟨Nat.ne_of_gt cfg.someLoadBuf⟩

/-- `ldbuf_t` -/
structure LdBuf (cfg : LsuCfg) where
  transId : BitVec cfg.transIdBits
  addressOffset : BitVec (Nat.clog 2 (cfg.xlen / 8))
  operation : FuOp

structure State (cfg : LsuCfg) where
  control : Control
  ldbufValid : Fin cfg.nrLoadBufEntries → Bool
  ldbufFlushed : Fin cfg.nrLoadBufEntries → Bool
  ldbuf : Fin cfg.nrLoadBufEntries → LdBuf cfg
  ldbufLastId : Fin cfg.nrLoadBufEntries

structure Input (cfg : LsuCfg) where
  flush : Bool
  valid : Bool
  lsuCtrl : LsuCtrl cfg
  exValid : Bool
  dtlbHit : Bool
  dtlbPpn : BitVec cfg.ppnw
  pageOffsetMatches : Bool
  storeBufferEmpty : Bool
  commitTranId : BitVec cfg.transIdBits
  dcacheWbufferNotNi : Bool
  dataGnt : Bool
  dataRvalid : Bool
  dataRid : Fin cfg.nrLoadBufEntries

variable (s : State cfg) (i : Input cfg)

/-- `LDBUF_FALLTHROUGH` -/
def fallthrough (cfg : LsuCfg) : Bool := cfg.nrLoadBufEntries == 1

def ldbufFull : Bool := (List.finRange cfg.nrLoadBufEntries).all s.ldbufValid

/-- `stall_ni` -/
def stallNi : Bool :=
  ((!i.dcacheWbufferNotNi || !i.storeBufferEmpty) || i.commitTranId != i.lsuCtrl.transId) &&
    (cfg.nonIdempotent i.dtlbPpn && cfg.nonIdemPotenceEn)

def acceptReq : Bool :=
  i.valid && (!ldbufFull s || fallthrough cfg && i.dataRvalid)

/-- What `load_control` drives. -/
structure Drives where
  controlD : Control
  translationReq : Bool
  dataReq : Bool
  tagValid : Bool
  killReq : Bool
  popLd : Bool
  deriving DecidableEq

/-- Nothing is driven and the state stays. -/
def quiet (control : Control) : Drives where
  controlD := control
  translationReq := false
  dataReq := false
  tagValid := false
  killReq := false
  popLd := false

/-- A request is granted. -/
def granted (drives : Drives) : Drives :=
  if cfg.mmuPresent && !i.dtlbHit then { drives with controlD := .abortTransaction }
  else if !stallNi i then { drives with controlD := .sendTag, popLd := true }
  else if cfg.nonIdemPotenceEn then { drives with controlD := .abortTransactionNi }
  else drives

/-- A new load in the idle and the tag state. -/
def accepting (drives : Drives) : Drives :=
  if acceptReq s i then
    let drives := { drives with translationReq := true }
    if !i.pageOffsetMatches then
      let drives := { drives with dataReq := true }
      if !i.dataGnt then { drives with controlD := .waitGnt } else granted i drives
    else { drives with controlD := .waitPageOffset }
  else drives

/-- The tag of a request that is aborted. -/
def killing (control : Control) : Drives :=
  { quiet control with killReq := true, tagValid := true }

/-- `load_control` in front of the flush. -/
def control : Drives :=
  match s.control with
  | .idle => accepting s i (quiet .idle)
  | .waitPageOffset =>
      if !i.pageOffsetMatches then quiet .waitGnt else quiet .waitPageOffset
  | .waitGnt =>
      let drives := { quiet .waitGnt with translationReq := true, dataReq := true }
      if i.dataGnt then granted i drives else drives
  | .sendTag =>
      let drives := accepting s i { quiet .idle with tagValid := true }
      if i.exValid then { drives with killReq := true } else drives
  | .waitFlush => killing .idle
  | .abortTransaction => if cfg.mmuPresent then killing .waitTranslation else quiet .idle
  | .abortTransactionNi => if cfg.nonIdemPotenceEn then killing .waitWbEmpty else quiet .idle
  | .waitWbEmpty =>
      if cfg.nonIdemPotenceEn && i.dcacheWbufferNotNi then quiet .waitTranslation
      else quiet .idle
  | .waitTranslation =>
      if cfg.mmuPresent || cfg.nonIdemPotenceEn then
        if i.exValid then
          { quiet .idle with translationReq := true, popLd := !i.dataRvalid }
        else { quiet (if i.dtlbHit then .waitGnt else .waitTranslation) with
          translationReq := true }
      else quiet .idle

def drives : Drives :=
  if i.flush then { control s i with controlD := .waitFlush } else control s i

def ldbufW : Bool := (drives s i).dataReq && i.dataGnt

def ldbufFreeIndex : Fin cfg.nrLoadBufEntries :=
  if 1 < cfg.nrLoadBufEntries then
    Fin.ofNat _ (CommonCells.lzcCnt cfg.nrLoadBufEntries
      fun k => !s.ldbufValid (Fin.ofNat cfg.nrLoadBufEntries k))
  else 0

def ldbufRindex : Fin cfg.nrLoadBufEntries :=
  if 1 < cfg.nrLoadBufEntries then i.dataRid else 0

def ldbufWindex : Fin cfg.nrLoadBufEntries :=
  if fallthrough cfg && i.dataRvalid then ldbufRindex i else ldbufFreeIndex s

def ldbufWdata : LdBuf cfg where
  transId := i.lsuCtrl.transId
  addressOffset := i.lsuCtrl.vaddr.extractLsb' 0 _
  operation := i.lsuCtrl.operation

def ldbufValidD : Fin cfg.nrLoadBufEntries → Bool :=
  let read :=
    if i.dataRvalid && (!fallthrough cfg || !ldbufW s i) then
      Function.update s.ldbufValid (ldbufRindex i) false
    else s.ldbufValid
  if ldbufW s i then Function.update read (ldbufWindex s i) true else read

def ldbufFlushedD : Fin cfg.nrLoadBufEntries → Bool :=
  let flushed := if i.flush then fun _ => true else s.ldbufFlushed
  if ldbufW s i then Function.update flushed (ldbufWindex s i) false else flushed

def next : State cfg where
  control := (drives s i).controlD
  ldbufValid := ldbufValidD s i
  ldbufFlushed := ldbufFlushedD s i
  ldbuf :=
    if ldbufW s i then Function.update s.ldbuf (ldbufWindex s i) (ldbufWdata i) else s.ldbuf
  ldbufLastId := if ldbufW s i then ldbufWindex s i else s.ldbufLastId

def reset (cfg : LsuCfg) : State cfg where
  control := .idle
  ldbufValid _ := false
  ldbufFlushed _ := false
  ldbuf _ := { transId := 0, addressOffset := 0, operation := .add }
  ldbufLastId := 0

end LoadUnit

/-! ## `load_store_unit` -/

namespace Lsu

variable {cfg : LsuCfg}

structure State (cfg : LsuCfg) where
  bypass : LsuBypass.State cfg
  storeUnit : StoreUnit.State cfg
  storeBuffer : StoreBuffer.State cfg.toStoreCfg
  loadUnit : LoadUnit.State cfg
  lsuVaddr : BitVec cfg.vlen

structure Input (cfg : LsuCfg) where
  flush : Bool
  lsuReq : LsuCtrl cfg
  exValid : Bool
  dtlbHit : Bool
  dtlbPpn : BitVec cfg.ppnw
  paddr : BitVec cfg.plen
  commit : Bool
  stallStPending : Bool
  amoBufferReady : Bool
  storeGnt : Bool
  commitTranId : BitVec cfg.transIdBits
  dcacheWbufferNotNi : Bool
  loadGnt : Bool
  loadRvalid : Bool
  loadRid : Fin cfg.nrLoadBufEntries

variable (s : State cfg) (i : Input cfg)

/-- `lsu_ctrl`, the request at the head of the bypass. -/
def lsuCtrl : LsuCtrl cfg := LsuBypass.lsuCtrl s.bypass i.lsuReq

def ldValid : Bool := (lsuCtrl s i).fu == .load && (lsuCtrl s i).valid

def stValid : Bool := (lsuCtrl s i).fu == .store && (lsuCtrl s i).valid

/-- `mmu_vaddr` -/
def mmuVaddr : BitVec cfg.vlen :=
  if (lsuCtrl s i).fu = .load ∨ (lsuCtrl s i).fu = .store then (lsuCtrl s i).vaddr else 0

/-- Without translation there is always a hit. -/
def dtlbHit : Bool := !cfg.mmuPresent || i.dtlbHit

def storeUnitIn : StoreUnit.Input cfg where
  flush := i.flush
  valid := stValid s i
  lsuCtrl := lsuCtrl s i
  exValid := i.exValid
  dtlbHit := dtlbHit i

/-- `page_offset` -/
def pageOffset : BitVec 12 := (lsuCtrl s i).vaddr.extractLsb' 0 12

def storeBufferIn : StoreBuffer.Input cfg.toStoreCfg where
  flush := i.flush
  stallStPending := i.stallStPending
  pageOffset := pageOffset s i
  commit := i.commit
  valid := StoreUnit.storeBufferValid s.storeUnit (storeUnitIn s i)
  validWithoutFlush := StoreUnit.stValidWithoutFlush s.storeUnit
  store := {
    address := i.paddr
    data := s.storeUnit.stData
    be := s.storeUnit.stBe
    dataSize := s.storeUnit.stDataSize }
  dataGnt := i.storeGnt

/-- `st_ready` -/
def stReady : Bool :=
  StoreBuffer.ready s.storeBuffer (storeBufferIn s i) && (!cfg.rva || i.amoBufferReady)

def loadUnitIn : LoadUnit.Input cfg where
  flush := i.flush
  valid := ldValid s i
  lsuCtrl := lsuCtrl s i
  exValid := i.exValid
  dtlbHit := dtlbHit i
  dtlbPpn := i.dtlbPpn
  pageOffsetMatches := StoreBuffer.pageOffsetMatches s.storeBuffer (storeBufferIn s i)
  storeBufferEmpty := StoreBuffer.storeBufferEmpty s.storeBuffer
  commitTranId := i.commitTranId
  dcacheWbufferNotNi := i.dcacheWbufferNotNi
  dataGnt := i.loadGnt
  dataRvalid := i.loadRvalid
  dataRid := i.loadRid

def popSt : Bool := StoreUnit.popSt s.storeUnit (storeUnitIn s i) (stReady s i)

def loadDrives : LoadUnit.Drives := LoadUnit.drives s.loadUnit (loadUnitIn s i)

def popLd : Bool := (loadDrives s i).popLd

def bypassIn : LsuBypass.Input cfg where
  flush := i.flush
  lsuReq := i.lsuReq
  lsuReqValid := i.lsuReq.valid
  popLd := popLd s i
  popSt := popSt s i

def next : State cfg where
  bypass := LsuBypass.next s.bypass (bypassIn s i)
  storeUnit := StoreUnit.next s.storeUnit (storeUnitIn s i) (stReady s i)
  storeBuffer := StoreBuffer.next s.storeBuffer (storeBufferIn s i)
  loadUnit := LoadUnit.next s.loadUnit (loadUnitIn s i)
  lsuVaddr := mmuVaddr s i

def reset (cfg : LsuCfg) : State cfg where
  bypass := LsuBypass.reset cfg
  storeUnit := StoreUnit.reset cfg
  storeBuffer := StoreBuffer.reset
  loadUnit := LoadUnit.reset cfg
  lsuVaddr := 0

/-- `lsu_ready_o` of the cycle before. -/
def wasReady (cycles : List (State cfg × Input cfg)) : Bool :=
  match cycles.getLast? with
  | some now => LsuBypass.ready now.1.bypass
  | none => true

/-- A request comes only when the bypass was ready, and the physical address has the
page offset of the address that was translated. -/
def Driven (cycles : List (State cfg × Input cfg)) (s : State cfg) (i : Input cfg) : Prop :=
  (i.lsuReq.valid = true → wasReady cycles = true) ∧
    i.paddr.extractLsb' 0 12 = s.lsuVaddr.extractLsb' 0 12

instance (cycles : List (State cfg × Input cfg)) (s : State cfg) (i : Input cfg) :
    Decidable (Driven cycles s i) :=
  inferInstanceAs (Decidable (_ ∧ _))

def machine (cfg : LsuCfg) : Clocked.Machine (State cfg) (Input cfg) where
  reset := reset cfg
  next := next
  allowed := Driven

instance (cycles : List (State cfg × Input cfg)) (s : State cfg) (i : Input cfg) :
    Decidable ((machine cfg).allowed cycles s i) :=
  inferInstanceAs (Decidable (Driven cycles s i))

end Lsu

end Cva6
