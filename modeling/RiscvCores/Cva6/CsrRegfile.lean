import RiscvCores.Lib.Clocked
import RiscvCores.Cva6.ArianePkg
import RiscvCores.Cva6.RiscvPkg

/-!
# CSR register file: `csr_regfile`

The combinational block `csr_update` is cut where its comments cut it: the
write of the selected register, the hardwired fields, the exception stack,
debug entry, translation enables and returns, each a function from registers to
registers in the order of the source.  Registers that a configuration does not
clock keep their reset value.
-/

set_option autoImplicit false

namespace Cva6.CsrRegfile

open BitField
open Cva6.Pmp (PrivLvl PmpAddrMode PmpCfg)

/-- The fields of `cva6_cfg_t` that the register file reads, and its parameters. -/
structure CsrCfg where
  isXlen64 : Bool
  rva : Bool
  rvb : Bool
  rvc : Bool
  rvd : Bool
  rvf : Bool
  rvh : Bool
  rvs : Bool
  rvu : Bool
  rvv : Bool
  rvzcmt : Bool
  rvzicntr : Bool
  rvzihpm : Bool
  nsx : Bool
  fpPresent : Bool
  debugEn : Bool
  tvalEn : Bool
  perfCounterEn : Bool
  enableAccelerator : Bool
  softwareInterruptEn : Bool
  directVecOnly : Bool
  mmuPresent : Bool
  zeroTval : Bool
  vlen : Nat
  nrCommitPorts : Nat
  mhpmCounterNum : Nat
  dmBaseAddress : BitVec 64
  exceptionAddress : BitVec 64
  nrPMPEntries : Nat
  pmpCfgRstVal : Fin 64 → PmpCfg
  pmpAddrRstVal : Fin 64 → BitVec 64
  pmpEntryReadOnly : Fin 64 → Bool
  pmpNapotEn : Bool

namespace CsrCfg

variable (cfg : CsrCfg)

def xlen : Nat := if cfg.isXlen64 then 64 else 32
def plen : Nat := if cfg.isXlen64 then 56 else 34
def gplen : Nat := if cfg.isXlen64 then 41 else 34
def modeW : Nat := if cfg.isXlen64 then 4 else 1
def asidW : Nat := if cfg.isXlen64 then 16 else 9
def vmidW : Nat := if cfg.isXlen64 then 14 else 7
def ppnW : Nat := if cfg.isXlen64 then 44 else 22
def asidWidth : Nat := if cfg.isXlen64 then 16 else 1
def vmidWidth : Nat := if cfg.isXlen64 then 14 else 1

/-- `MODE_SV`. -/
def modeSv : BitVec 4 := if cfg.isXlen64 then 8 else 1

/-- `IsaCode`. -/
def isaCode : BitVec cfg.xlen :=
  let bit (b : Bool) (k : Nat) : BitVec cfg.xlen := (BitVec.ofBool b).setWidth cfg.xlen <<< k
  bit cfg.rva 0 ||| bit cfg.rvb 1 ||| bit cfg.rvc 2 ||| bit cfg.rvd 3 ||| bit cfg.rvf 5 |||
    bit cfg.rvh 7 ||| bit true 8 ||| bit true 12 ||| bit cfg.rvs 18 ||| bit cfg.rvu 20 |||
    bit cfg.rvv 21 ||| bit cfg.nsx 23 |||
    (if cfg.isXlen64 then 2 else 1) <<< (cfg.xlen - 2)

end CsrCfg

/-- `exception_t`. -/
structure Exception (cfg : CsrCfg) where
  cause : BitVec cfg.xlen := 0
  tval : BitVec cfg.xlen := 0
  tval2 : BitVec cfg.gplen := 0
  tinst : BitVec 32 := 0
  gva : Bool := false
  valid : Bool := false

/-- The registers. -/
structure Regs (cfg : CsrCfg) where
  privLvl : PrivLvl
  v : Bool
  debugMode : Bool
  mtvecRstLoad : Bool
  fcsr : BitVec 32
  jvt : BitVec cfg.xlen
  dcsr : BitVec 32
  dpc : BitVec cfg.xlen
  dscratch0 : BitVec cfg.xlen
  dscratch1 : BitVec cfg.xlen
  mstatus : BitVec 64
  hstatus : BitVec 64
  vsstatus : BitVec 64
  mtvec : BitVec cfg.xlen
  medeleg : BitVec cfg.xlen
  mideleg : BitVec cfg.xlen
  mip : BitVec cfg.xlen
  mie : BitVec cfg.xlen
  mcounteren : BitVec cfg.xlen
  mscratch : BitVec cfg.xlen
  mepc : BitVec cfg.xlen
  mcause : BitVec cfg.xlen
  mtval : BitVec cfg.xlen
  mtinst : BitVec cfg.xlen
  mtval2 : BitVec cfg.xlen
  fiom : Bool
  stvec : BitVec cfg.xlen
  scounteren : BitVec cfg.xlen
  sscratch : BitVec cfg.xlen
  sepc : BitVec cfg.xlen
  scause : BitVec cfg.xlen
  stval : BitVec cfg.xlen
  satp : BitVec cfg.xlen
  hedeleg : BitVec cfg.xlen
  hideleg : BitVec cfg.xlen
  hcounteren : BitVec cfg.xlen
  hgeie : BitVec cfg.xlen
  htinst : BitVec cfg.xlen
  htval : BitVec cfg.xlen
  hgatp : BitVec cfg.xlen
  vstvec : BitVec cfg.xlen
  vsscratch : BitVec cfg.xlen
  vsepc : BitVec cfg.xlen
  vscause : BitVec cfg.xlen
  vstval : BitVec cfg.xlen
  vsatp : BitVec cfg.xlen
  dcache : BitVec cfg.xlen
  icache : BitVec cfg.xlen
  accCons : BitVec cfg.xlen
  enLdStTranslation : Bool
  enLdStGTranslation : Bool
  wfi : Bool
  cycle : BitVec 64
  instret : BitVec 64
  mcountinhibit : BitVec (cfg.mhpmCounterNum + 3)
  pmpcfg : Fin 64 → PmpCfg
  pmpaddr : Fin 64 → BitVec (cfg.plen - 2)

/-- The inputs other than the CSR operation and its address. -/
structure Pins (cfg : CsrCfg) where
  csrWdata : BitVec cfg.xlen := 0
  ex : Exception cfg := {}
  pc : BitVec cfg.vlen := 0
  bootAddr : BitVec cfg.vlen := 0
  hartId : BitVec cfg.xlen := 0
  commitAck : Nat → Bool := fun _ => false
  commitFu : Fu := .none
  commitPc : BitVec cfg.vlen := 0
  commitPredictAddress : BitVec cfg.vlen := 0
  commitIsCompressed : Bool := false
  dirtyFpState : Bool := false
  csrWriteFflags : Bool := false
  dirtyVState : Bool := false
  accFflagsEx : BitVec 5 := 0
  accFflagsExValid : Bool := false
  perfData : BitVec cfg.xlen := 0
  irq : BitVec 2 := 0
  ipi : Bool := false
  timeIrq : Bool := false
  debugReq : Bool := false

/-- The inputs of one cycle. -/
structure Input (cfg : CsrCfg) where
  csrOp : FuOp := .add
  csrAddr : BitVec 12 := 0
  pins : Pins cfg := {}

section Model

variable {cfg : CsrCfg}

/-- The registers after reset. -/
def reset (cfg : CsrCfg) : Regs cfg where
  privLvl := .m
  v := false
  debugMode := false
  mtvecRstLoad := true
  fcsr := 0
  jvt := 0
  dcsr := setField (setPrv 0 .m) Dcsr.xdebugver (4#4)
  dpc := 0
  dscratch0 := 0
  dscratch1 := 0
  mstatus := 0
  hstatus := 0
  vsstatus := 0
  mtvec := 0
  medeleg := 0
  mideleg := 0
  mip := 0
  mie := 0
  mcounteren := 0
  mscratch := 0
  mepc := 0
  mcause := 0
  mtval := 0
  mtinst := 0
  mtval2 := 0
  fiom := false
  stvec := 0
  scounteren := 0
  sscratch := 0
  sepc := 0
  scause := 0
  stval := 0
  satp := 0
  hedeleg := 0
  hideleg := 0
  hcounteren := 0
  hgeie := 0
  htinst := 0
  htval := 0
  hgatp := 0
  vstvec := 0
  vsscratch := 0
  vsepc := 0
  vscause := 0
  vstval := 0
  vsatp := 0
  dcache := 1
  icache := 1
  accCons := (BitVec.ofBool cfg.enableAccelerator).setWidth cfg.xlen
  enLdStTranslation := false
  enLdStGTranslation := false
  wfi := false
  cycle := 0
  instret := 0
  mcountinhibit := 0
  pmpcfg := fun i => if i.val < cfg.nrPMPEntries then cfg.pmpCfgRstVal i else pmpcfgZero
  pmpaddr := fun i =>
    if i.val < cfg.nrPMPEntries then (cfg.pmpAddrRstVal i).setWidth (cfg.plen - 2) else 0

/-! ## Reading -/

/-- `priv_lvl_o`: debug mode executes with privilege level M. -/
def privLvlO (s : Regs cfg) : PrivLvl :=
  if cfg.debugEn && s.debugMode then .m else s.privLvl

/-- `conv_csr_addr`. -/
def convCsrAddr (s : Regs cfg) (csrAddr : BitVec 12) : BitVec 12 :=
  if cfg.rvh then convertVsAccessCsr csrAddr s.v else csrAddr

/-- The guard of the floating-point registers. -/
def fpAccess (s : Regs cfg) : Bool :=
  cfg.fpPresent && !(field s.mstatus Mstatus.fs 2 == xsOff ||
    (cfg.rvh && s.v && field s.vsstatus Mstatus.fs 2 == xsOff))

/-- `mstatus_extended` and `vsstatus_extended`. -/
def statusExtended (cfg : CsrCfg) (status : BitVec 64) : BitVec cfg.xlen :=
  if cfg.isXlen64 then status.setWidth cfg.xlen
  else ((BitVec.ofBool (flag status Mstatus.sd) ++ field status Mstatus.wpri3 8 ++
    field status 0 23 : BitVec 32)).setWidth cfg.xlen

/-- `vm_mode_t'(satp.mode)`, for `satp_t` and `hgatp_t` alike. -/
def vmMode (cfg : CsrCfg) (satp : BitVec cfg.xlen) : BitVec 4 :=
  (field satp (cfg.xlen - cfg.modeW) cfg.modeW).setWidth 4

/-- Accesses to `satp` are intercepted in S-mode when `tvm` is set. -/
def satpIntercepted (s : Regs cfg) : Bool :=
  privLvlO s == .s && flag s.mstatus Mstatus.tvm

/-- Accesses to `hgatp` are intercepted in HS-mode when `tvm` is set. -/
def hgatpIntercepted (s : Regs cfg) : Bool :=
  privLvlO s == .s && !s.v && flag s.mstatus Mstatus.tvm

/-- Accesses to `vsatp` are intercepted in VS-mode when `vtvm` is set. -/
def vsatpIntercepted (s : Regs cfg) : Bool :=
  privLvlO s == .s && flag s.hstatus Hstatus.vtvm && s.v

/-- The mask of the interrupts that a supervisor sees. -/
def supervisorMask (s : Regs cfg) : BitVec cfg.xlen :=
  if cfg.rvh then s.mideleg &&& ~~~vsInterrupts cfg.xlen else s.mideleg

/-- `index` of a PMP configuration register. -/
def pmpcfgIndex (csrAddr : BitVec 12) : Nat := (csrAddr - 0x3A0#12).toNat

/-- `index` of a PMP address register. -/
def pmpaddrIndex (csrAddr : BitVec 12) : Nat := (csrAddr - 0x3B0#12).toNat

/-- `pmpcfg_q[index*4 +: XLEN/8]`. -/
def pmpcfgRead (s : Regs cfg) (index : Nat) : BitVec cfg.xlen :=
  (List.range (cfg.xlen / 8)).foldl (fun word k =>
    if h : index * 4 + k < 64 then setField word (8 * k) (pmpcfgBits (s.pmpcfg ⟨index * 4 + k, h⟩))
    else word) 0

/-- The value of a `pmpaddr` register, with the last bit of its mode. -/
def pmpaddrRead (s : Regs cfg) (index : Nat) : BitVec cfg.xlen :=
  if h : index < 64 then
    let mode := addrModeBits (s.pmpcfg ⟨index, h⟩).addrMode
    (setFlag (s.pmpaddr ⟨index, h⟩) 0 (flag mode 1)).setWidth cfg.xlen
  else 0

/-- `csr_rdata`, `read_access_exception` and `virtual_read_access_exception`. -/
structure Read (cfg : CsrCfg) where
  csrRdata : BitVec cfg.xlen := 0
  readAccessException : Bool := false
  virtualReadAccessException : Bool := false

def Read.value (x : BitVec cfg.xlen) : Read cfg := { csrRdata := x }

/-- A register that is there when `present`. -/
def Read.when (present : Bool) (x : BitVec cfg.xlen) : Read cfg :=
  if present then { csrRdata := x } else { readAccessException := true }

/-- The case statement of `csr_read_process`. -/
def csrReadCase (s : Regs cfg) (pins : Pins cfg) (csrAddr : BitVec 12) (csr : Csr) : Read cfg :=
  match csr with
  | .fflags => .when (fpAccess s) ((field s.fcsr Fcsr.fflags 5).setWidth cfg.xlen)
  | .frm => .when (fpAccess s) ((field s.fcsr Fcsr.frm 3).setWidth cfg.xlen)
  | .fcsr => .when (fpAccess s) ((field s.fcsr 0 8).setWidth cfg.xlen)
  | .jvt => .when cfg.rvzcmt s.jvt
  | .ftran => .when (fpAccess s) ((field s.fcsr Fcsr.fprec 7).setWidth cfg.xlen)
  | .dcsr => .when cfg.debugEn (s.dcsr.setWidth cfg.xlen)
  | .dpc => .when cfg.debugEn s.dpc
  | .dscratch0 => .when cfg.debugEn s.dscratch0
  | .dscratch1 => .when cfg.debugEn s.dscratch1
  | .tselect | .tdata1 | .tdata2 | .tdata3 => .when false 0
  | .vsstatus => .when cfg.rvh (statusExtended cfg s.vsstatus)
  | .vsie => .when cfg.rvh ((s.mie &&& vsInterrupts cfg.xlen &&& s.hideleg) >>> 1)
  | .vsip => .when cfg.rvh ((s.mip &&& vsInterrupts cfg.xlen &&& s.hideleg) >>> 1)
  | .vstvec => .when cfg.rvh s.vstvec
  | .vsscratch => .when cfg.rvh s.vsscratch
  | .vsepc => .when cfg.rvh s.vsepc
  | .vscause => .when cfg.rvh s.vscause
  | .vstval => .when cfg.rvh s.vstval
  | .vsatp =>
      if cfg.rvh then
        if vsatpIntercepted s then { virtualReadAccessException := true } else .value s.vsatp
      else .when false 0
  | .sstatus => .when cfg.rvs
      (statusExtended cfg s.mstatus &&& (smodeStatusReadMask cfg.isXlen64).setWidth cfg.xlen)
  | .sie => .when cfg.rvs (s.mie &&& supervisorMask s)
  | .sip => .when cfg.rvs (s.mip &&& supervisorMask s)
  | .stvec => .when cfg.rvs s.stvec
  | .scounteren => .when cfg.rvs s.scounteren
  | .sscratch => .when cfg.rvs s.sscratch
  | .sepc => .when cfg.rvs s.sepc
  | .scause => .when cfg.rvs s.scause
  | .stval => .when cfg.rvs s.stval
  | .satp =>
      if cfg.rvs then
        .when (!satpIntercepted s) s.satp
      else .when false 0
  | .senvcfg => .when cfg.rvs ((BitVec.ofBool s.fiom).setWidth cfg.xlen)
  | .hstatus => .when cfg.rvh (s.hstatus.setWidth cfg.xlen)
  | .hedeleg => .when cfg.rvh s.hedeleg
  | .hideleg => .when cfg.rvh s.hideleg
  | .hie => .when cfg.rvh (s.mie &&& vsInterrupts cfg.xlen)
  | .hip => .when cfg.rvh (s.mip &&& vsInterrupts cfg.xlen)
  | .hvip => .when cfg.rvh (s.mip &&& vsInterrupts cfg.xlen)
  | .hcounteren => .when cfg.rvh s.hcounteren
  | .htval => .when cfg.rvh s.htval
  | .htinst => .when cfg.rvh s.htinst
  | .hgeie | .hgeip => .when cfg.rvh 0
  | .henvcfg => .when cfg.rvh ((BitVec.ofBool s.fiom).setWidth cfg.xlen)
  | .hgatp =>
      if cfg.rvh then
        .when (!hgatpIntercepted s) s.hgatp
      else .when false 0
  | .mstatus => .value (statusExtended cfg s.mstatus)
  | .mstatush => .when (!cfg.isXlen64) 0
  | .misa => .value cfg.isaCode
  | .medeleg => .when cfg.rvs s.medeleg
  | .mideleg => .when cfg.rvs s.mideleg
  | .mie => .value s.mie
  | .mtvec => .value s.mtvec
  | .mcounteren => .when cfg.rvu s.mcounteren
  | .mscratch => .value s.mscratch
  | .mepc => .value s.mepc
  | .mcause => .value s.mcause
  | .mtval => .value (if cfg.tvalEn then s.mtval else 0)
  | .mtinst => .when cfg.rvh s.mtinst
  | .mtval2 => .when cfg.rvh s.mtval2
  | .mip => .value s.mip
  | .menvcfg => .when cfg.rvu ((BitVec.ofBool s.fiom).setWidth cfg.xlen)
  | .menvcfgh => .when (cfg.rvu && !cfg.isXlen64) 0
  | .mvendorid => .value 0x602
  | .marchid => .value 3
  | .mimpid => .value 0
  | .mhartid => .value pins.hartId
  | .mconfigptr => .value 0
  | .mcountinhibit => .value (s.mcountinhibit.setWidth cfg.xlen)
  | .mcycle => .value (s.cycle.setWidth cfg.xlen)
  | .mcycleh => .when (!cfg.isXlen64) ((field s.cycle 32 32).setWidth cfg.xlen)
  | .minstret => .value (s.instret.setWidth cfg.xlen)
  | .minstreth => .when (!cfg.isXlen64) ((field s.instret 32 32).setWidth cfg.xlen)
  | .cycle => .when cfg.rvzicntr (s.cycle.setWidth cfg.xlen)
  | .cycleh => .when (cfg.rvzicntr && !cfg.isXlen64) ((field s.cycle 32 32).setWidth cfg.xlen)
  | .instret => .when cfg.rvzicntr (s.instret.setWidth cfg.xlen)
  | .instreth =>
      .when (cfg.rvzicntr && !cfg.isXlen64) ((field s.instret 32 32).setWidth cfg.xlen)
  | .mhpmEvent | .mhpmCounter => .value pins.perfData
  | .mhpmCounterH => .when (!cfg.isXlen64) pins.perfData
  | .hpmCounter => .when cfg.rvzihpm pins.perfData
  | .hpmCounterH => .when (cfg.rvzihpm && !cfg.isXlen64) pins.perfData
  | .dcache => .value s.dcache
  | .icache => .value s.icache
  | .accCons => .when cfg.enableAccelerator s.accCons
  | .pmpcfg =>
      -- with `XLEN = 64` only the even registers exist
      .when (!(cfg.isXlen64 && pmpcfgIndex csrAddr % 2 == 1)) (pmpcfgRead s (pmpcfgIndex csrAddr))
  | .pmpaddr => .value (pmpaddrRead s (pmpaddrIndex csrAddr))
  | .other => .when false 0

/-! ## Writing -/

/-- What `csr_update` has assigned so far: the next registers and its signals. -/
structure Update (cfg : CsrCfg) where
  d : Regs cfg
  flush : Bool := false
  updateAccessException : Bool := false
  virtualUpdateAccessException : Bool := false
  perfWe : Bool := false
  perfData : BitVec cfg.xlen := 0
  dirtyFpStateCsr : Bool := false

/-- `instret` and `cycle` outside debug mode. -/
def counters (s : Regs cfg) (pins : Pins cfg) : Regs cfg :=
  if cfg.debugEn && s.debugMode then s
  else
    let retired := (List.range cfg.nrCommitPorts).countP fun k =>
      pins.commitAck k && !pins.ex.valid &&
        (!cfg.perfCounterEn || !flag s.mcountinhibit 2)
    { s with
      instret := s.instret + BitVec.ofNat 64 retired
      cycle := if !cfg.perfCounterEn || !flag s.mcountinhibit 0 then s.cycle + 1 else s.cycle }

/-- The defaults: every register keeps its value, `mtvec` is loaded after reset. -/
def defaults (s : Regs cfg) (pins : Pins cfg) : Update cfg where
  d :=
    { counters s pins with
      mtvec :=
        if s.mtvecRstLoad then pins.bootAddr.setWidth cfg.xlen + 0x40 else s.mtvec }

/-- A write that is refused. -/
def Update.reject (w : Update cfg) : Update cfg := { w with updateAccessException := true }

/-- A write to a register that is there when `present`. -/
def Update.when (w : Update cfg) (present : Bool) (d : Regs cfg) : Update cfg :=
  if present then { w with d } else w.reject

/-- A write with side effects, which flushes the pipeline. -/
def Update.flushWhen (w : Update cfg) (present : Bool) (d : Regs cfg) : Update cfg :=
  if present then { w with d, flush := true } else w.reject

/-- A write of a floating-point register. -/
def Update.fpWhen (w : Update cfg) (present : Bool) (fcsr : BitVec 32) : Update cfg :=
  if present then { w with d := { w.d with fcsr }, dirtyFpStateCsr := true, flush := true }
  else w.reject

/-- A write of an address-translation register, which flushes in any case: it is
`refused` when intercepted, and only supported modes are taken. -/
def Update.translation (w refused : Update cfg) (present intercepted supported : Bool)
    (d : Regs cfg) : Update cfg :=
  if present then
    if intercepted then { refused with flush := true }
    else if supported then { w with d, flush := true }
    else { w with flush := true }
  else w.reject

/-- `x` without its last bit, and without bit 1: `mepc` and `stvec` formats. -/
def clearBit (x : BitVec cfg.xlen) (k : Nat) : BitVec cfg.xlen := setFlag x k false

/-- Only the lower 32 bits. -/
def low32 (x : BitVec cfg.xlen) : BitVec cfg.xlen := (field x 0 32).setWidth cfg.xlen

/-- Only the enable bit. -/
def low1 (x : BitVec cfg.xlen) : BitVec cfg.xlen := (field x 0 1).setWidth cfg.xlen

/-- `mode` is one that the core supports. -/
def modeSupported (cfg : CsrCfg) (satp : BitVec cfg.xlen) : Bool :=
  vmMode cfg satp == 0 || vmMode cfg satp == cfg.modeSv

/-- `satp` with the address-space bits that stick. -/
def satpOf (wdata : BitVec cfg.xlen) : BitVec cfg.xlen :=
  setField wdata cfg.ppnW
    (field wdata cfg.ppnW cfg.asidW &&& (BitVec.allOnes cfg.asidWidth).setWidth cfg.asidW)

/-- `hgatp` with `ppn[1:0]` cleared and the `vmid` bits that stick. -/
def hgatpOf (wdata : BitVec cfg.xlen) : BitVec cfg.xlen :=
  let aligned := setField wdata 0 (0#2)
  setField aligned cfg.ppnW
    (field aligned cfg.ppnW cfg.vmidW &&& (BitVec.allOnes cfg.vmidWidth).setWidth cfg.vmidW)

/-- Exceptions that a supervisor may take. -/
def delegableExceptions : List Nat :=
  [instrAddrMisaligned, instrAccessFault, illegalInstr, breakpoint, ldAddrMisaligned,
    ldAccessFault, stAddrMisaligned, stAccessFault, envCallUmode, instrPageFault,
    loadPageFault, storePageFault]

/-- Exceptions that only exist with the hypervisor extension. -/
def guestExceptions : List Nat :=
  [envCallVsmode, instrGuestPageFault, loadGuestPageFault, virtualInstruction,
    storeGuestPageFault]

def medelegMask (cfg : CsrCfg) : BitVec cfg.xlen :=
  bitMask cfg.xlen (delegableExceptions ++ if cfg.rvh then guestExceptions else [])

def supervisorInterrupts : List Nat := [irqSSoft, irqSTimer, irqSExt]
def machineInterrupts : List Nat := [irqMSoft, irqMTimer, irqMExt]

def mieMask (cfg : CsrCfg) : BitVec cfg.xlen :=
  if cfg.rvh then
    vsInterrupts cfg.xlen ||| bitMask cfg.xlen (supervisorInterrupts ++ machineInterrupts)
  else if cfg.rvs then bitMask cfg.xlen (supervisorInterrupts ++ machineInterrupts)
  else if cfg.softwareInterruptEn then bitMask cfg.xlen machineInterrupts
  else bitMask cfg.xlen [irqMTimer, irqMExt]

def mipMask (cfg : CsrCfg) : BitVec cfg.xlen :=
  if cfg.rvh then bitMask cfg.xlen (supervisorInterrupts ++ [irqVsSoft])
  else if cfg.rvs then bitMask cfg.xlen supervisorInterrupts
  else 0

/-- `mstatus` masked by `SMODE_STATUS_WRITE_MASK`, for `sstatus` and `vsstatus`. -/
def supervisorStatus (status : BitVec 64) (wdata : BitVec cfg.xlen) : BitVec 64 :=
  maskedWrite status (wdata.setWidth 64) ((smodeStatusWriteMask.setWidth cfg.xlen).setWidth 64)

/-- The value a write to `sstatus` gives `mstatus`. -/
def sstatusWrite (s : Regs cfg) (wdata : BitVec cfg.xlen) : BitVec 64 :=
  let m := supervisorStatus s.mstatus wdata
  let m := if cfg.fpPresent then m else setField m Mstatus.fs xsOff
  let m := if cfg.rvv then m else setField m Mstatus.vs xsOff
  if !cfg.rvh && mpp m == .hs then setMpp m (mpp s.mstatus) else m

/-- The value a write to `vsstatus` gives it. -/
def vsstatusWrite (s : Regs cfg) (wdata : BitVec cfg.xlen) : BitVec 64 :=
  let m := setField (supervisorStatus s.vsstatus wdata) Mstatus.xs xsOff
  if cfg.fpPresent then m else setField m Mstatus.fs xsOff

/-- The fields of `mstatus` that read zero without supervisor or user mode. -/
def mstatusAbsent (cfg : CsrCfg) : List Nat :=
  (if cfg.rvs then [] else
    [Mstatus.sie, Mstatus.spie, Mstatus.spp, Mstatus.sum, Mstatus.mxr, Mstatus.tvm,
      Mstatus.tsr]) ++
  (if cfg.rvu then [] else [Mstatus.tw, Mstatus.mprv])

/-- The value a write to `mstatus` gives it. -/
def mstatusWrite (s : Regs cfg) (wdata : BitVec cfg.xlen) : BitVec 64 :=
  let m := setField (wdata.setWidth 64) Mstatus.xs xsOff
  let m := if cfg.fpPresent then m else setField m Mstatus.fs xsOff
  let m := if cfg.rvv then m else setField m Mstatus.vs xsOff
  let m := (mstatusAbsent cfg).foldl (fun m k => setFlag m k false) m
  let m :=
    if (!cfg.rvh && mpp m == .hs) || (!cfg.rvs && mpp m == .s) || (!cfg.rvu && mpp m == .u) then
      setMpp m (mpp s.mstatus)
    else m
  let m := setField m Mstatus.wpri3 (0#9)
  let m := setFlag m Mstatus.wpri1 false
  let m := setFlag m Mstatus.wpri2 false
  let m := setFlag m 0 false
  setFlag m Mstatus.ube false

/-- The value a write to `dcsr` gives it. -/
def dcsrWrite (wdata : BitVec cfg.xlen) : BitVec 32 :=
  let d := setField (field wdata 0 32) Dcsr.xdebugver (4#4)
  let d := setFlag d Dcsr.nmip false
  let d := setFlag d Dcsr.stopcount false
  setFlag d Dcsr.stoptime false

/-- The value a write to `mtvec` gives it. -/
def mtvecWrite (wdata : BitVec cfg.xlen) : BitVec cfg.xlen :=
  let vectored := !cfg.directVecOnly && flag wdata 0
  if vectored then setField wdata 0 (1#8)
  else setFlag (clearBit wdata 1) 0 vectored

/-- Entries of a PMP configuration register that are not locked take their byte. -/
def pmpcfgWrite (s : Regs cfg) (d : Fin 64 → PmpCfg) (index : Nat) (wdata : BitVec cfg.xlen) :
    Fin 64 → PmpCfg :=
  fun i =>
    if index * 4 ≤ i.val ∧ i.val < index * 4 + cfg.xlen / 8 ∧ (s.pmpcfg i).locked = false then
      pmpcfgOfBits (field wdata ((i.val - index * 4) * 8) 8)
    else d i

/-- Neither the entry nor a top-of-range entry above it is locked.  Above entry
63 the array ends; reading there gives no value that a condition accepts. -/
def pmpaddrWritable (s : Regs cfg) (i : Fin 64) : Bool :=
  !(s.pmpcfg i).locked &&
    if above : i.val + 1 < 64 then
      !((s.pmpcfg ⟨i.val + 1, above⟩).locked && (s.pmpcfg ⟨i.val + 1, above⟩).addrMode == .tor)
    else false

def pmpaddrWrite (s : Regs cfg) (d : Fin 64 → BitVec (cfg.plen - 2)) (index : Nat)
    (wdata : BitVec cfg.xlen) : Fin 64 → BitVec (cfg.plen - 2) :=
  fun i =>
    if i.val = index ∧ pmpaddrWritable s i = true then wdata.setWidth (cfg.plen - 2) else d i

/-- The case statement of `csr_update`. -/
def csrWriteCase (s : Regs cfg) (csrAddr : BitVec 12) (csr : Csr) (wdata : BitVec cfg.xlen)
    (w : Update cfg) : Update cfg :=
  let d := w.d
  match csr with
  | .fflags => w.fpWhen (fpAccess s) (setField d.fcsr Fcsr.fflags (field wdata 0 5))
  | .frm => w.fpWhen (fpAccess s) (setField d.fcsr Fcsr.frm (field wdata 0 3))
  | .fcsr => w.fpWhen (fpAccess s) (setField d.fcsr 0 (field wdata 0 8))
  | .ftran => w.fpWhen (fpAccess s) (setField d.fcsr Fcsr.fprec (field wdata 0 7))
  | .dcsr => w.when cfg.debugEn { d with dcsr := dcsrWrite wdata }
  | .dpc => w.when cfg.debugEn { d with dpc := wdata }
  | .dscratch0 => w.when cfg.debugEn { d with dscratch0 := wdata }
  | .dscratch1 => w.when cfg.debugEn { d with dscratch1 := wdata }
  | .jvt => w.when cfg.rvzcmt { d with jvt := setField wdata 0 (0#6) }
  | .tselect | .tdata1 | .tdata2 | .tdata3 => w.reject
  | .vsstatus => w.flushWhen cfg.rvh { d with vsstatus := vsstatusWrite s wdata }
  | .vsie => w.when cfg.rvh { d with mie := maskedWrite s.mie (wdata <<< 1) s.hideleg }
  | .vsip =>
      -- only the software interrupt is writable, if it is delegated
      w.when cfg.rvh { d with
        mip := maskedWrite s.mip (wdata <<< 1) (bitMask cfg.xlen [irqVsSoft] &&& s.hideleg) }
  | .vstvec => w.when cfg.rvh { d with vstvec := clearBit wdata 1 }
  | .vsscratch => w.when cfg.rvh { d with vsscratch := wdata }
  | .vsepc => w.when cfg.rvh { d with vsepc := clearBit wdata 0 }
  | .vscause => w.when cfg.rvh { d with vscause := wdata }
  | .vstval => w.when cfg.rvh { d with vstval := wdata }
  | .vsatp =>
      w.translation { w with virtualUpdateAccessException := true } cfg.rvh (vsatpIntercepted s)
        (modeSupported cfg (satpOf wdata)) { d with vsatp := satpOf wdata }
  | .sstatus => w.flushWhen cfg.rvs { d with mstatus := sstatusWrite s wdata }
  | .sie => w.when cfg.rvs { d with mie := maskedWrite s.mie wdata (supervisorMask s) }
  | .sip =>
      w.when cfg.rvs { d with
        mip := maskedWrite s.mip wdata (bitMask cfg.xlen [irqSSoft] &&& s.mideleg) }
  | .stvec => w.when cfg.rvs { d with stvec := clearBit wdata 1 }
  | .scounteren => w.when cfg.rvs { d with scounteren := low32 wdata }
  | .sscratch => w.when cfg.rvs { d with sscratch := wdata }
  | .sepc => w.when cfg.rvs { d with sepc := clearBit wdata 0 }
  | .scause => w.when cfg.rvs { d with scause := wdata }
  | .stval => w.when (cfg.rvs && cfg.tvalEn) { d with stval := wdata }
  | .satp =>
      w.translation w.reject cfg.rvs (satpIntercepted s) (modeSupported cfg (satpOf wdata))
        { d with satp := satpOf wdata }
  | .senvcfg => w.when cfg.rvu { d with fiom := flag wdata 0 }
  | .hstatus =>
      w.flushWhen cfg.rvh { d with
        hstatus := maskedWrite s.hstatus (wdata.setWidth 64)
          ((hstatusWriteMask.setWidth cfg.xlen).setWidth 64) }
  | .hedeleg =>
      w.when cfg.rvh { d with
        hedeleg := maskedWrite s.hedeleg wdata (bitMask cfg.xlen delegableExceptions) }
  | .hideleg =>
      w.when cfg.rvh { d with hideleg := maskedWrite s.hideleg wdata (vsInterrupts cfg.xlen) }
  | .hie => w.when cfg.rvh { d with mie := maskedWrite s.mie wdata (vsInterrupts cfg.xlen) }
  | .hip =>
      w.when cfg.rvh { d with mip := maskedWrite s.mip wdata (bitMask cfg.xlen [irqVsSoft]) }
  | .hvip => w.when cfg.rvh { d with mip := maskedWrite s.mip wdata (vsInterrupts cfg.xlen) }
  | .hcounteren => w.when cfg.rvh { d with hcounteren := low32 wdata }
  | .htval => w.when cfg.rvh { d with htval := wdata }
  | .htinst => w.when cfg.rvh { d with htinst := low32 wdata }
  | .hgeie => if cfg.rvh then w else w.reject
  | .hgatp =>
      w.translation w.reject cfg.rvh (hgatpIntercepted s) (modeSupported cfg (hgatpOf wdata))
        { d with hgatp := hgatpOf wdata }
  | .henvcfg => w.when cfg.rvh { d with fiom := flag wdata 0 }
  | .mstatus => w.flushWhen true { d with mstatus := mstatusWrite s wdata }
  | .mstatush => if cfg.isXlen64 then w.reject else w
  | .misa => w
  | .medeleg => w.when cfg.rvs { d with medeleg := maskedWrite s.medeleg wdata (medelegMask cfg) }
  | .mideleg =>
      let m := maskedWrite s.mideleg wdata (bitMask cfg.xlen supervisorInterrupts)
      w.when cfg.rvs { d with mideleg := if cfg.rvh then m ||| vsInterrupts cfg.xlen else m }
  | .mie => w.when true { d with mie := maskedWrite s.mie wdata (mieMask cfg) }
  | .mtvec => w.when true { d with mtvec := mtvecWrite wdata }
  | .mcounteren => w.when cfg.rvu { d with mcounteren := low32 wdata }
  | .mscratch => w.when true { d with mscratch := wdata }
  | .mepc => w.when true { d with mepc := clearBit wdata 0 }
  | .mcause => w.when true { d with mcause := wdata }
  | .mtval => if cfg.tvalEn then { w with d := { d with mtval := wdata } } else w
  | .mtinst => w.when cfg.rvh { d with mtinst := low32 wdata }
  | .mtval2 => w.when cfg.rvh { d with mtval2 := wdata }
  | .mip => w.when true { d with mip := maskedWrite s.mip wdata (mipMask cfg) }
  | .menvcfg => if cfg.rvu then { w with d := { d with fiom := flag wdata 0 } } else w
  | .menvcfgh => if cfg.rvu && !cfg.isXlen64 then w else w.reject
  | .mcountinhibit =>
      w.when true { d with
        mcountinhibit :=
          if cfg.perfCounterEn then
            setFlag (wdata.setWidth (cfg.mhpmCounterNum + 3)) 1 false
          else 0 }
  | .mcycle => w.when true { d with cycle := setField d.cycle 0 wdata }
  | .mcycleh => w.when (!cfg.isXlen64) { d with cycle := setField d.cycle 32 (field wdata 0 32) }
  | .minstret => w.when true { d with instret := setField d.instret 0 wdata }
  | .minstreth =>
      w.when (!cfg.isXlen64) { d with instret := setField d.instret 32 (field wdata 0 32) }
  | .mhpmEvent | .mhpmCounter => { w with perfWe := true, perfData := wdata }
  | .mhpmCounterH =>
      -- the write strobe is raised before the width is looked at
      if cfg.isXlen64 then { w.reject with perfWe := true }
      else { w with perfWe := true, perfData := wdata }
  | .dcache => w.when true { d with dcache := low1 wdata }
  | .icache => w.when true { d with icache := low1 wdata }
  | .accCons => w.when cfg.enableAccelerator { d with accCons := low1 wdata }
  | .pmpcfg =>
      if cfg.isXlen64 && pmpcfgIndex csrAddr % 2 == 1 then w.reject
      else { w with d := { d with pmpcfg := pmpcfgWrite s d.pmpcfg (pmpcfgIndex csrAddr) wdata } }
  | .pmpaddr =>
      { w with d := { d with pmpaddr := pmpaddrWrite s d.pmpaddr (pmpaddrIndex csrAddr) wdata } }
  | .hgeip | .mvendorid | .marchid | .mimpid | .mhartid | .mconfigptr | .cycle | .cycleh
  | .instret | .instreth | .hpmCounter | .hpmCounterH | .other => w.reject

/-! ## Privileges and the CSR operation -/

/-- A plain CSR access. -/
def csrAccess (op : FuOp) : Bool := op ∈ [.csrWrite, .csrSet, .csrClear, .csrRead]

/-- A register of the debugger outside debug mode. -/
def debugOnly (s : Regs cfg) (csrAddr : BitVec 12) : Bool :=
  field csrAddr 4 8 == 0x7B#8 && !(cfg.debugEn && s.debugMode)

/-- The counters that `mcounteren` guards. -/
def counterAddr (cfg : CsrCfg) (csrAddr : BitVec 12) : Bool :=
  let a := csrAddr.toNat
  (cfg.rvzihpm && (decide (0xC03 ≤ a ∧ a ≤ 0xC1F) || decide (0xC83 ≤ a ∧ a ≤ 0xC9F))) ||
    (cfg.rvzicntr && (decide (0xC00 ≤ a ∧ a ≤ 0xC02) || decide (0xC80 ≤ a ∧ a ≤ 0xC82)))

/-- `access_priv`: an S-mode access outside virtualization counts as HS. -/
def accessPriv (s : Regs cfg) : PrivLvl :=
  if privLvlO s == .s && !s.v then .hs else privLvlO s

/-- `privilege_violation` and `virtual_privilege_violation`, with `RVH`. -/
def privilegeCheckH (s : Regs cfg) (csrAddr : BitVec 12) : Bool × Bool :=
  let below := decide (privBits (accessPriv s) < csrPriv csrAddr)
  let guest := s.v && decide (csrPriv csrAddr ≤ privBits .hs)
  let violation := (below && !guest) || debugOnly s csrAddr
  let virtualViolation := below && guest
  let sel := (field csrAddr 0 5).toNat
  if counterAddr cfg csrAddr then
    let m := flag s.mcounteren sel
    let h := flag s.hcounteren sel
    let u := flag s.scounteren sel
    if privLvlO s == .s && cfg.rvs then (!m, s.v && m && !h)
    else if privLvlO s == .u && cfg.rvu then
      (if s.v then !m && !u && h else !m && !u, s.v && m && !h)
    else if privLvlO s == .m then (false, virtualViolation)
    else (violation, virtualViolation)
  else (violation, virtualViolation)

/-- `privilege_violation` without `RVH`. -/
def privilegeCheck (s : Regs cfg) (csrAddr : BitVec 12) : Bool :=
  let violation :=
    (cfg.rvu && (privBits (privLvlO s) &&& csrPriv csrAddr) != csrPriv csrAddr) ||
      debugOnly s csrAddr
  let sel := (field csrAddr 0 5).toNat
  if counterAddr cfg csrAddr then
    if privLvlO s == .s && cfg.rvs then !flag s.mcounteren sel
    else if privLvlO s == .u && cfg.rvu then !flag s.mcounteren sel || !flag s.scounteren sel
    else if privLvlO s == .m then false
    else violation
  else violation

/-- `privilege_violation`. -/
def privilegeViolation (s : Regs cfg) (i : Input cfg) : Bool :=
  csrAccess i.csrOp &&
    if cfg.rvh then (privilegeCheckH s i.csrAddr).1 else privilegeCheck s i.csrAddr

/-- `virtual_privilege_violation`. -/
def virtualPrivilegeViolation (s : Regs cfg) (i : Input cfg) : Bool :=
  csrAccess i.csrOp && cfg.rvh && (privilegeCheckH s i.csrAddr).2

/-- `csr_read`. -/
def csrRead (s : Regs cfg) (i : Input cfg) : Bool :=
  csrAccess i.csrOp && !privilegeViolation s i

/-- `csr_we`: only `privilege_violation` takes it away. -/
def csrWe (s : Regs cfg) (i : Input cfg) : Bool :=
  i.csrOp ∈ [.csrWrite, .csrSet, .csrClear] && !privilegeViolation s i

/-- The register the access selects. -/
def selected (s : Regs cfg) (i : Input cfg) : Csr := csrReg (convCsrAddr s i.csrAddr)

/-- `csr_read_process`. -/
def csrReadProcess (s : Regs cfg) (i : Input cfg) : Read cfg :=
  if csrRead s i then csrReadCase s i.pins i.csrAddr (selected s i) else {}

/-- `csr_wdata`. -/
def csrWdata (s : Regs cfg) (i : Input cfg) : BitVec cfg.xlen :=
  match i.csrOp with
  | .csrSet => i.pins.csrWdata ||| (csrReadProcess s i).csrRdata
  | .csrClear => ~~~i.pins.csrWdata &&& (csrReadProcess s i).csrRdata
  | _ => i.pins.csrWdata

/-- `csr_update` up to the end of its case statement. -/
def csrWrite (s : Regs cfg) (i : Input cfg) : Update cfg :=
  if csrWe s i then csrWriteCase s i.csrAddr (selected s i) (csrWdata s i) (defaults s i.pins)
  else defaults s i.pins

/-- `csr_exception_o.valid`. -/
def csrException (s : Regs cfg) (i : Input cfg) : Bool :=
  (csrWrite s i).updateAccessException || (csrReadProcess s i).readAccessException ||
    privilegeViolation s i ||
    (cfg.rvh && ((csrWrite s i).virtualUpdateAccessException ||
      (csrReadProcess s i).virtualReadAccessException || virtualPrivilegeViolation s i))

/-! ## Hardwired fields and pending interrupts -/

/-- The floating-point registers are marked dirty. -/
def fpDirty (w : Update cfg) (pins : Pins cfg) : Bool :=
  cfg.fpPresent && (w.dirtyFpStateCsr || pins.dirtyFpState)

/-- `mstatus` after the hardwired fields. -/
def mstatusHardwired (s : Regs cfg) (pins : Pins cfg) (w : Update cfg) : BitVec 64 :=
  let m := w.d.mstatus
  let m := if cfg.isXlen64 then setField (setField m Mstatus.sxl xlen64) Mstatus.uxl xlen64 else m
  let m := if cfg.rvu then m else setMpp m .m
  let m := if fpDirty w pins then setField m Mstatus.fs xsDirty else m
  let m := if cfg.rvv && pins.dirtyVState then setField m Mstatus.vs xsDirty else m
  setFlag m Mstatus.sd ((cfg.rvs || cfg.rvf) &&
    (field s.mstatus Mstatus.xs 2 == xsDirty || field s.mstatus Mstatus.fs 2 == xsDirty))

/-- `vsstatus` after the hardwired fields. -/
def vsstatusHardwired (s : Regs cfg) (pins : Pins cfg) (w : Update cfg) : BitVec 64 :=
  if cfg.rvh then
    let m := setField w.d.vsstatus Mstatus.uxl xlen64
    let m := if fpDirty w pins && s.v then setField m Mstatus.fs xsDirty else m
    setFlag m Mstatus.sd
      (field s.vsstatus Mstatus.xs 2 == xsDirty || field s.vsstatus Mstatus.fs 2 == xsDirty)
  else w.d.vsstatus

/-- `fcsr` after retired and imprecise floating-point exceptions. -/
def fcsrAccrued (s : Regs cfg) (pins : Pins cfg) (fcsr : BitVec 32) : BitVec 32 :=
  let f :=
    if cfg.fpPresent && pins.csrWriteFflags then
      setField fcsr Fcsr.fflags (field pins.csrWdata 0 5 ||| field s.fcsr Fcsr.fflags 5)
    else fcsr
  if cfg.enableAccelerator && pins.accFflagsExValid then
    setField f Fcsr.fflags (field f Fcsr.fflags 5 ||| pins.accFflagsEx)
  else f

/-- The machine interrupts follow their pins. -/
def mipPending (pins : Pins cfg) (mip : BitVec cfg.xlen) : BitVec cfg.xlen :=
  setFlag (setFlag (setFlag mip irqMExt (flag pins.irq 0))
    irqMSoft (cfg.softwareInterruptEn && pins.ipi)) irqMTimer pins.timeIrq

/-- The registers after the hardwired fields. -/
def hardwire (s : Regs cfg) (pins : Pins cfg) (w : Update cfg) : Regs cfg :=
  { w.d with
    mstatus := mstatusHardwired s pins w
    hstatus := if cfg.rvh then setField w.d.hstatus Hstatus.vsxl xlen64 else w.d.hstatus
    vsstatus := vsstatusHardwired s pins w
    pmpcfg := fun i =>
      if i.val < cfg.nrPMPEntries then { w.d.pmpcfg i with reserved := 0 } else w.d.pmpcfg i
    fcsr := fcsrAccrued s pins w.d.fcsr
    mip := mipPending pins w.d.mip }

/-! ## Exception stack -/

/-- An exception updates the exception registers. -/
def takesTrap (s : Regs cfg) (ex : Exception cfg) : Bool :=
  ex.valid && (!cfg.debugEn || (!s.debugMode && ex.cause.toNat != debugRequest))

/-- `ex_i.cause` as an index into a delegation register. -/
def causeIndex (ex : Exception cfg) : Nat :=
  (field ex.cause 0 (if cfg.isXlen64 then 6 else 5)).toNat

/-- The cause is delegated by the registers for interrupts and exceptions. -/
def delegated (ex : Exception cfg) (ideleg edeleg : BitVec cfg.xlen) : Bool :=
  (ex.cause.msb && flag ideleg (causeIndex ex)) || (!ex.cause.msb && flag edeleg (causeIndex ex))

/-- `trap_to_priv_lvl`. -/
def trapToPrivLvl (s : Regs cfg) (ex : Exception cfg) : PrivLvl :=
  if takesTrap s ex && cfg.rvs && delegated ex s.mideleg s.medeleg then
    if privLvlO s == .m then .m else .s
  else .m

/-- `trap_to_v`. -/
def trapToV (s : Regs cfg) (ex : Exception cfg) : Bool :=
  takesTrap s ex && cfg.rvs && delegated ex s.mideleg s.medeleg && cfg.rvh &&
    delegated ex s.hideleg s.hedeleg && s.v

/-- The cause is one of `causes` or an interrupt, and such traps report zero. -/
def zeroFor (ex : Exception cfg) (causes : List Nat) (interrupt : Bool) : Bool :=
  cfg.zeroTval && (causes.contains ex.cause.toNat || interrupt)

def tinstCauses : List Nat :=
  [instrAccessFault, illegalInstr, breakpoint, envCallUmode, envCallSmode, envCallMmode,
    instrPageFault, instrGuestPageFault, virtualInstruction]

/-- `{{XLEN-VLEN{pc[VLEN-1]}}, pc}`. -/
def extendPc (pc : BitVec cfg.vlen) : BitVec cfg.xlen := pc.signExtend cfg.xlen

/-- A trap to VS-mode. -/
def trapVs (s : Regs cfg) (pins : Pins cfg) (d : Regs cfg) : Regs cfg :=
  let ex := pins.ex
  { d with
    vsstatus :=
      setFlag (setFlag (setFlag d.vsstatus Mstatus.sie false)
        Mstatus.spie (flag s.vsstatus Mstatus.sie)) Mstatus.spp (flag (privBits s.privLvl) 0)
    vscause := if ex.cause.msb then setField ex.cause 0 (1#2) else ex.cause
    vsepc := extendPc pins.pc
    vstval :=
      if zeroFor ex [illegalInstr, breakpoint, envCallUmode] ex.cause.msb then 0 else ex.tval }

/-- A trap to S-mode, or to HS-mode with the hypervisor extension. -/
def trapS (s : Regs cfg) (pins : Pins cfg) (d : Regs cfg) : Regs cfg :=
  let ex := pins.ex
  let d := { d with
    mstatus :=
      setFlag (setFlag (setFlag d.mstatus Mstatus.sie false)
        Mstatus.spie (flag s.mstatus Mstatus.sie)) Mstatus.spp (flag (privBits s.privLvl) 0)
    scause := ex.cause
    sepc := extendPc pins.pc
    stval :=
      if zeroFor ex [illegalInstr, breakpoint, envCallUmode, envCallSmode, envCallMmode]
        ex.cause.msb then 0 else ex.tval }
  if cfg.rvh then
    { d with
      htinst := if zeroFor ex tinstCauses ex.cause.msb then 0 else ex.tinst.setWidth cfg.xlen
      htval := (ex.tval2 >>> 2).setWidth cfg.xlen
      hstatus :=
        setFlag (setFlag (if s.v then
            setFlag d.hstatus Hstatus.spvp (flag (privBits s.privLvl) 0)
          else d.hstatus) Hstatus.gva ex.gva) Hstatus.spv s.v }
  else d

/-- A trap to M-mode. -/
def trapM (s : Regs cfg) (pins : Pins cfg) (d : Regs cfg) : Regs cfg :=
  let ex := pins.ex
  let d := { d with
    mstatus :=
      setMpp (setFlag (setFlag d.mstatus Mstatus.mie false)
        Mstatus.mpie (flag s.mstatus Mstatus.mie)) s.privLvl
    mcause := ex.cause
    mepc := extendPc pins.pc
    mtval :=
      if cfg.tvalEn then
        if zeroFor ex [illegalInstr, breakpoint, envCallUmode, envCallSmode, envCallMmode]
          (flag ex.cause (cfg.gplen - 1)) then 0 else ex.tval
      else 0 }
  if cfg.rvh then
    { d with
      mstatus := setFlag (setFlag d.mstatus Mstatus.mpv s.v) Mstatus.gva ex.gva
      mtinst :=
        if zeroFor ex (instrAddrMisaligned :: tinstCauses) ex.cause.msb then 0
        else ex.tinst.setWidth cfg.xlen
      mtval2 := (ex.tval2 >>> 2).setWidth cfg.xlen }
  else d

/-- Manage the exception stack. -/
def exceptionStack (s : Regs cfg) (pins : Pins cfg) (d : Regs cfg) : Regs cfg :=
  if takesTrap s pins.ex then
    let d :=
      if cfg.rvs && trapToPrivLvl s pins.ex == .s then
        if cfg.rvh && trapToV s pins.ex then trapVs s pins d else trapS s pins d
      else trapM s pins d
    { d with
      privLvl := trapToPrivLvl s pins.ex
      v := if cfg.rvh then trapToV s pins.ex else d.v }
  else d

/-! ## Debug -/

/-- `trap_vector_base_o`. -/
def trapVectorBase (s : Regs cfg) (ex : Exception cfg) : BitVec cfg.vlen :=
  let target := trapToPrivLvl s ex
  let toV := trapToV s ex
  let base (tvec : BitVec cfg.xlen) : BitVec cfg.vlen := setField (tvec.setWidth cfg.vlen) 0 (0#2)
  let b := if cfg.rvs && target == .s then
      if cfg.rvh && toV then base s.vstvec else base s.stvec
    else base s.mtvec
  let b := if cfg.debugEn && s.debugMode then
      cfg.dmBaseAddress.setWidth cfg.vlen + cfg.exceptionAddress.setWidth cfg.vlen
    else b
  let vectoredM := !cfg.directVecOnly && flag s.mtvec 0
  let b :=
    if ex.cause.msb &&
        (((cfg.rvs || cfg.rvu) && target == .m && vectoredM) ||
          (!cfg.rvs && !cfg.rvu && vectoredM) ||
          (cfg.rvs && target == .s && !toV && flag s.stvec 0)) then
      setField b 2 (field ex.cause 0 6)
    else b
  if ex.cause.msb && (cfg.rvh && target == .s && toV && flag s.vstvec 0) then
    setField b 2 (field ex.cause 2 4 ++ 1#2)
  else b

/-- `dcsr` with the level and the virtualization mode saved. -/
def saveMode (s : Regs cfg) (dcsr : BitVec 32) : BitVec 32 :=
  setFlag (setPrv dcsr (privLvlO s)) Dcsr.v (cfg.rvh && s.v)

/-- `ebreak` enters debug mode at the current level. -/
def ebreakEnters (s : Regs cfg) : Bool :=
  match privLvlO s with
  | .m => flag s.dcsr Dcsr.ebreakm
  | .s => cfg.rvs && if cfg.rvh && s.v then flag s.dcsr Dcsr.ebreakvs else flag s.dcsr Dcsr.ebreaks
  | .u => cfg.rvu && if cfg.rvh && s.v then flag s.dcsr Dcsr.ebreakvu else flag s.dcsr Dcsr.ebreaku
  | .hs => false

/-- The address saved when a step is over.  `eret_o` is still low at this place
of the block, so that its branch is never taken. -/
def stepPc (s : Regs cfg) (pins : Pins cfg) : BitVec cfg.xlen :=
  if pins.commitFu == .ctrlFlow then extendPc pins.commitPredictAddress
  else if pins.ex.valid then (trapVectorBase s pins.ex).setWidth cfg.xlen
  else
    -- the extension copies the sign of the old address
    setField (extendPc pins.commitPc) 0
      (pins.commitPc + if pins.commitIsCompressed then 2 else 4)

/-- `happens` sets debug mode to `enters`, for `cause` and at `dpc`. -/
def debugWhen (s : Regs cfg) (happens enters : Bool) (dpc : BitVec cfg.xlen) (cause : BitVec 3)
    (d : Regs cfg) : Regs cfg :=
  if happens then
    { d with
      debugMode := enters
      dpc
      dcsr := setField (saveMode s d.dcsr) Dcsr.cause cause }
  else d

/-- Outside debug mode `dcsr` follows the current mode; a breakpoint, a debug
request and a step enter debug mode, the later one overriding. -/
def debugEntry (s : Regs cfg) (pins : Pins cfg) (d : Regs cfg) : Regs cfg :=
  let ex := pins.ex
  let breaks := ex.valid && ex.cause.toNat == breakpoint
  let requested := ex.valid && ex.cause.toNat == debugRequest
  let stepped := flag s.dcsr Dcsr.step && pins.commitAck 0
  if cfg.debugEn && !s.debugMode then
    debugWhen s stepped true (stepPc s pins) 4
      (debugWhen s requested true (extendPc pins.pc) 3
        (debugWhen s breaks (ebreakEnters s) (extendPc pins.pc) 1
          { d with dcsr := saveMode s d.dcsr }))
  else d

/-! ## Translation enables -/

/-- `mprv`. -/
def mprv (s : Regs cfg) : Bool :=
  if cfg.debugEn && s.debugMode && !flag s.dcsr Dcsr.mprven then false
  else flag s.mstatus Mstatus.mprv

/-- `en_translation_o`. -/
def enTranslation (s : Regs cfg) : Bool :=
  if cfg.rvh then
    ((vmMode cfg s.satp == cfg.modeSv && !s.v) || (vmMode cfg s.vsatp == cfg.modeSv && s.v)) &&
      privLvlO s != .m
  else cfg.rvs && vmMode cfg s.satp == cfg.modeSv && privLvlO s != .m

/-- `en_g_translation_o`. -/
def enGTranslation (s : Regs cfg) : Bool :=
  cfg.rvh && vmMode cfg s.hgatp == cfg.modeSv && privLvlO s != .m && s.v

/-- `en_ld_st_translation_d` and `en_ld_st_g_translation_d`. -/
def translationEnables (s : Regs cfg) (d : Regs cfg) : Regs cfg :=
  let mpv := flag s.mstatus Mstatus.mpv
  if cfg.rvh then
    { d with
      enLdStTranslation :=
        if mprv s && !mpv && vmMode cfg s.satp == cfg.modeSv && mpp s.mstatus != .m then true
        else if mprv s && mpv then vmMode cfg s.vsatp == cfg.modeSv
        else enTranslation s
      enLdStGTranslation :=
        if mprv s && mpv then vmMode cfg s.hgatp == cfg.modeSv else enGTranslation s }
  else
    { d with
      enLdStTranslation :=
        if cfg.mmuPresent && mprv s && cfg.rvs && vmMode cfg s.satp == cfg.modeSv &&
            mpp s.mstatus != .m then true
        else enTranslation s }

/-! ## Returns -/

/-- `mret`. -/
def returnM (s : Regs cfg) (d : Regs cfg) : Regs cfg :=
  let m := setFlag d.mstatus Mstatus.mie (flag s.mstatus Mstatus.mpie)
  let m := setMpp m (if cfg.rvu then .u else .m)
  let m := setFlag m Mstatus.mpie true
  let d := { d with privLvl := mpp s.mstatus, mstatus := m }
  if cfg.rvh then
    let m := setFlag d.mstatus Mstatus.mpv false
    { d with
      v := flag s.mstatus Mstatus.mpv
      mstatus := if mpp s.mstatus != .m then setFlag m Mstatus.mprv false else m }
  else d

/-- `sret` outside virtualization. -/
def returnS (s : Regs cfg) (d : Regs cfg) : Regs cfg :=
  let m := setFlag d.mstatus Mstatus.sie (flag s.mstatus Mstatus.spie)
  let m := setFlag m Mstatus.spp false
  let m := setFlag m Mstatus.spie true
  let d := { d with
    privLvl := if flag s.mstatus Mstatus.spp then .s else .u
    mstatus := m }
  if cfg.rvh then
    { d with
      v := flag s.hstatus Hstatus.spv
      hstatus := setFlag d.hstatus Hstatus.spv false
      mstatus := setFlag d.mstatus Mstatus.mprv false }
  else d

/-- `sret` in VS-mode. -/
def returnVs (s : Regs cfg) (d : Regs cfg) : Regs cfg :=
  let m := setFlag d.vsstatus Mstatus.sie (flag s.vsstatus Mstatus.spie)
  let m := setFlag m Mstatus.spp false
  { d with
    privLvl := if flag s.vsstatus Mstatus.spp then .s else .u
    vsstatus := setFlag m Mstatus.spie true }

/-- `dret`. -/
def returnDebug (s : Regs cfg) (d : Regs cfg) : Regs cfg :=
  { d with
    privLvl := prv s.dcsr
    v := if cfg.rvh then flag s.dcsr Dcsr.v else d.v
    debugMode := false }

/-- Return from environment. -/
def returnFrom (s : Regs cfg) (op : FuOp) (d : Regs cfg) : Regs cfg :=
  let sret := cfg.rvs && op == .sret
  let d := if op == .mret then returnM s d else d
  let d := if sret && (!cfg.rvh || !s.v) then returnS s d else d
  let d := if cfg.rvh && sret && s.v then returnVs s d else d
  if cfg.debugEn && op == .dret then returnDebug s d else d

/-! ## Registers -/

/-- `wfi_d`. -/
def wfiNext (s : Regs cfg) (op : FuOp) (pins : Pins cfg) : Bool :=
  if s.mip &&& s.mie != 0 || (cfg.debugEn && pins.debugReq) || flag pins.irq 1 then false
  else if op == .wfi && !pins.ex.valid && (!cfg.debugEn || !s.debugMode) then true
  else s.wfi

/-- `pmpcfg_next`. -/
def pmpcfgNext (s d : Regs cfg) (i : Fin 64) : PmpCfg :=
  if i.val < cfg.nrPMPEntries then
    if cfg.pmpEntryReadOnly i then s.pmpcfg i
    else
      let new := d.pmpcfg i
      { new with
        -- granularity is at least 8 bytes
        addrMode :=
          if (!cfg.pmpNapotEn && new.addrMode == .napot) || new.addrMode == .na4 then
            (s.pmpcfg i).addrMode
          else new.addrMode
        accessType :=
          if !flag new.accessType 0 && flag new.accessType 1 then (s.pmpcfg i).accessType
          else new.accessType }
  else pmpcfgZero

/-- `pmpaddr_next`. -/
def pmpaddrNext (s d : Regs cfg) (i : Fin 64) : BitVec (cfg.plen - 2) :=
  if i.val < cfg.nrPMPEntries then
    if cfg.pmpEntryReadOnly i then s.pmpaddr i else d.pmpaddr i
  else 0

/-- The clock edge. -/
def clock (s : Regs cfg) (op : FuOp) (pins : Pins cfg) (d : Regs cfg) : Regs cfg :=
  { d with
    mtvecRstLoad := false
    mtval := if cfg.tvalEn then d.mtval else s.mtval
    stval := if cfg.tvalEn then d.stval else s.stval
    wfi := wfiNext s op pins
    pmpcfg := pmpcfgNext s d
    pmpaddr := pmpaddrNext s d }

/-- `csr_update` after its case statement, and the clock edge. -/
def finish (s : Regs cfg) (op : FuOp) (pins : Pins cfg) (w : Update cfg) : Regs cfg :=
  clock s op pins
    (returnFrom s op
      (translationEnables s (debugEntry s pins (exceptionStack s pins (hardwire s pins w)))))

/-- The next registers. -/
def next (s : Regs cfg) (i : Input cfg) : Regs cfg :=
  finish s i.csrOp i.pins (csrWrite s i)

/-- `perf_we_o` and `perf_data_o`. -/
def perf (s : Regs cfg) (i : Input cfg) : Bool × BitVec cfg.xlen :=
  ((csrWrite s i).perfWe, (csrWrite s i).perfData)

end Model

/-- The register file under any sequence of operations, traps and returns. -/
def csrMachine (cfg : CsrCfg) : Clocked.Machine (Regs cfg) (Input cfg) where
  reset := reset cfg
  next := next
  allowed _ _ _ := True

/-- The configuration `cv64a6_imafdch_sv39`. -/
def cv64a6Imafdch : CsrCfg where
  isXlen64 := true
  rva := true
  rvb := true
  rvc := true
  rvd := true
  rvf := true
  rvh := true
  rvs := true
  rvu := true
  rvv := false
  rvzcmt := false
  rvzicntr := true
  rvzihpm := true
  nsx := false
  fpPresent := true
  debugEn := true
  tvalEn := true
  perfCounterEn := true
  enableAccelerator := false
  softwareInterruptEn := true
  directVecOnly := false
  mmuPresent := true
  zeroTval := false
  vlen := 64
  nrCommitPorts := 2
  mhpmCounterNum := 6
  dmBaseAddress := 0
  exceptionAddress := 0x808
  nrPMPEntries := 8
  pmpCfgRstVal := fun _ => pmpcfgZero
  pmpAddrRstVal := fun _ => 0
  pmpEntryReadOnly := fun _ => false
  pmpNapotEn := true

end Cva6.CsrRegfile
