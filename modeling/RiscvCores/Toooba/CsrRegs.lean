import RiscvCores.Toooba.CsrFile

/-!
# The registers that the CSRs show

`mkCsrFile` with the registers behind every CSR but the performance counters.  Traps,
returns and the writes that they share are those of `CsrFile`; what a method returns for
the tandem verifier is computed here once more, as in the source.
-/

set_option autoImplicit false

namespace Toooba.CsrFile

/-! ## More CSRs -/

namespace CSR

@[match_pattern] abbrev fflags : CSR := .other 0x001
@[match_pattern] abbrev frm : CSR := .other 0x002
@[match_pattern] abbrev fcsr : CSR := .other 0x003
@[match_pattern] abbrev cycle : CSR := .other 0xC00
@[match_pattern] abbrev time : CSR := .other 0xC01
@[match_pattern] abbrev instret : CSR := .other 0xC02
@[match_pattern] abbrev terminate : CSR := .other 0x800
@[match_pattern] abbrev stats : CSR := .other 0x801
@[match_pattern] abbrev scounteren : CSR := .other 0x106
@[match_pattern] abbrev sscratch : CSR := .other 0x140
@[match_pattern] abbrev misa : CSR := .other 0x301
@[match_pattern] abbrev mcounteren : CSR := .other 0x306
@[match_pattern] abbrev mscratch : CSR := .other 0x340
@[match_pattern] abbrev mcycle : CSR := .other 0xB00
@[match_pattern] abbrev minstret : CSR := .other 0xB02
@[match_pattern] abbrev mvendorid : CSR := .other 0xF11
@[match_pattern] abbrev marchid : CSR := .other 0xF12
@[match_pattern] abbrev mimpid : CSR := .other 0xF13
@[match_pattern] abbrev mhartid : CSR := .other 0xF14
@[match_pattern] abbrev tselect : CSR := .other 0x7A0
@[match_pattern] abbrev tdata1 : CSR := .other 0x7A1
@[match_pattern] abbrev tdata2 : CSR := .other 0x7A2
@[match_pattern] abbrev tdata3 : CSR := .other 0x7A3
@[match_pattern] abbrev dpc : CSR := .other 0x7B1
@[match_pattern] abbrev dscratch0 : CSR := .other 0x7B2
@[match_pattern] abbrev dscratch1 : CSR := .other 0x7B3

end CSR

/-! ## Registers -/

/-- `RiscVISASubset`; S and U are always there. -/
structure RiscVISASubset where
  m : Bool
  a : Bool
  f : Bool
  d : Bool
  c : Bool

/-- The build options with the instruction set and the number of the hart. -/
structure Build extends Config where
  isa : RiscVISASubset
  hartid : Data

/-- The counters that a lower level may read. -/
structure Counteren where
  ir : Bool
  tm : Bool
  cy : Bool

structure Regs extends State where
  fs : BitVec 2
  tw : Bool
  mxr : Bool
  sum : Bool
  mprv : Bool
  mcounteren : Counteren
  mscratch : Data
  minstret : Data
  mcycle : Data
  scounteren : Counteren
  sscratch : Data
  vmModeSv39 : Bool
  ppn : BitVec 44
  fflags : BitVec 5
  frm : BitVec 3
  time : Data
  doStats : Bool
  tselect : Data
  tdata1Dmode : Bool
  tdata1Data : BitVec 59
  tdata2 : Data
  tdata3 : Data
  dpc : Data
  dscratch0 : Data
  dscratch1 : Data

def getXLBits : BitVec 2 := 0b10

def getExtensionBits (isa : RiscVISASubset) : BitVec 26 :=
  -- S and I, and U
  let ext : BitVec 26 := 0x0040100 ||| 0x0100000
  let ext := if isa.m then ext ||| 0x0001000 else ext
  let ext := if isa.a then ext ||| 0x0000001 else ext
  let ext := if isa.f then ext ||| 0x0000020 else ext
  let ext := if isa.d then ext ||| 0x0000008 else ext
  if isa.c then ext ||| 0x0000004 else ext

def misaValue (isa : RiscVISASubset) : Data := getXLBits ++ 0#36 ++ getExtensionBits isa

def RiscVISASubset.hasFpu (isa : RiscVISASubset) : Bool := isa.f || isa.d

/-! ## The CSRs as read -/

section Read

variable (b : Build) (r : Regs)

/-- Without an FPU the register is read-only. -/
def fsReg : BitVec 2 := if b.isa.hasFpu then r.fs else 0

def xsReg : BitVec 2 := 0

def sdReg : BitVec 1 := if xsReg = 0b11 ∨ fsReg b r = 0b11 then 1 else 0

def mstatusCsr : Data :=
  sdReg b r ++ 0#27 ++ getXLBits ++ getXLBits ++ 0#9 ++
    bit r.tsr ++ bit r.tw ++ bit r.tvm ++ bit r.mxr ++ bit r.sum ++ bit r.mprv ++ xsReg ++
    fsReg b r ++ r.mpp ++ 0#2 ++ bit r.spp ++
    bit r.prevIeVec.m ++ 0#1 ++ bit r.prevIeVec.s ++ bit r.prevIeVec.u ++
    bit r.ieVec.m ++ 0#1 ++ bit r.ieVec.s ++ bit r.ieVec.u

def sstatusCsr : Data :=
  sdReg b r ++ 0#29 ++ getXLBits ++ 0#12 ++ bit r.mxr ++ bit r.sum ++ 0#1 ++ xsReg ++
    fsReg b r ++ 0#4 ++ bit r.spp ++ 0#2 ++ bit r.prevIeVec.s ++ bit r.prevIeVec.u ++ 0#2 ++
    bit r.ieVec.s ++ bit r.ieVec.u

def tvecCsr (tvec : Tvec) : Data := tvec.baseHi ++ 0#1 ++ bit tvec.modeLow

def causeCsr (cause : Cause) : Data := bit cause.interrupt ++ 0#59 ++ cause.code

/-- The other counters can always be read. -/
def counterenCsr (counteren : Counteren) : Data :=
  0#32 ++ ~~~0#29 ++ bit counteren.ir ++ bit counteren.tm ++ bit counteren.cy

/-- The view that the supervisor has of `mie` and `mip`. -/
def supervisorIntCsr (external timer software : IntVec) : Data :=
  0#54 ++ bit external.s ++ 0#1 ++ 0#2 ++ bit timer.s ++ 0#1 ++ 0#2 ++ bit software.s ++ 0#1

def sieCsr : Data := supervisorIntCsr r.externalIntEn r.timerIntEn r.softwareIntEn

def sipCsr : Data := supervisorIntCsr r.externalIntPend r.timerIntPend r.softwareIntPend

/-- The ASID has no bits. -/
def satpCsr : Data := bit r.vmModeSv39 ++ 0#3 ++ 0#16 ++ r.ppn

def tdata1Csr : Data := 0#4 ++ bit r.tdata1Dmode ++ r.tdata1Data

def rd : CSR → Data
  | .fflags => r.fflags.setWidth 64
  | .frm => r.frm.setWidth 64
  | .fcsr => (r.frm ++ r.fflags).setWidth 64
  | .cycle => r.mcycle
  | .time => r.time
  | .instret => r.minstret
  | .terminate => 0
  | .stats => (bit r.doStats).setWidth 64
  | .sstatus => sstatusCsr b r
  | .sie => sieCsr r
  | .stvec => tvecCsr r.stvec
  | .scounteren => counterenCsr r.scounteren
  | .sscratch => r.sscratch
  | .sepc => r.sepc
  | .scause => causeCsr r.scause
  | .stval => r.stval
  | .sip => sipCsr r
  | .satp => satpCsr r
  | .mstatus => mstatusCsr b r
  | .misa => misaValue b.isa
  | .medeleg => medelegCsr r.toState
  | .mideleg => midelegCsr r.toState
  | .mie => mieCsr r.toState
  | .mtvec => tvecCsr r.mtvec
  | .mcounteren => counterenCsr r.mcounteren
  | .mscratch => r.mscratch
  | .mepc => r.mepc
  | .mcause => causeCsr r.mcause
  | .mtval => r.mtval
  | .mip => mipCsr r.toState
  | .mcycle => r.mcycle
  | .minstret => r.minstret
  | .mhartid => b.hartid
  | .tselect => r.tselect
  | .tdata1 => tdata1Csr r
  | .tdata2 => r.tdata2
  | .tdata3 => r.tdata3
  | .dcsr => if b.gdbControl then r.dcsr else 0
  | .dpc => if b.gdbControl then r.dpc else 0
  | .dscratch0 => if b.gdbControl then r.dscratch0 else 0
  | .dscratch1 => if b.gdbControl then r.dscratch1 else 0
  | _ => 0

end Read

/-! ## Writes -/

def writeCounteren (x : Data) : Counteren :=
  { ir := x.getLsbD 2, tm := x.getLsbD 1, cy := x.getLsbD 0 }

/-- `csrInstWr`.  A write to a CSR of the FPU also makes `fs` dirty; `terminate` and
`stats` only tell the platform. -/
def Regs.csrInstWr (b : Build) (r : Regs) (csr : CSR) (x : Data) : Regs :=
  let r := { r with toState := CsrFile.csrInstWr r.toState b.toConfig csr x }
  match csr with
  | .fflags => { r with fflags := x.extractLsb' 0 5, fs := 0b11 }
  | .frm => { r with frm := x.extractLsb' 0 3, fs := 0b11 }
  | .fcsr => { r with frm := x.extractLsb' 5 3, fflags := x.extractLsb' 0 5, fs := 0b11 }
  | .sstatus =>
      { r with mxr := x.getLsbD 19, sum := x.getLsbD 18, fs := x.extractLsb' 13 2 }
  | .scounteren => { r with scounteren := writeCounteren x }
  | .sscratch => { r with sscratch := x }
  | .satp => { r with vmModeSv39 := x.getLsbD 63, ppn := x.extractLsb' 0 44 }
  | .mstatus =>
      { r with
        tw := x.getLsbD 21
        mxr := x.getLsbD 19
        sum := x.getLsbD 18
        mprv := x.getLsbD 17
        fs := x.extractLsb' 13 2 }
  | .mcounteren => { r with mcounteren := writeCounteren x }
  | .mscratch => { r with mscratch := x }
  | .mcycle => { r with mcycle := x }
  | .minstret => { r with minstret := x }
  | .tselect => { r with tselect := x }
  | .tdata1 => { r with tdata1Dmode := x.getLsbD 59, tdata1Data := x.extractLsb' 0 59 }
  | .tdata2 => { r with tdata2 := x }
  | .tdata3 => { r with tdata3 := x }
  | .dpc => if b.gdbControl then { r with dpc := x } else r
  | .dscratch0 => if b.gdbControl then { r with dscratch0 := x } else r
  | .dscratch1 => if b.gdbControl then { r with dscratch1 := x } else r
  | _ => r

/-! ## What the tandem verifier is told -/

def fnSdVal (xsVal fsVal : BitVec 2) : BitVec 1 := if xsVal = 0b11 ∨ fsVal = 0b11 then 1 else 0

def fnMstatusVal (sxlVal uxlVal : BitVec 2) (tsrVal twVal tvmVal mxrVal sumVal mprvVal : Bool)
    (xsVal fsVal mppVal : BitVec 2) (sppVal : Bool) (prevIeVec ieVec : PrvVec) : Data :=
  fnSdVal xsVal fsVal ++ 0#27 ++ sxlVal ++ uxlVal ++ 0#9 ++
    bit tsrVal ++ bit twVal ++ bit tvmVal ++ bit mxrVal ++ bit sumVal ++ bit mprvVal ++ xsVal ++
    fsVal ++ mppVal ++ 0#2 ++ bit sppVal ++
    bit prevIeVec.m ++ 0#1 ++ bit prevIeVec.s ++ bit prevIeVec.u ++
    bit ieVec.m ++ 0#1 ++ bit ieVec.s ++ bit ieVec.u

/-- The bits of the machine in the two vectors are not part of it. -/
def fnSstatusVal (uxlVal : BitVec 2) (mxrVal sumVal : Bool) (xsVal fsVal : BitVec 2)
    (sppVal : Bool) (prevIeVec ieVec : PrvVec) : Data :=
  fnSdVal xsVal fsVal ++ 0#27 ++ 0#2 ++ uxlVal ++ 0#12 ++ bit mxrVal ++ bit sumVal ++ 0#1 ++
    xsVal ++ fsVal ++ 0#4 ++ bit sppVal ++ 0#2 ++ bit prevIeVec.s ++ bit prevIeVec.u ++ 0#2 ++
    bit ieVec.s ++ bit ieVec.u

def fnCauseVal (interruptVal : Bool) (codeVal : BitVec 4) : Data :=
  bit interruptVal ++ 0#59 ++ codeVal

def mipMieWarlMask : Data := 0x222

def sipSieWarlMask : Data := 0x222

def fvWarlXform (b : Build) (r : Regs) (csr : CSR) (x : Data) : Data :=
  let fsVal : BitVec 2 := if b.isa.hasFpu then x.extractLsb' 13 2 else 0
  match csr with
  | .misa => misaValue b.isa
  | .mvendorid => 0
  | .marchid => 0
  | .mimpid => 0
  | .mhartid => b.hartid
  | .mstatus =>
      fnMstatusVal getXLBits getXLBits (x.getLsbD 22) (x.getLsbD 21) (x.getLsbD 20)
        (x.getLsbD 19) (x.getLsbD 18) (x.getLsbD 17) 0 fsVal (x.extractLsb' 11 2) (x.getLsbD 8)
        { m := x.getLsbD 7, s := x.getLsbD 5, u := x.getLsbD 4 }
        { m := x.getLsbD 3, s := x.getLsbD 1, u := x.getLsbD 0 }
  | .mtvec => x.extractLsb' 2 62 ++ 0#1 ++ bit (x.getLsbD 0)
  | .medeleg =>
      0#48 ++ bit (x.getLsbD 15) ++ 0#1 ++ x.extractLsb' 12 2 ++ bit (x.getLsbD 11) ++ 0#1 ++
        x.extractLsb' 0 10
  | .mideleg =>
      0#52 ++ bit (x.getLsbD 11) ++ 0#1 ++ x.extractLsb' 8 2 ++ bit (x.getLsbD 7) ++ 0#1 ++
        x.extractLsb' 4 2 ++ bit (x.getLsbD 3) ++ 0#1 ++ x.extractLsb' 0 2
  | .mip => mipCsr r.toState &&& ~~~mipMieWarlMask ||| x &&& mipMieWarlMask
  | .mie => x &&& mipMieWarlMask
  | .mcounteren => 0#61 ++ x.extractLsb' 0 3
  | .mcause => bit (x.getLsbD 63) ++ 0#59 ++ x.extractLsb' 0 4
  | .tdata1 => 0#4 ++ x.extractLsb' 0 60
  | .sstatus =>
      fnSstatusVal getXLBits (x.getLsbD 19) (x.getLsbD 18) 0 fsVal (x.getLsbD 8)
        { m := false, s := x.getLsbD 5, u := x.getLsbD 4 }
        { m := false, s := x.getLsbD 1, u := x.getLsbD 0 }
  | .stvec => x.extractLsb' 2 62 ++ 0#1 ++ bit (x.getLsbD 0)
  | .sip => sipCsr r &&& ~~~sipSieWarlMask ||| x &&& sipSieWarlMask
  | .sie => x &&& sipSieWarlMask
  | .scounteren => 0#61 ++ x.extractLsb' 0 3
  | .scause => bit (x.getLsbD 63) ++ 0#59 ++ x.extractLsb' 0 4
  | .satp => bit (x.getLsbD 63) ++ 0#3 ++ 0#16 ++ x.extractLsb' 0 44
  | .fflags => 0#59 ++ x.extractLsb' 0 5
  | .frm => 0#61 ++ x.extractLsb' 0 3
  | .fcsr => 0#56 ++ x.extractLsb' 0 8
  | .dcsr =>
      if b.gdbControl then
        0#32 ++ x.extractLsb' 28 4 ++ 0#12 ++ bit (x.getLsbD 14) ++ 0#1 ++ x.extractLsb' 6 8 ++
          0#1 ++ x.extractLsb' 0 5
      else x
  | _ => x

structure TrapUpdates where
  newPc : Addr
  prv : BitVec 2
  status : Data
  cause : Data
  epc : Data
  tval : Data

structure RetUpdates where
  newPc : Addr
  prv : BitVec 2
  status : Data

section Updates

variable (b : Build) (r : Regs)

def trapUpdates (t : Trap) (pc addr : Addr) (origInst : BitVec 32) : TrapUpdates :=
  let newPc := (trap r.toState t pc addr origInst).2
  let cause := fnCauseVal t.isInterrupt t.code
  let tval := trapVal t pc addr origInst
  if deleg r.toState t then
    { newPc, cause, tval
      prv := prvS
      status :=
        fnSstatusVal getXLBits r.mxr r.sum xsReg (fsReg b r) (r.prvReg.getLsbD 0)
          { r.prevIeVec with s := r.ieVec.s } { r.ieVec with s := false }
      epc := pc }
  else
    { newPc, cause, tval
      prv := prvM
      status :=
        fnMstatusVal getXLBits getXLBits r.tsr r.tw r.tvm r.mxr r.sum r.mprv xsReg (fsReg b r)
          r.prvReg r.spp { r.prevIeVec with m := r.ieVec.m } { r.ieVec with m := false }
      epc := pc }

def mretUpdates : RetUpdates where
  newPc := r.mepc
  prv := r.mpp
  status :=
    fnMstatusVal getXLBits getXLBits r.tsr r.tw r.tvm r.mxr r.sum r.mprv xsReg (fsReg b r)
      prvU r.spp { r.prevIeVec with m := true } { r.ieVec with m := r.prevIeVec.m }

/-- The whole `mstatus` is returned. -/
def sretUpdates : RetUpdates where
  newPc := r.sepc
  prv := 0#1 ++ bit r.spp
  status :=
    fnMstatusVal getXLBits getXLBits r.tsr r.tw r.tvm r.mxr r.sum r.mprv xsReg (fsReg b r)
      r.mpp (prvU.getLsbD 0) { r.prevIeVec with s := true } { r.ieVec with s := r.prevIeVec.s }

end Updates

/-! ## Cycles -/

/-- The method that the commit stage calls. -/
inductive Commit
  | idle
  | csrInstWr (csr : CSR) (x : Data)
  | fpuInstWr (fflags : BitVec 5)
  | trap (t : Trap) (pc addr : Addr) (origInst : BitVec 32)
  | mret
  | sret

def Regs.commit (b : Build) (r : Regs) : Commit → Regs
  | .idle => r
  | .csrInstWr csr x => r.csrInstWr b csr x
  | .fpuInstWr fflags => { r with fs := 0b11, fflags := r.fflags ||| fflags }
  | .trap t pc addr origInst => { r with toState := (CsrFile.trap r.toState t pc addr origInst).1 }
  | .mret => { r with toState := (CsrFile.mret r.toState).1 }
  | .sret => { r with toState := (CsrFile.sret r.toState).1 }

/-- The methods that others call in the same cycle. -/
structure Others where
  incInstret : Data := 0
  setTime : Option Data := none
  setMSIP : Option Bool := none
  setMTIP : Option Bool := none
  setMEIP : Option Bool := none
  setSEIP : Option Bool := none
  recvDoStats : Option Bool := none
  dpcWrite : Option Data := none
  dcsrCauseWrite : Option (BitVec 3) := none

/-- `rg_dcsr` with a cause, and the level before the cycle. -/
def dcsrWithCause (r : Regs) (cause : BitVec 3) : Data :=
  0#32 ++ r.dcsr.extractLsb' 9 23 ++ cause ++ r.dcsr.extractLsb' 2 4 ++ r.prvReg

/-- The registers after a cycle; `mcycle` and `minstret` count on from what was written. -/
def Regs.next (b : Build) (r : Regs) (commit : Commit) (others : Others) : Regs :=
  let r' := r.commit b commit
  { r' with
    minstret := r'.minstret + others.incInstret
    mcycle := r'.mcycle + 1
    time := others.setTime.getD r'.time
    softwareIntPend := { r'.softwareIntPend with m := others.setMSIP.getD r'.softwareIntPend.m }
    timerIntPend := { r'.timerIntPend with m := others.setMTIP.getD r'.timerIntPend.m }
    externalIntPend :=
      { m := others.setMEIP.getD r'.externalIntPend.m
        s := others.setSEIP.getD r'.externalIntPend.s }
    doStats := others.recvDoStats.getD r'.doStats
    dpc := others.dpcWrite.getD r'.dpc
    dcsr := (others.dcsrCauseWrite.map (dcsrWithCause r)).getD r'.dcsr }

/-- The registers after reset; `dpc` and those without a reset value are 0. -/
def Regs.reset : Regs where
  toState := CsrFile.reset
  fs := 0b01
  tw := false
  mxr := false
  sum := false
  mprv := false
  mcounteren := { ir := false, tm := false, cy := false }
  mscratch := 0
  minstret := 0
  mcycle := 0
  scounteren := { ir := false, tm := false, cy := false }
  sscratch := 0
  vmModeSv39 := false
  ppn := 0
  fflags := 0
  frm := 0
  time := 0
  doStats := false
  tselect := 0
  tdata1Dmode := false
  tdata1Data := 0
  tdata2 := 0
  tdata3 := 0
  dpc := 0
  dscratch0 := 0
  dscratch1 := 0

/-! ## What decode and rename read -/

structure CsrDecodeInfo where
  frm : BitVec 3
  fEnabled : Bool
  prv : BitVec 2
  trapVM : Bool
  timeoutWait : Bool
  trapSret : Bool
  cycleReadableByS : Bool
  cycleReadableByU : Bool
  instretReadableByS : Bool
  instretReadableByU : Bool
  timeReadableByS : Bool
  timeReadableByU : Bool

def decodeInfo (b : Build) (r : Regs) : CsrDecodeInfo where
  frm := r.frm
  fEnabled := fsReg b r != 0
  prv := r.prvReg
  trapVM := r.tvm
  timeoutWait := r.tw
  trapSret := r.tsr
  cycleReadableByS := r.mcounteren.cy
  cycleReadableByU := r.mcounteren.cy && r.scounteren.cy
  instretReadableByS := r.mcounteren.ir
  instretReadableByU := r.mcounteren.ir && r.scounteren.ir
  timeReadableByS := r.mcounteren.tm
  timeReadableByU := r.mcounteren.tm && r.scounteren.tm

end Toooba.CsrFile
