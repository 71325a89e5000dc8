import RiscvCores.Lib.BitField
import RiscvCores.Lib.Clocked

/-!
# Privilege, traps and interrupts of the CSR file

The part of `mkCsrFile` that traps, returns and the choice of an interrupt read or
write.  A CSR is a row of registers laid side by side; a write puts each slice of the
value into its register and read-only slices drop theirs.
-/

set_option autoImplicit false

namespace Toooba.CsrFile

abbrev Data := BitVec 64

abbrev Addr := BitVec 64

def prvU : BitVec 2 := 0
def prvS : BitVec 2 := 1
def prvM : BitVec 2 := 3

/-- The build options: `INCLUDE_GDB_CONTROL`. -/
structure Config where
  gdbControl : Bool

inductive Exception
  | instAddrMisaligned
  | instAccessFault
  | illegalInst
  | breakpoint
  | loadAddrMisaligned
  | loadAccessFault
  | storeAddrMisaligned
  | storeAccessFault
  | envCallU
  | envCallS
  | envCallM
  | instPageFault
  | loadPageFault
  | storePageFault
  deriving DecidableEq

def Exception.pack : Exception → BitVec 4
  | .instAddrMisaligned => 0
  | .instAccessFault => 1
  | .illegalInst => 2
  | .breakpoint => 3
  | .loadAddrMisaligned => 4
  | .loadAccessFault => 5
  | .storeAddrMisaligned => 6
  | .storeAccessFault => 7
  | .envCallU => 8
  | .envCallS => 9
  | .envCallM => 11
  | .instPageFault => 12
  | .loadPageFault => 13
  | .storePageFault => 15

/-- The last two exist with `INCLUDE_GDB_CONTROL` only. -/
inductive Interrupt
  | userSoftware
  | supervisorSoftware
  | machineSoftware
  | userTimer
  | supervisorTimer
  | machineTimer
  | userExternal
  | supervisorExternal
  | machineExternal
  | debugHalt
  | debugStep
  deriving DecidableEq

def Interrupt.pack : Interrupt → BitVec 4
  | .userSoftware => 0
  | .supervisorSoftware => 1
  | .machineSoftware => 3
  | .userTimer => 4
  | .supervisorTimer => 5
  | .machineTimer => 7
  | .userExternal => 8
  | .supervisorExternal => 9
  | .machineExternal => 11
  | .debugHalt => 14
  | .debugStep => 15

/-- `unpack`; the codes without an interrupt give no defined one. -/
def Interrupt.unpack : Nat → Interrupt
  | 1 => .supervisorSoftware
  | 3 => .machineSoftware
  | 4 => .userTimer
  | 5 => .supervisorTimer
  | 7 => .machineTimer
  | 8 => .userExternal
  | 9 => .supervisorExternal
  | 11 => .machineExternal
  | 14 => .debugHalt
  | 15 => .debugStep
  | _ => .userSoftware

inductive Trap
  | exception (e : Exception)
  | interrupt (i : Interrupt)
  deriving DecidableEq

def Trap.code : Trap → BitVec 4
  | .exception e => e.pack
  | .interrupt i => i.pack

def Trap.isInterrupt : Trap → Bool
  | .exception _ => false
  | .interrupt _ => true

/-- The CSRs whose registers are modelled; `other` are those that neither traps, returns,
the choice of an interrupt nor the checks below read, with their index. -/
inductive CSR
  | sstatus | sie | stvec | sepc | scause | stval | sip | satp
  | mstatus | medeleg | mideleg | mie | mtvec | mepc | mcause | mtval | mip
  | dcsr
  | none
  | other (index : BitVec 12)
  deriving DecidableEq

def CSR.pack : CSR → BitVec 12
  | .sstatus => 0x100
  | .sie => 0x104
  | .stvec => 0x105
  | .sepc => 0x141
  | .scause => 0x142
  | .stval => 0x143
  | .sip => 0x144
  | .satp => 0x180
  | .mstatus => 0x300
  | .medeleg => 0x302
  | .mideleg => 0x303
  | .mie => 0x304
  | .mtvec => 0x305
  | .mepc => 0x341
  | .mcause => 0x342
  | .mtval => 0x343
  | .mip => 0x344
  | .dcsr => 0x7B0
  | .none => 0x8ff
  | .other index => index

/-- A bit for each mode that has one. -/
structure PrvVec where
  u : Bool
  s : Bool
  m : Bool

/-- Interrupts of the supervisor and of the machine. -/
structure IntVec where
  s : Bool
  m : Bool

structure Tvec where
  baseHi : BitVec 62
  modeLow : Bool

structure Cause where
  interrupt : Bool
  code : BitVec 4

structure State where
  prvReg : BitVec 2
  tsr : Bool
  tvm : Bool
  mpp : BitVec 2
  spp : Bool
  ieVec : PrvVec
  prevIeVec : PrvVec
  medeleg15 : Bool
  medeleg1311 : BitVec 3
  medeleg90 : BitVec 10
  mideleg11 : Bool
  mideleg97 : BitVec 3
  mideleg53 : BitVec 3
  mideleg10 : BitVec 2
  externalIntEn : IntVec
  timerIntEn : IntVec
  softwareIntEn : IntVec
  externalIntPend : IntVec
  timerIntPend : IntVec
  softwareIntPend : IntVec
  mtvec : Tvec
  mepc : Data
  mcause : Cause
  mtval : Data
  stvec : Tvec
  sepc : Data
  scause : Cause
  stval : Data
  dcsr : Data

variable (s : State)

def bit (b : Bool) : BitVec 1 := BitVec.ofBool b

/-! ## The CSRs as read -/

def medelegCsr : Data :=
  0#48 ++ bit s.medeleg15 ++ 0#1 ++ s.medeleg1311 ++ 0#1 ++ s.medeleg90

def midelegCsr : Data :=
  0#52 ++ bit s.mideleg11 ++ 0#1 ++ s.mideleg97 ++ 0#1 ++ s.mideleg53 ++ 0#1 ++ s.mideleg10

def intCsr (external timer software : IntVec) : Data :=
  0#52 ++ bit external.m ++ 0#1 ++ bit external.s ++ 0#1 ++ bit timer.m ++ 0#1 ++
    bit timer.s ++ 0#1 ++ bit software.m ++ 0#1 ++ bit software.s ++ 0#1

def mieCsr : Data := intCsr s.externalIntEn s.timerIntEn s.softwareIntEn

def mipCsr : Data := intCsr s.externalIntPend s.timerIntPend s.softwareIntPend

/-! ## Writes -/

def writeTvec (x : Data) : Tvec := { baseHi := x.extractLsb' 2 62, modeLow := x.getLsbD 0 }

def writeCause (x : Data) : Cause := { interrupt := x.getLsbD 63, code := x.extractLsb' 0 4 }

def writeMstatus (x : Data) : State :=
  { s with
    tsr := x.getLsbD 22
    tvm := x.getLsbD 20
    mpp := x.extractLsb' 11 2
    spp := x.getLsbD 8
    prevIeVec := { u := x.getLsbD 4, s := x.getLsbD 5, m := x.getLsbD 7 }
    ieVec := { u := x.getLsbD 0, s := x.getLsbD 1, m := x.getLsbD 3 } }

def writeSstatus (x : Data) : State :=
  { s with
    spp := x.getLsbD 8
    prevIeVec := { s.prevIeVec with u := x.getLsbD 4, s := x.getLsbD 5 }
    ieVec := { s.ieVec with u := x.getLsbD 0, s := x.getLsbD 1 } }

/-- `get_csr(csr)._write(x)`. -/
def writeCsr (csr : CSR) (x : Data) : State :=
  match csr with
  | .sstatus => writeSstatus s x
  | .sie =>
      { s with
        externalIntEn := { s.externalIntEn with s := x.getLsbD 9 }
        timerIntEn := { s.timerIntEn with s := x.getLsbD 5 }
        softwareIntEn := { s.softwareIntEn with s := x.getLsbD 1 } }
  | .stvec => { s with stvec := writeTvec x }
  | .sepc => { s with sepc := x }
  | .scause => { s with scause := writeCause x }
  | .stval => { s with stval := x }
  | .mstatus => writeMstatus s x
  | .medeleg =>
      { s with
        medeleg15 := x.getLsbD 15
        medeleg1311 := x.extractLsb' 11 3
        medeleg90 := x.extractLsb' 0 10 }
  | .mideleg =>
      { s with
        mideleg11 := x.getLsbD 11
        mideleg97 := x.extractLsb' 7 3
        mideleg53 := x.extractLsb' 3 3
        mideleg10 := x.extractLsb' 0 2 }
  | .mie =>
      { s with
        externalIntEn := { m := x.getLsbD 11, s := x.getLsbD 9 }
        timerIntEn := { m := x.getLsbD 7, s := x.getLsbD 5 }
        softwareIntEn := { m := x.getLsbD 3, s := x.getLsbD 1 } }
  | .mtvec => { s with mtvec := writeTvec x }
  | .mepc => { s with mepc := x }
  | .mcause => { s with mcause := writeCause x }
  | .mtval => { s with mtval := x }
  | .sip | .mip =>
      -- The machine's pending bits are read-only to software.
      { s with
        externalIntPend := { s.externalIntPend with s := x.getLsbD 9 }
        timerIntPend := { s.timerIntPend with s := x.getLsbD 5 }
        softwareIntPend := { s.softwareIntPend with s := x.getLsbD 1 } }
  | .dcsr => { s with dcsr := x }
  | .satp | .none | .other _ => s

def csrInstWr (cfg : Config) (csr : CSR) (x : Data) : State :=
  match csr with
  | .dcsr =>
      if cfg.gdbControl then { writeCsr s .dcsr x with prvReg := x.extractLsb' 0 2 } else s
  | csr => writeCsr s csr x

/-! ## Interrupts and traps -/

/-- `InterruptNum`. -/
def interruptNum (cfg : Config) : Nat := if cfg.gdbControl then 16 else 12

def pendInts (cfg : Config) : BitVec (interruptNum cfg) :=
  (mieCsr s &&& mipCsr s).setWidth (interruptNum cfg)

def enabledInts (cfg : Config) : BitVec (interruptNum cfg) :=
  let mideleg := (midelegCsr s).setWidth (interruptNum cfg)
  let machine :=
    if s.prvReg < prvM ∨ (s.prvReg = prvM ∧ s.ieVec.m = true) then pendInts s cfg &&& ~~~mideleg
    else 0
  if machine = 0 ∧ (s.prvReg < prvS ∨ (s.prvReg = prvS ∧ s.ieVec.s = true)) then
    pendInts s cfg &&& mideleg
  else machine

def pendingInterrupt (cfg : Config) : Option Interrupt :=
  ((List.range (interruptNum cfg)).find? fun i => (enabledInts s cfg).getLsbD i).map
    Interrupt.unpack

def trapVal (t : Trap) (pc addr : Addr) (origInst : BitVec 32) : Data :=
  match t with
  | .exception .illegalInst => origInst.setWidth 64
  | .exception .instAddrMisaligned | .exception .breakpoint => pc
  | .exception .envCallU | .exception .envCallS | .exception .envCallM => 0
  | .exception _ => addr
  | .interrupt _ => 0

def getNextPc (t : Trap) (tvec : Tvec) : Addr :=
  let base : Addr := tvec.baseHi ++ 0#2
  if tvec.modeLow && t.isInterrupt then base + (t.code ++ 0#2).setWidth 64 else base

def deleg (t : Trap) : Bool :=
  decide (s.prvReg ≤ prvS) &&
    match t with
    | .exception e => (medelegCsr s).getLsbD e.pack.toNat
    | .interrupt i => (midelegCsr s).getLsbD i.pack.toNat

/-- The registers after a trap, and `new_pc`. -/
def trap (t : Trap) (pc addr : Addr) (origInst : BitVec 32) : State × Addr :=
  if deleg s t then
    ({ s with
        spp := s.prvReg.getLsbD 0
        prvReg := prvS
        prevIeVec := { s.prevIeVec with s := s.ieVec.s }
        ieVec := { s.ieVec with s := false }
        sepc := pc
        scause := { interrupt := t.isInterrupt, code := t.code }
        stval := trapVal t pc addr origInst },
      getNextPc t s.stvec)
  else
    ({ s with
        mpp := s.prvReg
        prvReg := prvM
        prevIeVec := { s.prevIeVec with m := s.ieVec.m }
        ieVec := { s.ieVec with m := false }
        mepc := pc
        mcause := { interrupt := t.isInterrupt, code := t.code }
        mtval := trapVal t pc addr origInst },
      getNextPc t s.mtvec)

def mret : State × Addr :=
  ({ s with
      prvReg := s.mpp
      mpp := prvU
      ieVec := { s.ieVec with m := s.prevIeVec.m }
      prevIeVec := { s.prevIeVec with m := true } },
    s.mepc)

def sret : State × Addr :=
  ({ s with
      prvReg := 0#1 ++ bit s.spp
      spp := false
      ieVec := { s.ieVec with s := s.prevIeVec.s }
      prevIeVec := { s.prevIeVec with s := true } },
    s.sepc)

/-! ## The check before a CSR instruction -/

/-- The branch of `checkForException` for CSR instructions; `writesCsr` is its `writes_csr`. -/
def csrException (csr : CSR) (writesCsr : Bool) : Option Exception :=
  let index := csr.pack
  let csrHasPriv := decide (s.prvReg ≥ index.extractLsb' 8 2)
  let readOnly := index.extractLsb' 10 2 == 3
  let writeDeny := writesCsr && readOnly
  let unimplemented := index == CSR.none.pack
  if !csrHasPriv || (s.prvReg == prvS && s.tvm && csr == .satp) ||
      writeDeny || unimplemented then
    some .illegalInst
  else none

/-! ## Runs -/

/-- What the core does with the CSR file, and the wires of the platform. -/
inductive Op
  | csrInstWr (csr : CSR) (x : Data) (writesCsr : Bool)
  | trap (t : Trap) (pc addr : Addr) (origInst : BitVec 32)
  | mret
  | sret
  | setMSIP (v : Bool)
  | setMTIP (v : Bool)
  | setMEIP (v : Bool)
  | setSEIP (v : Bool)

def next (cfg : Config) (s : State) : Op → State
  | .csrInstWr csr x _ => csrInstWr s cfg csr x
  | .trap t pc addr origInst => (trap s t pc addr origInst).1
  | .mret => (mret s).1
  | .sret => (sret s).1
  | .setMSIP v => { s with softwareIntPend := { s.softwareIntPend with m := v } }
  | .setMTIP v => { s with timerIntPend := { s.timerIntPend with m := v } }
  | .setMEIP v => { s with externalIntPend := { s.externalIntPend with m := v } }
  | .setSEIP v => { s with externalIntPend := { s.externalIntPend with s := v } }

def noInts : IntVec := { s := false, m := false }

/-- `dcsr` resets with debug version 4, `mprven` and machine mode. -/
def reset : State where
  prvReg := prvM
  tsr := false
  tvm := false
  mpp := 0
  spp := false
  ieVec := { u := false, s := false, m := false }
  prevIeVec := { u := false, s := false, m := false }
  medeleg15 := false
  medeleg1311 := 0
  medeleg90 := 0
  mideleg11 := false
  mideleg97 := 0
  mideleg53 := 0
  mideleg10 := 0
  externalIntEn := noInts
  timerIntEn := noInts
  softwareIntEn := noInts
  externalIntPend := noInts
  timerIntPend := noInts
  softwareIntPend := noInts
  mtvec := { baseHi := 0, modeLow := false }
  mepc := 0
  mcause := { interrupt := false, code := 0 }
  mtval := 0
  stvec := { baseHi := 0, modeLow := false }
  sepc := 0
  scause := { interrupt := false, code := 0 }
  stval := 0
  dcsr := 0x40000013#64

def Op.Allowed (s : State) : Op → Prop
  | .csrInstWr csr _ writesCsr => csrException s csr writesCsr = none
  | _ => True

def machine (cfg : Config) : Clocked.Machine State Op where
  reset := reset
  next := next cfg
  allowed _ s op := op.Allowed s

end Toooba.CsrFile
