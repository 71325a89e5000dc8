import RiscvCores.Lib.BitField
import RiscvCores.Cva6.Pmp

/-!
# Control and status registers of `riscv_pkg`

Packed records (`mstatus_rv_t`, `hstatus_rv_t`, `dcsr_t`, `fcsr_t`) are bit
vectors; the positions of their fields are named here.
-/

set_option autoImplicit false

namespace Cva6

open BitField
open Cva6.Pmp (PrivLvl PmpAddrMode PmpCfg)

/-! ## Privilege levels and PMP entries as bits -/

def privBits : PrivLvl → BitVec 2
  | .m => 3
  | .hs => 2
  | .s => 1
  | .u => 0

def privOfBits (b : BitVec 2) : PrivLvl :=
  if b = 3 then .m else if b = 2 then .hs else if b = 1 then .s else .u

@[simp]
theorem privOfBits_privBits (p : PrivLvl) : privOfBits (privBits p) = p := by
  cases p <;> rfl

def addrModeOfBits (b : BitVec 2) : PmpAddrMode :=
  if b = 3 then .napot else if b = 2 then .na4 else if b = 1 then .tor else .off

def addrModeBits : PmpAddrMode → BitVec 2
  | .off => 0
  | .tor => 1
  | .na4 => 2
  | .napot => 3

/-- `pmpcfg_t` out of its eight bits. -/
def pmpcfgOfBits (b : BitVec 8) : PmpCfg where
  locked := flag b 7
  reserved := field b 5 2
  addrMode := addrModeOfBits (field b 3 2)
  accessType := field b 0 3

def pmpcfgBits (c : PmpCfg) : BitVec 8 :=
  (BitVec.ofBool c.locked ++ c.reserved ++ addrModeBits c.addrMode ++ c.accessType :)

/-- An entry that is switched off. -/
def pmpcfgZero : PmpCfg where
  locked := false
  addrMode := .off
  accessType := 0

/-! ## Field positions -/

namespace Mstatus

def sie : Nat := 1
def wpri1 : Nat := 2
def mie : Nat := 3
def wpri2 : Nat := 4
def spie : Nat := 5
def ube : Nat := 6
def mpie : Nat := 7
def spp : Nat := 8
def vs : Nat := 9
def mpp : Nat := 11
def fs : Nat := 13
def xs : Nat := 15
def mprv : Nat := 17
def sum : Nat := 18
def mxr : Nat := 19
def tvm : Nat := 20
def tw : Nat := 21
def tsr : Nat := 22
def wpri3 : Nat := 23
def uxl : Nat := 32
def sxl : Nat := 34
def gva : Nat := 38
def mpv : Nat := 39
def sd : Nat := 63

end Mstatus

namespace Hstatus

def gva : Nat := 6
def spv : Nat := 7
def spvp : Nat := 8
def vtvm : Nat := 20
def vsxl : Nat := 32

end Hstatus

namespace Dcsr

def prv : Nat := 0
def step : Nat := 2
def nmip : Nat := 3
def mprven : Nat := 4
def v : Nat := 5
def cause : Nat := 6
def stoptime : Nat := 9
def stopcount : Nat := 10
def ebreaku : Nat := 12
def ebreaks : Nat := 13
def ebreakm : Nat := 15
def ebreakvu : Nat := 16
def ebreakvs : Nat := 17
def xdebugver : Nat := 28

end Dcsr

namespace Fcsr

def fflags : Nat := 0
def frm : Nat := 5
def fprec : Nat := 8

end Fcsr

/-- `mstatus.mpp`. -/
def mpp (mstatus : BitVec 64) : PrivLvl := privOfBits (field mstatus Mstatus.mpp 2)

def setMpp (mstatus : BitVec 64) (p : PrivLvl) : BitVec 64 :=
  setField mstatus Mstatus.mpp (privBits p)

/-- `dcsr.prv`. -/
def prv (dcsr : BitVec 32) : PrivLvl := privOfBits (field dcsr Dcsr.prv 2)

def setPrv (dcsr : BitVec 32) (p : PrivLvl) : BitVec 32 :=
  setField dcsr Dcsr.prv (privBits p)

@[simp]
theorem mpp_setMpp (m : BitVec 64) (p : PrivLvl) : mpp (setMpp m p) = p := by
  rw [mpp, setMpp, field_setField_same _ _ _ (by decide), privOfBits_privBits]

theorem mpp_setField {w : Nat} (m : BitVec 64) (lo : Nat) (v : BitVec w)
    (apart : 13 ≤ lo ∨ lo + w ≤ 11) : mpp (setField m lo v) = mpp m := by
  have disjoint : Mstatus.mpp + 2 ≤ lo ∨ lo + w ≤ Mstatus.mpp := apart
  rw [mpp, field_setField_disjoint m lo Mstatus.mpp v disjoint]
  rfl

theorem mpp_setFlag (m : BitVec 64) (pos : Nat) (b : Bool) (apart : 13 ≤ pos ∨ pos + 1 ≤ 11) :
    mpp (setFlag m pos b) = mpp m :=
  mpp_setField m pos (BitVec.ofBool b) apart

@[simp]
theorem prv_setPrv (d : BitVec 32) (p : PrivLvl) : prv (setPrv d p) = p := by
  rw [prv, setPrv, field_setField_same _ _ _ (by decide), privOfBits_privBits]

theorem prv_setField {w : Nat} (d : BitVec 32) (lo : Nat) (v : BitVec w) (above : 2 ≤ lo) :
    prv (setField d lo v) = prv d := by
  rw [prv, field_setField_disjoint d lo Dcsr.prv v (.inl above)]
  rfl

theorem prv_setFlag (d : BitVec 32) (pos : Nat) (b : Bool) (above : 2 ≤ pos) :
    prv (setFlag d pos b) = prv d :=
  prv_setField d pos (BitVec.ofBool b) above

/-- `xs_t`. -/
def xsOff : BitVec 2 := 0
def xsDirty : BitVec 2 := 3

/-- `XLEN_64`. -/
def xlen64 : BitVec 2 := 2

/-! ## Interrupts and causes -/

def irqSSoft : Nat := 1
def irqVsSoft : Nat := 2
def irqMSoft : Nat := 3
def irqSTimer : Nat := 5
def irqVsTimer : Nat := 6
def irqMTimer : Nat := 7
def irqSExt : Nat := 9
def irqVsExt : Nat := 10
def irqMExt : Nat := 11

def instrAddrMisaligned : Nat := 0
def instrAccessFault : Nat := 1
def illegalInstr : Nat := 2
def breakpoint : Nat := 3
def ldAddrMisaligned : Nat := 4
def ldAccessFault : Nat := 5
def stAddrMisaligned : Nat := 6
def stAccessFault : Nat := 7
def envCallUmode : Nat := 8
def envCallSmode : Nat := 9
def envCallVsmode : Nat := 10
def envCallMmode : Nat := 11
def instrPageFault : Nat := 12
def loadPageFault : Nat := 13
def storePageFault : Nat := 15
def instrGuestPageFault : Nat := 20
def loadGuestPageFault : Nat := 21
def virtualInstruction : Nat := 22
def storeGuestPageFault : Nat := 23
def debugRequest : Nat := 24

/-- The bits at the given positions. -/
def bitMask (w : Nat) (positions : List Nat) : BitVec w :=
  positions.foldl (fun mask k => mask ||| (1 <<< k)) 0

/-! ## Status masks -/

/-- `SMODE_STATUS_WRITE_MASK`: `SIE`, `SPIE`, `SPP`, `FS`, `SUM`, `MXR`. -/
def smodeStatusWriteMask : BitVec 64 := 0xC6122

/-- `smode_status_read_mask`. -/
def smodeStatusReadMask (isXlen64 : Bool) : BitVec 64 :=
  0x3000DE133 ||| (if isXlen64 then 0x8000000000000000 else 0x80000000)

/-- `HSTATUS_WRITE_MASK`: `VSBE`, `GVA`, `SPV`, `SPVP`, `HU`, `VTVM`, `VTW`, `VTSR`. -/
def hstatusWriteMask : BitVec 64 := 0x7003E0

/-- `hs_deleg_interrupts` and `vs_deleg_interrupts`. -/
def vsInterrupts (w : Nat) : BitVec w := bitMask w [irqVsSoft, irqVsTimer, irqVsExt]

/-! ## Register addresses -/

/-- `csr_reg_t`, as far as `csr_regfile` tells the registers apart. -/
inductive Csr where
  | fflags | frm | fcsr | jvt | ftran
  | dcsr | dpc | dscratch0 | dscratch1 | tselect | tdata1 | tdata2 | tdata3
  | vsstatus | vsie | vsip | vstvec | vsscratch | vsepc | vscause | vstval | vsatp
  | sstatus | sie | sip | stvec | scounteren | sscratch | sepc | scause | stval | satp | senvcfg
  | hstatus | hedeleg | hideleg | hie | hip | hvip | hcounteren | htval | htinst | hgeie | hgeip
  | henvcfg | hgatp
  | mstatus | mstatush | misa | medeleg | mideleg | mie | mtvec | mcounteren | mscratch | mepc
  | mcause | mtval | mtinst | mtval2 | mip | menvcfg | menvcfgh
  | mvendorid | marchid | mimpid | mhartid | mconfigptr | mcountinhibit
  | mcycle | mcycleh | minstret | minstreth | cycle | cycleh | instret | instreth
  | mhpmEvent | mhpmCounter | mhpmCounterH | hpmCounter | hpmCounterH
  | dcache | icache | accCons | pmpcfg | pmpaddr
  | other
  deriving DecidableEq, Repr

/-- The register ranges of `csr_regfile`. -/
def csrRange (a : Nat) : Csr :=
  if 0x323 ≤ a ∧ a ≤ 0x33F then .mhpmEvent
  else if 0xB03 ≤ a ∧ a ≤ 0xB1F then .mhpmCounter
  else if 0xB83 ≤ a ∧ a ≤ 0xB9F then .mhpmCounterH
  else if 0xC03 ≤ a ∧ a ≤ 0xC1F then .hpmCounter
  else if 0xC83 ≤ a ∧ a ≤ 0xC9F then .hpmCounterH
  else if 0x3A0 ≤ a ∧ a ≤ 0x3AF then .pmpcfg
  else if 0x3B0 ≤ a ∧ a ≤ 0x3EF then .pmpaddr
  else .other

/-- The register with an address. -/
def csrReg (a : BitVec 12) : Csr :=
  match a.toNat with
  | 0x001 => .fflags | 0x002 => .frm | 0x003 => .fcsr | 0x017 => .jvt | 0x800 => .ftran
  | 0x7B0 => .dcsr | 0x7B1 => .dpc | 0x7B2 => .dscratch0 | 0x7B3 => .dscratch1
  | 0x7A0 => .tselect | 0x7A1 => .tdata1 | 0x7A2 => .tdata2 | 0x7A3 => .tdata3
  | 0x200 => .vsstatus | 0x204 => .vsie | 0x205 => .vstvec | 0x240 => .vsscratch
  | 0x241 => .vsepc | 0x242 => .vscause | 0x243 => .vstval | 0x244 => .vsip | 0x280 => .vsatp
  | 0x100 => .sstatus | 0x104 => .sie | 0x105 => .stvec | 0x106 => .scounteren
  | 0x10A => .senvcfg | 0x140 => .sscratch | 0x141 => .sepc | 0x142 => .scause
  | 0x143 => .stval | 0x144 => .sip | 0x180 => .satp
  | 0x600 => .hstatus | 0x602 => .hedeleg | 0x603 => .hideleg | 0x604 => .hie
  | 0x606 => .hcounteren | 0x607 => .hgeie | 0x643 => .htval | 0x644 => .hip | 0x645 => .hvip
  | 0x64A => .htinst | 0xE12 => .hgeip | 0x60A => .henvcfg | 0x680 => .hgatp
  | 0x300 => .mstatus | 0x301 => .misa | 0x302 => .medeleg | 0x303 => .mideleg | 0x304 => .mie
  | 0x305 => .mtvec | 0x306 => .mcounteren | 0x310 => .mstatush | 0x320 => .mcountinhibit
  | 0x340 => .mscratch | 0x341 => .mepc | 0x342 => .mcause | 0x343 => .mtval | 0x344 => .mip
  | 0x34A => .mtinst | 0x34B => .mtval2 | 0x30A => .menvcfg | 0x31A => .menvcfgh
  | 0xF11 => .mvendorid | 0xF12 => .marchid | 0xF13 => .mimpid | 0xF14 => .mhartid
  | 0xF15 => .mconfigptr
  | 0xB00 => .mcycle | 0xB80 => .mcycleh | 0xB02 => .minstret | 0xB82 => .minstreth
  | 0xC00 => .cycle | 0xC80 => .cycleh | 0xC02 => .instret | 0xC82 => .instreth
  | 0x7C1 => .dcache | 0x7C0 => .icache | 0x7C2 => .accCons
  | a => csrRange a

/-- `csr_decode.priv_lvl` of an address. -/
def csrPriv (a : BitVec 12) : BitVec 2 := field a 8 2

/-- `convert_vs_access_csr`: with `v`, a supervisor register is replaced by its
virtual counterpart. -/
def convertVsAccessCsr (a : BitVec 12) (v : Bool) : BitVec 12 :=
  if (0x100 ≤ a ∧ a ≤ 0x105) ∨ (0x140 ≤ a ∧ a ≤ 0x180) then
    if v then setField a 8 (privBits .hs) else a
  else a

end Cva6
