import RiscvCores.Lib.Clocked
import RiscvCores.Toooba.AXI4Types

/-!
# `mkDM_System_Bus`

System bus access of the debug module, for RV64 and a fabric of 32 or 64 bits.  A step
is one DMI operation, one rule, or one handshake on a channel of the fabric.
-/

set_option autoImplicit false

namespace Toooba.SystemBus

open Toooba.AXI4

inductive Fabric where
  | FABRIC32
  | FABRIC64
  deriving DecidableEq

def Fabric.wd_Addr : Fabric → Nat
  | .FABRIC32 => 32
  | .FABRIC64 => 64

def Fabric.wd_Data : Fabric → Nat
  | .FABRIC32 => 32
  | .FABRIC64 => 64

abbrev DM_Addr : Type := BitVec 7
abbrev DM_Word : Type := BitVec 32

def dm_addr_sbcs : DM_Addr := 0x38#7
def dm_addr_sbaddress0 : DM_Addr := 0x39#7
def dm_addr_sbaddress1 : DM_Addr := 0x3a#7
def dm_addr_sbdata0 : DM_Addr := 0x3c#7

/-- Five of the eight codes are sizes. -/
abbrev DM_sbaccess : Type := BitVec 3

def DM_SBACCESS_8_BIT : DM_sbaccess := 0#3
def DM_SBACCESS_16_BIT : DM_sbaccess := 1#3
def DM_SBACCESS_32_BIT : DM_sbaccess := 2#3
def DM_SBACCESS_64_BIT : DM_sbaccess := 3#3
def DM_SBACCESS_128_BIT : DM_sbaccess := 4#3

abbrev DM_sberror : Type := BitVec 3

def DM_SBERROR_NONE : DM_sberror := 0#3
def DM_SBERROR_OTHER : DM_sberror := 3#3

def fn_sbaccess_to_addr_incr (sbaccess : DM_sbaccess) : Nat :=
  if sbaccess = DM_SBACCESS_8_BIT then 1
  else if sbaccess = DM_SBACCESS_16_BIT then 2
  else if sbaccess = DM_SBACCESS_32_BIT then 4
  else if sbaccess = DM_SBACCESS_64_BIT then 8
  else 16

/-- The codes without an arm take the value of the last one, as in the generated logic. -/
def fn_DM_sbaccess_to_AXI4_Size (sbaccess : DM_sbaccess) : AXI4_Size :=
  if sbaccess = DM_SBACCESS_8_BIT then axsize_1
  else if sbaccess = DM_SBACCESS_16_BIT then axsize_2
  else if sbaccess = DM_SBACCESS_32_BIT then axsize_4
  else axsize_8

def fn_extract_and_extend_bytes (f : Fabric) (sbaccess : DM_sbaccess)
    (read_addr word64 : BitVec 64) : BitVec 64 :=
  let lsbs : BitVec 3 := read_addr.extractLsb' 0 3
  let addr_lsbs := if f.wd_Data = 32 then lsbs &&& 3#3 else lsbs
  if sbaccess = DM_SBACCESS_8_BIT then
    match addr_lsbs.toNat with
    | 0 => (word64.extractLsb' 0 8).setWidth 64
    | 1 => (word64.extractLsb' 8 8).setWidth 64
    | 2 => (word64.extractLsb' 16 8).setWidth 64
    | 3 => (word64.extractLsb' 24 8).setWidth 64
    | 4 => (word64.extractLsb' 32 8).setWidth 64
    | 5 => (word64.extractLsb' 40 8).setWidth 64
    | 6 => (word64.extractLsb' 48 8).setWidth 64
    | 7 => (word64.extractLsb' 56 8).setWidth 64
    | _ => 0
  else if sbaccess = DM_SBACCESS_16_BIT then
    match addr_lsbs.toNat with
    | 0 => (word64.extractLsb' 0 16).setWidth 64
    | 2 => (word64.extractLsb' 16 16).setWidth 64
    | 4 => (word64.extractLsb' 32 16).setWidth 64
    | 6 => (word64.extractLsb' 48 16).setWidth 64
    | _ => 0
  else if sbaccess = DM_SBACCESS_32_BIT then
    match addr_lsbs.toNat with
    | 0 => (word64.extractLsb' 0 32).setWidth 64
    | 4 => (word64.extractLsb' 32 32).setWidth 64
    | _ => 0
  else if sbaccess = DM_SBACCESS_64_BIT then
    match addr_lsbs.toNat with
    | 0 => word64
    | _ => 0
  else 0

/-- Data, byte enables and size on the bus for a write. -/
def fn_to_fabric_write_fields (f : Fabric) (sbaccess : DM_sbaccess) (addr word64 : BitVec 64) :
    BitVec f.wd_Addr × BitVec f.wd_Data × BitVec (f.wd_Data / 8) × AXI4_Size :=
  let shift_bytes : BitVec 3 := addr.extractLsb' 0 3
  let shift_bits : BitVec 6 := shift_bytes ++ 0#3
  let (data64, strobe64, axsize) : BitVec 64 × BitVec 8 × AXI4_Size :=
    if sbaccess = DM_SBACCESS_8_BIT then (word64 <<< shift_bits, 0b1#8 <<< shift_bytes, axsize_1)
    else if sbaccess = DM_SBACCESS_16_BIT then
      (word64 <<< shift_bits, 0b11#8 <<< shift_bytes, axsize_2)
    else if sbaccess = DM_SBACCESS_32_BIT then
      (word64 <<< shift_bits, 0b1111#8 <<< shift_bytes, axsize_4)
    else if sbaccess = DM_SBACCESS_64_BIT then (word64, 0xff#8, axsize_8)
    else (word64, 0#8, axsize_128)
  let upper : Bool := f.wd_Data = 32 ∧ addr.getLsbD 2
  let data := if upper then 0#32 ++ data64.extractLsb' 32 32 else data64
  let strobe := if upper then 0#4 ++ strobe64.extractLsb' 4 4 else strobe64
  (addr.setWidth f.wd_Addr, data.setWidth f.wd_Data, strobe.setWidth (f.wd_Data / 8), axsize)

inductive SB_State where
  | SB_NOTBUSY
  | SB_READ_FINISH
  | SB_WRITE_FINISH
  deriving DecidableEq

/-- The registers, and the FIFOs of the master transactor. -/
structure DM_System_Bus (f : Fabric) where
  rg_sb_state : SB_State
  rg_sbaddress0 : DM_Word
  rg_sbaddress1 : DM_Word
  rg_sbaddress_reading : BitVec 64
  rg_sbdata0 : DM_Word
  rg_sbcs_sbbusyerror : Bool
  rg_sbcs_sbreadonaddr : Bool
  rg_sbcs_sbaccess : DM_sbaccess
  rg_sbcs_sbautoincrement : Bool
  rg_sbcs_sbreadondata : Bool
  rg_sbcs_sberror : DM_sberror
  i_rd_addr : List (AXI4_Rd_Addr f.wd_Addr)
  i_wr_addr : List (AXI4_Wr_Addr f.wd_Addr)
  i_wr_data : List (AXI4_Wr_Data f.wd_Data)
  o_rd_data : List (AXI4_Rd_Data f.wd_Data)
  o_wr_resp : List AXI4_Wr_Resp

variable {f : Fabric}

namespace DM_System_Bus

variable (s : DM_System_Bus f)

def sbbusy : Bool := s.rg_sb_state != .SB_NOTBUSY

def sbaddress : BitVec 64 := s.rg_sbaddress1 ++ s.rg_sbaddress0

def virt_rg_sbcs : DM_Word :=
  1#3 ++ 0#6 ++ BitVec.ofBool s.rg_sbcs_sbbusyerror ++ BitVec.ofBool s.sbbusy ++
    BitVec.ofBool s.rg_sbcs_sbreadonaddr ++ s.rg_sbcs_sbaccess ++
    BitVec.ofBool s.rg_sbcs_sbautoincrement ++ BitVec.ofBool s.rg_sbcs_sbreadondata ++
    s.rg_sbcs_sberror ++ 64#7 ++ 0b00111#5

def fa_sbaddress_incr (addr64 : BitVec 64) : DM_System_Bus f :=
  let next_sbaddress :=
    addr64 + BitVec.ofNat 64 (fn_sbaccess_to_addr_incr s.rg_sbcs_sbaccess)
  { s with
    rg_sbaddress1 := next_sbaddress.extractLsb' 32 32
    rg_sbaddress0 := next_sbaddress.extractLsb' 0 32 }

def fa_fabric_send_read_req (addr64 : BitVec 64) : DM_System_Bus f :=
  { s with
    i_rd_addr := s.i_rd_addr ++
      [rdAddr (addr64.setWidth f.wd_Addr) 0#8 (fn_DM_sbaccess_to_AXI4_Size s.rg_sbcs_sbaccess)]
    rg_sbaddress_reading := addr64
    rg_sb_state := .SB_READ_FINISH }

def fa_fabric_send_write_req (data64 : BitVec 64) : DM_System_Bus f :=
  let fields := fn_to_fabric_write_fields f s.rg_sbcs_sbaccess s.sbaddress data64
  { s with
    i_wr_addr := s.i_wr_addr ++ [wrAddr fields.1 0#8 fields.2.2.2]
    i_wr_data := s.i_wr_data ++
      [{ wdata := fields.2.1, wstrb := fields.2.2.1, wlast := true }]
    rg_sb_state := .SB_WRITE_FINISH }

def fa_rg_sbcs_write (dm_word : DM_Word) : DM_System_Bus f :=
  let sbbusyerror := dm_word.getLsbD 22
  let sbreadonaddr := dm_word.getLsbD 20
  let sbaccess : DM_sbaccess := dm_word.extractLsb' 17 3
  let sbautoincrement := dm_word.getLsbD 16
  let sbreadondata := dm_word.getLsbD 15
  let sberror : DM_sberror := dm_word.extractLsb' 12 3
  if s.rg_sbcs_sberror ≠ DM_SBERROR_NONE ∧ sberror = DM_SBERROR_NONE then s
  else if s.rg_sbcs_sbbusyerror ∧ !sbbusyerror then s
  else if sbaccess = DM_SBACCESS_128_BIT ∨ sbaccess = DM_SBACCESS_64_BIT then
    { s with rg_sbcs_sberror := DM_SBERROR_OTHER }
  else
    { s with
      rg_sbcs_sbbusyerror := false
      rg_sbcs_sbreadonaddr := sbreadonaddr
      rg_sbcs_sbaccess := sbaccess
      rg_sbcs_sbautoincrement := sbautoincrement
      rg_sbcs_sbreadondata := sbreadondata
      rg_sbcs_sberror := DM_SBERROR_NONE }

def fa_rg_sbaddress_write (dm_addr : DM_Addr) (dm_word : DM_Word) : DM_System_Bus f :=
  if s.sbbusy then { s with rg_sbcs_sbbusyerror := true }
  else if s.rg_sbcs_sbbusyerror then s
  else if s.rg_sbcs_sberror ≠ DM_SBERROR_NONE then s
  else if dm_addr = dm_addr_sbaddress0 then
    let addr64 : BitVec 64 := s.rg_sbaddress1 ++ dm_word
    if s.rg_sbcs_sbreadonaddr then
      let sent := s.fa_fabric_send_read_req addr64
      if s.rg_sbcs_sbautoincrement then sent.fa_sbaddress_incr addr64
      else { sent with rg_sbaddress0 := dm_word }
    else { s with rg_sbaddress0 := dm_word }
  else { s with rg_sbaddress1 := dm_word }

def fav_rg_sbdata_read (dm_addr : DM_Addr) : DM_System_Bus f × DM_Word :=
  if s.sbbusy then ({ s with rg_sbcs_sbbusyerror := true }, 0)
  else if s.rg_sbcs_sbbusyerror then (s, 0)
  else if s.rg_sbcs_sberror ≠ DM_SBERROR_NONE then (s, 0)
  else
    let result := if dm_addr = dm_addr_sbdata0 then s.rg_sbdata0 else 0
    let stepped := if s.rg_sbcs_sbautoincrement then s.fa_sbaddress_incr s.sbaddress else s
    if s.rg_sbcs_sbreadondata ∧ dm_addr = dm_addr_sbdata0 then
      (stepped.fa_fabric_send_read_req s.sbaddress, result)
    else (stepped, result)

def rl_sb_read_finish : DM_System_Bus f :=
  match s.o_rd_data with
  | [] => s
  | rdr :: rest =>
      let data := fn_extract_and_extend_bytes f s.rg_sbcs_sbaccess s.rg_sbaddress_reading
        (rdr.rdata.setWidth 64)
      { s with
        o_rd_data := rest
        rg_sbcs_sberror :=
          if rdr.rresp ≠ axi4_resp_okay then DM_SBERROR_OTHER else s.rg_sbcs_sberror
        rg_sbdata0 := data.extractLsb' 0 32
        rg_sb_state := .SB_NOTBUSY }

def fa_rg_sbdata_write (dm_addr : DM_Addr) (dm_word : DM_Word) : DM_System_Bus f :=
  if s.sbbusy then { s with rg_sbcs_sbbusyerror := true }
  else if s.rg_sbcs_sbbusyerror then s
  else if s.rg_sbcs_sberror ≠ DM_SBERROR_NONE then s
  else if dm_addr = dm_addr_sbdata0 then
    let sent := { s with rg_sbdata0 := dm_word }.fa_fabric_send_write_req (dm_word.setWidth 64)
    if s.rg_sbcs_sbautoincrement then sent.fa_sbaddress_incr s.sbaddress else sent
  else s

def rl_sb_write_response : DM_System_Bus f :=
  match s.o_wr_resp with
  | [] => s
  | wrr :: rest =>
      { s with
        o_wr_resp := rest
        rg_sbcs_sberror :=
          if wrr.bresp ≠ axi4_resp_okay then DM_SBERROR_OTHER else s.rg_sbcs_sberror
        rg_sb_state := .SB_NOTBUSY }

def reset : DM_System_Bus f :=
  { s with
    rg_sb_state := .SB_NOTBUSY
    rg_sbcs_sbbusyerror := false
    rg_sbcs_sbreadonaddr := false
    rg_sbcs_sbaccess := DM_SBACCESS_32_BIT
    rg_sbcs_sbautoincrement := false
    rg_sbcs_sbreadondata := false
    rg_sbcs_sberror := DM_SBERROR_NONE
    rg_sbaddress0 := 0
    rg_sbaddress1 := 0
    rg_sbdata0 := 0 }

def av_read (dm_addr : DM_Addr) : DM_System_Bus f × DM_Word :=
  if dm_addr = dm_addr_sbcs then (s, s.virt_rg_sbcs)
  else if dm_addr = dm_addr_sbaddress0 then (s, s.rg_sbaddress0)
  else if dm_addr = dm_addr_sbaddress1 then (s, s.rg_sbaddress1)
  else if dm_addr = dm_addr_sbdata0 then s.fav_rg_sbdata_read dm_addr_sbdata0
  else (s, 0)

def write (dm_addr : DM_Addr) (dm_word : DM_Word) : DM_System_Bus f :=
  if dm_addr = dm_addr_sbcs then s.fa_rg_sbcs_write dm_word
  else if dm_addr = dm_addr_sbaddress0 ∨ dm_addr = dm_addr_sbaddress1 then
    s.fa_rg_sbaddress_write dm_addr dm_word
  else if dm_addr = dm_addr_sbdata0 then s.fa_rg_sbdata_write dm_addr dm_word
  else s

end DM_System_Bus

/-! ## The module and the fabric -/

/-- The fabric keeps what it has taken from the channels and counts its answers. -/
structure System (f : Fabric) where
  dm : DM_System_Bus f
  rd_addrs : List (AXI4_Rd_Addr f.wd_Addr)
  rd_answers : Nat
  wr_addrs : List (AXI4_Wr_Addr f.wd_Addr)
  wr_datas : List (AXI4_Wr_Data f.wd_Data)
  wr_answers : Nat

inductive Event (f : Fabric) where
  | write (dm_addr : DM_Addr) (dm_word : DM_Word)
  | av_read (dm_addr : DM_Addr)
  | rl_sb_read_finish
  | rl_sb_write_response
  | rd_addr
  | wr_addr
  | wr_data
  | rd_data (rdr : AXI4_Rd_Data f.wd_Data)
  | wr_resp (wrr : AXI4_Wr_Resp)

def System.step (s : System f) : Event f → System f
  | .write dm_addr dm_word => { s with dm := s.dm.write dm_addr dm_word }
  | .av_read dm_addr => { s with dm := (s.dm.av_read dm_addr).1 }
  | .rl_sb_read_finish => { s with dm := s.dm.rl_sb_read_finish }
  | .rl_sb_write_response => { s with dm := s.dm.rl_sb_write_response }
  | .rd_addr =>
      { s with
        rd_addrs := s.rd_addrs ++ s.dm.i_rd_addr.take 1
        dm := { s.dm with i_rd_addr := s.dm.i_rd_addr.drop 1 } }
  | .wr_addr =>
      { s with
        wr_addrs := s.wr_addrs ++ s.dm.i_wr_addr.take 1
        dm := { s.dm with i_wr_addr := s.dm.i_wr_addr.drop 1 } }
  | .wr_data =>
      { s with
        wr_datas := s.wr_datas ++ s.dm.i_wr_data.take 1
        dm := { s.dm with i_wr_data := s.dm.i_wr_data.drop 1 } }
  | .rd_data rdr =>
      { s with
        rd_answers := s.rd_answers + 1
        dm := { s.dm with o_rd_data := s.dm.o_rd_data ++ [rdr] } }
  | .wr_resp wrr =>
      { s with
        wr_answers := s.wr_answers + 1
        dm := { s.dm with o_wr_resp := s.dm.o_wr_resp ++ [wrr] } }

/-- Guards of the methods and rules; the fabric answers each access once.  A FIFO of the
transactor is never full when an access starts, see `Inv.idle`. -/
def System.allows (s : System f) : Event f → Prop
  | .write _ _ => True
  | .av_read _ => s.dm.sbbusy = false
  | .rl_sb_read_finish =>
      s.dm.rg_sb_state = .SB_READ_FINISH ∧ s.dm.rg_sbcs_sberror = DM_SBERROR_NONE ∧
        s.dm.o_rd_data ≠ []
  | .rl_sb_write_response => s.dm.o_wr_resp ≠ []
  | .rd_addr => s.dm.i_rd_addr ≠ []
  | .wr_addr => s.dm.i_wr_addr ≠ []
  | .wr_data => s.dm.i_wr_data ≠ []
  | .rd_data _ => s.rd_answers < s.rd_addrs.length
  | .wr_resp _ => s.wr_answers < s.wr_addrs.length ∧ s.wr_answers < s.wr_datas.length

instance (s : System f) (e : Event f) : Decidable (s.allows e) := by
  cases e <;> (simp only [System.allows]; infer_instance)

/-- After reset, whatever the registers without a reset value held. -/
def System.start (power : DM_System_Bus f) : System f where
  dm :=
    { power.reset with
      i_rd_addr := []
      i_wr_addr := []
      i_wr_data := []
      o_rd_data := []
      o_wr_resp := [] }
  rd_addrs := []
  rd_answers := 0
  wr_addrs := []
  wr_datas := []
  wr_answers := 0

def machine (power : DM_System_Bus f) : Clocked.Machine (System f) (Event f) where
  reset := System.start power
  next := System.step
  allowed _ s e := s.allows e

end Toooba.SystemBus
