import Mathlib.Tactic.Common

/-!
# AXI4 channels of the memory fabric

Payloads of the five channels and the values this project gives to the fields that
carry no information.  The user fields have width 0 and are left out.
-/

set_option autoImplicit false

namespace Toooba.AXI4

abbrev AXI4_Len : Type := BitVec 8
abbrev AXI4_Size : Type := BitVec 3

def axsize_1 : AXI4_Size := 0b000#3
def axsize_2 : AXI4_Size := 0b001#3
def axsize_4 : AXI4_Size := 0b010#3
def axsize_8 : AXI4_Size := 0b011#3
def axsize_128 : AXI4_Size := 0b111#3

abbrev AXI4_Burst : Type := BitVec 2

def axburst_incr : AXI4_Burst := 0b01#2

abbrev AXI4_Lock : Type := BitVec 1
abbrev AXI4_Cache : Type := BitVec 4
abbrev AXI4_Prot : Type := BitVec 3
abbrev AXI4_QoS : Type := BitVec 4
abbrev AXI4_Region : Type := BitVec 4
abbrev AXI4_Resp : Type := BitVec 2

def axi4_resp_okay : AXI4_Resp := 0b00#2
def axi4_resp_slverr : AXI4_Resp := 0b10#2

abbrev Fabric_Id : Type := BitVec 4

def fabric_default_id : Fabric_Id := 0#4
def fabric_default_burst : AXI4_Burst := axburst_incr
def fabric_default_lock : AXI4_Lock := 0#1
def fabric_default_arcache : AXI4_Cache := 0b0000#4
def fabric_default_awcache : AXI4_Cache := 0b0000#4
def fabric_default_prot : AXI4_Prot := 0b000#3
def fabric_default_qos : AXI4_QoS := 0#4
def fabric_default_region : AXI4_Region := 0#4

structure AXI4_Wr_Addr (wd_addr : Nat) where
  awid : Fabric_Id
  awaddr : BitVec wd_addr
  awlen : AXI4_Len
  awsize : AXI4_Size
  awburst : AXI4_Burst
  awlock : AXI4_Lock
  awcache : AXI4_Cache
  awprot : AXI4_Prot
  awqos : AXI4_QoS
  awregion : AXI4_Region
  deriving DecidableEq

structure AXI4_Wr_Data (wd_data : Nat) where
  wdata : BitVec wd_data
  wstrb : BitVec (wd_data / 8)
  wlast : Bool
  deriving DecidableEq

structure AXI4_Wr_Resp where
  bid : Fabric_Id
  bresp : AXI4_Resp
  deriving DecidableEq

structure AXI4_Rd_Addr (wd_addr : Nat) where
  arid : Fabric_Id
  araddr : BitVec wd_addr
  arlen : AXI4_Len
  arsize : AXI4_Size
  arburst : AXI4_Burst
  arlock : AXI4_Lock
  arcache : AXI4_Cache
  arprot : AXI4_Prot
  arqos : AXI4_QoS
  arregion : AXI4_Region
  deriving DecidableEq

structure AXI4_Rd_Data (wd_data : Nat) where
  rid : Fabric_Id
  rdata : BitVec wd_data
  rresp : AXI4_Resp
  rlast : Bool
  deriving DecidableEq

/-- A write address with the fields this project never varies. -/
def wrAddr {wd_addr : Nat} (awaddr : BitVec wd_addr) (awlen : AXI4_Len) (awsize : AXI4_Size) :
    AXI4_Wr_Addr wd_addr where
  awid := fabric_default_id
  awaddr := awaddr
  awlen := awlen
  awsize := awsize
  awburst := fabric_default_burst
  awlock := fabric_default_lock
  awcache := fabric_default_awcache
  awprot := fabric_default_prot
  awqos := fabric_default_qos
  awregion := fabric_default_region

def rdAddr {wd_addr : Nat} (araddr : BitVec wd_addr) (arlen : AXI4_Len) (arsize : AXI4_Size) :
    AXI4_Rd_Addr wd_addr where
  arid := fabric_default_id
  araddr := araddr
  arlen := arlen
  arsize := arsize
  arburst := fabric_default_burst
  arlock := fabric_default_lock
  arcache := fabric_default_arcache
  arprot := fabric_default_prot
  arqos := fabric_default_qos
  arregion := fabric_default_region

end Toooba.AXI4
