import Mathlib.Logic.Function.Basic
import RiscvCores.Lib.Clocked
import RiscvCores.Toooba.AXI4Types

/-!
# `mkLLC_AXi4_Adapter`

The adapter with its transactor `mkAXI4_Master_Xactor_2`, between the last-level cache
and a subordinate that performs each burst at one moment.  A step is one rule, one method
of the transactor, a message of the cache, or a burst being performed.
-/

set_option autoImplicit false

namespace Toooba.LlcAdapter

open Toooba.AXI4

abbrev Addr : Type := BitVec 64
abbrev Data : Type := BitVec 64
/-- A line of eight double words, the first in the low bits. -/
abbrev Line : Type := BitVec 512
abbrev LineByteEn : Type := BitVec 64

section Messages

variable (idT childT : Type)

structure LdMemRq where
  addr : Addr
  child : childT
  id : idT
  deriving DecidableEq

structure WbMemRs where
  addr : Addr
  byteEn : LineByteEn
  data : Line
  deriving DecidableEq

inductive ToMemMsg where
  | Ld (ld : LdMemRq idT childT)
  | Wb (wb : WbMemRs)
  deriving DecidableEq

structure MemRsMsg where
  data : Line
  child : childT
  id : idT
  deriving DecidableEq

end Messages

variable {idT childT : Type}

def lineWord (line : Line) (k : Nat) : Data := line.extractLsb' (64 * k) 64

def lineStrb (byteEn : LineByteEn) (k : Nat) : BitVec 8 := byteEn.extractLsb' (8 * k) 8

/-- The line that holds an address. -/
def lineAddr (addr : Addr) : BitVec 58 := addr.extractLsb' 6 58

/-! ## The adapter -/

structure Adapter (idT childT : Type) where
  ctr_wr_rsps_pending : Nat
  rg_rd_rsp_beat : BitVec 3
  f_pending_reads : List (LdMemRq idT childT)
  rg_cline : BitVec 512
  rg_wr_req_beat : BitVec 3
  -- the slots of the transactor; `rg_rd_data` has its own full flag
  wr_addr : Option (AXI4_Wr_Addr 64)
  wr_data : Option (AXI4_Wr_Data 64)
  wr_resp : Option AXI4_Wr_Resp
  rd_addr : Option (AXI4_Rd_Addr 64)
  crg_rd_data_full : Bool
  rg_rd_data : AXI4_Rd_Data 64

def readAddr (ld : LdMemRq idT childT) : AXI4_Rd_Addr 64 :=
  rdAddr (lineAddr ld.addr ++ 0#6) 7 axsize_8

def writeAddr (wb : WbMemRs) : AXI4_Wr_Addr 64 := wrAddr (lineAddr wb.addr ++ 0#6) 7 axsize_8

def writeBeat (wb : WbMemRs) (beat : Nat) : AXI4_Wr_Data 64 where
  wdata := lineWord wb.data beat
  wstrb := lineStrb wb.byteEn beat
  wlast := beat = 7

namespace Adapter

variable (s : Adapter idT childT)

def rl_handle_read_req (ld : LdMemRq idT childT) : Adapter idT childT :=
  { s with
    rd_addr := some (readAddr ld)
    f_pending_reads := s.f_pending_reads ++ [ld] }

/-- The adapter, and the response it sends. -/
def rl_handle_read_rsps : Adapter idT childT × Option (MemRsMsg idT childT) :=
  let new_cline : BitVec 512 := s.rg_rd_data.rdata ++ s.rg_cline.extractLsb' 64 448
  let popped := { s with crg_rd_data_full := false }
  if s.rg_rd_data.rlast then
    ({ popped with
        f_pending_reads := s.f_pending_reads.tail
        rg_rd_rsp_beat := 0
        rg_cline := 0 },
      s.f_pending_reads.head?.map fun ldreq =>
        { data := new_cline, child := ldreq.child, id := ldreq.id })
  else
    ({ popped with
        rg_rd_rsp_beat := s.rg_rd_rsp_beat + 1
        rg_cline := new_cline }, none)

/-- The adapter, and whether the message leaves `toM`. -/
def rl_handle_write_req (wb : WbMemRs) : Adapter idT childT × Bool :=
  let started :=
    if s.rg_wr_req_beat = 0 then
      { s with
        wr_addr := some (writeAddr wb)
        ctr_wr_rsps_pending := s.ctr_wr_rsps_pending + 1 }
    else s
  let beat := { started with wr_data := some (writeBeat wb s.rg_wr_req_beat.toNat) }
  if s.rg_wr_req_beat = 7 then ({ beat with rg_wr_req_beat := 0 }, true)
  else ({ beat with rg_wr_req_beat := s.rg_wr_req_beat + 1 }, false)

def rl_discard_write_rsp : Adapter idT childT :=
  { s with
    wr_resp := none
    ctr_wr_rsps_pending := s.ctr_wr_rsps_pending - 1 }

/-- The payload is stored whether or not it is valid and the slot is free: only the flag is
set under the `if`. -/
def m_rvalid (rvalid : Bool) (lines : AXI4_Rd_Data 64) : Adapter idT childT :=
  let flagged :=
    if rvalid && !s.crg_rd_data_full then { s with crg_rd_data_full := true } else s
  { flagged with rg_rd_data := lines }

end Adapter

/-! ## The subordinate -/

/-- A memory of double words. -/
abbrev Mem : Type := BitVec 61 → Data

/-- The double word of a beat of an incrementing burst. -/
def beatIndex (addr : Addr) (beat : Nat) : BitVec 61 :=
  addr.extractLsb' 3 61 + BitVec.ofNat 61 beat

def byteMask (strb : BitVec 8) : Data :=
  let mask (i : Nat) : BitVec 8 := if strb.getLsbD i then 0xff#8 else 0#8
  mask 7 ++ mask 6 ++ mask 5 ++ mask 4 ++ mask 3 ++ mask 2 ++ mask 1 ++ mask 0

/-- The enabled bytes come from `new`. -/
def mergeBytes (strb : BitVec 8) (old new : Data) : Data :=
  (new &&& byteMask strb) ||| (old &&& ~~~byteMask strb)

def Mem.writeBeats (mem : Mem) (index : BitVec 61) : List (AXI4_Wr_Data 64) → Mem
  | [] => mem
  | beat :: rest =>
      Mem.writeBeats
        (Function.update mem index (mergeBytes beat.wstrb (mem index) beat.wdata))
        (index + 1) rest

/-- A read burst the subordinate has taken.  Its words are settled from the start, but they
have to be those of the memory at the moment it is performed. -/
structure ReadBurst where
  ar : AXI4_Rd_Addr 64
  words : Nat → Data
  performed : Bool

def ReadBurst.beat (b : ReadBurst) (k : Nat) : AXI4_Rd_Data 64 where
  rid := b.ar.arid
  rdata := b.words k
  rresp := axi4_resp_okay
  rlast := k = b.ar.arlen.toNat

def ReadBurst.beats (b : ReadBurst) : List (AXI4_Rd_Data 64) :=
  (List.range (b.ar.arlen.toNat + 1)).map b.beat

structure Subordinate where
  mem : Mem
  reads : List ReadBurst
  -- beats of read data taken by the transactor
  rdSent : Nat
  wrAddrs : List (AXI4_Wr_Addr 64)
  wrDatas : List (AXI4_Wr_Data 64)
  -- bursts performed, beats of theirs, and responses taken by the transactor
  wrDone : Nat
  wrUsed : Nat
  wrSent : Nat

/-- The beats of all read bursts in order, each with whether its burst has been performed. -/
def Subordinate.rdStream (m : Subordinate) : List (AXI4_Rd_Data 64 × Bool) :=
  m.reads.flatMap fun b => b.beats.map fun beat => (beat, b.performed)

/-- The beat on the read data channel; a last one only after the burst has been performed. -/
def Subordinate.offers (m : Subordinate) (beat : AXI4_Rd_Data 64) : Prop :=
  m.rdStream[m.rdSent]? = some (beat, true) ∨
    (m.rdStream[m.rdSent]? = some (beat, false) ∧ beat.rlast = false)

instance (m : Subordinate) (beat : AXI4_Rd_Data 64) : Decidable (m.offers beat) :=
  inferInstanceAs (Decidable (_ ∨ _))

/-! ## The whole link -/

structure Link (idT childT : Type) where
  adapter : Adapter idT childT
  toM : List (ToMemMsg idT childT)
  -- messages that have left `toM`, and responses the cache has received
  taken : List (ToMemMsg idT childT)
  rsFromM : List (MemRsMsg idT childT)
  -- write responses the adapter has discarded
  discarded : Nat
  memory : Subordinate

inductive Event (idT childT : Type) where
  | toM (msg : ToMemMsg idT childT)
  | rl_handle_read_req
  | rl_handle_read_rsps
  | rl_handle_write_req
  | rl_discard_write_rsp
  | m_arready (words : Nat → Data)
  | m_awready
  | m_wready
  | m_rvalid (rvalid : Bool) (lines : AXI4_Rd_Data 64)
  | m_bvalid (resp : AXI4_Wr_Resp)
  | perform_read (i : Nat)
  | perform_write

namespace Link

variable (s : Link idT childT)

/-- Every message of the cache, in order. -/
def asked : List (ToMemMsg idT childT) := s.taken ++ s.toM

def loads (msgs : List (ToMemMsg idT childT)) : List (LdMemRq idT childT) :=
  msgs.filterMap fun msg =>
    match msg with
    | .Ld ld => some ld
    | .Wb _ => none

def writes (msgs : List (ToMemMsg idT childT)) : List WbMemRs :=
  msgs.filterMap fun msg =>
    match msg with
    | .Ld _ => none
    | .Wb wb => some wb

/-- The loads the cache has no answer to. -/
def unanswered : List (LdMemRq idT childT) := (loads s.asked).drop s.rsFromM.length

/-- The cache does not write back a line it is still loading. -/
def sends : ToMemMsg idT childT → Prop
  | .Ld _ => True
  | .Wb wb => ∀ ld ∈ s.unanswered, lineAddr ld.addr ≠ lineAddr wb.addr

/-- Guards of the rules and methods, and what the subordinate may do.  `rsFromM` can be
full at any time. -/
def allows : Event idT childT → Prop
  | .toM msg => s.sends msg
  | .rl_handle_read_req =>
      (∃ ld rest, s.toM = .Ld ld :: rest) ∧ s.adapter.ctr_wr_rsps_pending = 0 ∧
        s.adapter.rd_addr = none ∧ s.adapter.f_pending_reads.length < 2
  | .rl_handle_read_rsps =>
      s.adapter.crg_rd_data_full = true ∧
        (s.adapter.rg_rd_data.rlast = true → s.adapter.f_pending_reads ≠ [])
  | .rl_handle_write_req =>
      (∃ wb rest, s.toM = .Wb wb :: rest) ∧ s.adapter.wr_data = none ∧
        (s.adapter.rg_wr_req_beat = 0 →
          s.adapter.wr_addr = none ∧ s.adapter.ctr_wr_rsps_pending ≠ 15)
  | .rl_discard_write_rsp =>
      s.adapter.wr_resp ≠ none ∧ s.adapter.ctr_wr_rsps_pending ≠ 0
  | .m_arready _ => s.adapter.rd_addr ≠ none
  | .m_awready => s.adapter.wr_addr ≠ none
  | .m_wready => s.adapter.wr_data ≠ none
  | .m_rvalid rvalid lines => rvalid = true → s.memory.offers lines
  | .m_bvalid _ => s.memory.wrSent < s.memory.wrDone ∧ s.adapter.wr_resp = none
  | .perform_read i =>
      ∃ b, s.memory.reads[i]? = some b ∧ b.performed = false ∧
        ∀ k ≤ b.ar.arlen.toNat, b.words k = s.memory.mem (beatIndex b.ar.araddr k)
  | .perform_write =>
      ∃ aw, s.memory.wrAddrs[s.memory.wrDone]? = some aw ∧
        s.memory.wrUsed + (aw.awlen.toNat + 1) ≤ s.memory.wrDatas.length

def step : Event idT childT → Link idT childT
  | .toM msg => { s with toM := s.toM ++ [msg] }
  | .rl_handle_read_req =>
      match s.toM with
      | .Ld ld :: rest =>
          { s with
            adapter := s.adapter.rl_handle_read_req ld
            toM := rest
            taken := s.taken ++ [.Ld ld] }
      | _ => s
  | .rl_handle_read_rsps =>
      let done := s.adapter.rl_handle_read_rsps
      { s with
        adapter := done.1
        rsFromM := s.rsFromM ++ done.2.toList }
  | .rl_handle_write_req =>
      match s.toM with
      | .Wb wb :: rest =>
          let done := s.adapter.rl_handle_write_req wb
          if done.2 then
            { s with adapter := done.1, toM := rest, taken := s.taken ++ [.Wb wb] }
          else { s with adapter := done.1 }
      | _ => s
  | .rl_discard_write_rsp =>
      { s with adapter := s.adapter.rl_discard_write_rsp, discarded := s.discarded + 1 }
  | .m_arready words =>
      match s.adapter.rd_addr with
      | some ar =>
          { s with
            adapter := { s.adapter with rd_addr := none }
            memory :=
              { s.memory with
                reads := s.memory.reads ++ [{ ar := ar, words := words, performed := false }] } }
      | none => s
  | .m_awready =>
      { s with
        adapter := { s.adapter with wr_addr := none }
        memory :=
          { s.memory with wrAddrs := s.memory.wrAddrs ++ s.adapter.wr_addr.toList } }
  | .m_wready =>
      { s with
        adapter := { s.adapter with wr_data := none }
        memory :=
          { s.memory with wrDatas := s.memory.wrDatas ++ s.adapter.wr_data.toList } }
  | .m_rvalid rvalid lines =>
      { s with
        adapter := s.adapter.m_rvalid rvalid lines
        memory :=
          if rvalid && !s.adapter.crg_rd_data_full then
            { s.memory with rdSent := s.memory.rdSent + 1 }
          else s.memory }
  | .m_bvalid resp =>
      { s with
        adapter := { s.adapter with wr_resp := some resp }
        memory := { s.memory with wrSent := s.memory.wrSent + 1 } }
  | .perform_read i =>
      { s with
        memory :=
          { s.memory with
            reads := s.memory.reads.modify i fun b => { b with performed := true } } }
  | .perform_write =>
      match s.memory.wrAddrs[s.memory.wrDone]? with
      | some aw =>
          let beats := (s.memory.wrDatas.drop s.memory.wrUsed).take (aw.awlen.toNat + 1)
          { s with
            memory :=
              { s.memory with
                mem := s.memory.mem.writeBeats (beatIndex aw.awaddr 0) beats
                wrDone := s.memory.wrDone + 1
                wrUsed := s.memory.wrUsed + beats.length } }
      | none => s

/-- After reset; `rg_cline` and `rg_rd_data` have no reset value. -/
def start (mem : Mem) (rg_cline : BitVec 512) (rg_rd_data : AXI4_Rd_Data 64) :
    Link idT childT where
  adapter :=
    { ctr_wr_rsps_pending := 0
      rg_rd_rsp_beat := 0
      f_pending_reads := []
      rg_cline := rg_cline
      rg_wr_req_beat := 0
      wr_addr := none
      wr_data := none
      wr_resp := none
      rd_addr := none
      crg_rd_data_full := false
      rg_rd_data := rg_rd_data }
  toM := []
  taken := []
  rsFromM := []
  discarded := 0
  memory :=
    { mem := mem
      reads := []
      rdSent := 0
      wrAddrs := []
      wrDatas := []
      wrDone := 0
      wrUsed := 0
      wrSent := 0 }

end Link

def machine (idT childT : Type) (mem : Mem) (rg_cline : BitVec 512)
    (rg_rd_data : AXI4_Rd_Data 64) :
    Clocked.Machine (Link idT childT) (Event idT childT) where
  reset := Link.start mem rg_cline rg_rd_data
  next := Link.step
  allowed _ s e := s.allows e

end Toooba.LlcAdapter
