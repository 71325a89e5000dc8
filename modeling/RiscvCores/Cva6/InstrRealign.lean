import RiscvCores.Lib.BitField
import RiscvCores.Lib.Clocked
import RiscvCores.Lib.HalfwordParse

/-!
# `instr_realign`

The realigner with compressed instructions, for both fetch widths, behind the shift of the
frontend.  Addresses have `VLEN = w + 3` bits.  Memory is a function of the number of a
halfword; a block that is fed is named by the number of the halfword addressed.
-/

set_option autoImplicit false

namespace Cva6.Realign

open BitField

/-- `FETCH_WIDTH`, in halfwords. -/
inductive FetchWidth where
  | w32 | w64
  deriving DecidableEq, Repr

/-- `INSTR_PER_FETCH` -/
def FetchWidth.halves : FetchWidth → Nat
  | .w32 => 2
  | .w64 => 4

structure State (w : Nat) where
  unaligned : Bool
  unalignedInstr : BitVec 16
  unalignedAddress : BitVec (w + 3)
  deriving DecidableEq, Repr

/-- `valid_o`, `addr_o` and `instr_o` of one slot. -/
structure Lane (w : Nat) where
  valid : Bool
  addr : BitVec (w + 3)
  instr : BitVec 32
  deriving DecidableEq, Repr

section Slots

variable {m w : Nat} (data : BitVec m)

/-- `data_i[16*i +: 16]` -/
def half (i : Nat) : BitVec 16 := data.extractLsb' (16 * i) 16

/-- `data_i[16*i +: 32]` -/
def word (i : Nat) : BitVec 32 := data.extractLsb' (16 * i) 32

/-- `instr_is_compressed[i]` -/
def isCompressed (i : Nat) : Bool := !(data.extractLsb' (16 * i) 2 == 3#2)

/-- `{address_i[VLEN-1:3], slot, 1'b0}` -/
def slotAddress (address : BitVec (w + 3)) (slot : BitVec 2) : BitVec (w + 3) :=
  address.extractLsb' 3 w ++ (slot ++ 0#1)

end Slots

section Realign

variable {w : Nat} (s : State w) (validI : Bool) (address : BitVec (w + 3))

/-- `realign_bp_32`: the slots and the registers before `valid_i` and `flush_i`. -/
def realign32 (data : BitVec 32) : List (Lane w) × State w :=
  let high : BitVec (w + 3) := address.extractLsb' 2 (w + 1) ++ 2#2
  let saved : State w :=
    { unaligned := true, unalignedInstr := half data 1, unalignedAddress := high }
  let lane0 : Lane w :=
    { valid := validI
      addr := if s.unaligned then s.unalignedAddress else address
      instr := if s.unaligned then half data 0 ++ s.unalignedInstr else data }
  let idle1 : Lane w := { valid := false, addr := high, instr := 0 }
  let (lane1, d) :=
    if isCompressed data 0 || s.unaligned then
      if isCompressed data 1 then
        ({ idle1 with valid := validI, instr := 0#16 ++ half data 1 },
          { saved with unaligned := false })
      else (idle1, saved)
    else (idle1, { saved with unaligned := s.unaligned })
  if validI && address.getLsbD 1 then
    if isCompressed data 0 then
      ([{ lane0 with valid := true }, { lane1 with valid := false }], d)
    else
      -- the instruction starts in the last halfword of the block
      ([{ lane0 with valid := false }, { lane1 with valid := false }],
        { saved with unalignedInstr := half data 0 })
  else ([lane0, lane1], d)

/-- `realign_bp_64` -/
def realign64 (data : BitVec 64) : List (Lane w) × State w :=
  let rest : State w := { s with unaligned := false }
  let save (lane : Lane w) : State w :=
    { unaligned := true
      unalignedInstr := lane.instr.extractLsb' 0 16
      unalignedAddress := lane.addr }
  let idle : Lane w := { valid := false, addr := 0, instr := 0 }
  let on (lane : Lane w) : Lane w := { lane with valid := validI }
  let lane3 : Lane w :=
    { valid := false, addr := slotAddress address 3#2, instr := 0#16 ++ half data 3 }
  let wordAt (slot : BitVec 2) (i : Nat) : Lane w :=
    { valid := validI, addr := slotAddress address slot, instr := word data i }
  if address.extractLsb' 1 2 = 0#2 then
    if s.unaligned then
      let lane0 : Lane w :=
        { valid := validI, addr := s.unalignedAddress, instr := half data 0 ++ s.unalignedInstr }
      let lane1 := wordAt 1 1
      if isCompressed data 1 then
        let lane2 := wordAt 2 2
        if isCompressed data 2 then
          if isCompressed data 3 then ([lane0, lane1, lane2, on lane3], rest)
          else ([lane0, lane1, lane2, lane3], save lane3)
        else ([lane0, lane1, lane2, lane3], rest)
      else
        if isCompressed data 3 then ([lane0, lane1, on lane3, lane3], rest)
        else ([lane0, lane1, lane3, lane3], save lane3)
    else
      let lane0 : Lane w := { valid := validI, addr := address, instr := word data 0 }
      if isCompressed data 0 then
        let lane1 := wordAt 1 1
        if isCompressed data 1 then
          let lane2 := wordAt 2 2
          if isCompressed data 2 then
            if isCompressed data 3 then ([lane0, lane1, lane2, on lane3], rest)
            else ([lane0, lane1, lane2, lane3], save lane3)
          else ([lane0, lane1, lane2, lane3], rest)
        else
          if isCompressed data 3 then ([lane0, lane1, on lane3, lane3], rest)
          else ([lane0, lane1, lane3, lane3], save lane3)
      else
        let lane1 := wordAt 2 2
        if isCompressed data 2 then
          if isCompressed data 3 then ([lane0, lane1, on lane3, lane3], rest)
          else ([lane0, lane1, lane3, lane3], save lane3)
        else ([lane0, lane1, lane3, lane3], rest)
  else if address.extractLsb' 1 2 = 1#2 then
    let lane0 := wordAt 1 0
    let lane2 : Lane w := { valid := false, addr := slotAddress address 3#2, instr := word data 2 }
    if isCompressed data 0 then
      let lane1 := wordAt 2 1
      if isCompressed data 1 then
        if isCompressed data 2 then ([lane0, lane1, on lane2, lane3], rest)
        else ([lane0, lane1, lane2, lane3], save lane2)
      else ([lane0, lane1, lane2, lane3], rest)
    else
      if isCompressed data 2 then ([lane0, on lane2, lane2, lane3], rest)
      else ([lane0, lane2, lane2, lane3], save lane2)
  else if address.extractLsb' 1 2 = 2#2 then
    let lane0 := wordAt 2 0
    let lane1 : Lane w := { valid := false, addr := slotAddress address 3#2, instr := word data 1 }
    if isCompressed data 0 then
      if isCompressed data 1 then ([lane0, on lane1, idle, lane3], rest)
      else ([lane0, lane1, idle, lane3], save lane1)
    else ([lane0, lane1, idle, lane3], rest)
  else
    let lane0 : Lane w := { valid := false, addr := slotAddress address 3#2, instr := word data 0 }
    if isCompressed data 0 then ([on lane0, idle, idle, lane3], rest)
    else ([lane0, idle, idle, lane3], save lane0)

end Realign

/-- The slots and the registers before `valid_i` and `flush_i`. -/
def realign {w : Nat} (c : FetchWidth) (s : State w) (validI : Bool) (address : BitVec (w + 3))
    (data : BitVec (16 * c.halves)) : List (Lane w) × State w :=
  match c with
  | .w32 => realign32 s validI address data
  | .w64 => realign64 s validI address data

/-! ## The blocks of the frontend -/

/-- The first halfword of the block with a halfword. -/
def blockBase (c : FetchWidth) (p : Nat) : Nat := p / c.halves * c.halves

/-- The aligned block with a halfword. -/
def fetchBlock (c : FetchWidth) (mem : Nat → BitVec 16) (p : Nat) : BitVec (16 * c.halves) :=
  pack fun k => (mem (blockBase c p + k.val / 16)).getLsbD (k.val % 16)

/-- `icache_data`: lane 0 holds the halfword addressed. -/
def icacheData (c : FetchWidth) (mem : Nat → BitVec 16) (p : Nat) : BitVec (16 * c.halves) :=
  fetchBlock c mem p >>> (16 * (p % c.halves))

/-- The inputs of a cycle: the halfword addressed by the block fed in it, if one is, or
whatever stands on the wires. -/
structure Feed (c : FetchWidth) (w : Nat) where
  flush : Bool
  block : Option Nat
  address : BitVec (w + 3)
  data : BitVec (16 * c.halves)

section Machine

variable {c : FetchWidth} {w : Nat} (mem : Nat → BitVec 16)

def Feed.addressI (i : Feed c w) : BitVec (w + 3) :=
  match i.block with
  | some p => BitVec.ofNat (w + 3) (2 * p)
  | none => i.address

def Feed.dataI (i : Feed c w) : BitVec (16 * c.halves) :=
  match i.block with
  | some p => icacheData c mem p
  | none => i.data

/-- The slots and registers of a cycle. -/
def comb (s : State w) (i : Feed c w) : List (Lane w) × State w :=
  realign c s i.block.isSome i.addressI (i.dataI mem)

def next (s : State w) (i : Feed c w) : State w where
  unaligned :=
    if i.flush then false
    else if i.block.isSome then (comb mem s i).2.unaligned else s.unaligned
  unalignedInstr := if i.block.isSome then (comb mem s i).2.unalignedInstr else s.unalignedInstr
  unalignedAddress :=
    if i.block.isSome then (comb mem s i).2.unalignedAddress else s.unalignedAddress

/-- The valid slots of a cycle, in order. -/
def validLanes (s : State w) (i : Feed c w) : List (Lane w) :=
  (comb mem s i).1.filter (·.valid)

/-- The halfwords fed since the last flush: where they start and where they end. -/
def fed (cycles : List (State w × Feed c w)) : Option (Nat × Nat) :=
  cycles.foldl (fun range now =>
    if now.2.flush then none
    else match now.2.block with
      | none => range
      | some p => some ((range.map Prod.fst).getD p, blockBase c p + c.halves)) none

/-- The realigner fed with consecutive blocks, from any halfword on after a flush. -/
def machine (mem : Nat → BitVec 16) : Clocked.Machine (State w) (Feed c w) where
  reset := { unaligned := false, unalignedInstr := 0, unalignedAddress := 0 }
  next := next mem
  allowed cycles _ i := ∀ p ∈ i.block, ∀ range ∈ fed cycles, p = range.2

end Machine

end Cva6.Realign
