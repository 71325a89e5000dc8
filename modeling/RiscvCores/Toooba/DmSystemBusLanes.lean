import Mathlib.Tactic.IntervalCases
import RiscvCores.Toooba.DmSystemBus

/-!
# Accesses of the debug module to the bus

The request an access puts on the channels has the lanes of its size enabled, and the
value a read returns is made of the addressed bytes.
-/

set_option autoImplicit false

namespace Toooba.SystemBus

open Toooba.AXI4

variable {f : Fabric}

/-- An access to the bus; a write carries its word. -/
structure Access where
  addr : BitVec 64
  sbaccess : DM_sbaccess
  data : Option DM_Word
  deriving DecidableEq
def byteOf {w : Nat} (x : BitVec w) (i : Nat) : BitVec 8 := x.extractLsb' (8 * i) 8

def Access.size (a : Access) : Nat := fn_sbaccess_to_addr_incr a.sbaccess

/-- The lane of the first byte in a word of the fabric. -/
def Access.lane (f : Fabric) (a : Access) : Nat := a.addr.toNat % (f.wd_Data / 8)

def Access.Supported (a : Access) : Prop :=
  a.sbaccess = DM_SBACCESS_8_BIT ∨ a.sbaccess = DM_SBACCESS_16_BIT ∨
    a.sbaccess = DM_SBACCESS_32_BIT

structure ReadFor (a : Access) (rda : AXI4_Rd_Addr f.wd_Addr) : Prop where
  araddr : rda.araddr = a.addr.setWidth f.wd_Addr
  arlen : rda.arlen = 0
  arsize : 2 ^ rda.arsize.toNat = a.size

/-- One beat, with the lanes of the access that lie in the word enabled. -/
structure WriteFor (a : Access) (dm_word : DM_Word) (wra : AXI4_Wr_Addr f.wd_Addr)
    (wrd : AXI4_Wr_Data f.wd_Data) : Prop where
  awaddr : wra.awaddr = a.addr.setWidth f.wd_Addr
  awlen : wra.awlen = 0
  awsize : 2 ^ wra.awsize.toNat = a.size
  wlast : wrd.wlast = true
  wstrb : ∀ i < f.wd_Data / 8,
    wrd.wstrb.getLsbD i = decide (a.lane f ≤ i ∧ i < a.lane f + a.size)
  wdata : ∀ i < f.wd_Data / 8, a.lane f ≤ i → i < a.lane f + a.size →
    byteOf wrd.wdata i = byteOf dm_word (i - a.lane f)

/-- The addressed bytes, extended by zeros; zero for an address that is not a multiple of
the size. -/
def ReadValue (a : Access) (rdata : BitVec f.wd_Data) (value : DM_Word) : Prop :=
  if a.addr.toNat % a.size = 0 then
    ∀ i < 4, byteOf value i = if i < a.size then byteOf rdata (a.lane f + i) else 0
  else value = 0
def Access.rdAddrs (f : Fabric) (a : Access) : List (AXI4_Rd_Addr f.wd_Addr) :=
  match a.data with
  | none =>
      [rdAddr (a.addr.setWidth f.wd_Addr) 0#8 (fn_DM_sbaccess_to_AXI4_Size a.sbaccess)]
  | some _ => []

def Access.wrAddrs (f : Fabric) (a : Access) : List (AXI4_Wr_Addr f.wd_Addr) :=
  match a.data with
  | none => []
  | some dm_word =>
      let fields := fn_to_fabric_write_fields f a.sbaccess a.addr (dm_word.setWidth 64)
      [wrAddr fields.1 0#8 fields.2.2.2]

def Access.wrDatas (f : Fabric) (a : Access) : List (AXI4_Wr_Data f.wd_Data) :=
  match a.data with
  | none => []
  | some dm_word =>
      let fields := fn_to_fabric_write_fields f a.sbaccess a.addr (dm_word.setWidth 64)
      [{ wdata := fields.2.1, wstrb := fields.2.2.1, wlast := true }]
/-! ## Lanes -/

theorem byteOf_shiftLeft {w : Nat} (x : BitVec w) {k i : Nat} (le : k ≤ i)
    (fits : 8 * i + 8 ≤ w) : byteOf (x <<< (8 * k)) i = byteOf x (i - k) := by
  apply BitVec.eq_of_getLsbD_eq
  intro j below
  have place : 8 * i + j - 8 * k = 8 * (i - k) + j := by omega
  simp only [byteOf, BitVec.getLsbD_extractLsb', BitVec.getLsbD_shiftLeft, below, place,
    decide_true, Bool.true_and]
  have inside : 8 * i + j < w := by omega
  have past : ¬ 8 * i + j < 8 * k := by omega
  simp only [inside, past, decide_true, decide_false, Bool.not_false, Bool.true_and]

theorem byteOf_setWidth {w v : Nat} (x : BitVec w) {i : Nat} (fits : 8 * i + 8 ≤ v) :
    byteOf (x.setWidth v) i = byteOf x i := by
  apply BitVec.eq_of_getLsbD_eq
  intro j below
  have inside : 8 * i + j < v := by omega
  simp only [byteOf, BitVec.getLsbD_extractLsb', BitVec.getLsbD_setWidth, inside,
    decide_true, Bool.true_and]

theorem byteOf_upper (x : BitVec 64) {i : Nat} (below : i < 4) :
    byteOf (0#32 ++ x.extractLsb' 32 32) i = byteOf x (i + 4) := by
  apply BitVec.eq_of_getLsbD_eq
  intro j small
  have inside : 8 * i + j < 32 := by omega
  have place : 32 + (8 * i + j) = 8 * (i + 4) + j := by omega
  simp only [byteOf, BitVec.getLsbD_extractLsb', BitVec.getLsbD_append, inside, place, if_true,
    decide_true, Bool.true_and]

theorem shift_bits_toNat (shift : BitVec 3) : (shift ++ 0#3).toNat = 8 * shift.toNat := by
  revert shift
  decide

theorem lane_eq (a : Access) :
    a.lane f = (a.addr.extractLsb' 0 3).toNat % (f.wd_Data / 8) := by
  cases f <;> simp [Access.lane, Fabric.wd_Data] 

/-- The enabled lanes of a word of the fabric, from those of a double word. -/
theorem lanes_of_size (bytes : Nat) (mask : BitVec 8)
    (size : (bytes, mask) ∈ [(1, 0b1#8), (2, 0b11#8), (4, 0b1111#8)]) (shift : BitVec 3) :
    (∀ i < 8, (mask <<< shift).getLsbD i =
      decide (shift.toNat ≤ i ∧ i < shift.toNat + bytes)) ∧
    (∀ i < 4, (if shift.getLsbD 2 then 0#4 ++ (mask <<< shift).extractLsb' 4 4
        else mask <<< shift).getLsbD i =
      decide (shift.toNat % 4 ≤ i ∧ i < shift.toNat % 4 + bytes)) := by
  simp only [List.mem_cons, Prod.mk.injEq, List.not_mem_nil, or_false] at size
  rcases size with ⟨rfl, rfl⟩ | ⟨rfl, rfl⟩ | ⟨rfl, rfl⟩
  · revert shift; decide
  · revert shift; decide
  · revert shift; decide

/-- For the three sizes the word is shifted to its lanes. -/
theorem write_fields_eq (sbaccess : DM_sbaccess) (bytes : Nat) (mask : BitVec 8)
    (axsize : AXI4_Size)
    (size : (sbaccess, bytes, mask, axsize) ∈
      [(DM_SBACCESS_8_BIT, 1, 0b1#8, axsize_1), (DM_SBACCESS_16_BIT, 2, 0b11#8, axsize_2),
        (DM_SBACCESS_32_BIT, 4, 0b1111#8, axsize_4)])
    (addr word64 : BitVec 64) :
    fn_to_fabric_write_fields f sbaccess addr word64 =
      (let shift : BitVec 3 := addr.extractLsb' 0 3
       let upper : Bool := f.wd_Data = 32 ∧ shift.getLsbD 2
       let data64 := word64 <<< (8 * shift.toNat)
       (addr.setWidth f.wd_Addr,
        (if upper then 0#32 ++ data64.extractLsb' 32 32 else data64).setWidth f.wd_Data,
        (if upper then 0#4 ++ (mask <<< shift).extractLsb' 4 4 else mask <<< shift).setWidth
          (f.wd_Data / 8), axsize)) := by
  have bit : (addr.extractLsb' 0 3).getLsbD 2 = addr.getLsbD 2 := by simp
  simp only [← shift_bits_toNat, bit]
  simp only [List.mem_cons, Prod.mk.injEq, List.not_mem_nil, or_false] at size
  rcases size with ⟨rfl, rfl, rfl, rfl⟩ | ⟨rfl, rfl, rfl, rfl⟩ | ⟨rfl, rfl, rfl, rfl⟩
  all_goals rfl

/-- The size of a supported access, its byte enables before the shift and its bus size. -/
theorem Access.Supported.fields {a : Access} (supported : a.Supported) :
    ∃ mask axsize, (a.sbaccess, a.size, mask, axsize) ∈
      [(DM_SBACCESS_8_BIT, 1, 0b1#8, axsize_1), (DM_SBACCESS_16_BIT, 2, 0b11#8, axsize_2),
        (DM_SBACCESS_32_BIT, 4, 0b1111#8, axsize_4)] := by
  unfold Access.size
  rcases supported with size | size | size <;> rw [size]
  · exact ⟨_, _, List.mem_cons_self⟩
  · exact ⟨_, _, List.mem_cons_of_mem _ List.mem_cons_self⟩
  · exact ⟨_, _, List.mem_cons_of_mem _ (List.mem_cons_of_mem _ List.mem_cons_self)⟩

theorem Access.Supported.size {a : Access} (supported : a.Supported) :
    a.size = 1 ∨ a.size = 2 ∨ a.size = 4 := by
  unfold Access.size
  rcases supported with size | size | size <;> rw [size] <;> decide

theorem read_for {a : Access} (read : a.data = none) :
    ∃ rda, a.rdAddrs f = [rda] ∧ (a.Supported → ReadFor a rda) := by
  refine ⟨_, by rw [Access.rdAddrs, read], fun supported => ⟨rfl, rfl, ?_⟩⟩
  unfold Access.size
  rcases supported with size | size | size <;> rw [size] <;> rfl

theorem write_lanes {a : Access} (supported : a.Supported) (dm_word : DM_Word) :
    let fields := fn_to_fabric_write_fields f a.sbaccess a.addr (dm_word.setWidth 64)
    fields.1 = a.addr.setWidth f.wd_Addr ∧ 2 ^ fields.2.2.2.toNat = a.size ∧
      (∀ i < f.wd_Data / 8,
        fields.2.2.1.getLsbD i = decide (a.lane f ≤ i ∧ i < a.lane f + a.size)) ∧
      ∀ i < f.wd_Data / 8, a.lane f ≤ i → i < a.lane f + a.size →
        byteOf fields.2.1 i = byteOf dm_word (i - a.lane f) := by
  obtain ⟨mask, axsize, member⟩ := supported.fields
  have sized : (a.size, mask) ∈ [(1, 0b1#8), (2, 0b11#8), (4, 0b1111#8)] ∧
      2 ^ axsize.toNat = a.size := by
    simp only [List.mem_cons, Prod.mk.injEq, List.not_mem_nil, or_false] at member
    rcases member with ⟨-, size, rfl, rfl⟩ | ⟨-, size, rfl, rfl⟩ | ⟨-, size, rfl, rfl⟩ <;>
      rw [size] <;> decide
  have small := supported.size
  have lanes := lanes_of_size a.size mask sized.1 (a.addr.extractLsb' 0 3)
  have below : (a.addr.extractLsb' 0 3).toNat < 8 := (a.addr.extractLsb' 0 3).isLt
  have high : (a.addr.extractLsb' 0 3).getLsbD 2 =
      decide (4 ≤ (a.addr.extractLsb' 0 3).toNat) := by
    generalize a.addr.extractLsb' 0 3 = shift
    revert shift
    decide
  rw [write_fields_eq _ _ _ _ member, lane_eq]
  generalize a.addr.extractLsb' 0 3 = shift at lanes below high ⊢
  refine ⟨rfl, sized.2, ?_, ?_⟩
  · intro i inside
    cases f with
    | FABRIC32 =>
        have inside : i < 4 := inside
        have lane := lanes.2 i inside
        simp only [Fabric.wd_Data, BitVec.getLsbD_setWidth, Nat.reduceDiv, true_and, inside,
          decide_true, Bool.true_and, Bool.decide_eq_true]
        exact lane
    | FABRIC64 =>
        have inside : i < 8 := inside
        have lane := lanes.1 i inside
        simpa [Fabric.wd_Data, BitVec.getLsbD_setWidth, inside, Nat.mod_eq_of_lt below] using lane
  · intro i inside first last
    cases f with
    | FABRIC32 =>
        have inside : i < 4 := inside
        simp only [Fabric.wd_Data, Nat.reduceDiv] at first last
        rw [byteOf_setWidth _ (by simpa [Fabric.wd_Data] using (by omega : 8 * i + 8 ≤ 32))]
        cases upper : shift.getLsbD 2 with
        | false =>
            have low : shift.toNat < 4 := 
              Nat.lt_of_not_le (of_decide_eq_false (high.symm.trans upper))
            have lane : shift.toNat % 4 = shift.toNat := Nat.mod_eq_of_lt low
            simp only [Fabric.wd_Data, and_false, decide_false, if_false, Bool.false_eq_true]
            rw [byteOf_shiftLeft _ (by omega) (by omega), byteOf_setWidth _ (by omega), lane]
        | true =>
            have low : 4 ≤ shift.toNat := of_decide_eq_true (high.symm.trans upper)
            simp only [Fabric.wd_Data, and_self, decide_true, if_true]
            rw [byteOf_upper _ inside, byteOf_shiftLeft _ (by omega) (by omega),
              byteOf_setWidth _ (by omega)]
            congr 1
            omega
    | FABRIC64 =>
        have inside : i < 8 := inside
        simp only [Fabric.wd_Data, Nat.reduceDiv, Nat.mod_eq_of_lt below] at first last
        simp only [Fabric.wd_Data, Nat.reduceDiv, Nat.mod_eq_of_lt below, Nat.reduceEqDiff,
          false_and, decide_false, if_false, Bool.false_eq_true]
        rw [byteOf_setWidth _ (by omega), byteOf_shiftLeft _ (by omega) (by omega),
          byteOf_setWidth _ (by omega)]

theorem write_for {a : Access} {dm_word : DM_Word} (write : a.data = some dm_word) :
    ∃ wra wrd, a.wrAddrs f = [wra] ∧ a.wrDatas f = [wrd] ∧
      (a.Supported → WriteFor a dm_word wra wrd) := by
  refine ⟨_, _, by rw [Access.wrAddrs, write], by rw [Access.wrDatas, write], fun supported => ?_⟩
  obtain ⟨address, size, strobe, data⟩ := write_lanes (f := f) supported dm_word
  exact ⟨address, rfl, size, rfl, strobe, data⟩

theorem lsbs_toNat (addr : BitVec 64) :
    (if f.wd_Data = 32 then addr.extractLsb' 0 3 &&& 3#3 else addr.extractLsb' 0 3).toNat =
      (addr.extractLsb' 0 3).toNat % (f.wd_Data / 8) := by
  generalize addr.extractLsb' 0 3 = shift
  cases f <;> revert shift <;> decide

theorem lane_lt (f : Fabric) (a : Access) : a.lane f < 8 := by
  unfold Access.lane
  cases f <;> (simp only [Fabric.wd_Data]; omega)

theorem lane_mod {a : Access} (supported : a.Supported) :
    a.lane f % a.size = a.addr.toNat % a.size := by
  have divides : a.size ∣ f.wd_Data / 8 := by
    rcases supported.size with size | size | size <;> rw [size] <;> cases f <;> decide
  exact Nat.mod_mod_of_dvd _ divides

/-- For the three sizes the bytes come from the lanes of an aligned address. -/
theorem extract_eq {a : Access} (supported : a.Supported) (word64 : BitVec 64) :
    fn_extract_and_extend_bytes f a.sbaccess a.addr word64 =
      if a.addr.toNat % a.size = 0 then
        (word64.extractLsb' (8 * a.lane f) (8 * a.size)).setWidth 64
      else 0 := by
  have lsbs := lsbs_toNat (f := f) a.addr
  rw [← lane_eq] at lsbs
  have below := lane_lt f a
  rw [← lane_mod (f := f) supported]
  unfold fn_extract_and_extend_bytes Access.size
  simp only [lsbs]
  generalize a.lane f = lane at below
  rcases supported with size | size | size <;> rw [size] <;> interval_cases lane <;> rfl

theorem read_value {a : Access} (supported : a.Supported) (rdata : BitVec f.wd_Data) :
    ReadValue a rdata
      ((fn_extract_and_extend_bytes f a.sbaccess a.addr (rdata.setWidth 64)).extractLsb' 0 32) := by
  have sized := supported.size
  rw [extract_eq supported]
  unfold ReadValue
  split_ifs with aligned
  · intro i small
    have below := lane_lt f a
    have fits : a.lane f + a.size ≤ 8 := by
      rw [← lane_mod (f := f) supported] at aligned
      rcases sized with size | size | size <;> rw [size] at aligned ⊢ <;> omega
    apply BitVec.eq_of_getLsbD_eq
    intro j bit
    have place : 8 * a.lane f + (8 * i + j) = 8 * (a.lane f + i) + j := by omega
    have word : 8 * i + j < 32 := by omega
    split_ifs with inside
    · have width : 8 * i + j < 8 * a.size := by omega
      have double : 8 * i + j < 64 := by omega
      have lanes : 8 * (a.lane f + i) + j < 64 := by omega
      simp only [byteOf, BitVec.getLsbD_extractLsb', BitVec.getLsbD_setWidth, bit, word, width,
        double, place, lanes, decide_true, Bool.true_and, Nat.zero_add]
    · have width : ¬ 8 * i + j < 8 * a.size := by omega
      simp [byteOf, BitVec.getLsbD_extractLsb', BitVec.getLsbD_setWidth, width]
  · rfl
end Toooba.SystemBus
