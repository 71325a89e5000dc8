import Mathlib.Algebra.GroupWithZero.Nat
import Mathlib.Logic.Function.Basic
import Mathlib.Tactic.Common

/-!
# A register machine with byte memory

Registers, byte memory and a program counter, with the base integer instructions that
a sequence for saving and restoring registers is made of.  An instruction is encoded
in 32 bits; `encode` and `decode` are inverse.
-/

set_option autoImplicit false

namespace BaseMachine

@[ext]
structure Hart (w : Nat) where
  reg : BitVec 5 → BitVec w
  mem : BitVec w → BitVec 8
  pc : BitVec w

variable {w : Nat}

/-! ## Registers and memory -/

namespace Hart

def get (h : Hart w) (r : BitVec 5) : BitVec w := if r = 0 then 0 else h.reg r

def set (h : Hart w) (r : BitVec 5) (v : BitVec w) : Hart w :=
  if r = 0 then h else { h with reg := Function.update h.reg r v }

/-- The `n` bytes from `a` on, the first one lowest. -/
def read (h : Hart w) (a : BitVec w) : (n : Nat) → BitVec (8 * n)
  | 0 => 0#0
  | n + 1 => (h.mem (a + BitVec.ofNat w n) ++ h.read a n).cast (by omega)

def write (h : Hart w) (a : BitVec w) (n : Nat) (v : BitVec (8 * n)) : Hart w :=
  { h with
    mem := fun x =>
      if (x - a).toNat < n then v.extractLsb' (8 * (x - a).toNat) 8 else h.mem x }

def jump (h : Hart w) (target : BitVec w) : Hart w := { h with pc := target }

variable (h : Hart w)

theorem get_set_same {r : BitVec 5} (some : r ≠ 0) (v : BitVec w) : (h.set r v).get r = v := by
  rw [set, if_neg some, get, if_neg some]
  exact Function.update_self ..

theorem get_set_other {r r' : BitVec 5} (other : r' ≠ r) (v : BitVec w) :
    (h.set r v).get r' = h.get r' := by
  by_cases zero : r = 0
  · rw [set, if_pos zero]
  · rw [set, if_neg zero, get, get]
    exact if_congr Iff.rfl rfl (Function.update_of_ne other ..)

@[simp] theorem get_write (a : BitVec w) (n : Nat) (v : BitVec (8 * n)) (r : BitVec 5) :
    (h.write a n v).get r = h.get r := rfl

@[simp] theorem get_jump (target : BitVec w) (r : BitVec 5) : (h.jump target).get r = h.get r :=
  rfl

@[simp] theorem pc_set (r : BitVec 5) (v : BitVec w) : (h.set r v).pc = h.pc := by
  rw [set]
  split <;> rfl

@[simp] theorem pc_write (a : BitVec w) (n : Nat) (v : BitVec (8 * n)) :
    (h.write a n v).pc = h.pc := rfl

@[simp] theorem pc_jump (target : BitVec w) : (h.jump target).pc = target := rfl

@[simp] theorem jump_self : h.jump h.pc = h := rfl

@[simp] theorem jump_jump (target target' : BitVec w) :
    (h.jump target).jump target' = h.jump target' := rfl

@[simp] theorem jump_set (r : BitVec 5) (v target : BitVec w) :
    (h.jump target).set r v = (h.set r v).jump target := by
  rw [set, set]
  split <;> rfl

@[simp] theorem set_zero (v : BitVec w) : h.set 0 v = h := rfl

theorem set_set (r : BitVec 5) (v v' : BitVec w) : (h.set r v).set r v' = h.set r v' := by
  unfold set
  split
  · rfl
  · simp only [Function.update_idem]

theorem set_comm {r r' : BitVec 5} (other : r ≠ r') (v v' : BitVec w) :
    (h.set r v).set r' v' = (h.set r' v').set r v := by
  unfold set
  split <;> split <;> try rfl
  simp only [Function.update_comm other]

/-! ## Register lists in memory -/

variable (bytes : Nat)

/-- The registers of the list are stored from `a` downwards, in slots of `bytes` bytes. -/
def save (h : Hart w) (a : BitVec w) : List (BitVec 5) → Hart w
  | [] => h
  | r :: rs =>
      (h.write a bytes ((h.get r).setWidth (8 * bytes))).save (a - BitVec.ofNat w bytes) rs

/-- The registers of the list are loaded from the slots from `a` downwards. -/
def restore (h : Hart w) (a : BitVec w) : List (BitVec 5) → Hart w
  | [] => h
  | r :: rs =>
      (h.set r ((h.read a bytes).signExtend w)).restore (a - BitVec.ofNat w bytes) rs

@[simp] theorem get_save (a : BitVec w) (rs : List (BitVec 5)) (r : BitVec 5) :
    (h.save bytes a rs).get r = h.get r := by
  induction rs generalizing h a with
  | nil => rfl
  | cons r' rs ih => rw [save, ih, get_write]

@[simp] theorem pc_save (a : BitVec w) (rs : List (BitVec 5)) :
    (h.save bytes a rs).pc = h.pc := by
  induction rs generalizing h a with
  | nil => rfl
  | cons r' rs ih => rw [save, ih, pc_write]

@[simp] theorem pc_restore (a : BitVec w) (rs : List (BitVec 5)) :
    (h.restore bytes a rs).pc = h.pc := by
  induction rs generalizing h a with
  | nil => rfl
  | cons r' rs ih => rw [restore, ih, pc_set]

theorem get_restore {r : BitVec 5} (a : BitVec w) {rs : List (BitVec 5)} (other : r ∉ rs) :
    (h.restore bytes a rs).get r = h.get r := by
  induction rs generalizing h a with
  | nil => rfl
  | cons r' rs ih =>
      obtain ⟨ne, rest⟩ := not_or.mp (mt List.mem_cons.mpr other)
      rw [restore, ih _ _ rest, get_set_other h ne]

end Hart

/-! ## Instructions -/

inductive Instr where
  | addi (rd rs1 : BitVec 5) (imm : BitVec 12)
  | lui (rd : BitVec 5) (imm : BitVec 20)
  | load (wide : Bool) (rd rs1 : BitVec 5) (imm : BitVec 12)
  | store (wide : Bool) (rs2 rs1 : BitVec 5) (imm : BitVec 12)
  | jalr (rd rs1 : BitVec 5) (imm : BitVec 12)
  deriving DecidableEq

/-- The width of an access: a word or a double word. -/
def funct3 (wide : Bool) : BitVec 3 := if wide then 3 else 2

def accessBytes (wide : Bool) : Nat := if wide then 8 else 4

def Instr.encode : Instr → BitVec 32
  | .addi rd rs1 imm => imm ++ rs1 ++ 0#3 ++ rd ++ 0b0010011#7
  | .lui rd imm => imm ++ rd ++ 0b0110111#7
  | .load wide rd rs1 imm => imm ++ rs1 ++ funct3 wide ++ rd ++ 0b0000011#7
  | .store wide rs2 rs1 imm =>
      imm.extractLsb' 5 7 ++ rs2 ++ rs1 ++ funct3 wide ++ imm.extractLsb' 0 5 ++ 0b0100011#7
  | .jalr rd rs1 imm => imm ++ rs1 ++ 0#3 ++ rd ++ 0b1100111#7

def decode (x : BitVec 32) : Option Instr :=
  let opcode := x.extractLsb' 0 7
  let func := x.extractLsb' 12 3
  let rd := x.extractLsb' 7 5
  let rs1 := x.extractLsb' 15 5
  let imm := x.extractLsb' 20 12
  if opcode = 0b0010011#7 ∧ func = 0 then some (.addi rd rs1 imm)
  else if opcode = 0b0110111#7 then some (.lui rd (x.extractLsb' 12 20))
  else if opcode = 0b0000011#7 ∧ func = 2 then some (.load false rd rs1 imm)
  else if opcode = 0b0000011#7 ∧ func = 3 then some (.load true rd rs1 imm)
  else if opcode = 0b0100011#7 ∧ func = 2 then
    some (.store false (x.extractLsb' 20 5) rs1 (x.extractLsb' 25 7 ++ rd))
  else if opcode = 0b0100011#7 ∧ func = 3 then
    some (.store true (x.extractLsb' 20 5) rs1 (x.extractLsb' 25 7 ++ rd))
  else if opcode = 0b1100111#7 ∧ func = 0 then some (.jalr rd rs1 imm)
  else none

/-- A part of what stands above the lowest bits. -/
theorem extract_above {m n : Nat} (hi : BitVec m) (lo : BitVec n) {start len : Nat}
    (above : n ≤ start) : (hi ++ lo).extractLsb' start len = hi.extractLsb' (start - n) len :=
  BitVec.extractLsb'_append_eq_of_le above

/-- A part of the lowest bits. -/
theorem extract_below {m n : Nat} (hi : BitVec m) (lo : BitVec n) {start len : Nat}
    (below : start + len ≤ n) : (hi ++ lo).extractLsb' start len = lo.extractLsb' start len :=
  BitVec.extractLsb'_append_eq_of_add_le below

/-- The destination of an instruction that has one. -/
theorem extract_rd (hi : BitVec 20) (rd : BitVec 5) (opcode : BitVec 7) :
    (hi ++ rd ++ opcode).extractLsb' 7 5 = rd := by
  rw [extract_above _ _ (by decide), extract_below _ _ (by decide), Nat.sub_self,
    BitVec.extractLsb'_eq_self]

theorem decode_encode (i : Instr) : decode i.encode = some i := by
  cases i with
  | addi rd rs1 imm =>
      simp (disch := decide) only [decode, Instr.encode, extract_above, extract_below]
      simp
  | lui rd imm =>
      simp (disch := decide) only [decode, Instr.encode, extract_above, extract_below]
      simp
  | load wide rd rs1 imm =>
      cases wide <;>
        simp (disch := decide) only [decode, Instr.encode, funct3, extract_above, extract_below] <;>
        simp
  | store wide rs2 rs1 imm =>
      have whole : imm.extractLsb' 5 7 ++ imm.extractLsb' 0 5 = imm :=
        @BitVec.extractLsb'_append_extractLsb' 7 5 imm
      cases wide <;>
        simp (disch := decide) only [decode, Instr.encode, funct3, extract_above, extract_below] <;>
        simp [whole]
  | jalr rd rs1 imm =>
      simp (disch := decide) only [decode, Instr.encode, extract_above, extract_below]
      simp

theorem decode_store {x : BitVec 32} {i : Instr} (opcode : x.extractLsb' 0 7 = 0b0100011#7)
    (decoded : decode x = some i) : ∃ wide rs2 rs1 imm, i = .store wide rs2 rs1 imm := by
  simp only [decode, opcode, BitVec.reduceEq, false_and, true_and, if_false] at decoded
  split_ifs at decoded
  · exact ⟨_, _, _, _, (Option.some.inj decoded).symm⟩
  · exact ⟨_, _, _, _, (Option.some.inj decoded).symm⟩

theorem decode_load {x : BitVec 32} {i : Instr} (opcode : x.extractLsb' 0 7 = 0b0000011#7)
    (decoded : decode x = some i) : ∃ wide rs1 imm, i = .load wide (x.extractLsb' 7 5) rs1 imm := by
  simp only [decode, opcode, BitVec.reduceEq, false_and, true_and, if_false] at decoded
  split_ifs at decoded
  · exact ⟨_, _, _, (Option.some.inj decoded).symm⟩
  · exact ⟨_, _, _, (Option.some.inj decoded).symm⟩

/-! ## Execution -/

/-- One instruction; `next` is the program counter behind it. -/
def Hart.step (h : Hart w) (next : BitVec w) : Instr → Hart w
  | .addi rd rs1 imm => (h.set rd (h.get rs1 + imm.signExtend w)).jump next
  | .lui rd imm => (h.set rd ((imm ++ 0#12).signExtend w)).jump next
  | .load wide rd rs1 imm =>
      (h.set rd ((h.read (h.get rs1 + imm.signExtend w) (accessBytes wide)).signExtend w)).jump next
  | .store wide rs2 rs1 imm =>
      (h.write (h.get rs1 + imm.signExtend w) (accessBytes wide)
        ((h.get rs2).setWidth (8 * accessBytes wide))).jump next
  | .jalr rd rs1 imm =>
      (h.set rd next).jump ((h.get rs1 + imm.signExtend w) &&& ~~~1#w)

end BaseMachine
