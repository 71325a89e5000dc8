import RiscvCores.CommonCells.Popcount
import RiscvCores.Cva6.ArianePkg
import RiscvCores.Cva6.Serdiv
import RiscvCores.Lib.WordOps

/-!
# The arithmetic unit

`alu` has one adder, one shifter that shifts right, one comparator that compares signed
numbers, and one leading-zero counter and one population counter for whole words.  The
other operations are had from these by what is put in front of them and behind.
-/

set_option autoImplicit false

namespace Cva6

open WordOps
open Serdiv (countLeading noOne)

/-- The configuration `alu` reads. -/
structure AluCfg where
  xlen : Nat
  xlen_eq : xlen = 32 ∨ xlen = 64
  rvb : Bool
  zkn : Bool
  rvZiCond : Bool
  hasBranch : Bool

namespace AluCfg

variable (cfg : AluCfg)

/-- `IS_XLEN64`. -/
def isXlen64 : Bool := cfg.xlen == 64

/-- `IS_XLEN32`. -/
def isXlen32 : Bool := cfg.xlen == 32

theorem xlen_power : ∃ l, 0 < l ∧ cfg.xlen = 2 ^ l := by
  rcases cfg.xlen_eq with size | size
  · exact ⟨5, Nat.succ_pos 4, size⟩
  · exact ⟨6, Nat.succ_pos 5, size⟩

end AluCfg

namespace Alu

section

variable (cfg : AluCfg) (op : FuOp) (operandA operandB : BitVec cfg.xlen)

/-- `operand_a_rev`. -/
def operandARev : BitVec cfg.xlen := operandA.reverse

/-- `operand_a_rev32`. -/
def operandARev32 : BitVec 32 := (operandA.setWidth 32).reverse

/-! ## The adder -/

/-- `adder_op_b_negate`. -/
def adderOpBNegate : Bool := op ∈ [.eq, .ne, .sub, .subw, .andn, .orn, .xnor]

/-- `operand_a_bitmanip`. -/
def operandABitmanip : BitVec cfg.xlen :=
  if cfg.rvb then
    let word :=
      if cfg.isXlen64 then
        match op with
        | .sh1adduw => zextLow 32 operandA <<< 1
        | .sh2adduw => zextLow 32 operandA <<< 2
        | .sh3adduw => zextLow 32 operandA <<< 3
        | .ctzw => (operandARev32 cfg operandA).setWidth cfg.xlen
        | .adduw | .cpopw | .clzw => zextLow 32 operandA
        | _ => operandA
      else operandA
    match op with
    | .sh1add => operandA <<< 1
    | .sh2add => operandA <<< 2
    | .sh3add => operandA <<< 3
    | .ctz => operandARev cfg operandA
    | _ => word
  else operandA

/-- `operand_b_neg`. -/
def operandBNeg : BitVec (cfg.xlen + 1) :=
  (operandB ++ 0#1) ^^^ if adderOpBNegate op then BitVec.allOnes (cfg.xlen + 1) else 0

/-- `adder_result`, from `adder_in_a` and `adder_in_b`. -/
def adderResult : BitVec cfg.xlen :=
  ((operandABitmanip cfg op operandA ++ 1#1).setWidth (cfg.xlen + 2) +
    (operandBNeg cfg op operandB).setWidth (cfg.xlen + 2)).extractLsb' 1 cfg.xlen

/-- `adder_z_flag`. -/
def adderZFlag : Bool := adderResult cfg op operandA operandB == 0

/-! ## Shifts -/

/-- `shift_left`. -/
def shiftLeft : Bool := op == .sll || cfg.isXlen64 && op == .sllw

/-- `shift_arithmetic`. -/
def shiftArithmetic : Bool := op == .sra || cfg.isXlen64 && op == .sraw

/-- `shift_op_a`. -/
def shiftOpA : BitVec cfg.xlen := if shiftLeft cfg op then operandARev cfg operandA else operandA

/-- `shift_op_a32`. -/
def shiftOpA32 : BitVec 32 :=
  if shiftLeft cfg op then operandARev32 cfg operandA else operandA.setWidth 32

/-- `shift_right_result`. -/
def shiftRightResult : BitVec (1 + cfg.xlen) :=
  let a := shiftOpA cfg op operandA
  (BitVec.ofBool (shiftArithmetic cfg op && a.msb) ++ a).sshiftRight
    (operandB.extractLsb' 0 6).toNat

/-- `shift_right_result32`. -/
def shiftRightResult32 : BitVec (1 + 32) :=
  let sign := (shiftOpA cfg op operandA).getLsbD 31
  (BitVec.ofBool (shiftArithmetic cfg op && sign) ++ shiftOpA32 cfg op operandA).sshiftRight
    (operandB.extractLsb' 0 5).toNat

/-- `shift_result`. -/
def shiftResult : BitVec cfg.xlen :=
  let right := (shiftRightResult cfg op operandA operandB).setWidth cfg.xlen
  if shiftLeft cfg op then right.reverse else right

/-- `shift_result32`. -/
def shiftResult32 : BitVec 32 :=
  let right := (shiftRightResult32 cfg op operandA operandB).setWidth 32
  if shiftLeft cfg op then right.reverse else right

/-! ## Comparisons -/

/-- `sgn`. -/
def sgn : Bool := op == .slts || op == .lts || op == .ges || op == .max || op == .min

/-- `less`. -/
def less : Bool :=
  (BitVec.ofBool (sgn op && operandA.msb) ++ operandA).slt
    (BitVec.ofBool (sgn op && operandB.msb) ++ operandB)

/-- `alu_branch_res_o`. -/
def aluBranchRes : Bool :=
  if cfg.hasBranch then
    match op with
    | .eq => adderZFlag cfg op operandA operandB
    | .ne => !adderZFlag cfg op operandA operandB
    | .lts | .ltu => less cfg op operandA operandB
    | .ges | .geu => !less cfg op operandA operandB
    | _ => true
  else false

/-! ## Bit counts and bytes -/

/-- `cpop`. -/
def cpop : BitVec (Nat.clog 2 cfg.xlen + 1) :=
  CommonCells.popcount (operandABitmanip cfg op operandA)

/-- `lz_tz_count`. -/
def lzTzCount : BitVec (Nat.clog 2 cfg.xlen) :=
  BitVec.ofNat _ (countLeading (operandABitmanip cfg op operandA))

/-- `lz_tz_empty`. -/
def lzTzEmpty : Bool := noOne (operandABitmanip cfg op operandA)

/-- `lz_tz_wcount`. -/
def lzTzWcount : BitVec 5 :=
  BitVec.ofNat _ (countLeading ((operandABitmanip cfg op operandA).setWidth 32))

/-- `lz_tz_wempty`. -/
def lzTzWempty : Bool := noOne ((operandABitmanip cfg op operandA).setWidth 32)

/-- `{8{|operand_a[8 * k + 7 : 8 * k]}}`. -/
def orByte (k : Nat) : BitVec 8 := if byte operandA k ≠ 0 then BitVec.allOnes 8 else 0

/-- `orcbw`. -/
def orcbw : BitVec 32 :=
  orByte cfg operandA 3 ++ orByte cfg operandA 2 ++ orByte cfg operandA 1 ++ orByte cfg operandA 0

/-- `rev8w`. -/
def rev8w : BitVec 32 :=
  byte operandA 0 ++ byte operandA 1 ++ byte operandA 2 ++ byte operandA 3

/-- `orcbw_result`. -/
def orcbwResult : BitVec cfg.xlen :=
  if cfg.isXlen64 then
    (orByte cfg operandA 7 ++ orByte cfg operandA 6 ++ orByte cfg operandA 5 ++
      orByte cfg operandA 4 ++ orcbw cfg operandA).setWidth _
  else (orcbw cfg operandA).setWidth _

/-- `rev8w_result`. -/
def rev8wResult : BitVec cfg.xlen :=
  if cfg.isXlen64 then
    (rev8w cfg operandA ++ byte operandA 4 ++ byte operandA 5 ++ byte operandA 6 ++
      byte operandA 7).setWidth _
  else (rev8w cfg operandA).setWidth _

/-- `brev8_reversed`. -/
def brev8Reversed : BitVec cfg.xlen :=
  BitField.pack fun j => operandA.getLsbD (8 * (j / 8) + (7 - j % 8))

/-- `zip_gen`. -/
def zipGen : BitVec 32 :=
  BitField.pack fun j =>
    if j.val % 2 = 0 then operandA.getLsbD (j / 2) else operandA.getLsbD (j / 2 + 16)

/-- `unzip_gen`. -/
def unzipGen : BitVec 32 :=
  BitField.pack fun j =>
    if j.val < 16 then operandA.getLsbD (2 * j) else operandA.getLsbD (2 * (j - 16) + 1)

/-! ## The result -/

/-- `bit_indx`. -/
def bitIndx : BitVec cfg.xlen :=
  (1 : BitVec cfg.xlen) <<< (operandB &&& BitVec.ofNat cfg.xlen (cfg.xlen - 1)).toNat

/-- `rolw`. -/
def rolw : BitVec 32 :=
  let amount := (operandB.extractLsb' 0 5).toNat
  (zextLow 32 operandA <<< amount ||| zextLow 32 operandA >>> (cfg.xlen - 32 - amount)).setWidth 32

/-- `rorw`. -/
def rorw : BitVec 32 :=
  let amount := (operandB.extractLsb' 0 5).toNat
  (zextLow 32 operandA >>> amount ||| zextLow 32 operandA <<< (cfg.xlen - 32 - amount)).setWidth 32

/-- The amount of `ROL`, `ROR` and `RORI`. -/
def rotateAmount : Nat :=
  if cfg.isXlen64 then (operandB.extractLsb' 0 6).toNat else (operandB.extractLsb' 0 5).toNat

/-- The word operations of the result multiplexer. -/
def wordResult : BitVec cfg.xlen :=
  if cfg.isXlen64 then
    match op with
    | .addw | .subw => sextLow 32 (adderResult cfg op operandA operandB)
    | .sh1adduw | .sh2adduw | .sh3adduw => adderResult cfg op operandA operandB
    | .sllw | .srlw | .sraw => (shiftResult32 cfg op operandA operandB).signExtend _
    | _ => 0
  else 0

/-- The standard operations, over the result so far. -/
def standardResult (result : BitVec cfg.xlen) : BitVec cfg.xlen :=
  match op with
  | .andl | .andn => operandA &&& (operandBNeg cfg op operandB).extractLsb' 1 cfg.xlen
  | .orl | .orn => operandA ||| (operandBNeg cfg op operandB).extractLsb' 1 cfg.xlen
  | .xorl | .xnor => operandA ^^^ (operandBNeg cfg op operandB).extractLsb' 1 cfg.xlen
  | .add | .sub | .adduw | .sh1add | .sh2add | .sh3add => adderResult cfg op operandA operandB
  | .sll | .srl | .sra =>
      if cfg.isXlen64 then shiftResult cfg op operandA operandB
      else (shiftResult32 cfg op operandA operandB).setWidth _
  | .slts | .sltu => (BitVec.ofBool (less cfg op operandA operandB)).setWidth _
  | _ => result

/-- The word operations under `RVB`. -/
def bitmanipWordResult (result : BitVec cfg.xlen) : BitVec cfg.xlen :=
  if cfg.isXlen64 then
    match op with
    | .clzw | .ctzw =>
        if lzTzWempty cfg op operandA then 32 else (lzTzWcount cfg op operandA).setWidth _
    | .rolw => (rolw cfg operandA operandB).signExtend _
    | .rorw | .roriw => (rorw cfg operandA operandB).signExtend _
    | _ => result
  else result

/-- The operations under `RVB`. -/
def bitmanipResult (result : BitVec cfg.xlen) : BitVec cfg.xlen :=
  match op with
  | .max | .maxu => if less cfg op operandA operandB then operandB else operandA
  | .min | .minu => if !less cfg op operandA operandB then operandB else operandA
  | .bclr | .bclri => operandA &&& ~~~bitIndx cfg operandB
  | .bext | .bexti => (BitVec.ofBool (operandA &&& bitIndx cfg operandB != 0)).setWidth _
  | .binv | .binvi => operandA ^^^ bitIndx cfg operandB
  | .bset | .bseti => operandA ||| bitIndx cfg operandB
  | .clz | .ctz =>
      if lzTzEmpty cfg op operandA then (lzTzCount cfg op operandA).setWidth _ + 1
      else (lzTzCount cfg op operandA).setWidth _
  | .cpop | .cpopw => (cpop cfg op operandA).setWidth _
  | .sextb => sextLow 8 operandA
  | .sexth => sextLow 16 operandA
  | .zexth => zextLow 16 operandA
  | .rol =>
      operandA <<< rotateAmount cfg operandB |||
        operandA >>> (cfg.xlen - rotateAmount cfg operandB)
  | .ror | .rori =>
      operandA >>> rotateAmount cfg operandB |||
        operandA <<< (cfg.xlen - rotateAmount cfg operandB)
  | .orcb => orcbwResult cfg operandA
  | .rev8 => rev8wResult cfg operandA
  | .slliuw =>
      if cfg.isXlen64 then zextLow 32 operandA <<< (operandB.extractLsb' 0 6).toNat else result
  | _ => result

/-- The operations under `RVZiCond`. -/
def condResult (result : BitVec cfg.xlen) : BitVec cfg.xlen :=
  match op with
  | .czeroEqz => if operandB != 0 then operandA else 0
  | .czeroNez => if operandB != 0 then 0 else operandA
  | _ => result

/-- The operations under `ZKN` and `RVB`. -/
def cryptoResult (result : BitVec cfg.xlen) : BitVec cfg.xlen :=
  match op with
  | .pack =>
      if cfg.isXlen32 then (operandB.extractLsb' 0 16 ++ operandA.extractLsb' 0 16).setWidth _
      else (operandB.extractLsb' 0 32 ++ operandA.extractLsb' 0 32).setWidth _
  | .packH => (operandB.extractLsb' 0 8 ++ operandA.extractLsb' 0 8).setWidth _
  | .brev8 => brev8Reversed cfg operandA
  | .packW =>
      if cfg.isXlen64 then (operandB.extractLsb' 0 16 ++ operandA.extractLsb' 0 16).signExtend _
      else result
  | .unzip => if cfg.isXlen32 then (unzipGen cfg operandA).setWidth _ else result
  | .zip => if cfg.isXlen32 then (zipGen cfg operandA).setWidth _ else result
  | _ => result

/-- `result_o`. -/
def result : BitVec cfg.xlen :=
  let r := standardResult cfg op operandA operandB (wordResult cfg op operandA operandB)
  let r :=
    if cfg.rvb then
      bitmanipResult cfg op operandA operandB (bitmanipWordResult cfg op operandA operandB r)
    else r
  let r := if cfg.rvZiCond then condResult cfg op operandA operandB r else r
  if cfg.zkn && cfg.rvb then cryptoResult cfg op operandA operandB r else r

end

/-! ## The operations of a configuration -/

/-- The operations of the base instruction set. -/
def standardOps : List FuOp := [.add, .sub, .xorl, .orl, .andl, .sll, .srl, .sra, .slts, .sltu]

/-- Their word variants. -/
def wordOps : List FuOp := [.addw, .subw, .sllw, .srlw, .sraw]

/-- The operations with an inverted operand, and the additions with a shift. -/
def adderOps : List FuOp := [.andn, .orn, .xnor, .sh1add, .sh2add, .sh3add]

def minMaxOps : List FuOp := [.max, .maxu, .min, .minu]

def singleBitOps : List FuOp := [.bclr, .bclri, .bext, .bexti, .binv, .binvi, .bset, .bseti]

def countOps : List FuOp := [.clz, .ctz, .cpop]

def extendOps : List FuOp := [.sextb, .sexth, .zexth]

def rotateOps : List FuOp := [.rol, .ror, .rori]

def byteOps : List FuOp := [.orcb, .rev8]

/-- The operations of the bit-manipulation extensions. -/
def bitmanipOps : List FuOp :=
  adderOps ++ minMaxOps ++ singleBitOps ++ countOps ++ extendOps ++ rotateOps ++ byteOps

/-- Their word variants. -/
def bitmanipWordOps : List FuOp :=
  [.adduw, .sh1adduw, .sh2adduw, .sh3adduw, .slliuw, .clzw, .ctzw, .cpopw, .rolw, .rorw, .roriw]

/-- The conditional operations. -/
def condOps : List FuOp := [.czeroEqz, .czeroNez]

/-- The operations for cryptography. -/
def cryptoOps : List FuOp := [.pack, .packH, .brev8]

/-- The comparisons of the branches. -/
def branchOps : List FuOp := [.eq, .ne, .lts, .ltu, .ges, .geu]

/-- `op` is an operation that a unit of this configuration has. -/
def offers (cfg : AluCfg) (op : FuOp) : Prop :=
  op ∈ standardOps ∨ cfg.isXlen64 ∧ op ∈ wordOps ∨ cfg.rvb ∧ op ∈ bitmanipOps ∨
    cfg.rvb ∧ cfg.isXlen64 ∧ op ∈ bitmanipWordOps ∨ cfg.rvZiCond ∧ op ∈ condOps ∨
    cfg.zkn ∧ cfg.rvb ∧ (op ∈ cryptoOps ∨ cfg.isXlen64 ∧ op = .packW ∨
      cfg.isXlen32 ∧ op ∈ [.zip, .unzip])

/-! ## What the instruction set says -/

section

variable {W : Nat}

/-- The value of an instruction, from the values of its operands. -/
def meaning (op : FuOp) (a b : BitVec W) : BitVec W :=
  match op with
  | .add => a + b
  | .sub => a - b
  | .xorl => a ^^^ b
  | .orl => a ||| b
  | .andl => a &&& b
  | .sll => a <<< (b.toNat % W)
  | .srl => a >>> (b.toNat % W)
  | .sra => a.sshiftRight (b.toNat % W)
  | .slts => if a.toInt < b.toInt then 1 else 0
  | .sltu => if a.toNat < b.toNat then 1 else 0
  | .addw => sextLow 32 (a + b)
  | .subw => sextLow 32 (a - b)
  | .sllw => (a.setWidth 32 <<< (b.toNat % 32)).signExtend W
  | .srlw => (a.setWidth 32 >>> (b.toNat % 32)).signExtend W
  | .sraw => ((a.setWidth 32).sshiftRight (b.toNat % 32)).signExtend W
  | .andn => a &&& ~~~b
  | .orn => a ||| ~~~b
  | .xnor => ~~~(a ^^^ b)
  | .sh1add => (a <<< 1) + b
  | .sh2add => (a <<< 2) + b
  | .sh3add => (a <<< 3) + b
  | .max => if a.toInt < b.toInt then b else a
  | .maxu => if a.toNat < b.toNat then b else a
  | .min => if a.toInt < b.toInt then a else b
  | .minu => if a.toNat < b.toNat then a else b
  | .bclr | .bclri => updateBit a (b.toNat % W) fun _ => false
  | .bext | .bexti => if a.getLsbD (b.toNat % W) then 1 else 0
  | .binv | .binvi => updateBit a (b.toNat % W) not
  | .bset | .bseti => updateBit a (b.toNat % W) fun _ => true
  | .clz => a.clz
  | .ctz => a.ctz
  | .cpop => a.cpop
  | .sextb => sextLow 8 a
  | .sexth => sextLow 16 a
  | .zexth => zextLow 16 a
  | .rol => a.rotateLeft b.toNat
  | .ror | .rori => a.rotateRight b.toNat
  | .orcb => mapBytes (fun x => if x = 0 then 0 else BitVec.allOnes 8) a
  | .rev8 => reverseBytes a
  | .adduw => zextLow 32 a + b
  | .sh1adduw => (zextLow 32 a <<< 1) + b
  | .sh2adduw => (zextLow 32 a <<< 2) + b
  | .sh3adduw => (zextLow 32 a <<< 3) + b
  | .slliuw => zextLow 32 a <<< (b.toNat % W)
  | .clzw => (a.setWidth 32).clz.setWidth W
  | .ctzw => (a.setWidth 32).ctz.setWidth W
  | .cpopw => (a.setWidth 32).cpop.setWidth W
  | .rolw => ((a.setWidth 32).rotateLeft (b.toNat % 32)).signExtend W
  | .rorw | .roriw => ((a.setWidth 32).rotateRight (b.toNat % 32)).signExtend W
  | .czeroEqz => if b = 0 then 0 else a
  | .czeroNez => if b = 0 then a else 0
  | .pack => (b.setWidth (W / 2) ++ a.setWidth (W / 2)).setWidth W
  | .packH => (b.setWidth 8 ++ a.setWidth 8).setWidth W
  | .packW => (b.setWidth 16 ++ a.setWidth 16).signExtend W
  | .brev8 => mapBytes BitVec.reverse a
  | .zip =>
      BitField.pack fun j =>
        if j.val % 2 = 0 then a.getLsbD (j / 2) else a.getLsbD (j / 2 + W / 2)
  | .unzip =>
      BitField.pack fun j =>
        if j.val < W / 2 then a.getLsbD (2 * j) else a.getLsbD (2 * (j - W / 2) + 1)
  | _ => 0

/-- Whether a branch is taken. -/
def taken (op : FuOp) (a b : BitVec W) : Bool :=
  match op with
  | .eq => a = b
  | .ne => a ≠ b
  | .lts => a.toInt < b.toInt
  | .ltu => a.toNat < b.toNat
  | .ges => b.toInt ≤ a.toInt
  | .geu => b.toNat ≤ a.toNat
  | _ => true

end

/-! ## The units -/

section

variable (cfg : AluCfg) (op : FuOp) (a b : BitVec cfg.xlen)

theorem operandBNeg_eq :
    (operandBNeg cfg op b).extractLsb' 1 cfg.xlen = if adderOpBNegate op then ~~~b else b := by
  apply BitVec.eq_of_getLsbD_eq
  intro j inside
  have within : 1 + j < cfg.xlen + 1 := by omega
  have place : (b ++ 0#1).getLsbD (1 + j) = b.getLsbD j := by
    rw [BitVec.getLsbD_append, if_neg (by omega), Nat.add_sub_cancel_left]
  rw [BitVec.getLsbD_extractLsb', operandBNeg, BitVec.getLsbD_xor, place]
  cases adderOpBNegate op <;> simp [inside, within]

theorem adderResult_eq :
    adderResult cfg op a b =
      if adderOpBNegate op then operandABitmanip cfg op a - b
      else operandABitmanip cfg op a + b :=
  add_with_carry (adderOpBNegate op) (operandABitmanip cfg op a) b

theorem less_eq : less cfg op a b = if sgn op then a.slt b else a.ult b := slt_cons (sgn op) a b

/-- No operation shifts left and in the sign. -/
theorem not_arithmetic_of_left (left : shiftLeft cfg op = true) :
    shiftArithmetic cfg op = false := by
  cases wide : cfg.isXlen64 <;> cases op <;> simp_all [shiftLeft, shiftArithmetic]

theorem shiftResult_eq :
    shiftResult cfg op a b =
      if shiftLeft cfg op then a <<< (b.toNat % 64)
      else if shiftArithmetic cfg op then a.sshiftRight (b.toNat % 64)
      else a >>> (b.toNat % 64) := by
  have amount : (b.extractLsb' 0 6).toNat = b.toNat % 64 := by simp
  rw [shiftResult, shiftRightResult, sshiftRight_cons, amount]
  cases left : shiftLeft cfg op with
  | true =>
      rw [not_arithmetic_of_left cfg op left]
      simpa [shiftOpA, left, operandARev] using reverse_shift_reverse a (b.toNat % 64)
  | false => simp [shiftOpA, left]

theorem shiftResult32_eq :
    shiftResult32 cfg op a b =
      if shiftLeft cfg op then a.setWidth 32 <<< (b.toNat % 32)
      else if shiftArithmetic cfg op then (a.setWidth 32).sshiftRight (b.toNat % 32)
      else a.setWidth 32 >>> (b.toNat % 32) := by
  have amount : (b.extractLsb' 0 5).toNat = b.toNat % 32 := by simp
  have sign : (shiftArithmetic cfg op && (shiftOpA cfg op a).getLsbD 31) =
      (shiftArithmetic cfg op && (shiftOpA32 cfg op a).msb) := by
    cases left : shiftLeft cfg op with
    | true => simp [not_arithmetic_of_left cfg op left]
    | false => simp [shiftOpA, shiftOpA32, left, BitVec.msb_eq_getLsbD_last]
  rw [shiftResult32, shiftRightResult32, sign, sshiftRight_cons, amount]
  cases left : shiftLeft cfg op with
  | true =>
      rw [not_arithmetic_of_left cfg op left]
      simpa [shiftOpA32, left, operandARev32] using
        reverse_shift_reverse (a.setWidth 32) (b.toNat % 32)
  | false => simp [shiftOpA32, left]

end

/-! ## Counting -/

section

variable {W : Nat}

theorem countLeading_eq_clz {x : BitVec W} (some : x ≠ 0) : countLeading x = x.clz.toNat := by
  obtain ⟨inside, low, high⟩ := Serdiv.countLeading_bounds some
  have wide : 0 < W := by omega
  have clzLow := BitVec.two_pow_sub_clz_le_toNat_of_ne_zero wide some
  have clzHigh := @BitVec.toNat_lt_two_pow_sub_clz W x
  have clzInside : x.clz.toNat < W := by
    have less := BitVec.clz_lt_iff_ne_zero.mpr some
    have bound : W < 2 ^ W := Nat.lt_two_pow_self
    simpa [BitVec.lt_def, Nat.mod_eq_of_lt bound] using less
  have first : W - 1 - countLeading x < W - x.clz.toNat :=
    (Nat.pow_lt_pow_iff_right Nat.one_lt_two).mp (lt_of_le_of_lt low clzHigh)
  have second : W - 1 - x.clz.toNat < W - countLeading x :=
    (Nat.pow_lt_pow_iff_right Nat.one_lt_two).mp (lt_of_le_of_lt clzLow high)
  omega

theorem countLeading_zero {l : Nat} (size : W = 2 ^ l) (several : 0 < l) :
    countLeading (0 : BitVec W) = W - 1 := by
  subst size
  exact CommonCells.lzcCnt_of_clear (by simp) several

/-- The counter of a word, with its correction for a word without ones. -/
theorem counter_eq_clz {l : Nat} (size : W = 2 ^ l) (several : 0 < l) (x : BitVec W) :
    (if noOne x then (BitVec.ofNat (Nat.clog 2 W) (countLeading x)).setWidth W + 1
      else (BitVec.ofNat (Nat.clog 2 W) (countLeading x)).setWidth W) = x.clz := by
  have levels : Nat.clog 2 W = l := by rw [size]; exact Nat.clog_pow 2 l Nat.one_lt_two
  have bound : W < 2 ^ W := Nat.lt_two_pow_self
  have positive : 0 < W := by rw [size]; exact Nat.two_pow_pos l
  rw [levels]
  apply BitVec.eq_of_toNat_eq
  by_cases clear : x = 0
  · have count : (BitVec.ofNat l (W - 1)).toNat = W - 1 := by
      rw [BitVec.toNat_ofNat, ← size, Nat.mod_eq_of_lt (by omega)]
    have whole : (0 : BitVec W).clz = BitVec.ofNat W W := BitVec.clz_eq_iff_eq_zero.mpr rfl
    subst clear
    rw [if_pos ((Serdiv.noOne_iff positive 0).mpr rfl), countLeading_zero size several, whole,
      BitVec.toNat_add, BitVec.toNat_setWidth, count, BitVec.toNat_ofNat]
    have unit : (1 : BitVec W).toNat = 1 := BitVec.toNat_one positive
    rw [unit, Nat.mod_eq_of_lt (show W - 1 < 2 ^ W by omega)]
    congr 1
    omega
  · have notClear : ¬ noOne x = true := fun none => clear ((Serdiv.noOne_iff positive x).mp none)
    have inside := (Serdiv.countLeading_bounds clear).1
    rw [if_neg notClear, BitVec.toNat_setWidth, BitVec.toNat_ofNat, ← size,
      Nat.mod_eq_of_lt inside, countLeading_eq_clz clear, Nat.mod_eq_of_lt x.clz.isLt]

theorem wordCounter_eq_clz (x : BitVec 32) :
    (if noOne x then 32 else (BitVec.ofNat 5 (countLeading x)).setWidth W) =
      x.clz.setWidth W := by
  by_cases clear : x = 0
  · have whole : (0 : BitVec 32).clz = 32 := BitVec.clz_eq_iff_eq_zero.mpr rfl
    subst clear
    rw [if_pos ((Serdiv.noOne_iff (by omega) 0).mpr rfl), whole]
    apply BitVec.eq_of_toNat_eq
    simp
  · have notClear : ¬ noOne x = true :=
      fun none => clear ((Serdiv.noOne_iff (by omega) x).mp none)
    have inside := (Serdiv.countLeading_bounds clear).1
    rw [if_neg notClear]
    apply BitVec.eq_of_toNat_eq
    rw [BitVec.toNat_setWidth, BitVec.toNat_setWidth, BitVec.toNat_ofNat,
      Nat.mod_eq_of_lt (show countLeading x < 2 ^ 5 by omega), countLeading_eq_clz clear]

theorem popcount_setWidth (x : BitVec W) :
    (CommonCells.popcount x).setWidth W = x.cpop := by
  apply BitVec.eq_of_toNat_eq
  rw [BitVec.toNat_setWidth, CommonCells.popcount_eq_cpop, Nat.mod_eq_of_lt x.cpop.isLt]

end

/-! ## The operations, group by group -/

section

variable {cfg : AluCfg} {op : FuOp} (a b : BitVec cfg.xlen)

/-- The operations of `standardResult` pass the later multiplexers. -/
theorem result_eq_standardResult
    (standard : op ∈ standardOps ++ adderOps ++ [.adduw]) :
    result cfg op a b = standardResult cfg op a b 0 := by
  simp only [standardOps, adderOps, List.cons_append, List.nil_append, List.mem_cons,
    List.not_mem_nil, or_false] at standard
  rcases standard with rfl | rfl | rfl | rfl | rfl | rfl | rfl | rfl | rfl | rfl | rfl | rfl |
    rfl | rfl | rfl | rfl | rfl <;>
    simp [result, standardResult.eq_def, bitmanipResult.eq_def, bitmanipWordResult.eq_def,
      condResult.eq_def, cryptoResult.eq_def]

theorem shift_of_xlen (left : shiftLeft cfg op = (op == .sll))
    (arithmetic : shiftArithmetic cfg op = (op == .sra)) :
    (if cfg.isXlen64 then shiftResult cfg op a b else (shiftResult32 cfg op a b).setWidth _) =
      if op == .sll then a <<< (b.toNat % cfg.xlen)
      else if op == .sra then a.sshiftRight (b.toNat % cfg.xlen)
      else a >>> (b.toNat % cfg.xlen) := by
  rw [shiftResult_eq, shiftResult32_eq, left, arithmetic]
  obtain ⟨xlen, size, rvb, zkn, cond, branch⟩ := cfg
  rcases size with rfl | rfl
  · simp [AluCfg.isXlen64]
  · simp [AluCfg.isXlen64]

theorem result_standard (standard : op ∈ standardOps) : result cfg op a b = meaning op a b := by
  rw [result_eq_standardResult a b (by simp [standard])]
  simp only [standardOps, List.mem_cons, List.not_mem_nil, or_false] at standard
  rcases standard with rfl | rfl | rfl | rfl | rfl | rfl | rfl | rfl | rfl | rfl
  · simp [standardResult.eq_def, meaning.eq_def, adderResult_eq, adderOpBNegate,
      operandABitmanip.eq_def]
  · simp [standardResult.eq_def, meaning.eq_def, adderResult_eq, adderOpBNegate,
      operandABitmanip.eq_def]
  · simp [standardResult.eq_def, meaning.eq_def, operandBNeg_eq, adderOpBNegate]
  · simp [standardResult.eq_def, meaning.eq_def, operandBNeg_eq, adderOpBNegate]
  · simp [standardResult.eq_def, meaning.eq_def, operandBNeg_eq, adderOpBNegate]
  · exact shift_of_xlen a b (by simp [shiftLeft]) (by simp [shiftArithmetic])
  · exact shift_of_xlen a b (by simp [shiftLeft]) (by simp [shiftArithmetic])
  · exact shift_of_xlen a b (by simp [shiftLeft]) (by simp [shiftArithmetic])
  · simp [standardResult.eq_def, meaning.eq_def, less_eq, sgn, setWidth_ofBool, BitVec.slt]
  · simp [standardResult.eq_def, meaning.eq_def, less_eq, sgn, setWidth_ofBool, BitVec.ult]

theorem result_word (wide : cfg.isXlen64 = true) (word : op ∈ wordOps) :
    result cfg op a b = meaning op a b := by
  simp only [wordOps, List.mem_cons, List.not_mem_nil, or_false] at word
  have selected : result cfg op a b = wordResult cfg op a b := by
    rcases word with rfl | rfl | rfl | rfl | rfl <;>
      simp [result, standardResult.eq_def, bitmanipResult.eq_def, bitmanipWordResult.eq_def,
        condResult.eq_def, cryptoResult.eq_def]
  rw [selected]
  rcases word with rfl | rfl | rfl | rfl | rfl
  · simp [wordResult.eq_def, wide, meaning.eq_def, adderResult_eq, adderOpBNegate,
      operandABitmanip.eq_def]
  · simp [wordResult.eq_def, wide, meaning.eq_def, adderResult_eq, adderOpBNegate,
      operandABitmanip.eq_def]
  · simp [wordResult.eq_def, wide, meaning.eq_def, shiftResult32_eq, shiftLeft]
  · simp [wordResult.eq_def, wide, meaning.eq_def, shiftResult32_eq, shiftLeft, shiftArithmetic]
  · simp [wordResult.eq_def, wide, meaning.eq_def, shiftResult32_eq, shiftLeft, shiftArithmetic]

theorem result_adder (rvb : cfg.rvb = true) (adder : op ∈ adderOps) :
    result cfg op a b = meaning op a b := by
  rw [result_eq_standardResult a b (by simp [adder])]
  simp only [adderOps, List.mem_cons, List.not_mem_nil, or_false] at adder
  rcases adder with rfl | rfl | rfl | rfl | rfl | rfl
  · simp [standardResult.eq_def, meaning.eq_def, operandBNeg_eq, adderOpBNegate]
  · simp [standardResult.eq_def, meaning.eq_def, operandBNeg_eq, adderOpBNegate]
  · simp [standardResult.eq_def, meaning.eq_def, operandBNeg_eq, adderOpBNegate,
      BitVec.not_xor_right]
  · simp [standardResult.eq_def, meaning.eq_def, adderResult_eq, adderOpBNegate,
      operandABitmanip.eq_def, rvb]
  · simp [standardResult.eq_def, meaning.eq_def, adderResult_eq, adderOpBNegate,
      operandABitmanip.eq_def, rvb]
  · simp [standardResult.eq_def, meaning.eq_def, adderResult_eq, adderOpBNegate,
      operandABitmanip.eq_def, rvb]

/-- The operations of `bitmanipResult` pass the multiplexers after it. -/
theorem result_eq_bitmanipResult (rvb : cfg.rvb = true)
    (bitmanip : op ∈ minMaxOps ++ singleBitOps ++ countOps ++ extendOps ++ rotateOps ++ byteOps) :
    result cfg op a b = bitmanipResult cfg op a b 0 := by
  simp only [minMaxOps, singleBitOps, countOps, extendOps, rotateOps, byteOps, List.cons_append,
    List.nil_append, List.mem_cons, List.not_mem_nil, or_false] at bitmanip
  rcases bitmanip with rfl | rfl | rfl | rfl | rfl | rfl | rfl | rfl | rfl | rfl | rfl | rfl |
    rfl | rfl | rfl | rfl | rfl | rfl | rfl | rfl | rfl | rfl | rfl <;>
    simp [result, rvb, bitmanipResult.eq_def, condResult.eq_def, cryptoResult.eq_def]

theorem result_minMax (rvb : cfg.rvb = true) (minMax : op ∈ minMaxOps) :
    result cfg op a b = meaning op a b := by
  rw [result_eq_bitmanipResult a b rvb (by simp [minMax])]
  simp only [minMaxOps, List.mem_cons, List.not_mem_nil, or_false] at minMax
  rcases minMax with rfl | rfl | rfl | rfl
  · simp [bitmanipResult.eq_def, meaning.eq_def, less_eq, sgn, BitVec.slt]
  · simp [bitmanipResult.eq_def, meaning.eq_def, less_eq, sgn, BitVec.ult]
  · simp only [bitmanipResult.eq_def, meaning.eq_def, less_eq, sgn, BitVec.slt]
    by_cases below : a.toInt < b.toInt <;> simp [below]
  · simp only [bitmanipResult.eq_def, meaning.eq_def, less_eq, sgn, BitVec.ult]
    by_cases below : a.toNat < b.toNat <;> simp [below]

theorem bitIndx_eq : bitIndx cfg b = BitVec.twoPow cfg.xlen (b.toNat % cfg.xlen) := by
  obtain ⟨l, _, size⟩ := cfg.xlen_power
  have bound : cfg.xlen - 1 < 2 ^ cfg.xlen := lt_of_le_of_lt (Nat.sub_le _ 1) Nat.lt_two_pow_self
  have amount : (b &&& BitVec.ofNat cfg.xlen (cfg.xlen - 1)).toNat = b.toNat % cfg.xlen := by
    rw [BitVec.toNat_and, BitVec.toNat_ofNat, Nat.mod_eq_of_lt bound]
    generalize b.toNat = n
    rw [size, Nat.and_two_pow_sub_one_eq_mod]
  rw [bitIndx, amount]
  rfl

theorem result_singleBit (rvb : cfg.rvb = true) (single : op ∈ singleBitOps) :
    result cfg op a b = meaning op a b := by
  rw [result_eq_bitmanipResult a b rvb (by simp [single])]
  simp only [singleBitOps, List.mem_cons, List.not_mem_nil, or_false] at single
  rcases single with rfl | rfl | rfl | rfl | rfl | rfl | rfl | rfl
  · simp [bitmanipResult.eq_def, meaning.eq_def, bitIndx_eq, clear_bit]
  · simp [bitmanipResult.eq_def, meaning.eq_def, bitIndx_eq, clear_bit]
  · simp only [bitmanipResult.eq_def, meaning.eq_def, bitIndx_eq, test_bit, setWidth_ofBool]
  · simp only [bitmanipResult.eq_def, meaning.eq_def, bitIndx_eq, test_bit, setWidth_ofBool]
  · simp [bitmanipResult.eq_def, meaning.eq_def, bitIndx_eq, flip_bit]
  · simp [bitmanipResult.eq_def, meaning.eq_def, bitIndx_eq, flip_bit]
  · simp [bitmanipResult.eq_def, meaning.eq_def, bitIndx_eq, set_bit]
  · simp [bitmanipResult.eq_def, meaning.eq_def, bitIndx_eq, set_bit]

theorem result_count (rvb : cfg.rvb = true) (count : op ∈ countOps) :
    result cfg op a b = meaning op a b := by
  obtain ⟨l, several, size⟩ := cfg.xlen_power
  rw [result_eq_bitmanipResult a b rvb (by simp [count])]
  simp only [countOps, List.mem_cons, List.not_mem_nil, or_false] at count
  rcases count with rfl | rfl | rfl
  · have counted : bitmanipResult cfg .clz a b 0 = (operandABitmanip cfg .clz a).clz :=
      counter_eq_clz size several (operandABitmanip cfg .clz a)
    rw [counted]
    simp [operandABitmanip.eq_def, rvb, meaning.eq_def]
  · have counted : bitmanipResult cfg .ctz a b 0 = (operandABitmanip cfg .ctz a).clz :=
      counter_eq_clz size several (operandABitmanip cfg .ctz a)
    rw [counted]
    simp [operandABitmanip.eq_def, rvb, meaning.eq_def, operandARev, BitVec.ctz]
  · have counted : bitmanipResult cfg .cpop a b 0 = (operandABitmanip cfg .cpop a).cpop :=
      popcount_setWidth (operandABitmanip cfg .cpop a)
    rw [counted]
    simp [operandABitmanip.eq_def, rvb, meaning.eq_def]

theorem result_extend (rvb : cfg.rvb = true) (extend : op ∈ extendOps) :
    result cfg op a b = meaning op a b := by
  rw [result_eq_bitmanipResult a b rvb (by simp [extend])]
  simp only [extendOps, List.mem_cons, List.not_mem_nil, or_false] at extend
  rcases extend with rfl | rfl | rfl <;> rfl

theorem rotateAmount_eq : rotateAmount cfg b = b.toNat % cfg.xlen := by
  obtain ⟨xlen, size, rvb, zkn, cond, branch⟩ := cfg
  rcases size with rfl | rfl
  · simp [rotateAmount, AluCfg.isXlen64]
  · simp [rotateAmount, AluCfg.isXlen64]

theorem result_rotate (rvb : cfg.rvb = true) (rotate : op ∈ rotateOps) :
    result cfg op a b = meaning op a b := by
  obtain ⟨l, _, size⟩ := cfg.xlen_power
  have inside : b.toNat % cfg.xlen < cfg.xlen :=
    Nat.mod_lt _ (lt_of_lt_of_eq (Nat.two_pow_pos l) size.symm)
  rw [result_eq_bitmanipResult a b rvb (by simp [rotate])]
  simp only [rotateOps, List.mem_cons, List.not_mem_nil, or_false] at rotate
  rcases rotate with rfl | rfl | rfl
  · simp only [bitmanipResult.eq_def, rotateAmount_eq, rotateLeft_eq a inside, meaning.eq_def,
      BitVec.rotateLeft_mod_eq_rotateLeft]
  · simp only [bitmanipResult.eq_def, rotateAmount_eq, rotateRight_eq a inside, meaning.eq_def,
      BitVec.rotateRight_mod_eq_rotateRight]
  · simp only [bitmanipResult.eq_def, rotateAmount_eq, rotateRight_eq a inside, meaning.eq_def,
      BitVec.rotateRight_mod_eq_rotateRight]

theorem orcbwResult_eq : orcbwResult cfg a = ofBytes (orByte cfg a) := by
  obtain ⟨xlen, size, rvb, zkn, cond, branch⟩ := cfg
  rcases size with rfl | rfl
  · simpa [orcbwResult, AluCfg.isXlen64, orcbw] using four_bytes (orByte _ a)
  · simp only [orcbwResult, AluCfg.isXlen64, orcbw, four_bytes (orByte _ a)]
    have high := four_bytes fun k => orByte _ a (k + 4)
    simpa [high] using two_words (orByte _ a)

theorem rev8wResult_eq : rev8wResult cfg a = reverseBytes a := by
  obtain ⟨xlen, size, rvb, zkn, cond, branch⟩ := cfg
  rcases size with rfl | rfl
  · simpa [rev8wResult, AluCfg.isXlen64, rev8w,
      reverseBytes] using four_bytes fun k => byte a (3 - k)
  · simpa [rev8wResult, AluCfg.isXlen64, rev8w,
      reverseBytes] using eight_bytes fun k => byte a (7 - k)

theorem result_byte (rvb : cfg.rvb = true) (bytes : op ∈ byteOps) :
    result cfg op a b = meaning op a b := by
  rw [result_eq_bitmanipResult a b rvb (by simp [bytes])]
  simp only [byteOps, List.mem_cons, List.not_mem_nil, or_false] at bytes
  rcases bytes with rfl | rfl
  · simp only [bitmanipResult.eq_def, orcbwResult_eq, meaning.eq_def, mapBytes]
    congr 1
    funext k
    by_cases clear : byte a k = 0 <;> simp [orByte, clear]
  · simp only [bitmanipResult.eq_def, rev8wResult_eq, meaning.eq_def]

/-- The word operations that the adder and the shifter finish. -/
theorem result_addWord (rvb : cfg.rvb = true) (wide : cfg.isXlen64 = true)
    (word : op ∈ [.adduw, .sh1adduw, .sh2adduw, .sh3adduw, .slliuw]) :
    result cfg op a b = meaning op a b := by
  have size : cfg.xlen = 64 := by simpa [AluCfg.isXlen64] using wide
  simp only [List.mem_cons, List.not_mem_nil, or_false] at word
  rcases word with rfl | rfl | rfl | rfl | rfl
  · rw [result_eq_standardResult a b (by simp)]
    simp [standardResult.eq_def, adderResult_eq, adderOpBNegate, operandABitmanip.eq_def, rvb,
      wide, meaning.eq_def]
  · simp [result, standardResult.eq_def, wordResult.eq_def, bitmanipResult.eq_def,
      bitmanipWordResult.eq_def, condResult.eq_def, cryptoResult.eq_def, adderResult_eq,
      adderOpBNegate, operandABitmanip.eq_def, rvb, wide, meaning.eq_def]
  · simp [result, standardResult.eq_def, wordResult.eq_def, bitmanipResult.eq_def,
      bitmanipWordResult.eq_def, condResult.eq_def, cryptoResult.eq_def, adderResult_eq,
      adderOpBNegate, operandABitmanip.eq_def, rvb, wide, meaning.eq_def]
  · simp [result, standardResult.eq_def, wordResult.eq_def, bitmanipResult.eq_def,
      bitmanipWordResult.eq_def, condResult.eq_def, cryptoResult.eq_def, adderResult_eq,
      adderOpBNegate, operandABitmanip.eq_def, rvb, wide, meaning.eq_def]
  · have amount : b.toNat % 64 = b.toNat % cfg.xlen := congrArg (b.toNat % ·) size.symm
    simp [result, bitmanipResult.eq_def, condResult.eq_def, cryptoResult.eq_def, rvb, wide,
      meaning.eq_def, amount]

theorem result_countWord (rvb : cfg.rvb = true) (wide : cfg.isXlen64 = true)
    (word : op ∈ [.clzw, .ctzw, .cpopw]) : result cfg op a b = meaning op a b := by
  have fits : 32 ≤ cfg.xlen := by have sizes := cfg.xlen_eq; omega
  simp only [List.mem_cons, List.not_mem_nil, or_false] at word
  rcases word with rfl | rfl | rfl
  · have selected : result cfg .clzw a b =
        if lzTzWempty cfg .clzw a then 32 else (lzTzWcount cfg .clzw a).setWidth _ := by
      simp [result, bitmanipResult.eq_def, bitmanipWordResult.eq_def, condResult.eq_def,
        cryptoResult.eq_def, rvb, wide]
    have operand : operandABitmanip cfg .clzw a = zextLow 32 a := by
      simp [operandABitmanip.eq_def, rvb, wide]
    rw [selected, lzTzWempty, lzTzWcount, wordCounter_eq_clz, operand, setWidth_zextLow a fits]
    rfl
  · have selected : result cfg .ctzw a b =
        if lzTzWempty cfg .ctzw a then 32 else (lzTzWcount cfg .ctzw a).setWidth _ := by
      simp [result, bitmanipResult.eq_def, bitmanipWordResult.eq_def, condResult.eq_def,
        cryptoResult.eq_def, rvb, wide]
    have operand : operandABitmanip cfg .ctzw a = (operandARev32 cfg a).setWidth cfg.xlen := by
      simp [operandABitmanip.eq_def, rvb, wide]
    rw [selected, lzTzWempty, lzTzWcount, wordCounter_eq_clz, operand,
      BitVec.setWidth_setWidth_of_le _ fits, BitVec.setWidth_eq]
    rfl
  · have selected : result cfg .cpopw a b = (cpop cfg .cpopw a).setWidth _ := by
      simp [result, bitmanipResult.eq_def, condResult.eq_def, cryptoResult.eq_def, rvb]
    have operand : operandABitmanip cfg .cpopw a = zextLow 32 a := by
      simp [operandABitmanip.eq_def, rvb, wide]
    rw [selected, cpop, popcount_setWidth, operand, cpop_zextLow a fits]
    rfl

theorem result_rotateWord (rvb : cfg.rvb = true) (wide : cfg.isXlen64 = true)
    (word : op ∈ [.rolw, .rorw, .roriw]) : result cfg op a b = meaning op a b := by
  have size : cfg.xlen = 64 := by simpa [AluCfg.isXlen64] using wide
  have fits : 32 ≤ cfg.xlen := by omega
  have half : cfg.xlen - 32 = 32 := by omega
  have amount : (b.extractLsb' 0 5).toNat = b.toNat % 32 := by simp
  have inside : b.toNat % 32 < 32 := Nat.mod_lt _ (Nat.succ_pos 31)
  have left : rolw cfg a b = (a.setWidth 32).rotateLeft (b.toNat % 32) := by
    rw [rolw, amount, half, rotateLeft_low a fits inside]
  have right : rorw cfg a b = (a.setWidth 32).rotateRight (b.toNat % 32) := by
    rw [rorw, amount, half, rotateRight_low a fits inside]
  simp only [List.mem_cons, List.not_mem_nil, or_false] at word
  rcases word with rfl | rfl | rfl
  · simp [result, bitmanipResult.eq_def, bitmanipWordResult.eq_def, condResult.eq_def,
      cryptoResult.eq_def, rvb, wide, left, meaning.eq_def]
  · simp [result, bitmanipResult.eq_def, bitmanipWordResult.eq_def, condResult.eq_def,
      cryptoResult.eq_def, rvb, wide, right, meaning.eq_def]
  · simp [result, bitmanipResult.eq_def, bitmanipWordResult.eq_def, condResult.eq_def,
      cryptoResult.eq_def, rvb, wide, right, meaning.eq_def]

theorem result_cond (zicond : cfg.rvZiCond = true) (cond : op ∈ condOps) :
    result cfg op a b = meaning op a b := by
  simp only [condOps, List.mem_cons, List.not_mem_nil, or_false] at cond
  rcases cond with rfl | rfl
  · by_cases zero : b = 0 <;> simp [result, condResult.eq_def, cryptoResult.eq_def, zicond,
      meaning.eq_def, zero]
  · by_cases zero : b = 0 <;> simp [result, condResult.eq_def, cryptoResult.eq_def, zicond,
      meaning.eq_def, zero]

theorem brev8Reversed_eq : brev8Reversed cfg a = mapBytes BitVec.reverse a := by
  apply BitVec.eq_of_getLsbD_eq
  intro j inside
  have low : j % 8 < 8 := Nat.mod_lt _ (Nat.succ_pos 7)
  rw [mapBytes, getLsbD_ofBytes _ inside, reverse_byte a (j / 8) low]
  exact BitField.getLsbD_pack
    (fun j : Fin cfg.xlen => a.getLsbD (8 * (j / 8) + (7 - j % 8))) ⟨j, inside⟩

theorem pack_halves {W n : Nat} (a b : BitVec W) (half : W / 2 = n) :
    (b.extractLsb' 0 n ++ a.extractLsb' 0 n).setWidth W = meaning .pack a b := by
  subst half
  rw [extract_low, extract_low]
  rfl

theorem result_crypto (rvb : cfg.rvb = true) (zkn : cfg.zkn = true)
    (crypto : op ∈ cryptoOps ∨ cfg.isXlen64 ∧ op = .packW ∨ cfg.isXlen32 ∧ op ∈ [.zip, .unzip]) :
    result cfg op a b = meaning op a b := by
  simp only [cryptoOps, List.mem_cons, List.not_mem_nil, or_false] at crypto
  rcases crypto with (rfl | rfl | rfl) | ⟨wide, rfl⟩ | ⟨narrow, rfl | rfl⟩
  · have selected : result cfg .pack a b =
        if cfg.isXlen32 then (b.extractLsb' 0 16 ++ a.extractLsb' 0 16).setWidth _
        else (b.extractLsb' 0 32 ++ a.extractLsb' 0 32).setWidth _ := by
      simp [result, cryptoResult.eq_def, rvb, zkn]
    rw [selected]
    rcases cfg.xlen_eq with narrow | wide
    · have is32 : cfg.isXlen32 = true := by simp [AluCfg.isXlen32, narrow]
      rw [if_pos is32]
      exact pack_halves a b (by omega)
    · have not32 : ¬ cfg.isXlen32 = true := by simp [AluCfg.isXlen32, wide]
      rw [if_neg not32]
      exact pack_halves a b (by omega)
  · simp [result, cryptoResult.eq_def, rvb, zkn, meaning.eq_def, extract_low]
  · simp [result, cryptoResult.eq_def, rvb, zkn, meaning.eq_def, brev8Reversed_eq]
  · simp [result, cryptoResult.eq_def, rvb, zkn, meaning.eq_def, wide, extract_low]
  · simp only [result, cryptoResult.eq_def, rvb, zkn, Bool.and_self, narrow, if_true,
      meaning.eq_def]
    obtain ⟨xlen, size, rvb, zkn, cond, branch⟩ := cfg
    obtain rfl : xlen = 32 := by simpa [AluCfg.isXlen32] using narrow
    simp [zipGen]
  · simp only [result, cryptoResult.eq_def, rvb, zkn, Bool.and_self, narrow, if_true,
      meaning.eq_def]
    obtain ⟨xlen, size, rvb, zkn, cond, branch⟩ := cfg
    obtain rfl : xlen = 32 := by simpa [AluCfg.isXlen32] using narrow
    simp only [unzipGen, BitVec.setWidth_eq]

theorem aluBranchRes_eq (branch : cfg.hasBranch = true) (compares : op ∈ branchOps) :
    aluBranchRes cfg op a b = taken op a b := by
  have equal : ∀ o ∈ [FuOp.eq, FuOp.ne], adderZFlag cfg o a b = decide (a = b) := by
    intro o either
    simp only [List.mem_cons, List.not_mem_nil, or_false] at either
    have difference : (a - b == 0) = decide (a = b) := by
      simp [beq_eq_decide, BitVec.sub_eq_iff_eq_add]
    rcases either with rfl | rfl <;>
      simpa [adderZFlag, adderResult_eq, adderOpBNegate, operandABitmanip.eq_def] using difference
  simp only [branchOps, List.mem_cons, List.not_mem_nil, or_false] at compares
  rcases compares with rfl | rfl | rfl | rfl | rfl | rfl
  · simp [aluBranchRes.eq_def, branch, taken.eq_def, equal]
  · simp [aluBranchRes.eq_def, branch, taken.eq_def, equal]
  · simp [aluBranchRes.eq_def, branch, taken.eq_def, less_eq, sgn, BitVec.slt]
  · simp [aluBranchRes.eq_def, branch, taken.eq_def, less_eq, sgn, BitVec.ult]
  · simp only [aluBranchRes.eq_def, branch, taken.eq_def, less_eq, sgn, BitVec.slt]
    by_cases below : a.toInt < b.toInt
    · simp [below]
    · simp [below]
      omega
  · simp only [aluBranchRes.eq_def, branch, taken.eq_def, less_eq, sgn, BitVec.ult]
    by_cases below : a.toNat < b.toNat
    · simp [below]
    · simp [below]
      omega

theorem result_bitmanip (rvb : cfg.rvb = true) (bitmanip : op ∈ bitmanipOps) :
    result cfg op a b = meaning op a b := by
  simp only [bitmanipOps, List.mem_append] at bitmanip
  rcases bitmanip with (((((adder | minMax) | single) | count) | extend) | rotate) | bytes
  · exact result_adder a b rvb adder
  · exact result_minMax a b rvb minMax
  · exact result_singleBit a b rvb single
  · exact result_count a b rvb count
  · exact result_extend a b rvb extend
  · exact result_rotate a b rvb rotate
  · exact result_byte a b rvb bytes

theorem result_bitmanipWord (rvb : cfg.rvb = true) (wide : cfg.isXlen64 = true)
    (word : op ∈ bitmanipWordOps) : result cfg op a b = meaning op a b := by
  have groups : bitmanipWordOps = [.adduw, .sh1adduw, .sh2adduw, .sh3adduw, .slliuw] ++
      [.clzw, .ctzw, .cpopw] ++ [.rolw, .rorw, .roriw] := rfl
  simp only [groups, List.mem_append] at word
  rcases word with (add | count) | rotate
  · exact result_addWord a b rvb wide add
  · exact result_countWord a b rvb wide count
  · exact result_rotateWord a b rvb wide rotate

theorem result_eq_meaning (offered : offers cfg op) : result cfg op a b = meaning op a b := by
  rcases offered with standard | ⟨wide, word⟩ | ⟨rvb, bitmanip⟩ | ⟨rvb, wide, word⟩ |
    ⟨zicond, cond⟩ | ⟨zkn, rvb, crypto⟩
  · exact result_standard a b standard
  · exact result_word a b wide word
  · exact result_bitmanip a b rvb bitmanip
  · exact result_bitmanipWord a b rvb wide word
  · exact result_cond a b zicond cond
  · exact result_crypto a b rvb zkn crypto

end

/-- The unit computes what the instruction set says, for every operation that it has and all
operands, and it decides every branch. -/
theorem computes (cfg : AluCfg) (op : FuOp) (a b : BitVec cfg.xlen) :
    (offers cfg op → result cfg op a b = meaning op a b) ∧
      (cfg.hasBranch = true → op ∈ branchOps → aluBranchRes cfg op a b = taken op a b) :=
  ⟨fun offered => result_eq_meaning a b offered,
    fun branch compares => aluBranchRes_eq a b branch compares⟩

theorem computes_clz :
    result ⟨64, Or.inr rfl, true, false, false, true⟩ .clz (0x00f0 : BitVec 64) 0 =
      (56 : BitVec 64) := by
  have offered : offers ⟨64, Or.inr rfl, true, false, false, true⟩ .clz :=
    Or.inr (Or.inr (Or.inl ⟨rfl, by simp [bitmanipOps, countOps]⟩))
  have counts := (computes ⟨64, Or.inr rfl, true, false, false, true⟩ .clz
    (0x00f0 : BitVec 64) 0).1 offered
  rw [counts]
  decide

end Alu

end Cva6
