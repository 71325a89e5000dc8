import Mathlib.Tactic.Common

/-!
# Enumerations and operation classes of `ariane_pkg`
-/

set_option autoImplicit false

namespace Cva6

/-- `fu_t`. -/
inductive Fu where
  | none | load | store | alu | ctrlFlow | mult | csr | fpu | fpuVec | cvxif | accel
  deriving DecidableEq, Repr

/-- `fu_op`. -/
inductive FuOp where
  | add | sub | addw | subw
  | xorl | orl | andl
  | sra | srl | sll | srlw | sllw | sraw
  | lts | ltu | ges | geu | eq | ne
  | jalr | branch
  | slts | sltu
  | mret | sret | dret | ecall | wfi | fence | fenceI | sfenceVma | hfenceVvma
  | hfenceGvma | csrWrite | csrRead | csrSet | csrClear
  | ld | sd | lw | lwu | sw | lh | lhu | sh | lb | sb | lbu
  | hlvB | hlvBu | hlvH | hlvHu | hlvxHu | hlvW | hlvxWu | hsvB | hsvH | hsvW | hlvWu
  | hlvD | hsvD
  | amoLrw | amoLrd | amoScw | amoScd | amoSwapw | amoAddw | amoAndw | amoOrw | amoXorw
  | amoMaxw | amoMaxwu | amoMinw | amoMinwu | amoSwapd | amoAddd | amoAndd | amoOrd
  | amoXord | amoMaxd | amoMaxdu | amoMind | amoMindu
  | mul | mulh | mulhu | mulhsu | mulw
  | div | divu | divw | divuw | rem | remu | remw | remuw
  | fld | flw | flh | flb | fsd | fsw | fsh | fsb
  | fadd | fsub | fmul | fdiv | fminMax | fsqrt | fmadd | fmsub | fnmsub | fnmadd
  | fcvtF2i | fcvtI2f | fcvtF2f | fsgnj | fmvF2x | fmvX2f
  | fcmp
  | fclass
  | vfmin | vfmax | vfsgnj | vfsgnjn | vfsgnjx | vfeq | vfne | vflt | vfge | vfle
  | vfgt | vfcpkabS | vfcpkcdS | vfcpkabD | vfcpkcdD
  | offload
  | orcb | rev8
  | rol | rolw | ror | rori | roriw | rorw
  | sextb | sexth | zexth
  | cpop | cpopw
  | clz | clzw | ctz | ctzw
  | clmul | clmulh | clmulr
  | bclr | bclri | bext | bexti | binv | binvi | bset | bseti
  | max | maxu | min | minu
  | sh1adduw | sh2adduw | sh3adduw | adduw | slliuw
  | sh1add | sh2add | sh3add
  | andn | orn | xnor
  | accelOp | accelOpFs1 | accelOpFd | accelOpLoad | accelOpStore
  | czeroEqz | czeroNez
  | pack | packH | packW
  | brev8
  | unzip | zip
  deriving DecidableEq, Repr

/-- The range `[lo : hi]` of a case item. -/
def FuOp.inRange (lo hi op : FuOp) : Bool :=
  decide (lo.ctorIdx ≤ op.ctorIdx) && decide (op.ctorIdx ≤ hi.ctorIdx)

/-- `op_is_branch`. -/
def opIsBranch (op : FuOp) : Bool :=
  op ∈ [.eq, .ne, .lts, .ges, .ltu, .geu]

/-- `is_rd_fpr`. -/
def isRdFpr (op : FuOp) : Bool :=
  FuOp.inRange .fld .flb op || FuOp.inRange .fadd .fnmadd op ||
    op ∈ [.fcvtI2f, .fcvtF2f, .fsgnj, .fmvX2f] ||
    FuOp.inRange .vfmin .vfsgnjx op || FuOp.inRange .vfcpkabS .vfcpkcdD op ||
    op == .accelOpFd

/-- `is_amo`. -/
def isAmo (op : FuOp) : Bool := FuOp.inRange .amoLrw .amoMindu op

/-- `extract_transfer_size` -/
def extractTransferSize (op : FuOp) : BitVec 2 :=
  if op ∈ [.ld, .hlvD, .sd, .hsvD, .fld, .fsd, .amoLrd, .amoScd, .amoSwapd, .amoAddd,
      .amoAndd, .amoOrd, .amoXord, .amoMaxd, .amoMaxdu, .amoMind, .amoMindu] then 3
  else if op ∈ [.lw, .lwu, .hlvW, .hlvWu, .hlvxWu, .sw, .hsvW, .flw, .fsw, .amoLrw, .amoScw,
      .amoSwapw, .amoAddw, .amoAndw, .amoOrw, .amoXorw, .amoMaxw, .amoMaxwu, .amoMinw,
      .amoMinwu] then 2
  else if op ∈ [.lh, .lhu, .hlvH, .hlvHu, .hlvxHu, .sh, .hsvH, .flh, .fsh] then 1
  else if op ∈ [.lb, .lbu, .hlvB, .hlvBu, .sb, .hsvB, .flb, .fsb] then 0
  else 3

/-- `amo_t`, the operations of the code. -/
inductive Amo where
  | none | lr | sc | swap | add | and | or | xor | max | maxu | min | minu
  deriving DecidableEq, Repr

/-- Index of the write-back port of the fixed-latency unit. -/
def fluWb : Nat := 0

end Cva6
