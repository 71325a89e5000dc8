import Mathlib.Tactic.IntervalCases
import RiscvCores.Cva6.InstrScan

/-!
# Predecode against decode

What the scanner sees in a fetched word is what the decoder makes of its expansion,
up to words that trap: reserved conditions of a branch, reserved forms of `jalr`, `c.jr`
through x0 and `c.ebreak`.
-/

set_option autoImplicit false

namespace Cva6.InstrScan

open CompressedDecoder

variable {cfg : IdCfg} {pc : BitVec cfg.vlen} {i w : BitVec 32} {jumpAddress : BitVec 32}

/-! ## Fields -/

theorem opcode_append (rest : BitVec 25) (op : BitVec 7) :
    opcode (rest ++ op : BitVec 32) = op := by
  apply BitVec.eq_of_getLsbD_eq
  intro k below
  simp only [opcode, field, BitVec.getLsbD_extractLsb, BitVec.getLsbD_append]
  simp [below]

theorem low_of_opcode {op : BitVec 7} (same : opcode i = op) :
    field i 1 0 = op.extractLsb 1 0 := by
  rw [← same]
  apply BitVec.eq_of_getLsbD_eq
  intro k below
  interval_cases k <;> simp only [opcode, field, BitVec.getLsbD_extractLsb] <;> simp

theorem setWidth_signExtend {width m n : Nat} (x : BitVec width) (narrow : n ≤ m) :
    (x.signExtend m).setWidth n = x.signExtend n := by
  apply BitVec.eq_of_getLsbD_eq
  intro k below
  have inside : k < m := by omega
  simp only [BitVec.getLsbD_setWidth, BitVec.getLsbD_signExtend, below, inside, decide_true,
    Bool.true_and]

theorem signExtend_signExtend {width m n : Nat} (x : BitVec width) (wide : width ≤ m)
    (some : 0 < width) : (x.signExtend m).signExtend n = x.signExtend n := by
  have sign : (x.signExtend m).msb = x.msb := by
    rw [BitVec.msb_eq_getLsbD_last, BitVec.getLsbD_signExtend, BitVec.msb_eq_getLsbD_last]
    have inside : m - 1 < m := by omega
    rcases Nat.lt_or_ge (m - 1) width with last | beyond
    · have same : m - 1 = width - 1 := by omega
      simp only [same]
      simp [show width - 1 < m by omega, show width - 1 < width by omega]
    · simp [inside, Nat.not_lt.mpr beyond]
  apply BitVec.eq_of_getLsbD_eq
  intro k below
  simp only [BitVec.getLsbD_signExtend, below, sign, decide_true, Bool.true_and]
  rcases Nat.lt_or_ge k width with inside | beyond
  · simp [inside, show k < m by omega]
  · rcases Nat.lt_or_ge k m with within | outside
    · simp [within, Nat.not_lt.mpr beyond]
    · simp [Nat.not_lt.mpr beyond, Nat.not_lt.mpr outside]

/-! ### The expanded jumps and branches -/

theorem ujBits_jumpOffset (i : BitVec 32) (rd : BitVec 5) :
    ujBits (jumpOffset i ++ rd ++ opcodeJal : BitVec 32) = (rvcJumpBits i).signExtend 21 := by
  apply BitVec.eq_of_getLsbD_eq
  intro k below
  interval_cases k <;>
    simp only [ujBits, jumpOffset, rvcJumpBits, field, copies, BitVec.getLsbD_append,
      BitVec.getLsbD_extractLsb, BitVec.getLsbD_extractLsb', BitVec.getLsbD_signExtend,
      BitVec.msb_eq_getLsbD_last] <;>
    simp

theorem sbBits_branchWord (i : BitVec 32) :
    sbBits (branchWord i) = (rvcBranchBits i).signExtend 13 := by
  apply BitVec.eq_of_getLsbD_eq
  intro k below
  interval_cases k <;>
    simp only [sbBits, branchWord, rvcBranchBits, field, copies, BitVec.getLsbD_append,
      BitVec.getLsbD_extractLsb, BitVec.getLsbD_extractLsb', BitVec.getLsbD_signExtend,
      BitVec.msb_eq_getLsbD_last] <;>
    simp

theorem rd_jal (imm : BitVec 20) (rd : BitVec 5) (op : BitVec 7) :
    field (imm ++ rd ++ op : BitVec 32) 11 7 = rd := by
  apply BitVec.eq_of_getLsbD_eq
  intro k below
  interval_cases k <;>
    simp only [field, BitVec.getLsbD_append, BitVec.getLsbD_extractLsb] <;> simp

theorem funct3_branchWord (i : BitVec 32) :
    field (branchWord i) 14 12 = 0b00#2 ++ field i 13 13 := by
  apply BitVec.eq_of_getLsbD_eq
  intro k below
  interval_cases k <;>
    simp only [branchWord, field, copies, BitVec.getLsbD_append, BitVec.getLsbD_extractLsb] <;>
    simp

section Jalr

variable (rs1 rd : BitVec 5)

/-- An expanded register jump. -/
abbrev jalrWord : BitVec 32 := 0#12 ++ rs1 ++ 0b000#3 ++ rd ++ opcodeJalr

theorem rd_jalrWord : field (jalrWord rs1 rd) 11 7 = rd := by
  apply BitVec.eq_of_getLsbD_eq
  intro k below
  interval_cases k <;>
    simp only [field, BitVec.getLsbD_append, BitVec.getLsbD_extractLsb] <;> simp

theorem rs1_jalrWord : field (jalrWord rs1 rd) 19 15 = rs1 := by
  apply BitVec.eq_of_getLsbD_eq
  intro k below
  interval_cases k <;>
    simp only [field, BitVec.getLsbD_append, BitVec.getLsbD_extractLsb] <;> simp

theorem funct3_jalrWord : field (jalrWord rs1 rd) 14 12 = 0 := by
  apply BitVec.eq_of_getLsbD_eq
  intro k below
  interval_cases k <;>
    simp only [field, BitVec.getLsbD_append, BitVec.getLsbD_extractLsb] <;> simp

end Jalr

/-! ## Words that do not go to the branch unit -/

structure Quiet (w : BitVec 32) : Prop where
  branch : opcode w ≠ opcodeBranch
  jalr : opcode w ≠ opcodeJalr
  jal : opcode w ≠ opcodeJal

theorem Quiet.append (rest : BitVec 25) {op : BitVec 7}
    (other : op ≠ opcodeBranch ∧ op ≠ opcodeJalr ∧ op ≠ opcodeJal) :
    Quiet (rest ++ op : BitVec 32) := by
  rw [← opcode_append rest op] at other
  exact ⟨other.1, other.2.1, other.2.2⟩

theorem Quiet.of_low (compressed : field i 1 0 ≠ 3) : Quiet i := by
  constructor <;>
    · intro same
      exact compressed (low_of_opcode same)

theorem Quiet.controlFlow (quiet : Quiet w) (isIllegal isZcmt : Bool) :
    controlFlow cfg pc w isIllegal isZcmt jumpAddress = none := by
  rw [InstrScan.controlFlow, if_neg quiet.branch, if_neg quiet.jalr, if_neg quiet.jal]

theorem Quiet.decode (quiet : Quiet w) (isIllegal isZcmt : Bool) :
    decode cfg pc w isIllegal isZcmt jumpAddress = none := by
  rw [InstrScan.decode, quiet.controlFlow]
  rfl

/-- Expansions that do not go to the branch unit. -/
def QuietExpansion : Expansion → Prop
  | .word w => Quiet w
  | _ => True

theorem QuietExpansion.ite {cond : Prop} [Decidable cond] {e e' : Expansion}
    (first : cond → QuietExpansion e) (second : ¬cond → QuietExpansion e') :
    QuietExpansion (if cond then e else e') := by
  split
  · next holds => exact first holds
  · next fails => exact second fails

theorem QuietExpansion.append (rest : BitVec 25) {op : BitVec 7}
    (other : op ≠ opcodeBranch ∧ op ≠ opcodeJalr ∧ op ≠ opcodeJal) :
    QuietExpansion (.word (rest ++ op : BitVec 32)) :=
  Quiet.append rest other

theorem c0_quiet (cfg : IdCfg) (i : BitVec 32) : QuietExpansion (c0 cfg i) := by
  unfold c0 zcbLoadStore
  repeat' refine QuietExpansion.ite (fun _ => ?_) (fun _ => ?_)
  all_goals first
    | exact trivial
    | exact .append _ (by decide)

theorem zcbUnary_quiet (cfg : IdCfg) (i : BitVec 32) : QuietExpansion (zcbUnary cfg i) := by
  unfold zcbUnary
  repeat' refine QuietExpansion.ite (fun _ => ?_) (fun _ => ?_)
  all_goals first
    | exact trivial
    | exact .append _ (by decide)

theorem miscAlu_quiet (compressed : field i 1 0 ≠ 3) : QuietExpansion (miscAlu cfg i) := by
  unfold miscAlu miscAluReg
  repeat' refine QuietExpansion.ite (fun _ => ?_) (fun _ => ?_)
  all_goals first
    | exact trivial
    | exact .append _ (by decide)
    | exact zcbUnary_quiet cfg i
    | exact Quiet.of_low compressed

/-- The jumps and branches of the second quadrant. -/
structure C1Quiet (cfg : IdCfg) (i : BitVec 32) : Prop where
  jump : field i 15 13 ≠ opcodeC1J
  jal : field i 15 13 = opcodeC1Jal → cfg.isXlen64 = true
  beqz : field i 15 13 ≠ opcodeC1Beqz
  bnez : field i 15 13 ≠ opcodeC1Bnez

theorem three_bits (x : BitVec 3) :
    x = 0 ∨ x = 1 ∨ x = 2 ∨ x = 3 ∨ x = 4 ∨ x = 5 ∨ x = 6 ∨ x = 7 := by
  revert x
  decide

theorem c1_quiet (compressed : field i 1 0 ≠ 3) (other : C1Quiet cfg i) :
    QuietExpansion (c1 cfg i) := by
  unfold c1
  refine .ite (fun _ => .append _ (by decide)) fun notAddi => ?_
  refine .ite (fun addiw => ?_) fun notAddiw => ?_
  · rw [if_pos (other.jal addiw)]
    exact .ite (fun _ => .append _ (by decide)) fun _ => trivial
  refine .ite (fun _ => .append _ (by decide)) fun notLi => ?_
  refine .ite (fun _ => ?_) fun notLui => ?_
  · refine .ite (fun _ => trivial) fun _ => ?_
    exact .ite (fun _ => .append _ (by decide)) fun _ => .append _ (by decide)
  refine .ite (fun _ => miscAlu_quiet compressed) fun notMisc => ?_
  rcases three_bits (field i 15 13) with h | h | h | h | h | h | h | h
  · exact absurd h notAddi
  · exact absurd h notAddiw
  · exact absurd h notLi
  · exact absurd h notLui
  · exact absurd h notMisc
  · exact absurd h other.jump
  · exact absurd h other.beqz
  · exact absurd h other.bnez

/-- Only x0 makes a register jump of the third quadrant something else. -/
theorem jalrMvAdd_quiet (other : field i 6 2 ≠ 0 ∨ field i 11 7 = 0) :
    QuietExpansion (jalrMvAdd i) := by
  unfold jalrMvAdd
  refine .ite (fun _ => ?_) fun _ => ?_
  · refine .ite (fun noRs2 => ?_) fun _ => .append _ (by decide)
    rw [if_neg (not_not_intro (other.resolve_left (not_not_intro noRs2)))]
    trivial
  · refine .ite (fun noRs2 => ?_) fun _ => .append _ (by decide)
    rw [if_pos (other.resolve_left (not_not_intro noRs2))]
    exact ⟨by decide, by decide, by decide⟩

theorem c2_quiet
    (other : field i 15 13 = opcodeC2JalrMvAdd → field i 6 2 ≠ 0 ∨ field i 11 7 = 0) :
    QuietExpansion (c2 cfg i) := by
  unfold c2
  refine .ite (fun _ => .append _ (by decide)) fun _ => ?_
  refine .ite (fun _ => ?_) fun _ => ?_
  · exact .ite (fun _ => .append _ (by decide)) fun _ => trivial
  refine .ite (fun _ => ?_) fun _ => ?_
  · exact .ite (fun _ => trivial) fun _ => .append _ (by decide)
  refine .ite (fun _ => ?_) fun _ => ?_
  · refine .ite (fun _ => ?_) fun _ => ?_
    · exact .ite (fun _ => trivial) fun _ => .append _ (by decide)
    · exact .ite (fun _ => .append _ (by decide)) fun _ => trivial
  refine .ite (fun select => jalrMvAdd_quiet (other select)) fun _ => ?_
  repeat' refine QuietExpansion.ite (fun _ => ?_) (fun _ => ?_)
  all_goals first
    | exact trivial
    | exact .append _ (by decide)

/-! ## What the decoder makes of a word -/

section Decoded

variable (cfg pc w jumpAddress)

theorem decode_jal (jal : opcode w = opcodeJal) :
    decode cfg pc w false false jumpAddress = some
      { pc := pc, op := .add, rs1 := 0, rs2 := 0, rd := field w 11 7
        result := (ujBits w).signExtend (xlen cfg), isControlFlowInstr := true
        illegalInstr := false } := by
  have notBranch : opcode w ≠ opcodeBranch := by rw [jal]; decide
  have notJalr : opcode w ≠ opcodeJalr := by rw [jal]; decide
  rw [decode, controlFlow, if_neg notBranch, if_neg notJalr, if_pos jal]
  simp [Option.filter, immUjType]

theorem decode_jalr (jalr : opcode w = opcodeJalr) (funct3 : field w 14 12 = 0) :
    decode cfg pc w false false jumpAddress = some
      { pc := pc, op := .jalr, rs1 := field w 19 15, rs2 := 0, rd := field w 11 7
        result := (field w 31 20).signExtend (xlen cfg), isControlFlowInstr := true
        illegalInstr := false } := by
  have notBranch : opcode w ≠ opcodeBranch := by rw [jalr]; decide
  rw [decode, controlFlow, if_neg notBranch, if_pos jalr]
  simp [Option.filter, funct3]

theorem decode_branch (branch : opcode w = opcodeBranch) {op : Op}
    (cond : branchOp (field w 14 12) = some op) :
    decode cfg pc w false false jumpAddress = some
      { pc := pc, op := op, rs1 := field w 19 15, rs2 := field w 24 20, rd := 0
        result := (sbBits w).signExtend (xlen cfg), isControlFlowInstr := true
        illegalInstr := false } := by
  rw [decode, controlFlow, if_pos branch]
  simp [Option.filter, cond]

/-- A word with a reserved form is illegal, or it is the co-processor's. -/
theorem decode_reserved (reserved : opcode w = opcodeBranch ∧ branchOp (field w 14 12) = none ∨
      opcode w = opcodeJalr ∧ field w 14 12 ≠ 0) {e : Entry cfg}
    (found : decode cfg pc w false false jumpAddress = some e) : e.illegalInstr = true := by
  obtain ⟨entry, -⟩ := Option.filter_eq_some_iff.mp found
  rcases reserved with ⟨branch, cond⟩ | ⟨jalr, funct3⟩
  · rw [controlFlow, if_pos branch] at entry
    obtain rfl := Option.some.inj entry
    simp [cond]
  · have notBranch : opcode w ≠ opcodeBranch := by rw [jalr]; decide
    rw [controlFlow, if_neg notBranch, if_pos jalr] at entry
    obtain rfl := Option.some.inj entry
    simpa using funct3

end Decoded

theorem branchOp_beqz (bit : BitVec 1) : ∃ op, branchOp (0b00#2 ++ bit) = some op := by
  apply Option.isSome_iff_exists.mp
  revert bit
  decide

theorem branchOp_isBranch {funct3 : BitVec 3} {op : Op} (cond : branchOp funct3 = some op) :
    op ≠ .add ∧ op ≠ .jalr := by
  revert cond
  unfold branchOp
  repeat' split
  all_goals
    intro cond
    cases cond
  all_goals exact ⟨nofun, nofun⟩

/-! ### Expansions -/

theorem expand_full (full : field i 1 0 = 3) : expand cfg i = ⟨i, false, false, false, false⟩ := by
  rw [expand, full]
  rfl

theorem expand_c0 (low : field i 1 0 = opcodeC0) : expand cfg i = (c0 cfg i).output i := by
  rw [expand, if_pos low]

theorem expand_c1 (low : field i 1 0 = opcodeC1) : expand cfg i = (c1 cfg i).output i := by
  rw [expand, low]
  rfl

theorem expand_c2 (low : field i 1 0 = opcodeC2) : expand cfg i = (c2 cfg i).output i := by
  rw [expand, low]
  rfl

theorem decoded_full (full : field i 1 0 = 3) :
    decoded cfg pc i jumpAddress = decode cfg pc i false false jumpAddress := by
  rw [decoded, expand_full full]

theorem decoded_word {e : Expansion} (out : expand cfg i = e.output i) (word : e = .word w) :
    decoded cfg pc i jumpAddress = decode cfg pc w false false jumpAddress := by
  rw [decoded, out, word]
  rfl

theorem decoded_quiet {e : Expansion} (compressed : field i 1 0 ≠ 3)
    (out : expand cfg i = e.output i) (quiet : QuietExpansion e) :
    decoded cfg pc i jumpAddress = none := by
  have raw : Quiet i := .of_low compressed
  rw [decoded, out]
  cases e with
  | word w => exact Quiet.decode quiet _ _
  | illegal => exact raw.decode _ _
  | macroInstr => exact raw.decode _ _
  | zcmt => exact raw.decode _ _

/-- The last bit of the destination of `c.j` comes from the instruction. -/
theorem c1_jump (jump : field i 15 13 = opcodeC1J) :
    c1 cfg i = .word (jumpOffset i ++ 0#5 ++ opcodeJal) := by
  have top : field i 15 15 = 1 := by
    have bit : field i 15 15 = (field i 15 13).extractLsb 2 2 := by
      apply BitVec.eq_of_getLsbD_eq
      intro k below
      interval_cases k
      simp only [field, BitVec.getLsbD_extractLsb]
      simp
    rw [bit, jump]
    rfl
  have expands : c1 cfg i = .word (jumpOffset i ++ 0#4 ++ ~~~field i 15 15 ++ opcodeJal) := by
    rw [c1, jump]
    rfl
  rw [expands, top]
  apply congrArg Expansion.word
  apply BitVec.eq_of_getLsbD_eq
  intro k below
  interval_cases k <;> simp only [BitVec.getLsbD_append] <;> simp

theorem c1_jal (rv32 : cfg.isXlen64 = false) (jal : field i 15 13 = opcodeC1Jal) :
    c1 cfg i = .word (jumpOffset i ++ 1#5 ++ opcodeJal) := by
  rw [c1, jal, rv32]
  rfl

theorem c1_branch (branch : field i 15 13 = opcodeC1Beqz ∨ field i 15 13 = opcodeC1Bnez) :
    c1 cfg i = .word (branchWord i) := by
  rcases branch with branch | branch <;>
    · rw [c1, branch]
      rfl

theorem c2_jalr (select : field i 15 13 = opcodeC2JalrMvAdd) (noRs2 : field i 6 2 = 0)
    (some : field i 11 7 ≠ 0) :
    c2 cfg i = .word (jalrWord (field i 11 7) (if field i 12 12 = 0 then 0 else 1)) := by
  have route : c2 cfg i = jalrMvAdd i := by
    rw [c2, select]
    rfl
  by_cases jr : field i 12 12 = 0
  · rw [route, jalrMvAdd, if_pos jr, if_pos noRs2, if_pos some, if_pos jr]
    rfl
  · rw [route, jalrMvAdd, if_neg jr, if_pos noRs2, if_neg some, if_neg jr]
    rfl

/-! ## Classification -/

/-- A word that is scanned as a register jump but traps. -/
inductive TrapsAsJump (i : BitVec 32) : Prop
  | reserved (jalr : opcode i = opcodeJalr) (funct3 : field i 14 12 ≠ 0)
  | jrX0 (word : field i 15 0 = 0x8002)
  | ebreak (word : field i 15 0 = 0x9002)

def ReservedBranch (i : BitVec 32) : Prop :=
  opcode i = opcodeBranch ∧ branchOp (field i 14 12) = none

/-- What a word is scanned as, with what it decodes to. -/
inductive Classified (cfg : IdCfg) (pc : BitVec cfg.vlen) (i jumpAddress : BitVec 32) : Prop
  | jump (e : Entry cfg) (found : decoded cfg pc i jumpAddress = some e) (op : e.op = .add)
      (legal : e.illegalInstr = false) (self : isXret i = false)
      (scanned : scan cfg i = ⟨true, false, false, isLink e.rd, false⟩)
      (imm : scannedImm cfg i = e.result.setWidth cfg.vlen)
  | branch (e : Entry cfg) (found : decoded cfg pc i jumpAddress = some e)
      (op : e.op ≠ .add ∧ e.op ≠ .jalr) (legal : e.illegalInstr = false)
      (scanned : scan cfg i = ⟨false, true, false, false, false⟩)
      (imm : scannedImm cfg i = e.result.setWidth cfg.vlen)
  | registerJump (e : Entry cfg) (found : decoded cfg pc i jumpAddress = some e)
      (op : e.op = .jalr) (legal : e.illegalInstr = false) (ret : Bool)
      (link : ret = true → isLink e.rs1 = true)
      (scanned : scan cfg i = ⟨false, false, true, isLink e.rd, ret⟩)
  | other (none_ : decoded cfg pc i jumpAddress = none)
      (scanned : scan cfg i = ⟨isXret i, false, false, false, false⟩)
  | reservedBranch (reserved : ReservedBranch i)
      (illegal : ∀ e, decoded cfg pc i jumpAddress = some e → e.illegalInstr = true)
      (scanned : scan cfg i = ⟨false, true, false, false, false⟩)
  | trap (traps : TrapsAsJump i)
      (illegal : ∀ e, decoded cfg pc i jumpAddress = some e → e.illegalInstr = true)
      (scanned : ∃ call ret, scan cfg i = ⟨false, false, true, call, ret⟩)

section Full

/-! ### Words of 32 bits -/

theorem rvc_full (cfg : IdCfg) (full : field i 1 0 = 3) :
    rvcJumpO cfg i = false ∧ rvcBranchO i = false ∧ rvcJrO i = false ∧ rvcJalrO i = false := by
  have notC1 : isC1 i = false := by
    rw [isC1, full]
    rfl
  have notJalR : isJalR i = false := by
    rw [isJalR, full]
    exact Bool.and_false _
  simp [rvcJumpO, rvcBranchO, rvcJrO, rvcJalrO, rv32RvcJal, notC1, notJalR]

theorem scan_full (full : field i 1 0 = 3) :
    scan cfg i = ⟨rviJumpO i, rviBranchO i, rviJalrO i, rviCallO i, rviReturnO i⟩ := by
  obtain ⟨jump, branch, jr, jalr⟩ := rvc_full cfg full
  have jal : rv32RvcJal cfg i = false := by
    rw [rvcJumpO, Bool.or_eq_false_iff] at jump
    exact jump.2
  simp [scan, jump, branch, jr, jalr, rvcCallO, rvcReturnO, jal]

theorem scannedImm_full (full : field i 1 0 = 3) : scannedImm cfg i = rviImmO cfg i := by
  obtain ⟨jump, branch, -, -⟩ := rvc_full cfg full
  rw [scannedImm, jump, branch]
  rfl

/-- `sret` and `mret` have the system opcode and no destination. -/
theorem xret_fields (xret : isXret i = true) : opcode i = 0b1110011 ∧ field i 11 7 = 0 := by
  rw [isXret, Bool.and_eq_true, beq_iff_eq, beq_iff_eq] at xret
  have low : opcode i = (field i 28 0).extractLsb 6 0 := by
    apply BitVec.eq_of_getLsbD_eq
    intro k below
    interval_cases k <;> simp only [opcode, field, BitVec.getLsbD_extractLsb] <;> simp
  have rd : field i 11 7 = (field i 28 0).extractLsb 11 7 := by
    apply BitVec.eq_of_getLsbD_eq
    intro k below
    interval_cases k <;> simp only [field, BitVec.getLsbD_extractLsb] <;> simp
  rw [low, rd, xret.2]
  exact ⟨rfl, rfl⟩

theorem bit3_of_opcode {op : BitVec 7} (same : opcode i = op) :
    field i 3 3 = op.extractLsb 3 3 := by
  rw [← same]
  apply BitVec.eq_of_getLsbD_eq
  intro k below
  interval_cases k
  simp only [opcode, field, BitVec.getLsbD_extractLsb]
  simp

theorem not_xret {op : BitVec 7} (same : opcode i = op) (other : op ≠ 0b1110011) :
    isXret i = false := by
  rw [Bool.eq_false_iff]
  intro xret
  rw [(xret_fields xret).1] at same
  exact other same.symm

theorem classified_jal (jal : opcode i = opcodeJal) : Classified cfg pc i jumpAddress := by
  have full : field i 1 0 = 3 := low_of_opcode jal
  have notXret := not_xret jal (by decide)
  refine .jump _ ((decoded_full full).trans (decode_jal cfg pc i jumpAddress jal)) rfl rfl notXret
    ?_ ?_
  · rw [scan_full full]
    simp [rviJumpO, rviBranchO, rviJalrO, rviCallO, rviReturnO, jal, opcodeJal, opcodeBranch,
      opcodeJalr]
  · rw [scannedImm_full full, rviImmO, notXret, bit3_of_opcode jal]
    exact (setWidth_signExtend (ujBits i) cfg.vlenLe).symm

theorem classified_branch {op : Op} (branch : opcode i = opcodeBranch)
    (cond : branchOp (field i 14 12) = some op) : Classified cfg pc i jumpAddress := by
  have full : field i 1 0 = 3 := low_of_opcode branch
  have notXret := not_xret branch (by decide)
  refine .branch _ ((decoded_full full).trans (decode_branch cfg pc i jumpAddress branch cond))
    (branchOp_isBranch cond) rfl ?_ ?_
  · rw [scan_full full]
    simp [rviJumpO, rviBranchO, rviJalrO, rviCallO, rviReturnO, branch, notXret, opcodeJal,
      opcodeBranch, opcodeJalr]
  · rw [scannedImm_full full, rviImmO, notXret, bit3_of_opcode branch]
    exact (setWidth_signExtend (sbBits i) cfg.vlenLe).symm

theorem classified_jalr (jalr : opcode i = opcodeJalr) (funct3 : field i 14 12 = 0) :
    Classified cfg pc i jumpAddress := by
  have full : field i 1 0 = 3 := low_of_opcode jalr
  have notXret := not_xret jalr (by decide)
  refine .registerJump _
    ((decoded_full full).trans (decode_jalr cfg pc i jumpAddress jalr funct3)) rfl rfl
    (rviReturnO i) ?_ ?_
  · intro isReturn
    rw [rviReturnO, Bool.and_eq_true, Bool.and_eq_true] at isReturn
    exact isReturn.1.2
  rw [scan_full full]
  simp [rviJumpO, rviBranchO, rviJalrO, rviCallO, rviReturnO, jalr, notXret, opcodeJal,
    opcodeBranch, opcodeJalr]

theorem classified_full (full : field i 1 0 = 3) : Classified cfg pc i jumpAddress := by
  by_cases branch : opcode i = opcodeBranch
  · cases cond : branchOp (field i 14 12) with
    | some op => exact classified_branch branch cond
    | none =>
        refine .reservedBranch ⟨branch, cond⟩ ?_ ?_
        · intro e found
          rw [decoded_full full] at found
          exact decode_reserved cfg pc i jumpAddress (.inl ⟨branch, cond⟩) found
        · have notXret := not_xret branch (by decide)
          rw [scan_full full]
          simp [rviJumpO, rviBranchO, rviJalrO, rviCallO, rviReturnO, branch, notXret, opcodeJal,
            opcodeBranch, opcodeJalr]
  by_cases jalr : opcode i = opcodeJalr
  · by_cases funct3 : field i 14 12 = 0
    · exact classified_jalr jalr funct3
    · refine .trap (.reserved jalr funct3) ?_ ?_
      · intro e found
        rw [decoded_full full] at found
        exact decode_reserved cfg pc i jumpAddress (.inr ⟨jalr, funct3⟩) found
      · have notXret := not_xret jalr (by decide)
        refine ⟨rviCallO i, rviReturnO i, ?_⟩
        rw [scan_full full]
        simp [rviJumpO, rviBranchO, rviJalrO, jalr, notXret, opcodeJal, opcodeBranch, opcodeJalr]
  by_cases jal : opcode i = opcodeJal
  · exact classified_jal jal
  · refine .other ((decoded_full full).trans (Quiet.decode ⟨branch, jalr, jal⟩ _ _)) ?_
    have call : isXret i = true → isLink (field i 11 7) = false := by
      intro xret
      rw [(xret_fields xret).2]
      rfl
    rw [scan_full full]
    simp [rviJumpO, rviBranchO, rviJalrO, rviCallO, rviReturnO, branch, jalr, jal]
    exact call

end Full

/-! ### Words of 16 bits -/

section Compressed

/-- The scanner's outputs for words of 32 bits are clear. -/
theorem scan_compressed (cfg : IdCfg) (compressed : field i 1 0 ≠ 3) :
    isXret i = false ∧
      scan cfg i = ⟨rvcJumpO cfg i, rvcBranchO i, rvcJrO i || rvcJalrO i, rvcCallO cfg i,
        rvcReturnO i⟩ := by
  have raw : Quiet i := .of_low compressed
  have notXret : isXret i = false := by
    rw [Bool.eq_false_iff]
    intro xret
    exact compressed (low_of_opcode (xret_fields xret).1)
  refine ⟨notXret, ?_⟩
  have branch : (opcode i == opcodeBranch) = false := beq_eq_false_iff_ne.mpr raw.branch
  have jalr : (opcode i == opcodeJalr) = false := beq_eq_false_iff_ne.mpr raw.jalr
  have jal : (opcode i == opcodeJal) = false := beq_eq_false_iff_ne.mpr raw.jal
  simp only [scan, rviJumpO, rviBranchO, rviJalrO, rviCallO, rviReturnO, branch, jalr, jal, notXret,
    Bool.false_or, Bool.false_and]

theorem classified_c0 (low : field i 1 0 = opcodeC0) : Classified cfg pc i jumpAddress := by
  have compressed : field i 1 0 ≠ 3 := by
    rw [low]
    decide
  obtain ⟨notXret, scanned⟩ := scan_compressed cfg compressed
  refine .other (decoded_quiet compressed (expand_c0 low) (c0_quiet cfg i)) ?_
  have notC1 : isC1 i = false := by
    rw [isC1, low]
    rfl
  have notJalR : isJalR i = false := by
    rw [isJalR, low]
    exact Bool.and_false _
  rw [scanned, notXret]
  simp [rvcJumpO, rvcBranchO, rvcJrO, rvcJalrO, rvcCallO, rvcReturnO, rv32RvcJal, notC1, notJalR]

theorem bit14 (i : BitVec 32) : field i 14 14 = (field i 15 13).extractLsb 1 1 := by
  apply BitVec.eq_of_getLsbD_eq
  intro k below
  interval_cases k
  simp only [field, BitVec.getLsbD_extractLsb]
  simp

section C1

variable (low : field i 1 0 = opcodeC1)
include low

theorem c1_compressed : field i 1 0 ≠ 3 := by
  rw [low]
  decide

/-- Only jumps and branches of the second quadrant are scanned. -/
theorem scan_c1 (cfg : IdCfg) :
    scan cfg i =
      ⟨field i 15 13 == opcodeC1J || !cfg.isXlen64 && field i 15 13 == opcodeC1Jal,
        field i 15 13 == opcodeC1Beqz || field i 15 13 == opcodeC1Bnez, false,
        !cfg.isXlen64 && field i 15 13 == opcodeC1Jal, false⟩ := by
  have isC1 : isC1 i = true := by
    rw [isC1, low]
    rfl
  have notJalR : isJalR i = false := by
    rw [isJalR, low]
    exact Bool.and_false _
  rw [(scan_compressed cfg (c1_compressed low)).2]
  simp [rvcJumpO, rvcBranchO, rvcJrO, rvcJalrO, rvcCallO, rvcReturnO, rv32RvcJal, isC1, notJalR]

/-- A jump of the second quadrant with the destination of its expansion. -/
theorem classified_c1_jump (rd : BitVec 5)
    (expands : c1 cfg i = .word (jumpOffset i ++ rd ++ opcodeJal))
    (jump : rvcJumpO cfg i = true) (long : field i 14 14 = 0)
    (scanned : scan cfg i = ⟨true, false, false, isLink rd, false⟩) :
    Classified cfg pc i jumpAddress := by
  have jal : opcode (jumpOffset i ++ rd ++ opcodeJal : BitVec 32) = opcodeJal :=
    opcode_append (jumpOffset i ++ rd) opcodeJal
  refine .jump _ ((decoded_word (expand_c1 low) expands).trans
    (decode_jal cfg pc _ jumpAddress jal)) rfl rfl (scan_compressed cfg
      (c1_compressed low)).1 ?_ ?_
  · rw [scanned, rd_jal]
  · rw [scannedImm, jump, rvcImmO, long, ujBits_jumpOffset]
    refine Eq.trans ?_ (setWidth_signExtend _ cfg.vlenLe).symm
    exact (signExtend_signExtend (rvcJumpBits i) (by decide) (by decide)).symm

theorem classified_c1 : Classified cfg pc i jumpAddress := by
  have compressed := c1_compressed low
  have scanned := scan_c1 low cfg
  by_cases jump : field i 15 13 = opcodeC1J
  · refine classified_c1_jump low 0 (c1_jump jump) ?_ ?_ ?_
    · simp [rvcJumpO, jump, isC1, low]
    · rw [bit14, jump]
      rfl
    · rw [scanned, jump]
      cases cfg.isXlen64 <;> rfl
  by_cases jal : cfg.isXlen64 = false ∧ field i 15 13 = opcodeC1Jal
  · refine classified_c1_jump low 1 (c1_jal jal.1 jal.2) ?_ ?_ ?_
    · simp [rvcJumpO, rv32RvcJal, jal, isC1, low]
    · rw [bit14, jal.2]
      rfl
    · rw [scanned, jal.1, jal.2]
      rfl
  by_cases branch : field i 15 13 = opcodeC1Beqz ∨ field i 15 13 = opcodeC1Bnez
  · have op : opcode (branchWord i) = opcodeBranch := opcode_append _ opcodeBranch
    obtain ⟨cond, isCond⟩ : ∃ cond, branchOp (field (branchWord i) 14 12) = some cond := by
      rw [funct3_branchWord]
      exact branchOp_beqz (field i 13 13)
    refine .branch _ ((decoded_word (expand_c1 low) (c1_branch branch)).trans
      (decode_branch cfg pc _ jumpAddress op isCond)) (branchOp_isBranch isCond) rfl ?_ ?_
    · rw [scanned]
      rcases branch with branch | branch <;>
        · rw [branch]
          cases cfg.isXlen64 <;> rfl
    · have taken : rvcBranchO i = true := by
        rcases branch with branch | branch <;> simp [rvcBranchO, branch, isC1, low]
      have short : field i 14 14 = 1 := by
        rcases branch with branch | branch <;>
          · rw [bit14, branch]
            rfl
      rw [scannedImm, taken, Bool.or_true, if_pos rfl, rvcImmO, if_pos short, sbBits_branchWord]
      refine Eq.trans ?_ (setWidth_signExtend _ cfg.vlenLe).symm
      exact (signExtend_signExtend (rvcBranchBits i) (by decide) (by decide)).symm
  · rw [not_or] at branch
    have quiet : C1Quiet cfg i := by
      refine ⟨jump, ?_, branch.1, branch.2⟩
      intro same
      rw [← Bool.not_eq_false]
      exact fun rv32 => jal ⟨rv32, same⟩
    refine .other (decoded_quiet compressed (expand_c1 low) (c1_quiet compressed quiet)) ?_
    rw [scanned, (scan_compressed cfg compressed).1]
    simpa [jump, branch.1, branch.2] using fun rv32 same => jal ⟨rv32, same⟩

end C1

section C2

variable (low : field i 1 0 = opcodeC2)
include low

theorem c2_compressed : field i 1 0 ≠ 3 := by
  rw [low]
  decide

/-- Only register jumps of the third quadrant are scanned. -/
theorem scan_c2 (cfg : IdCfg) :
    scan cfg i =
      ⟨false, false, isJalR i, isJalR i && field i 12 12 == 1,
        isLink (field i 11 7) && (isJalR i && field i 12 12 == 0)⟩ := by
  have notC1 : isC1 i = false := by
    rw [isC1, low]
    rfl
  have either : ∀ bit : BitVec 1, (bit == 0 || bit == 1) = true := by decide
  rw [(scan_compressed cfg (c2_compressed low)).2]
  simp only [rvcJumpO, rvcBranchO, rvcJrO, rvcJalrO, rvcCallO, rvcReturnO, rv32RvcJal, notC1,
    Bool.and_false, Bool.or_false]
  rw [← Bool.and_or_distrib_left, either, Bool.and_true]

omit low in
/-- The low half of a register jump through x0. -/
theorem halfword_of_fields (low : field i 1 0 = opcodeC2)
    (select : field i 15 13 = opcodeC2JalrMvAdd) (noRs2 : field i 6 2 = 0)
    (none_ : field i 11 7 = 0) :
    field i 15 0 = 0b100#3 ++ field i 12 12 ++ 0#10 ++ 0b10#2 := by
  have parts : field i 15 0 =
      field i 15 13 ++ field i 12 12 ++ field i 11 7 ++ field i 6 2 ++ field i 1 0 := by
    apply BitVec.eq_of_getLsbD_eq
    intro k below
    interval_cases k <;>
      simp only [field, BitVec.getLsbD_append, BitVec.getLsbD_extractLsb] <;> simp
  rw [parts, low, select, noRs2, none_]
  generalize field i 12 12 = bit
  revert bit
  decide

theorem classified_c2 : Classified cfg pc i jumpAddress := by
  have compressed := c2_compressed low
  have notXret := (scan_compressed cfg compressed).1
  have scanned := scan_c2 low cfg
  by_cases jumps : field i 15 13 = opcodeC2JalrMvAdd ∧ field i 6 2 = 0
  · have isJump : isJalR i = true := by
      rw [isJalR, jumps.1, jumps.2, low]
      rfl
    by_cases none_ : field i 11 7 = 0
    · have quiet : decoded cfg pc i jumpAddress = none :=
        decoded_quiet compressed (expand_c2 low) (c2_quiet fun _ => .inr none_)
      have word := halfword_of_fields low jumps.1 jumps.2 none_
      refine .trap ?_ (fun e found => ?_) ⟨_, _, by rw [scanned, isJump]⟩
      · by_cases jr : field i 12 12 = 0
        · rw [jr] at word
          exact .jrX0 word
        · have bit : ∀ bit : BitVec 1, bit ≠ 0 → bit = 1 := by decide
          rw [bit _ jr] at word
          exact .ebreak word
      · rw [quiet] at found
        cases found
    · have op : opcode (jalrWord (field i 11 7) (if field i 12 12 = 0 then 0 else 1)) =
          opcodeJalr := opcode_append _ opcodeJalr
      refine .registerJump _
        ((decoded_word (expand_c2 low) (c2_jalr jumps.1 jumps.2 none_)).trans
          (decode_jalr cfg pc _ jumpAddress op (funct3_jalrWord _ _))) rfl rfl
        (isLink (field i 11 7) && field i 12 12 == 0) ?_ ?_
      · intro isReturn
        rw [Bool.and_eq_true] at isReturn
        rw [rs1_jalrWord]
        exact isReturn.1
      · have links : ∀ bit : BitVec 1, (bit == 1) = isLink (if bit = 0 then 0 else 1) := by decide
        rw [scanned, isJump, rd_jalrWord, Bool.true_and, Bool.true_and, links]
  · have notJump : isJalR i = false := by
      rw [Bool.eq_false_iff, isJalR]
      intro isJump
      simp only [Bool.and_eq_true, beq_iff_eq] at isJump
      exact jumps isJump.1
    have other : field i 15 13 = opcodeC2JalrMvAdd → field i 6 2 ≠ 0 ∨ field i 11 7 = 0 :=
      fun select => .inl fun noRs2 => jumps ⟨select, noRs2⟩
    refine .other (decoded_quiet compressed (expand_c2 low) (c2_quiet other)) ?_
    rw [scanned, notXret, notJump]
    simp

end C2

end Compressed

theorem classified (cfg : IdCfg) (pc : BitVec cfg.vlen) (i jumpAddress : BitVec 32) :
    Classified cfg pc i jumpAddress := by
  have quadrant : ∀ low : BitVec 2, low = opcodeC0 ∨ low = opcodeC1 ∨ low = opcodeC2 ∨ low = 3 := by
    decide
  rcases quadrant (field i 1 0) with low | low | low | low
  · exact classified_c0 low
  · exact classified_c1 low
  · exact classified_c2 low
  · exact classified_full low

/-! ## Agreement -/

section Agreement

variable (cfg : IdCfg) (pc : BitVec cfg.vlen) (i jumpAddress : BitVec 32)

/-- The word decodes to a legal entry for the branch unit. -/
def DecodesTo (kind : Entry cfg → Prop) : Prop :=
  ∃ e, decoded cfg pc i jumpAddress = some e ∧ e.illegalInstr = false ∧ kind e

def Traps : Prop :=
  ∀ e, decoded cfg pc i jumpAddress = some e → e.illegalInstr = true

/-- The scanner agrees with the decoder, up to words that are reserved branches or that trap
instead of jumping. -/
structure Agrees (reserved trap : Prop) : Prop where
  jump : (scan cfg i).jump = true ∧ isXret i = false ↔
    DecodesTo cfg pc i jumpAddress fun e => e.op = .add
  branch : (scan cfg i).branch = true ↔
    (DecodesTo cfg pc i jumpAddress fun e => e.op ≠ .add ∧ e.op ≠ .jalr) ∨ reserved
  registerJump : (scan cfg i).registerJump = true ↔
    (DecodesTo cfg pc i jumpAddress fun e => e.op = .jalr) ∨ trap
  call : (scan cfg i).call = true →
    (DecodesTo cfg pc i jumpAddress fun e => isLink e.rd = true) ∨ trap
  ret : (scan cfg i).ret = true →
    (DecodesTo cfg pc i jumpAddress fun e => e.op = .jalr ∧ isLink e.rs1 = true) ∨ trap
  imm : ∀ e, decoded cfg pc i jumpAddress = some e → e.illegalInstr = false → e.op ≠ .jalr →
    scannedImm cfg i = e.result.setWidth cfg.vlen

variable {cfg pc i jumpAddress}

theorem decodesTo_of_found {e : Entry cfg} (found : decoded cfg pc i jumpAddress = some e)
    (legal : e.illegalInstr = false) (kind : Entry cfg → Prop) :
    DecodesTo cfg pc i jumpAddress kind ↔ kind e := by
  constructor
  · rintro ⟨e', found', -, ok⟩
    rw [found] at found'
    obtain rfl := Option.some.inj found'
    exact ok
  · intro ok
    exact ⟨e, found, legal, ok⟩

theorem Traps.not_decodesTo (traps : Traps cfg pc i jumpAddress) (kind : Entry cfg → Prop) :
    ¬DecodesTo cfg pc i jumpAddress kind := by
  rintro ⟨e, found, legal, -⟩
  rw [traps e found] at legal
  cases legal

theorem traps_of_none (none_ : decoded cfg pc i jumpAddress = none) :
    Traps cfg pc i jumpAddress := by
  intro e found
  rw [none_] at found
  cases found

theorem ReservedBranch.traps (reserved : ReservedBranch i) : Traps cfg pc i jumpAddress := by
  intro e found
  rw [decoded_full (low_of_opcode reserved.1)] at found
  exact decode_reserved cfg pc i jumpAddress (.inl reserved) found

/-- The fields of a half-word are those of the word. -/
theorem fields_of_halfword {x : BitVec 16} (word : field i 15 0 = x) :
    field i 1 0 = x.extractLsb 1 0 ∧ field i 15 13 = x.extractLsb 15 13 ∧
      field i 12 12 = x.extractLsb 12 12 ∧ field i 11 7 = x.extractLsb 11 7 ∧
      field i 6 2 = x.extractLsb 6 2 := by
  rw [← word]
  refine ⟨?_, ?_, ?_, ?_, ?_⟩ <;>
    · apply BitVec.eq_of_getLsbD_eq
      intro k below
      interval_cases k <;> simp only [field, BitVec.getLsbD_extractLsb] <;> simp

theorem expand_jrX0 (word : field i 15 0 = 0x8002) :
    expand cfg i = ⟨i, true, false, true, false⟩ := by
  obtain ⟨low, select, jr, rd, rs2⟩ := fields_of_halfword word
  rw [expand_c2 low, c2, select, jalrMvAdd, jr, rd, rs2]
  rfl

theorem expand_ebreak (word : field i 15 0 = 0x9002) :
    expand cfg i = ⟨0x00100073, false, false, true, false⟩ := by
  obtain ⟨low, select, jr, rd, rs2⟩ := fields_of_halfword word
  rw [expand_c2 low, c2, select, jalrMvAdd, jr, rd, rs2]
  rfl

theorem TrapsAsJump.traps (trap : TrapsAsJump i) : Traps cfg pc i jumpAddress := by
  intro e found
  cases trap with
  | reserved jalr funct3 =>
      rw [decoded_full (low_of_opcode jalr)] at found
      exact decode_reserved cfg pc i jumpAddress (.inr ⟨jalr, funct3⟩) found
  | jrX0 word =>
      have raw : Quiet i := .of_low (by rw [(fields_of_halfword word).1]; decide)
      rw [decoded, expand_jrX0 word, raw.decode] at found
      cases found
  | ebreak word =>
      have quiet : Quiet 0x00100073 := ⟨by decide, by decide, by decide⟩
      rw [decoded, expand_ebreak word, quiet.decode] at found
      cases found

theorem ReservedBranch.scanned (reserved : ReservedBranch i) : (scan cfg i).branch = true := by
  simp [scan, rviBranchO, reserved.1]

theorem TrapsAsJump.scanned (trap : TrapsAsJump i) : (scan cfg i).registerJump = true := by
  have compressed : ∀ x : BitVec 16, x = 0x8002 ∨ x = 0x9002 → field i 15 0 = x →
      (scan cfg i).registerJump = true := by
    intro x words word
    obtain ⟨low, select, jr, -, rs2⟩ := fields_of_halfword word
    rcases words with rfl | rfl <;>
      simp [scan, rvcJrO, rvcJalrO, isJalR, low, select, jr, rs2, opcodeC2JalrMvAdd, opcodeC2]
  cases trap with
  | reserved jalr funct3 => simp [scan, rviJalrO, jalr]
  | jrX0 word => exact compressed _ (.inl rfl) word
  | ebreak word => exact compressed _ (.inr rfl) word

theorem agrees_jump : (scan cfg i).jump = true ∧ isXret i = false ↔
    DecodesTo cfg pc i jumpAddress fun e => e.op = .add := by
  cases classified cfg pc i jumpAddress with
  | jump e found op legal self scanned =>
      rw [decodesTo_of_found found legal, scanned]
      exact iff_of_true ⟨rfl, self⟩ op
  | branch e found op legal scanned =>
      rw [decodesTo_of_found found legal, scanned]
      exact iff_of_false (fun both => nomatch both.1) op.1
  | registerJump e found op legal ret link scanned =>
      rw [decodesTo_of_found found legal, scanned, op]
      exact iff_of_false (fun both => nomatch both.1) nofun
  | other none_ scanned =>
      refine iff_of_false ?_ ((traps_of_none none_).not_decodesTo _)
      rw [scanned]
      rintro ⟨self, other⟩
      rw [show isXret i = true from self] at other
      cases other
  | reservedBranch reserved illegal scanned =>
      rw [scanned]
      exact iff_of_false (fun both => nomatch both.1) (Traps.not_decodesTo illegal _)
  | trap traps illegal scanned =>
      obtain ⟨call, ret, scanned⟩ := scanned
      rw [scanned]
      exact iff_of_false (fun both => nomatch both.1) (Traps.not_decodesTo illegal _)

theorem agrees_branch : (scan cfg i).branch = true ↔
    (DecodesTo cfg pc i jumpAddress fun e => e.op ≠ .add ∧ e.op ≠ .jalr) ∨ ReservedBranch i := by
  rcases Classical.em (ReservedBranch i) with reserved | ordinary
  · exact iff_of_true reserved.scanned (.inr reserved)
  rw [or_iff_left ordinary]
  cases classified cfg pc i jumpAddress with
  | jump e found op legal self scanned =>
      rw [decodesTo_of_found found legal, scanned, op]
      exact iff_of_false nofun fun both => both.1 rfl
  | branch e found op legal scanned =>
      rw [decodesTo_of_found found legal, scanned]
      exact iff_of_true rfl op
  | registerJump e found op legal ret link scanned =>
      rw [decodesTo_of_found found legal, scanned, op]
      exact iff_of_false nofun fun both => both.2 rfl
  | other none_ scanned =>
      rw [scanned]
      exact iff_of_false nofun ((traps_of_none none_).not_decodesTo _)
  | reservedBranch reserved => exact absurd reserved ordinary
  | trap traps illegal scanned =>
      obtain ⟨call, ret, scanned⟩ := scanned
      rw [scanned]
      exact iff_of_false nofun (Traps.not_decodesTo illegal _)

theorem agrees_registerJump : (scan cfg i).registerJump = true ↔
    (DecodesTo cfg pc i jumpAddress fun e => e.op = .jalr) ∨ TrapsAsJump i := by
  by_cases trap : TrapsAsJump i
  · exact iff_of_true trap.scanned (.inr trap)
  rw [or_iff_left trap]
  cases classified cfg pc i jumpAddress with
  | jump e found op legal self scanned =>
      rw [decodesTo_of_found found legal, scanned, op]
      exact iff_of_false nofun nofun
  | branch e found op legal scanned =>
      rw [decodesTo_of_found found legal, scanned]
      exact iff_of_false nofun op.2
  | registerJump e found op legal ret link scanned =>
      rw [decodesTo_of_found found legal, scanned]
      exact iff_of_true rfl op
  | other none_ scanned =>
      rw [scanned]
      exact iff_of_false nofun ((traps_of_none none_).not_decodesTo _)
  | reservedBranch reserved illegal scanned =>
      rw [scanned]
      exact iff_of_false nofun (Traps.not_decodesTo illegal _)
  | trap traps => exact absurd traps trap

theorem agrees_call (call : (scan cfg i).call = true) :
    (DecodesTo cfg pc i jumpAddress fun e => isLink e.rd = true) ∨ TrapsAsJump i := by
  cases classified cfg pc i jumpAddress with
  | jump e found op legal self scanned =>
      rw [scanned] at call
      exact .inl ⟨e, found, legal, call⟩
  | branch e found op legal scanned =>
      rw [scanned] at call
      cases call
  | registerJump e found op legal ret link scanned =>
      rw [scanned] at call
      exact .inl ⟨e, found, legal, call⟩
  | other none_ scanned =>
      rw [scanned] at call
      cases call
  | reservedBranch reserved illegal scanned =>
      rw [scanned] at call
      cases call
  | trap traps => exact .inr traps

theorem agrees_ret (ret : (scan cfg i).ret = true) :
    (DecodesTo cfg pc i jumpAddress fun e => e.op = .jalr ∧ isLink e.rs1 = true) ∨
      TrapsAsJump i := by
  cases classified cfg pc i jumpAddress with
  | jump e found op legal self scanned =>
      rw [scanned] at ret
      cases ret
  | branch e found op legal scanned =>
      rw [scanned] at ret
      cases ret
  | registerJump e found op legal isReturn link scanned =>
      rw [scanned] at ret
      exact .inl ⟨e, found, legal, op, link ret⟩
  | other none_ scanned =>
      rw [scanned] at ret
      cases ret
  | reservedBranch reserved illegal scanned =>
      rw [scanned] at ret
      cases ret
  | trap traps => exact .inr traps

theorem agrees_imm {e : Entry cfg} (found : decoded cfg pc i jumpAddress = some e)
    (legal : e.illegalInstr = false) (direct : e.op ≠ .jalr) :
    scannedImm cfg i = e.result.setWidth cfg.vlen := by
  cases classified cfg pc i jumpAddress with
  | jump e' found' op legal' self scanned imm =>
      rw [found] at found'
      obtain rfl := Option.some.inj found'
      exact imm
  | branch e' found' op legal' scanned imm =>
      rw [found] at found'
      obtain rfl := Option.some.inj found'
      exact imm
  | registerJump e' found' op =>
      rw [found] at found'
      obtain rfl := Option.some.inj found'
      exact absurd op direct
  | other none_ =>
      rw [none_] at found
      cases found
  | reservedBranch reserved illegal =>
      rw [illegal e found] at legal
      cases legal
  | trap traps illegal =>
      rw [illegal e found] at legal
      cases legal

end Agreement

theorem predecode_agrees (cfg : IdCfg) (pc : BitVec cfg.vlen) (i jumpAddress : BitVec 32) :
    Agrees cfg pc i jumpAddress (ReservedBranch i) (TrapsAsJump i) ∧
      (ReservedBranch i ∨ TrapsAsJump i → Traps cfg pc i jumpAddress) :=
  ⟨⟨agrees_jump, agrees_branch, agrees_registerJump, agrees_call, agrees_ret,
    fun _ found legal direct => agrees_imm found legal direct⟩,
    fun either => either.elim ReservedBranch.traps TrapsAsJump.traps⟩

/-- A configuration with 64-bit registers. -/
def rv64 : IdCfg := ⟨true, 64, true, true, true, false, false, true, by decide⟩

/-- `c.ebreak` is scanned as a call and decodes to `ebreak`. -/
theorem predecode_ebreak : ¬Agrees rv64 0 0x9002 0 False False := by
  intro agrees
  have jump : (scan rv64 0x9002).registerJump = true := by decide
  rcases agrees.registerJump.mp jump with decodes | trap
  · exact Traps.not_decodesTo (TrapsAsJump.traps (.ebreak (by decide))) _ decodes
  · exact trap

end Cva6.InstrScan
