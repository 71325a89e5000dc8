import RiscvCores.Cva6.Alu
import RiscvCores.Cva6.IssueReadOperands
import RiscvCores.Cva6.MultRuns

/-!
# The fixed-latency units and their write-back port

`ex_stage` lets the arithmetic unit, the branch unit, the CSR buffer and the multiplication
unit share one write-back port, over which a result can be lost: the result of a branch hides
behind a product, and a product behind every other result.  It is the structural hazards of
`issue_read_operands` that keep two results from meeting there.
-/

set_option autoImplicit false

namespace Cva6

/-- The configuration of the core and of its arithmetic units. -/
structure ExCfg extends CoreCfg where
  xlen_eq : xlen = 32 ∨ xlen = 64
  rvb : Bool
  zkn : Bool
  rvZiCond : Bool

/-- The configuration of the arithmetic unit; `HasBranch` is 1. -/
@[reducible] def ExCfg.alu (cfg : ExCfg) : AluCfg :=
  ⟨cfg.xlen, cfg.xlen_eq, cfg.rvb, cfg.zkn, cfg.rvZiCond, true⟩

/-- The configuration of the multiplication unit. -/
@[reducible] def ExCfg.mult (cfg : ExCfg) : Mult.MultCfg := ⟨cfg.xlen, cfg.xlen_eq, cfg.rvb⟩

namespace FixedLatencyUnit

open IssueReadOperands (Slot FuData UnitValid validN anyMult fuBusy fusBusy fusBusy0 fusBusy1
  issueAck issueAckO)

variable {cfg : ExCfg}

structure State (cfg : ExCfg) where
  operands : IssueReadOperands.State cfg.toCoreCfg
  mult : Mult.State cfg.mult (Slot cfg.toCoreCfg)
  /-- `csr_reg_q.valid` -/
  csrValid : Bool

structure Input (cfg : ExCfg) where
  /-- The issue stage; `fluReady` is driven by the units. -/
  issue : IssueReadOperands.Input cfg.toCoreCfg
  /-- `flush_i` of `ex_stage` -/
  flush : Bool
  csrCommit : Bool
  /-- `branch_result_o`, extended -/
  branchResult : BitVec cfg.xlen

section Wiring

variable (s : State cfg) (i : Input cfg)

/-- `one_cycle_select[k]` -/
def oneCycleSelect (k : Nat) : Bool :=
  (s.operands.valid k).alu || (s.operands.valid k).branch || (s.operands.valid k).csr

/-- An issue port satisfies `p`. -/
def anyPort (cfg : ExCfg) (p : Nat → Bool) : Bool := (List.range cfg.nrIssuePorts).any p

/-- The data of the ports under `select`, port 1 over port 0. -/
def selectData (select : Nat → Bool) : FuData cfg.toCoreCfg :=
  if cfg.superscalarEn && select 1 then s.operands.fuData 1
  else if select 0 then s.operands.fuData 0
  else
    { fu := .none, operation := .add, operandA := 0, operandB := 0, imm := 0, transId := 0 }

/-- `one_cycle_data` -/
def oneCycleData : FuData cfg.toCoreCfg := selectData s (oneCycleSelect s)

/-- `mult_data` -/
def multData : FuData cfg.toCoreCfg := selectData s fun k => (s.operands.valid k).mult

/-- What the multiplication unit reads of `fu_data_t`. -/
def toMult (data : FuData cfg.toCoreCfg) : Mult.FuData cfg.mult (Slot cfg.toCoreCfg) :=
  ⟨data.operation, data.operandA, data.operandB, data.transId⟩

def multIn : Mult.Input cfg.mult (Slot cfg.toCoreCfg) :=
  ⟨i.flush, anyMult s.operands, toMult (multData s)⟩

/-- `alu_result` -/
def aluResult : BitVec cfg.xlen :=
  let data := oneCycleData s
  Alu.result cfg.alu data.operation data.operandA data.operandB

/-- `csr_result` -/
def csrResult : BitVec cfg.xlen := (oneCycleData s).operandA

/-- `|alu_valid_i`, `|branch_valid_i` and `|csr_valid_i` -/
def anyAlu : Bool := anyPort cfg fun k => (s.operands.valid k).alu

def anyCsr : Bool := anyPort cfg fun k => (s.operands.valid k).csr

def multValid : Bool := Mult.multValidO s.mult (multIn s i)

/-- `csr_ready_o` -/
def csrReady : Bool := !((s.csrValid || anyCsr s) && !i.csrCommit)

/-- `flu_ready_o` -/
def fluReady : Bool := csrReady s i && Mult.multReadyO s.mult (multIn s i)

/-- `flu_valid_o` -/
def fluValid : Bool := anyPort cfg (oneCycleSelect s) || multValid s i

/-- `flu_result_o` -/
def fluResult : BitVec cfg.xlen :=
  if anyAlu s then aluResult s
  else if anyCsr s then csrResult s
  else if multValid s i then Mult.resultO s.mult
  else i.branchResult

/-- `flu_trans_id_o` -/
def fluTransId : Slot cfg.toCoreCfg :=
  if anyAlu s then (oneCycleData s).transId
  else if anyCsr s then (oneCycleData s).transId
  else if multValid s i then Mult.multTransIdO s.mult
  else (oneCycleData s).transId

/-- The issue stage sees the ready flag of the units. -/
def issueIn : IssueReadOperands.Input cfg.toCoreCfg := { i.issue with fluReady := fluReady s i }

def next : State cfg where
  operands := IssueReadOperands.next s.operands (issueIn s i)
  mult := Mult.next s.mult (multIn s i)
  csrValid :=
    if i.flush then false
    else if anyCsr s then true
    else if i.csrCommit then false
    else s.csrValid

end Wiring

def reset : State cfg where
  operands := IssueReadOperands.reset
  mult := Mult.reset 0
  csrValid := false

/-- What the decoder hands to the units: operations they have. -/
def Decoded (i : Input cfg) : Prop :=
  ∀ k, (i.issue.issueInstr k).ex.valid = false →
    ((i.issue.issueInstr k).fu = .alu → Alu.offers cfg.alu (i.issue.issueInstr k).op) ∧
      ((i.issue.issueInstr k).fu = .mult → Mult.offers cfg.mult (i.issue.issueInstr k).op)

def machine (cfg : ExCfg) : Clocked.Machine (State cfg) (Input cfg) where
  reset := reset
  next := next
  allowed _ _ i := Decoded i

/-! ## The hazards -/

section Hazards

variable {s : IssueReadOperands.State cfg.toCoreCfg}
  {i : IssueReadOperands.Input cfg.toCoreCfg} {k : Nat}

/-- What a valid bit of the next cycle says about the instruction. -/
structure Granted (s : IssueReadOperands.State cfg.toCoreCfg)
    (i : IssueReadOperands.Input cfg.toCoreCfg) (k : Nat) (fu : Fu) : Prop where
  unit : (i.issueInstr k).fu = fu
  noException : (i.issueInstr k).ex.valid = false
  free : fuBusy s i k = false

theorem free_of_ack (ack : issueAckO s i k = true) (notCvxif : (i.issueInstr k).fu ≠ .cvxif) :
    fuBusy s i k = false := by
  have granted : issueAck s i k = true := by
    unfold issueAckO at ack
    by_cases first : k = 0
    · subst first
      rw [if_pos rfl, IssueReadOperands.issueAck0] at ack
      simpa [notCvxif] using ack
    · rw [if_neg first, Bool.and_eq_true] at ack
      exact ack.1
  simp only [issueAck, Bool.and_eq_true, Bool.not_eq_true'] at granted
  exact granted.1.2

/-- The valid bits that an instruction of a functional unit sets. -/
def validOf (cfg : CoreCfg) (busy : IssueReadOperands.FusBusy) : Fu → UnitValid
  | .alu => if cfg.superscalarEn && !busy.alu2 then { alu2 := true } else { alu := true }
  | .ctrlFlow => { branch := true }
  | .mult => { mult := true }
  | .load | .store => { lsu := true }
  | .csr => { csr := true }
  | .cvxif => { cvxif := cfg.cvxifEn }
  | .none | .fpu | .fpuVec | .accel => {}

theorem validN_cases :
    validN s i k = {} ∨ (i.issueInstr k).ex.valid = false ∧ issueAckO s i k = true ∧
      validN s i k = validOf cfg.toCoreCfg (fusBusy s i k) (i.issueInstr k).fu := by
  by_cases taken : (!(i.issueInstr k).ex.valid && i.issueInstrValid k && issueAckO s i k &&
      !i.flush) = true
  · have parts := taken
    simp only [Bool.and_eq_true, Bool.not_eq_true'] at parts
    refine Or.inr ⟨parts.1.1.1, parts.1.2, ?_⟩
    simp only [validN, taken, if_true]
    cases (i.issueInstr k).fu <;> rfl
  · left
    simp [validN, taken]

/-- The valid bits that one functional unit has for itself. -/
theorem granted_of_validN (bit : UnitValid → Bool) (fu : Fu) (silent : bit {} = false)
    (own : ∀ busy other, bit (validOf cfg.toCoreCfg busy other) = true → other = fu)
    (notCvxif : fu ≠ .cvxif) (valid : bit (validN s i k) = true) :
    Granted s i k fu ∧ bit (validOf cfg.toCoreCfg (fusBusy s i k) fu) = true := by
  rcases @validN_cases cfg s i k with same | ⟨noException, ack, same⟩
  · rw [same, silent] at valid
    cases valid
  · rw [same] at valid
    have unit := own _ _ valid
    refine ⟨⟨unit, noException, free_of_ack ack (unit ▸ notCvxif)⟩, unit ▸ valid⟩

theorem validN_alu (valid : (validN s i k).alu = true) :
    Granted s i k .alu ∧ (cfg.superscalarEn && !(fusBusy s i k).alu2) = false := by
  obtain ⟨granted, own⟩ := granted_of_validN UnitValid.alu .alu rfl (by
    intro busy other set
    cases other <;> simp [validOf] at set ⊢) (by simp) valid
  refine ⟨granted, ?_⟩
  cases second : cfg.superscalarEn && !(fusBusy s i k).alu2 with
  | false => rfl
  | true =>
      rw [validOf, if_pos second] at own
      cases own

theorem validN_sole (valid : (validN s i k).alu = true) : (validN s i k).csr = false := by
  rcases @validN_cases cfg s i k with same | ⟨-, -, same⟩
  · rw [same]
  · obtain ⟨granted, notSecond⟩ := validN_alu valid
    rw [same, granted.unit, validOf, notSecond, if_neg Bool.false_ne_true]

theorem validN_branch (valid : (validN s i k).branch = true) : Granted s i k .ctrlFlow :=
  (granted_of_validN UnitValid.branch .ctrlFlow rfl (by
    intro busy other set
    cases other <;> simp [validOf] at set ⊢
    split at set <;> cases set) (by simp) valid).1

theorem validN_csr (valid : (validN s i k).csr = true) : Granted s i k .csr :=
  (granted_of_validN UnitValid.csr .csr rfl (by
    intro busy other set
    cases other <;> simp [validOf] at set ⊢
    split at set <;> cases set) (by simp) valid).1

theorem validN_mult (valid : (validN s i k).mult = true) : Granted s i k .mult :=
  (granted_of_validN UnitValid.mult .mult rfl (by
    intro busy other set
    cases other <;> simp [validOf] at set ⊢
    split at set <;> cases set) (by simp) valid).1

/-- Port 1 is never freer than port 0. -/
theorem busy_of_busy0 :
    ((fusBusy0 s i).alu = true → (fusBusy s i k).alu = true) ∧
      ((fusBusy0 s i).ctrlFlow = true → (fusBusy s i k).ctrlFlow = true) ∧
      ((fusBusy0 s i).csr = true → (fusBusy s i k).csr = true) ∧
      ((fusBusy0 s i).mult = true → (fusBusy s i k).mult = true) := by
  unfold fusBusy
  by_cases first : k = 0
  · rw [if_pos first]
    exact ⟨id, id, id, id⟩
  · rw [if_neg first]
    unfold fusBusy1
    cases (i.issueInstr 0).fu with
    | ctrlFlow =>
        by_cases speculates : cfg.speculativeSb = true <;>
          by_cases jal : ((i.issueInstr 0).op == .add) = true <;>
            simp [speculates, jal, IssueReadOperands.FusBusy.all]
    | alu =>
        by_cases other : (cfg.superscalarEn && !(fusBusy0 s i).alu2) = true <;> simp [other]
    | csr => simp [IssueReadOperands.FusBusy.all]
    | none | mult | fpu | fpuVec | load | store | cvxif | accel => simp

/-- The units of the write-back port are free only when they are ready and no multiplication
was put to them in this cycle. -/
theorem ready_of_free (free : (fusBusy s i k).alu = false ∨ (fusBusy s i k).ctrlFlow = false ∨
    (fusBusy s i k).csr = false) : i.fluReady = true ∧ anyMult s = false := by
  obtain ⟨alu, ctrlFlow, csr, -⟩ := @busy_of_busy0 cfg s i k
  have hazard : (!i.fluReady || anyMult s) = false := by
    cases busy : !i.fluReady || anyMult s with
    | false => rfl
    | true =>
        rw [alu busy, ctrlFlow busy, csr busy] at free
        simp at free
  simpa using hazard

theorem ready_of_free_mult (free : (fusBusy s i k).mult = false) : i.fluReady = true := by
  obtain ⟨-, -, -, mult⟩ := @busy_of_busy0 cfg s i k
  cases ready : i.fluReady with
  | true => rfl
  | false =>
      rw [mult (by simp [fusBusy0, ready])] at free
      cases free

/-- A port is granted a unit of the write-back port only in a quiet cycle. -/
theorem Granted.quiet {fu : Fu} (granted : Granted s i k fu)
    (oneCycle : fu = .alu ∧ (cfg.superscalarEn && !(fusBusy s i k).alu2) = false ∨
      fu = .ctrlFlow ∨ fu = .csr) : i.fluReady = true ∧ anyMult s = false := by
  have free := granted.free
  simp only [fuBusy, granted.unit] at free
  refine @ready_of_free cfg s i k ?_
  rcases oneCycle with ⟨rfl, notSecond⟩ | rfl | rfl
  · rw [notSecond, if_neg Bool.false_ne_true] at free
    exact Or.inl free
  · exact Or.inr (Or.inl free)
  · exact Or.inr (Or.inr free)

/-- The units that answer in the same cycle are started only in a quiet cycle. -/
theorem quiet_of_oneCycle (valid : ((validN s i k).alu || (validN s i k).branch ||
    (validN s i k).csr) = true) : i.fluReady = true ∧ anyMult s = false := by
  rw [Bool.or_eq_true, Bool.or_eq_true] at valid
  rcases valid with (alu | branch) | csr
  · obtain ⟨granted, notSecond⟩ := validN_alu alu
    exact granted.quiet (Or.inl ⟨rfl, notSecond⟩)
  · exact (validN_branch branch).quiet (Or.inr (Or.inl rfl))
  · exact (validN_csr csr).quiet (Or.inr (Or.inr rfl))

theorem ready_of_mult (valid : (validN s i k).mult = true) : i.fluReady = true := by
  have granted := validN_mult valid
  have free := granted.free
  simp only [fuBusy, granted.unit] at free
  exact ready_of_free_mult free

variable (s) in
/-- A control-flow or CSR instruction on port 0 keeps port 1 off the write-back port. -/
theorem busy1_of_control
    (control : (i.issueInstr 0).fu = .ctrlFlow ∨ (i.issueInstr 0).fu = .csr) :
    (fusBusy s i 1).alu = true ∧ (fusBusy s i 1).ctrlFlow = true ∧
      (fusBusy s i 1).csr = true := by
  rw [fusBusy, if_neg (by omega), fusBusy1]
  rcases control with unit | unit
  · rw [unit]
    by_cases speculates : cfg.speculativeSb = true <;>
      by_cases jal : ((i.issueInstr 0).op == .add) = true <;>
        simp [speculates, jal, IssueReadOperands.FusBusy.all]
  · rw [unit]
    simp [IssueReadOperands.FusBusy.all]

/-- At most one port starts a unit that answers in the same cycle. -/
theorem oneCycle_once (two : cfg.superscalarEn = true)
    (first : ((validN s i 0).alu || (validN s i 0).branch || (validN s i 0).csr) = true)
    (second : ((validN s i 1).alu || (validN s i 1).branch || (validN s i 1).csr) = true) :
    False := by
  have control : (i.issueInstr 0).fu = .ctrlFlow ∨ (i.issueInstr 0).fu = .csr := by
    rw [Bool.or_eq_true, Bool.or_eq_true] at first
    rcases first with (alu | branch) | csr
    · have notSecond := (validN_alu alu).2
      simp [two, fusBusy, fusBusy0] at notSecond
    · exact Or.inl (validN_branch branch).unit
    · exact Or.inr (validN_csr csr).unit
  obtain ⟨alu', ctrlFlow', csr'⟩ := busy1_of_control s control
  rw [Bool.or_eq_true, Bool.or_eq_true] at second
  rcases second with (alu | branch) | csr
  · obtain ⟨granted, notSecond⟩ := validN_alu alu
    have free := granted.free
    simp [fuBusy, granted.unit, notSecond, alu'] at free
  · have granted := validN_branch branch
    have free := granted.free
    simp [fuBusy, granted.unit, ctrlFlow'] at free
  · have granted := validN_csr csr
    have free := granted.free
    simp [fuBusy, granted.unit, csr'] at free

theorem mult_once (first : (validN s i 0).mult = true) (second : (validN s i 1).mult = true) :
    False := by
  have granted := validN_mult first
  have free := (validN_mult second).free
  simp [fuBusy, (validN_mult second).unit, fusBusy, fusBusy1, granted.unit] at free

end Hazards

/-! ## The write-back port -/

section Port

variable {s : State cfg} {i : Input cfg} {cycles : List (State cfg × Input cfg)}

/-- The cycles of the multiplication unit. -/
def multCycles (cycles : List (State cfg × Input cfg)) :
    List (Mult.State cfg.mult (Slot cfg.toCoreCfg) ×
      Mult.Input cfg.mult (Slot cfg.toCoreCfg)) :=
  cycles.map fun now => (now.1.mult, multIn now.1 now.2)

/-- What holds in every reachable state: the valid bits of the units fit together, and the
multiplication unit is served as it needs. -/
structure Inv (cycles : List (State cfg × Input cfg)) (s : State cfg) : Prop where
  /-- No product or quotient is there beside a result of the same cycle. -/
  apart : ∀ k, oneCycleSelect s k = true →
    s.mult.div.outVld = false ∧ s.mult.multiplier.multValid = false
  oneCycle : cfg.superscalarEn = true →
    oneCycleSelect s 0 = true → oneCycleSelect s 1 = true → False
  product : (s.operands.valid 0).mult = true → (s.operands.valid 1).mult = true → False
  sole : ∀ k, (s.operands.valid k).alu = true → (s.operands.valid k).csr = false
  alu : ∀ k, (s.operands.valid k).alu = true →
    Alu.offers cfg.alu (s.operands.fuData k).operation
  mult : ∀ k, (s.operands.valid k).mult = true →
    Mult.offers cfg.mult (s.operands.fuData k).operation
  ready : ∀ k, (s.operands.valid k).mult = true → ∀ now ∈ cycles.getLast?,
    Mult.multReadyO now.1.mult (multIn now.1 now.2) = true
  run : (Mult.machine cfg.mult 0).Run (multCycles cycles) s.mult

/-- The port that a unit selects. -/
theorem selectData_eq {select : Nat → Bool} {k : Nat} (port : k < cfg.nrIssuePorts)
    (set : select k = true)
    (once : cfg.superscalarEn = true → select 0 = true → select 1 = true → False) :
    selectData s select = s.operands.fuData k := by
  have ports := cfg.issuePorts
  unfold selectData
  cases two : cfg.superscalarEn with
  | false =>
      rw [two, if_neg Bool.false_ne_true] at ports
      obtain rfl : k = 0 := by omega
      simp [set]
  | true =>
      rw [two, if_pos rfl] at ports
      obtain rfl | rfl : k = 0 ∨ k = 1 := by omega
      · have other : select 1 = false := by
          cases both : select 1 with
          | false => rfl
          | true => exact (once two set both).elim
        simp [set, other]
      · simp [set]

theorem exists_of_anyMult (product : anyMult s.operands = true) :
    ∃ k, k < cfg.nrIssuePorts ∧ (s.operands.valid k).mult = true := by
  simpa [anyMult] using product

theorem Inv.multData_eq (inv : Inv cycles s) {k : Nat} (port : k < cfg.nrIssuePorts)
    (set : (s.operands.valid k).mult = true) : multData s = s.operands.fuData k :=
  selectData_eq port set fun _ => inv.product

theorem Inv.issued (inv : Inv cycles s) (i : Input cfg) :
    Mult.Issued (multCycles cycles) (multIn s i) := by
  intro valid
  obtain ⟨k, port, set⟩ := exists_of_anyMult valid
  refine ⟨?_, ?_⟩
  · have offered := inv.mult k set
    rwa [← inv.multData_eq port set] at offered
  · intro _ now last
    simp only [multCycles, List.getLast?_map, Option.mem_def, Option.map_eq_some_iff] at last
    obtain ⟨before, last, rfl⟩ := last
    exact inv.ready k set before last

theorem Inv.next (inv : Inv cycles s) (decoded : Decoded i) :
    Inv (cycles ++ [(s, i)]) (next s i) := by
  refine
    { apart := ?_, oneCycle := ?_, product := ?_, sole := ?_, alu := ?_, mult := ?_,
      ready := ?_, run := ?_ }
  · intro k valid
    obtain ⟨ready, noProduct⟩ := quiet_of_oneCycle valid
    have free : fluReady s i = true := ready
    rw [fluReady, Bool.and_eq_true] at free
    have idle := Mult.idle_of_ready free.2
    have nothing : (multIn s i).multValid = false := noProduct
    refine ⟨?_, ?_⟩
    · show Serdiv.Regs.outVld (Mult.next s.mult (multIn s i)).div = false
      simp [Serdiv.Regs.outVld, idle]
    · simp [FixedLatencyUnit.next, Mult.next, Mult.Multiplier.next, Mult.mulValidOp, nothing]
  · intro two first second
    exact oneCycle_once two first second
  · intro first second
    exact mult_once first second
  · intro k valid
    exact validN_sole valid
  · intro k valid
    have granted := (validN_alu valid).1
    exact (decoded k granted.noException).1 granted.unit
  · intro k valid
    have granted := validN_mult valid
    exact (decoded k granted.noException).2 granted.unit
  · intro k valid now last
    have ready : fluReady s i = true := ready_of_mult valid
    rw [List.getLast?_concat, Option.mem_some_iff] at last
    subst last
    rw [fluReady, Bool.and_eq_true] at ready
    exact ready.2
  · have last : multCycles (cycles ++ [(s, i)]) =
        multCycles cycles ++ [(s.mult, multIn s i)] := by simp [multCycles]
    rw [last]
    exact inv.run.cycle (inv.issued i)

/-- The value of an instruction of a unit that answers in the same cycle. -/
def value (s : State cfg) (i : Input cfg) (k : Nat) : BitVec cfg.xlen :=
  let data := s.operands.fuData k
  if (s.operands.valid k).alu then Alu.meaning data.operation data.operandA data.operandB
  else if (s.operands.valid k).csr then data.operandA
  else i.branchResult

/-- The answers due in the cycle itself. -/
def oneCycleOutcomes (s : State cfg) (i : Input cfg) :
    List (Slot cfg.toCoreCfg × BitVec cfg.xlen) :=
  (List.range cfg.nrIssuePorts).filterMap fun k =>
    if oneCycleSelect s k then some ((s.operands.fuData k).transId, value s i k) else none

/-- What the port shows. -/
def written (s : State cfg) (i : Input cfg) : List (Slot cfg.toCoreCfg × BitVec cfg.xlen) :=
  if fluValid s i then [(fluTransId s i, fluResult s i)] else []

/-- What the multiplication unit shows. -/
def multAnswer (s : State cfg) (i : Input cfg) :
    List (Slot cfg.toCoreCfg × BitVec cfg.xlen) :=
  if multValid s i then [(Mult.multTransIdO s.mult, Mult.resultO s.mult)] else []

theorem Inv.oneCycleOutcomes_eq (inv : Inv cycles s) (i : Input cfg) {k : Nat}
    (port : k < cfg.nrIssuePorts) (set : oneCycleSelect s k = true) :
    oneCycleOutcomes s i = [((s.operands.fuData k).transId, value s i k)] := by
  have ports := cfg.issuePorts
  unfold oneCycleOutcomes
  cases two : cfg.superscalarEn with
  | false =>
      rw [two, if_neg Bool.false_ne_true] at ports
      obtain rfl : k = 0 := by omega
      simp [ports, List.range_succ, set]
  | true =>
      rw [two, if_pos rfl] at ports
      have apart := inv.oneCycle two
      obtain rfl | rfl : k = 0 ∨ k = 1 := by omega
      · have other : oneCycleSelect s 1 = false := by
          cases both : oneCycleSelect s 1 with
          | false => rfl
          | true => exact (apart set both).elim
        simp [ports, List.range_succ, set, other]
      · have other : oneCycleSelect s 0 = false := by
          cases both : oneCycleSelect s 0 with
          | false => rfl
          | true => exact (apart both set).elim
        simp [ports, List.range_succ, set, other]

theorem Inv.sole_port (inv : Inv cycles s) {j k : Nat} (portJ : j < cfg.nrIssuePorts)
    (portK : k < cfg.nrIssuePorts) (setJ : oneCycleSelect s j = true)
    (setK : oneCycleSelect s k = true) : j = k := by
  have ports := cfg.issuePorts
  cases two : cfg.superscalarEn with
  | false =>
      rw [two, if_neg Bool.false_ne_true] at ports
      omega
  | true =>
      rw [two, if_pos rfl] at ports
      by_contra apart
      obtain ⟨rfl, rfl⟩ | ⟨rfl, rfl⟩ : j = 0 ∧ k = 1 ∨ j = 1 ∧ k = 0 := by omega
      · exact inv.oneCycle two setJ setK
      · exact inv.oneCycle two setK setJ

/-- With one unit started, what holds of some port holds of its port. -/
theorem Inv.anyPort_eq (inv : Inv cycles s) {k : Nat} (port : k < cfg.nrIssuePorts)
    (set : oneCycleSelect s k = true) (p : Nat → Bool)
    (covers : ∀ j, p j = true → oneCycleSelect s j = true) :
    anyPort cfg p = p k := by
  rw [Bool.eq_iff_iff, anyPort, List.any_eq_true]
  constructor
  · rintro ⟨j, member, holds⟩
    have same := inv.sole_port (List.mem_range.mp member) port (covers j holds) set
    rwa [same] at holds
  · intro holds
    exact ⟨k, List.mem_range.mpr port, holds⟩

/-- The port shows the answers due in the cycle, and otherwise the multiplication unit's. -/
theorem Inv.written_eq (inv : Inv cycles s) (i : Input cfg) :
    written s i = oneCycleOutcomes s i ++ multAnswer s i := by
  by_cases some : ∃ k, k < cfg.nrIssuePorts ∧ oneCycleSelect s k = true
  · obtain ⟨k, port, set⟩ := some
    obtain ⟨noQuotient, noProduct⟩ := inv.apart k set
    have quiet : multValid s i = false := by
      simp [multValid, Mult.multValidO, Mult.divCtrl_outVld, noQuotient, noProduct]
    have data : oneCycleData s = s.operands.fuData k := selectData_eq port set inv.oneCycle
    have valid : fluValid s i = true := by
      rw [fluValid, inv.anyPort_eq port set (oneCycleSelect s) fun _ => id, set]
      rfl
    have alu : anyAlu s = (s.operands.valid k).alu :=
      inv.anyPort_eq port set (fun k => (s.operands.valid k).alu) fun j on => by
        simp [oneCycleSelect, on]
    have csr : anyCsr s = (s.operands.valid k).csr :=
      inv.anyPort_eq port set (fun k => (s.operands.valid k).csr) fun j on => by
        simp [oneCycleSelect, on]
    rw [inv.oneCycleOutcomes_eq i port set, written, if_pos valid, multAnswer, quiet,
      if_neg Bool.false_ne_true, List.append_nil, fluTransId, fluResult, value, alu, csr, quiet,
      aluResult, csrResult, data]
    cases isAlu : (s.operands.valid k).alu with
    | true =>
        have computed := @Alu.result_eq_meaning cfg.alu _ (s.operands.fuData k).operandA
          (s.operands.fuData k).operandB (inv.alu k isAlu)
        simp [computed]
    | false => cases (s.operands.valid k).csr <;> simp
  · have none : ∀ p : Nat → Bool, (∀ j, p j = true → oneCycleSelect s j = true) →
        anyPort cfg p = false := by
      intro p covers
      rw [Bool.eq_false_iff, anyPort, ne_eq, List.any_eq_true]
      rintro ⟨j, member, holds⟩
      exact some ⟨j, List.mem_range.mp member, covers j holds⟩
    have alu : anyAlu s = false := none _ fun j on => by simp [oneCycleSelect, on]
    have csr : anyCsr s = false := none _ fun j on => by simp [oneCycleSelect, on]
    have nothing : oneCycleOutcomes s i = [] := by
      rw [oneCycleOutcomes, List.filterMap_eq_nil_iff]
      intro k member
      rw [if_neg fun set => some ⟨k, List.mem_range.mp member, set⟩]
    rw [nothing, written, multAnswer, fluValid, none _ fun _ => id, Bool.false_or, fluTransId,
      fluResult, alu, csr]
    cases multValid s i <;> simp

/-! ## The ledger -/

/-- The answers that the instructions started since the last flush have to get. -/
noncomputable def started (cycles : List (State cfg × Input cfg)) :
    List (Slot cfg.toCoreCfg × BitVec cfg.xlen) :=
  cycles.foldl (fun due now =>
    if now.2.flush then []
    else due ++ (oneCycleOutcomes now.1 now.2 ++
      if anyMult now.1.operands then [Mult.outcome (toMult (multData now.1))] else [])) []

/-- What the port showed since the last flush. -/
def answered (cycles : List (State cfg × Input cfg)) :
    List (Slot cfg.toCoreCfg × BitVec cfg.xlen) :=
  cycles.foldl (fun given now =>
    if now.2.flush then [] else given ++ written now.1 now.2) []

/-- The answers due in the cycle itself, since the last flush. -/
def oneCycles (cycles : List (State cfg × Input cfg)) :
    List (Slot cfg.toCoreCfg × BitVec cfg.xlen) :=
  cycles.foldl (fun due now =>
    if now.2.flush then [] else due ++ oneCycleOutcomes now.1 now.2) []

theorem inv_of_run (run : (machine cfg).Run cycles s) : Inv cycles s := by
  apply run.invariant Inv
  · refine
      { apart := ?_, oneCycle := ?_, product := ?_, sole := ?_, alu := ?_, mult := ?_,
        ready := ?_, run := .reset }
    all_goals simp [machine, reset, IssueReadOperands.reset, oneCycleSelect]
  · intro cycles s i _ inv decoded
    exact inv.next decoded

theorem interleave {α : Type} (a b c d : List α) :
    (a ++ b ++ (c ++ d)).Perm (a ++ c ++ (b ++ d)) := by
  rw [List.append_assoc, List.append_assoc]
  exact (List.perm_append_comm_assoc b c d).append_left a

theorem split_of_run (run : (machine cfg).Run cycles s) :
    (answered cycles).Perm (oneCycles cycles ++ Mult.answered (multCycles cycles)) ∧
      (started cycles).Perm
        (oneCycles cycles ++ (Mult.accepted (multCycles cycles)).map Mult.outcome) := by
  induction run with
  | reset => exact ⟨List.Perm.refl _, List.Perm.refl _⟩
  | @cycle cycles s i run _ ih =>
      obtain ⟨given, due⟩ := ih
      have shown := (inv_of_run run).written_eq i
      have last : multCycles (cycles ++ [(s, i)]) =
          multCycles cycles ++ [(s.mult, multIn s i)] := by simp [multCycles]
      have given' : answered (cycles ++ [(s, i)]) =
          if i.flush then [] else answered cycles ++ written s i := by simp [answered]
      have due' : started (cycles ++ [(s, i)]) =
          if i.flush then []
          else started cycles ++ (oneCycleOutcomes s i ++
            if anyMult s.operands then [Mult.outcome (toMult (multData s))] else []) := by
        simp [started]
      have now : oneCycles (cycles ++ [(s, i)]) =
          if i.flush then [] else oneCycles cycles ++ oneCycleOutcomes s i := by
        simp [oneCycles]
      have same : (multIn s i).flush = i.flush := rfl
      rw [last, given', due', now, Mult.answered_concat, Mult.accepted_concat, same]
      cases i.flush with
      | true => exact ⟨List.Perm.refl _, List.Perm.refl _⟩
      | false =>
          simp only [Bool.false_eq_true, if_false, shown, List.map_append]
          refine ⟨(given.append_right _).trans (interleave _ _ _ _), ?_⟩
          refine (due.append_right _).trans ((interleave _ _ _ _).trans ?_)
          have valid : (multIn s i).multValid = anyMult s.operands := rfl
          rw [valid]
          cases anyMult s.operands <;> exact List.Perm.refl _

/-- What the units did with their instructions up to a state, and what the port shows. -/
structure Serves (cycles : List (State cfg × Input cfg)) (s : State cfg) : Prop where
  /-- Since the last flush every instruction was answered once, under its own transaction id
  and with its own value, or is under way in the multiplication unit. -/
  ledger : (answered cycles ++ (Mult.pending (multCycles cycles)).map Mult.outcome).Perm
    (started cycles)
  /-- No result of the cycle itself meets another one or one of the multiplication unit. -/
  alone : ∀ i : Input cfg, (oneCycleOutcomes s i).length + (multAnswer s i).length ≤ 1
  port : ∀ i : Input cfg, written s i = oneCycleOutcomes s i ++ multAnswer s i

theorem writes_back_each (run : (machine cfg).Run cycles s) : Serves cycles s := by
  have inv := inv_of_run run
  obtain ⟨given, due⟩ := split_of_run run
  refine ⟨?_, ?_, fun i => inv.written_eq i⟩
  · have units := (Mult.inv_of_run inv.run).ledger
    calc answered cycles ++ (Mult.pending (multCycles cycles)).map Mult.outcome
        |>.Perm (oneCycles cycles ++ Mult.answered (multCycles cycles) ++
          (Mult.pending (multCycles cycles)).map Mult.outcome) := given.append_right _
      _ |>.Perm (oneCycles cycles ++ (Mult.accepted (multCycles cycles)).map Mult.outcome) := by
        rw [List.append_assoc]
        exact units.append_left _
      _ |>.Perm (started cycles) := due.symm
  · intro i
    have lengths := congrArg List.length (inv.written_eq i)
    rw [List.length_append] at lengths
    rw [← lengths, written]
    split <;> simp

end Port

section Example

theorem width32 : 32 = 32 ∨ 32 = 64 := .inl rfl

theorem single_port : 1 = if false = true then 2 else 1 := rfl

/-- One issue port, 32 bits. -/
def scalar32 : ExCfg where
  xlen := 32
  vlen := 32
  transIdBits := 2
  nrIssuePorts := 1
  nrCommitPorts := 2
  nrWbPorts := 2
  fpPresent := false
  debugEn := false
  speculativeSb := false
  superscalarEn := false
  rva := false
  rvs := false
  rvh := false
  rvzcmp := false
  cvxifEn := false
  dcacheWb := false
  issuePorts := single_port
  commitPorts := CoreCfg.two_ports
  someEntries := Nat.two_pos
  xlen_eq := width32
  rvb := false
  zkn := false
  rvZiCond := false

/-- One instruction is offered on port 0. -/
def offering (valid : Bool) (instr : CommitStage.Instr scalar32.toCoreCfg) : Input scalar32 where
  issue :=
    { flush := false, stall := false, issueInstr := fun _ => instr
      issueInstrValid := fun k => valid && k == 0, stillIssued := fun _ => false
      sbe := fun _ => {}, wb := fun _ => { wtValid := false, transId := 0 }, fluReady := false
      lsuReady := true, xIssueReady := false, xAccept := false, xWriteback := false
      xRegisterRead := fun _ => false, weGpr := fun _ => false, waddr := fun _ => 0
      wdata := fun _ => 0 }
  flush := false
  csrCommit := false
  branchResult := 0

/-- 7 / 2 under id 1, then 7 + 2 under id 2, which waits for the divider. -/
def divideThenAdd : List (Input scalar32) :=
  let divide := offering true
    { fu := .mult, op := .divu, rs1 := 7, useZimm := true, result := 2, useImm := true
      transId := 1, rd := 1 }
  let add := offering true
    { fu := .alu, op := .add, rs1 := 7, useZimm := true, result := 2, useImm := true
      transId := 2, rd := 2 }
  [divide, add, add, add, add, add, offering false {}]

theorem decoded_offering (valid : Bool) {instr : CommitStage.Instr scalar32.toCoreCfg}
    (alu : instr.fu = .alu → instr.op = .add) (mult : instr.fu = .mult → instr.op = .divu) :
    Decoded (offering valid instr) := by
  intro k _
  refine ⟨fun unit => .inl ?_, fun unit => .inl ?_⟩
  · rw [show ((offering valid instr).issue.issueInstr k).op = .add from alu unit]
    decide
  · rw [show ((offering valid instr).issue.issueInstr k).op = .divu from mult unit]
    decide

theorem accepts_divideThenAdd : (machine scalar32).Accepts [] reset divideThenAdd := by
  refine ⟨?_, ?_, ?_, ?_, ?_, ?_, ?_, trivial⟩
  all_goals exact decoded_offering _ (by decide) (by decide)

theorem writes_back_each_divideThenAdd :
    let m := machine scalar32
    Serves (m.cyclesOf m.reset divideThenAdd) (m.after m.reset divideThenAdd) ∧
      answered (m.cyclesOf m.reset divideThenAdd) = [(1, 3), (2, 9)] := by
  intro m
  exact ⟨writes_back_each (Clocked.Machine.run_of_accepts _ accepts_divideThenAdd),
    by decide +kernel⟩

end Example

end FixedLatencyUnit

end Cva6
