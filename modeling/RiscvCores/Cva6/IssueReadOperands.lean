import Mathlib.Logic.Function.Basic
import RiscvCores.CommonCells.RrArbTree
import RiscvCores.Cva6.CommitStage

/-!
# Hazards, operand reads and forwarding

`issue_read_operands` with `FpPresent` 0, which its assertions demand of a superscalar
core, and the flip-flop register file.  Ports are numbers; port 1 is read with
`SuperscalarEn` only.
-/

set_option autoImplicit false

namespace Cva6.IssueReadOperands

open CommonCells CommitStage

variable {cfg : CoreCfg}

abbrev Slot (cfg : CoreCfg) : Type := TransId cfg.toBackendCfg

/-- `fu_data_t` -/
structure FuData (cfg : CoreCfg) where
  fu : Fu
  operation : FuOp
  operandA : BitVec cfg.xlen
  operandB : BitVec cfg.xlen
  imm : BitVec cfg.xlen
  transId : Slot cfg

/-- The valid bits of the functional units for one port. -/
structure UnitValid where
  alu : Bool := false
  alu2 : Bool := false
  mult : Bool := false
  lsu : Bool := false
  csr : Bool := false
  branch : Bool := false
  cvxif : Bool := false

structure State (cfg : CoreCfg) where
  valid : Nat → UnitValid
  fuData : Nat → FuData cfg
  /-- The register file. -/
  gpr : BitVec 5 → BitVec cfg.xlen

structure Input (cfg : CoreCfg) where
  flush : Bool
  stall : Bool
  issueInstr : Nat → Instr cfg
  issueInstrValid : Nat → Bool
  stillIssued : Slot cfg → Bool
  sbe : Slot cfg → Instr cfg
  wb : Fin cfg.nrWbPorts → Scoreboard.WbPort cfg.toBackendCfg
  fluReady : Bool
  lsuReady : Bool
  xIssueReady : Bool
  /-- `accept`, `writeback` and `register_read` of `x_issue_resp_i`. -/
  xAccept : Bool
  xWriteback : Bool
  xRegisterRead : Nat → Bool
  weGpr : Nat → Bool
  waddr : Nat → BitVec 5
  wdata : Nat → BitVec cfg.xlen

section Hazards

variable (s : State cfg) (i : Input cfg)

/-! ## Structural hazards -/

/-- `fus_busy[i]` -/
structure FusBusy where
  none : Bool := false
  load : Bool := false
  store : Bool := false
  alu : Bool := false
  alu2 : Bool := false
  ctrlFlow : Bool := false
  mult : Bool := false
  csr : Bool := false
  fpu : Bool := false
  fpuVec : Bool := false
  cvxif : Bool := false

def FusBusy.all : FusBusy :=
  ⟨true, true, true, true, true, true, true, true, true, true, true⟩

/-- `|mult_valid_q` -/
def anyMult : Bool := (List.range cfg.nrIssuePorts).any fun k => (s.valid k).mult

def fusBusy0 : FusBusy where
  alu := !i.fluReady || anyMult s
  ctrlFlow := !i.fluReady || anyMult s
  csr := !i.fluReady || anyMult s
  mult := !i.fluReady
  load := !i.lsuReady
  store := !i.lsuReady

/-- What port 0 leaves to port 1. -/
def fusBusy1 : FusBusy :=
  let busy := { fusBusy0 s i with csr := true, cvxif := true }
  match (i.issueInstr 0).fu with
  | .none => { busy with none := true }
  | .ctrlFlow =>
      if cfg.speculativeSb then
        { busy with alu := true, ctrlFlow := true, csr := true, load := true, store := true }
      else if (i.issueInstr 0).op == .add then
        { busy with alu := true, ctrlFlow := true, csr := true }
      else .all
  | .alu =>
      if cfg.superscalarEn && !(fusBusy0 s i).alu2 then
        { busy with alu2 := true, fpu := true, fpuVec := true }
      else { busy with alu := true, ctrlFlow := true, csr := true }
  | .csr => .all
  | .mult => { busy with mult := true }
  | .fpu | .fpuVec => { busy with fpu := true, fpuVec := true }
  | .load | .store => { busy with load := true, store := true }
  | .cvxif | .accel => busy

def fusBusy (k : Nat) : FusBusy := if k = 0 then fusBusy0 s i else fusBusy1 s i

/-- `fu_busy[k]` -/
def fuBusy (k : Nat) : Bool :=
  let busy := fusBusy s i k
  match (i.issueInstr k).fu with
  | .none => busy.none
  | .alu => if cfg.superscalarEn && !busy.alu2 then busy.alu2 else busy.alu
  | .ctrlFlow => busy.ctrlFlow
  | .csr => busy.csr
  | .mult => busy.mult
  | .load => busy.load
  | .store => busy.store
  | .cvxif => busy.cvxif
  | .fpu | .fpuVec | .accel => false

/-! ## Clobbered registers -/

/-- `gpr_clobber_vld[reg][k]` -/
def gprClobberVld (reg : BitVec 5) (k : Nat) : Bool :=
  if reg = 0 then false
  else if inside : k < cfg.nrSbEntries then
    (i.sbe ⟨k, inside⟩).rd == reg && i.stillIssued ⟨k, inside⟩
  else k == cfg.nrSbEntries

/-- `clobber_fu[k]` -/
def clobberFu (k : Nat) : Fu :=
  if inside : k < cfg.nrSbEntries then (i.sbe ⟨k, inside⟩).fu else .none

/-- `rd_clobber_gpr[reg]` -/
def rdClobberGpr (reg : BitVec 5) : Fu :=
  (rrArbTree (cfg.nrSbEntries + 1) (gprClobberVld i reg) (clobberFu i) .none).data

/-! ## Forwarding -/

/-- What requests to be forwarded: a write-back port or an entry. -/
def source (k : Nat) : Option (Slot cfg × BitVec cfg.xlen × Bool) :=
  if port : k < cfg.nrWbPorts then
    let wb := i.wb ⟨k, port⟩
    some (wb.transId, wb.wbdata, wb.wtValid && !wb.ex.valid)
  else if entry : k - cfg.nrWbPorts < cfg.nrSbEntries then
    let sbe := i.sbe ⟨k - cfg.nrWbPorts, entry⟩
    some (⟨k - cfg.nrWbPorts, entry⟩, sbe.result, sbe.valid)
  else none

/-- `rs1_fwd_req[port][k]` and `rs2_fwd_req[port][k]` for a port that reads `rs`. -/
def fwdReq (rs : BitVec 5) (k : Nat) : Bool :=
  match source i k with
  | some (slot, _, ready) => (i.sbe slot).rd == rs && i.stillIssued slot && ready
  | none => false

/-- `rs_data[port][k]` -/
def rsData (k : Nat) : BitVec cfg.xlen :=
  match source i k with
  | some (_, data, _) => data
  | none => 0

/-- `i_sel_rs1` and `i_sel_rs2`. -/
def selRs (rs : BitVec 5) : ArbNode (BitVec cfg.xlen) :=
  rrArbTree (cfg.nrSbEntries + cfg.nrWbPorts) (fwdReq i rs) (rsData i) 0

def rs1HasRaw (k : Nat) : Bool :=
  !(i.issueInstr k).useZimm && rdClobberGpr i (i.issueInstr k).rs1 != .none

def rs2HasRaw (k : Nat) : Bool := rdClobberGpr i (i.issueInstr k).rs2 != .none

/-- `rs1_valid[k]` and `rs2_valid[k]`: a CSR result is forwarded to SFENCE_VMA only. -/
def rsValid (k : Nat) (rs : BitVec 5) : Bool :=
  (selRs i rs).req &&
    (rdClobberGpr i rs != .csr || cfg.rvs && (i.issueInstr k).op == .sfenceVma)

def rs1Valid (k : Nat) : Bool := rsValid i k (i.issueInstr k).rs1

def rs2Valid (k : Nat) : Bool := rsValid i k (i.issueInstr k).rs2

/-! ## Write-after-write hazards and the extension interface -/

/-- `stall_waw[k]` -/
def stallWaw (k : Nat) : Bool :=
  if i.issueInstrValid k && !fuBusy s i k then
    let rd := (i.issueInstr k).rd
    let written := (List.range cfg.nrCommitPorts).any fun c => i.weGpr c && i.waddr c == rd
    decide (0 < k) && (rd == (i.issueInstr (k - 1)).rd && rd != 0) ||
      !(rdClobberGpr i rd == .none || written)
  else true

def cvxifInstructionValid : Bool :=
  !(i.issueInstr 0).ex.valid && i.issueInstrValid 0 &&
    ((i.issueInstr 0).fu == .cvxif && !stallWaw s i 0)

/-- `x_issue_valid_o` -/
def xIssueValid : Bool := cvxifInstructionValid s i && !i.flush

def xTransactionAccepted : Bool := xIssueValid s i && i.xIssueReady && i.xAccept

def xTransactionRejected : Bool := xIssueValid s i && i.xIssueReady && !i.xAccept

/-- The coprocessor does not read operand `j` of port 0. -/
def unread (j : Nat) : Bool :=
  cfg.cvxifEn && (xIssueValid s i && i.xAccept) && !i.xRegisterRead j

/-! ## Operands -/

def forwardRs1 (k : Nat) : Bool :=
  rs1HasRaw i k && rs1Valid i k && !(decide (k = 0) && unread s i 0)

def forwardRs2 (k : Nat) : Bool :=
  rs2HasRaw i k && rs2Valid i k && !(decide (k = 0) && unread s i 1)

def stallRs1 (k : Nat) : Bool :=
  (i.stall || rs1HasRaw i k && !rs1Valid i k) && !(decide (k = 0) && unread s i 0)

def stallRs2 (k : Nat) : Bool :=
  (i.stall || rs2HasRaw i k && !rs2Valid i k) && !(decide (k = 0) && unread s i 1)

/-- Port 1 reads what port 0 writes. -/
def dependsOnPort0 : Bool :=
  let first := i.issueInstr 0
  let second := i.issueInstr 1
  !second.useZimm && second.rs1 == first.rd && second.rs1 != 0 ||
    second.rs2 == first.rd && second.rs2 != 0

/-- `stall_raw[k]` -/
def stallRaw (k : Nat) : Bool :=
  let missing :=
    i.stall || rs1HasRaw i k && !rs1Valid i k || rs2HasRaw i k && !rs2Valid i k
  if k = 0 then
    if cfg.cvxifEn then
      !xTransactionRejected s i && (stallRs1 s i 0 || stallRs2 s i 0 || i.stall)
    else missing
  else missing || dependsOnPort0 i

/-- `issue_ack[k]` -/
def issueAck (k : Nat) : Bool :=
  i.issueInstrValid k && !fuBusy s i k &&
    (!stallRaw s i k && !stallWaw s i k || (i.issueInstr k).ex.valid)

/-- `issue_ack_o[0]` -/
def issueAck0 : Bool :=
  if (i.issueInstr 0).fu == .cvxif &&
      !(xTransactionAccepted s i || xTransactionRejected s i) then
    (i.issueInstr 0).ex.valid && i.issueInstrValid 0
  else issueAck s i 0

/-- `issue_ack_o[k]` -/
def issueAckO (k : Nat) : Bool :=
  if k = 0 then issueAck0 s i else issueAck s i k && issueAck0 s i

/-- `fu_data_n[k]` -/
def fuDataN (k : Nat) : FuData cfg :=
  let instr := i.issueInstr k
  { fu := instr.fu
    operation := instr.op
    transId := instr.transId
    imm := instr.result
    operandA :=
      if instr.useZimm then instr.rs1.setWidth cfg.xlen
      else if instr.usePc then instr.pc.signExtend cfg.xlen
      else if forwardRs1 s i k then (selRs i instr.rs1).data
      else s.gpr instr.rs1
    operandB :=
      if instr.useImm && instr.fu != .store && instr.fu != .ctrlFlow && instr.fu != .accel then
        instr.result
      else if forwardRs2 s i k then (selRs i instr.rs2).data
      else s.gpr instr.rs2 }

/-! ## Registers -/

/-- The valid bits of port `k` in the next cycle. -/
def validN (k : Nat) : UnitValid :=
  let instr := i.issueInstr k
  if !instr.ex.valid && i.issueInstrValid k && issueAckO s i k && !i.flush then
    match instr.fu with
    | .alu =>
        if cfg.superscalarEn && !(fusBusy s i k).alu2 then { alu2 := true }
        else { alu := true }
    | .ctrlFlow => { branch := true }
    | .mult => { mult := true }
    | .load | .store => { lsu := true }
    | .csr => { csr := true }
    | .cvxif => { cvxif := cfg.cvxifEn }
    | .none | .fpu | .fpuVec | .accel => {}
  else {}

/-- The register file after the writes of the commit ports, the last one on top. -/
def gprN : BitVec 5 → BitVec cfg.xlen :=
  Function.update
    ((List.range cfg.nrCommitPorts).foldl
      (fun gpr c => if i.weGpr c then Function.update gpr (i.waddr c) (i.wdata c) else gpr)
      s.gpr)
    0 0

def next : State cfg where
  valid := validN s i
  fuData := fuDataN s i
  gpr := gprN s i

end Hazards

def reset : State cfg where
  valid _ := {}
  fuData _ :=
    { fu := .none, operation := .add, operandA := 0, operandB := 0, imm := 0, transId := 0 }
  gpr _ := 0

end Cva6.IssueReadOperands
