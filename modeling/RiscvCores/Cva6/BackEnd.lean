import RiscvCores.Cva6.IssueReadOperands

/-!
# Issue and commit together

The scoreboard, the operand reads and the commit stage as `issue_stage` and `cva6` wire
them: the commit stage shows and acknowledges the first entries, the operand reads
acknowledge the decoded instructions.
-/

set_option autoImplicit false

namespace Cva6.BackEnd

open CommitStage IssueReadOperands

variable {cfg : CoreCfg}

structure State (cfg : CoreCfg) where
  scoreboard : Scoreboard.State cfg.toBackendCfg
  operands : IssueReadOperands.State cfg

structure Input (cfg : CoreCfg) where
  flushUnissuedInstr : Bool := false
  flush : Bool := false
  stall : Bool := false
  decodedInstr : Fin cfg.nrIssuePorts → Instr cfg := fun _ => {}
  decodedInstrValid : Fin cfg.nrIssuePorts → Bool := fun _ => false
  resolvedBranch : Scoreboard.ResolvedBranch cfg.toBackendCfg := {}
  wb : Fin cfg.nrWbPorts → Scoreboard.WbPort cfg.toBackendCfg := fun _ => {}
  xWe : Bool := false
  xRd : BitVec 5 := 0
  fluReady : Bool := true
  lsuReady : Bool := true
  xIssueReady : Bool := false
  xAccept : Bool := false
  xWriteback : Bool := false
  xRegisterRead : Nat → Bool := fun _ => false
  haltI : Bool := false
  flushDcache : Bool := false
  singleStep : Bool := false
  amoAck : Bool := false
  amoResult : BitVec cfg.xlen := 0
  commitLsuReady : Bool := true
  csrRdata : BitVec cfg.xlen := 0
  csrException : Exception cfg.toBackendCfg := {}
  noStPending : Bool := true

section Wiring

variable (s : State cfg) (i : Input cfg)

/-- `commit_instr_o` and `commit_drop_o` of the scoreboard at the commit stage. -/
def commitIn : CommitStage.Input cfg where
  haltI := i.haltI
  flushDcache := i.flushDcache
  singleStep := i.singleStep
  commitInstr k :=
    if port : k < cfg.nrCommitPorts then Scoreboard.commitInstr s.scoreboard ⟨k, port⟩ else {}
  commitDrop k :=
    if port : k < cfg.nrCommitPorts then Scoreboard.commitDrop s.scoreboard ⟨k, port⟩
    else false
  amoAck := i.amoAck
  amoResult := i.amoResult
  commitLsuReady := i.commitLsuReady
  csrRdata := i.csrRdata
  csrException := i.csrException
  noStPending := i.noStPending

/-- The instruction of an issue port with its transaction id. -/
def issueInstr (k : Nat) : Instr cfg :=
  if port : k < cfg.nrIssuePorts then
    { i.decodedInstr ⟨k, port⟩ with transId := Scoreboard.issuePointer s.scoreboard k }
  else {}

def issueInstrValid (k : Nat) : Bool :=
  if port : k < cfg.nrIssuePorts then
    i.decodedInstrValid ⟨k, port⟩ && !Scoreboard.issueFull s.scoreboard ⟨k, port⟩
  else false

def operandsIn : IssueReadOperands.Input cfg where
  flush := i.flushUnissuedInstr
  stall := i.stall
  issueInstr := issueInstr s i
  issueInstrValid := issueInstrValid s i
  stillIssued := Scoreboard.stillIssued s.scoreboard
  sbe k := (s.scoreboard.mem k).sbe
  wb := i.wb
  fluReady := i.fluReady
  lsuReady := i.lsuReady
  xIssueReady := i.xIssueReady
  xAccept := i.xAccept
  xWriteback := i.xWriteback
  xRegisterRead := i.xRegisterRead
  weGpr k := (CommitStage.port (commitIn s i) k).weGpr
  waddr k := CommitStage.waddr (commitIn s i) k
  wdata k := (CommitStage.port (commitIn s i) k).wdata

def scoreboardIn : Scoreboard.Input cfg.toBackendCfg where
  flushUnissuedInstr := i.flushUnissuedInstr
  flush := i.flush
  xTransactionAccepted := xTransactionAccepted s.operands (operandsIn s i)
  xIssueWriteback := i.xWriteback
  xId := Scoreboard.issuePointer s.scoreboard 0
  commitAck port := (CommitStage.port (commitIn s i) port.val).ack
  decodedInstr := i.decodedInstr
  decodedInstrValid := i.decodedInstrValid
  issueAck port := issueAckO s.operands (operandsIn s i) port.val
  resolvedBranch := i.resolvedBranch
  wb := i.wb
  xWe := i.xWe
  xRd := i.xRd

def next : State cfg where
  scoreboard := Scoreboard.next s.scoreboard (scoreboardIn s i)
  operands := IssueReadOperands.next s.operands (operandsIn s i)

end Wiring

def reset : State cfg where
  scoreboard := Scoreboard.reset
  operands := IssueReadOperands.reset

/-! ## The environment -/

/-- A branch resolves in the cycle after its issue, under the transaction id of its port. -/
def Resolves (s : State cfg) (i : Input cfg) : Prop :=
  i.resolvedBranch.valid = true →
    ∃ port, port < cfg.nrIssuePorts ∧ (s.operands.valid port).branch = true ∧
      ∃ flu : fluWb < cfg.nrWbPorts, (i.wb ⟨fluWb, flu⟩).transId = (s.operands.fuData port).transId

instance (s : State cfg) (i : Input cfg) : Decidable (Resolves s i) :=
  inferInstanceAs (Decidable (i.resolvedBranch.valid = true → ∃ port, port < cfg.nrIssuePorts ∧ _))

/-- What the decoder hands over: it finishes an instruction only with an exception, and an
atomic operation is a store. -/
def Decoded (instr : Instr cfg) : Prop :=
  (instr.valid = true → instr.ex.valid = true) ∧ (isAmo instr.op = true → instr.fu = .store)

instance (instr : Instr cfg) : Decidable (Decoded instr) := inferInstanceAs (Decidable (_ ∧ _))

/-- The write-back of a second half finds the first half issued in front of it. -/
def HalvesPaired (s : State cfg) (i : Input cfg) : Prop :=
  ∀ port, Scoreboard.wbTakes s.scoreboard (i.wb port) = true →
    Scoreboard.isDoubleMacro (s.scoreboard.mem (i.wb port).transId) = true →
    (s.scoreboard.mem (i.wb port).transId).sbe.isLastMacroInstr = true →
      ∀ first, Scoreboard.precedingIndex (i.wb port).transId = some first →
        (s.scoreboard.mem first).issued = true

instance (s : State cfg) (i : Input cfg) : Decidable (HalvesPaired s i) :=
  inferInstanceAs (Decidable (∀ _, _))

/-- The decoder, the functional units and the controller, which clears the unissued
instructions on a mispredict and on every flush. -/
structure Environment (s : State cfg) (i : Input cfg) : Prop where
  decoded : ∀ port, Decoded (i.decodedInstr port)
  resolves : Resolves s i
  paired : HalvesPaired s i
  mispredict : i.resolvedBranch.valid = true → i.resolvedBranch.isMispredict = true →
    i.flushUnissuedInstr = true
  flush : i.flush = true → i.flushUnissuedInstr = true

instance (s : State cfg) (i : Input cfg) : Decidable (Environment s i) :=
  decidable_of_iff ((∀ port, Decoded (i.decodedInstr port)) ∧ Resolves s i ∧ HalvesPaired s i ∧
      (i.resolvedBranch.valid = true → i.resolvedBranch.isMispredict = true →
        i.flushUnissuedInstr = true) ∧
      (i.flush = true → i.flushUnissuedInstr = true))
    ⟨fun ⟨decoded, resolves, paired, mispredict, flush⟩ =>
      ⟨decoded, resolves, paired, mispredict, flush⟩,
    fun ⟨decoded, resolves, paired, mispredict, flush⟩ =>
      ⟨decoded, resolves, paired, mispredict, flush⟩⟩

def machine (cfg : CoreCfg) : Clocked.Machine (State cfg) (Input cfg) where
  reset := reset
  next := next
  allowed _ s i := Environment s i

instance (cycles : List (State cfg × Input cfg)) (s : State cfg) (i : Input cfg) :
    Decidable ((machine cfg).allowed cycles s i) :=
  inferInstanceAs (Decidable (Environment s i))

end Cva6.BackEnd
