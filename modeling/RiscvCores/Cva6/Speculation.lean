import RiscvCores.Cva6.BackEnd
import RiscvCores.Cva6.ScoreboardWindow

/-!
# Speculation beside a branch

A branch may issue together with the instruction after it.  The scoreboard cancels that
one instruction on a mispredict, and it is the only one of the wrong path: it leaves
through the commit ports without effect and nothing is forwarded from it.
-/

set_option autoImplicit false

namespace Cva6.Scoreboard

open Ring

/-! ## The cancelled bit and new entries -/

section Slots

variable {cfg : BackendCfg} {s : State cfg} {i : Input cfg} {mem : Mem cfg} {k : TransId cfg}

end Slots

end Cva6.Scoreboard

namespace Cva6.BackEnd

open Ring CommitStage IssueReadOperands

variable {cfg : CoreCfg}

abbrev History (cfg : CoreCfg) : Type := List (State cfg × Input cfg)

/-! ## The paths -/

/-- How many instructions were issued, their number in program order, and which of them
are on a wrong path. -/
structure Path (cfg : CoreCfg) where
  arrived : Nat
  number : Slot cfg → Nat
  wrong : Slot cfg → Bool

/-- The port that issues into slot `k`. -/
def portOf (s : State cfg) (i : Input cfg) (k : Slot cfg) : Option (Fin cfg.nrIssuePorts) :=
  (List.finRange cfg.nrIssuePorts).find? fun port =>
    Scoreboard.accepted s.scoreboard (scoreboardIn s i) port &&
      Scoreboard.issuePointer s.scoreboard port.val == k

/-- The branch that turns out to be mispredicted. -/
def mispredicted (i : Input cfg) : Option (Slot cfg) :=
  if flu : fluWb < cfg.nrWbPorts then
    if i.resolvedBranch.valid && i.resolvedBranch.isMispredict then
      some (i.wb ⟨fluWb, flu⟩).transId
    else none
  else none

/-- The instruction in slot `k` is younger than a branch that was mispredicted or is
found so in this cycle. -/
def Path.wrongNow (path : Path cfg) (i : Input cfg) (k : Slot cfg) : Bool :=
  path.wrong k ||
    match mispredicted i with
    | some branch => decide (path.number branch < path.number k)
    | none => false

def Path.cycle (path : Path cfg) (now : State cfg × Input cfg) : Path cfg where
  arrived := path.arrived + Scoreboard.numIssue now.1.scoreboard (scoreboardIn now.1 now.2)
  number k :=
    match portOf now.1 now.2 k with
    | some port => path.arrived + port.val
    | none => path.number k
  wrong k :=
    match portOf now.1 now.2 k with
    | some _ => (mispredicted now.2).isSome
    | none => path.wrongNow now.2 k

def path (cycles : History cfg) : Path cfg :=
  cycles.foldl Path.cycle ⟨0, fun _ => 0, fun _ => false⟩

section Handshakes

variable {s : State cfg} {i : Input cfg}

/-- What the scoreboard sees in a cycle. -/
def scoreboardCycle (now : State cfg × Input cfg) :
    Scoreboard.State cfg.toBackendCfg × Scoreboard.Input cfg.toBackendCfg :=
  (now.1.scoreboard, scoreboardIn now.1 now.2)

theorem issueAck_valid {k : Nat} {x : IssueReadOperands.Input cfg}
    {o : IssueReadOperands.State cfg} (acked : issueAckO o x k = true) :
    x.issueInstrValid k = true := by
  unfold issueAckO at acked
  split at acked
  · rename_i first
    subst first
    unfold issueAck0 at acked
    split at acked
    · exact (Bool.and_eq_true_iff.mp acked).2
    · exact (Bool.and_eq_true_iff.mp (Bool.and_eq_true_iff.mp acked).1).1
  · have inner := (Bool.and_eq_true_iff.mp acked).1
    exact (Bool.and_eq_true_iff.mp (Bool.and_eq_true_iff.mp inner).1).1

theorem commitInstr_port (s : State cfg) (i : Input cfg) (port : Fin cfg.nrCommitPorts) :
    (commitIn s i).commitInstr port.val = Scoreboard.commitInstr s.scoreboard port :=
  dif_pos port.isLt

theorem commitDrop_port (s : State cfg) (i : Input cfg) (port : Fin cfg.nrCommitPorts) :
    (commitIn s i).commitDrop port.val = Scoreboard.commitDrop s.scoreboard port :=
  dif_pos port.isLt

theorem issueInstrValid_port (s : State cfg) (i : Input cfg) (port : Fin cfg.nrIssuePorts) :
    (operandsIn s i).issueInstrValid port.val =
      Scoreboard.issueInstrValid s.scoreboard (scoreboardIn s i) port :=
  dif_pos port.isLt

theorem handshakes (s : State cfg) (i : Input cfg) :
    Scoreboard.Handshakes s.scoreboard (scoreboardIn s i) := by
  refine ⟨?_, ?_, ?_, ?_⟩
  · intro port acked
    rw [← issueInstrValid_port]
    exact issueAck_valid acked
  · intro port port' before acked
    have two := cfg.issuePorts
    have first : port'.val = 0 := by
      have inside := port.isLt
      have order : port'.val < port.val := before
      split at two
      · omega
      · omega
    have second : port.val ≠ 0 := by
      have order : port'.val < port.val := before
      omega
    change issueAckO s.operands (operandsIn s i) port.val = true at acked
    change issueAckO s.operands (operandsIn s i) port'.val = true
    rw [issueAckO, if_neg second] at acked
    rw [issueAckO, if_pos first]
    exact (Bool.and_eq_true_iff.mp acked).2
  · intro port acked
    have valid := ack_valid port.isLt acked
    rwa [commitInstr_port] at valid
  · intro port port' before acked
    have few := cfg.commitPorts
    have first : port'.val = 0 := by
      have inside := port.isLt
      have order : port'.val < port.val := before
      omega
    change (CommitStage.port (commitIn s i) port'.val).ack = true
    rw [first]
    exact ack_first acked

end Handshakes

/-! ## The invariant -/

/-- The commit stage has no effect of such an instruction when it is dropped. -/
def Droppable (instr : Instr cfg) : Prop := instr.fu ≠ .store ∧ isAmo instr.op = false

/-- Port `port` resolves the branch in slot `head + j`, which is not finished; at most one
instruction was issued behind it. -/
structure Beside (s : State cfg) (head : Slot cfg) (count port j : Nat) : Prop where
  branch : slot head j = (s.operands.fuData port).transId
  unfinished : (s.scoreboard.mem (slot head j)).sbe.valid = false
  last : j + 1 = count ∨
    j + 2 = count ∧ Droppable (s.scoreboard.mem (slot head (j + 1))).sbe

structure Inv (cycles : History cfg) (s : State cfg) (head : Slot cfg) (xs : List (Instr cfg)) :
    Prop where
  window : Scoreboard.Window (cycles.map scoreboardCycle) s.scoreboard head xs
  numbers : ∃ base, (path cycles).arrived = base + xs.length ∧
    ∀ j, j < xs.length → (path cycles).number (slot head j) = base + j
  cancelled : ∀ k, (s.scoreboard.mem k).issued = true →
    (s.scoreboard.mem k).cancelled = (path cycles).wrong k
  droppable : ∀ k, (s.scoreboard.mem k).issued = true →
    (s.scoreboard.mem k).cancelled = true → Droppable (s.scoreboard.mem k).sbe
  branches : ∀ port, port < cfg.nrIssuePorts → (s.operands.valid port).branch = true →
    ∃ j, Beside s head xs.length port j

section Cycle

variable {s : State cfg} {i : Input cfg} {cycles : History cfg} {head : Slot cfg}
  {xs : List (Instr cfg)}

theorem issuePorts_le (cfg : CoreCfg) : cfg.nrIssuePorts ≤ 2 := by
  have ports := cfg.issuePorts
  split at ports
  · omega
  · omega

theorem commitPorts_le (cfg : CoreCfg) : cfg.nrCommitPorts ≤ cfg.nrSbEntries := by
  have few := cfg.commitPorts
  have wide := cfg.wide
  omega

/-- The window leaves room for what is accepted. -/
theorem Inv.room (inv : Inv cycles s head xs) (i : Input cfg) :
    xs.length + Scoreboard.numIssue s.scoreboard (scoreboardIn s i) ≤ cfg.nrSbEntries :=
  inv.window.room (handshakes s i) (issuePorts_le cfg)

/-- Where an issued entry lies. -/
theorem Inv.position (inv : Inv cycles s head xs) {k : Slot cfg}
    (issued : (s.scoreboard.mem k).issued = true) : ∃ j, j < xs.length ∧ slot head j = k :=
  (inv.window.issued.live_iff k).mp issued

theorem Inv.issued_slot (inv : Inv cycles s head xs) {j : Nat} (below : j < xs.length) :
    (s.scoreboard.mem (slot head j)).issued = true :=
  (inv.window.issued.live_iff _).mpr ⟨j, below, rfl⟩

/-! ## A mispredict -/

theorem mispredicted_some {branch : Slot cfg} (misses : mispredicted i = some branch) :
    Scoreboard.bmiss (scoreboardIn s i) = true ∧
      Scoreboard.afterFluWb (scoreboardIn s i) = branch + 1 := by
  unfold mispredicted at misses
  split at misses
  · rename_i flu
    split at misses
    · rename_i missed
      cases misses
      exact ⟨missed, dif_pos flu⟩
    · cases misses
  · cases misses

/-- The mispredicted branch is in the window. -/
theorem Inv.beside (inv : Inv cycles s head xs) (resolves : Resolves s i) {branch : Slot cfg}
    (misses : mispredicted i = some branch) :
    ∃ port j, slot head j = branch ∧ Beside s head xs.length port j := by
  have raised : (i.resolvedBranch.valid && i.resolvedBranch.isMispredict) = true :=
    (mispredicted_some (s := s) misses).1
  obtain ⟨port, inside, valid, flu, same⟩ := resolves (Bool.and_eq_true_iff.mp raised).1
  obtain ⟨j, beside⟩ := inv.branches port inside valid
  refine ⟨port, j, ?_, beside⟩
  unfold mispredicted at misses
  rw [dif_pos flu, if_pos raised] at misses
  cases misses
  rw [beside.branch, same]

theorem Inv.number_lt (inv : Inv cycles s head xs) {j k : Nat} (jBelow : j < xs.length)
    (kBelow : k < xs.length) :
    (path cycles).number (slot head j) < (path cycles).number (slot head k) ↔ j < k := by
  obtain ⟨base, _, numbers⟩ := inv.numbers
  rw [numbers j jBelow, numbers k kBelow]
  omega

theorem unaccepted (flushed : i.flushUnissuedInstr = true) (port : Fin cfg.nrIssuePorts) :
    Scoreboard.accepted s.scoreboard (scoreboardIn s i) port = false := by
  have flush : (scoreboardIn s i).flushUnissuedInstr = true := flushed
  rw [Scoreboard.accepted, flush, Bool.not_true, Bool.and_false]

/-- No instruction is issued in the cycle of a mispredict. -/
theorem mispredicted_quiet (env : Environment s i) (quiet : i.flushUnissuedInstr = false) :
    mispredicted i = none := by
  cases misses : mispredicted i with
  | none => rfl
  | some branch =>
      have raised := (mispredicted_some (s := s) misses).1
      obtain ⟨valid, mispredict⟩ := Bool.and_eq_true_iff.mp raised
      exact absurd (quiet.symm.trans (env.mispredict valid mispredict)) Bool.false_ne_true

theorem unflushed_of_accepted {port : Fin cfg.nrIssuePorts}
    (takes : Scoreboard.accepted s.scoreboard (scoreboardIn s i) port = true) :
    i.flushUnissuedInstr = false := by
  by_contra flushed
  rw [Bool.not_eq_false] at flushed
  exact Bool.false_ne_true ((unaccepted flushed port).symm.trans takes)

theorem Inv.gone_le (inv : Inv cycles s head xs) (i : Input cfg) :
    Scoreboard.numCommit (scoreboardIn s i) ≤ xs.length :=
  inv.window.inside (handshakes s i) (commitPorts_le cfg)

theorem validN_branch {o : IssueReadOperands.State cfg} {x : IssueReadOperands.Input cfg}
    {port : Nat} (branch : (validN o x port).branch = true) :
    (x.issueInstr port).fu = .ctrlFlow ∧ (x.issueInstr port).ex.valid = false ∧
      issueAckO o x port = true ∧ x.flush = false := by
  unfold validN at branch
  dsimp only at branch
  split at branch
  · rename_i handed
    simp only [Bool.and_eq_true, Bool.not_eq_true'] at handed
    refine ⟨?_, handed.1.1.1, handed.1.2, handed.2⟩
    cases fu : (x.issueInstr port).fu with
    | ctrlFlow => rfl
    | alu =>
        rw [fu] at branch
        dsimp only at branch
        split at branch
        · cases branch
        · cases branch
    | none | load | store | mult | csr | fpu | fpuVec | cvxif | accel =>
        rw [fu] at branch
        cases branch
  · cases branch

end Cycle

/-! ## Every run -/

theorem inv_reset : Inv [] (reset : State cfg) 0 [] where
  window := Scoreboard.window_reset
  numbers := ⟨0, rfl, fun j below => absurd below (Nat.not_lt_zero j)⟩
  cancelled k issued := by cases issued
  droppable k issued := by cases issued
  branches port inside branch := by cases branch

/-- Slot `k` holds an instruction that is not on a wrong path. -/
def RightPath (path : Path cfg) (s : State cfg) (i : Input cfg) (k : Slot cfg) : Prop :=
  (s.scoreboard.mem k).issued = true ∧ path.wrongNow i k = false

/-- An instruction of issue port `port` takes an operand from slot `k`: its result in the
buffer or on a write-back port. -/
def TakesFrom (s : State cfg) (i : Input cfg) (port : Nat) (k : Slot cfg) : Prop :=
  ∃ rs, (forwardRs1 s.operands (operandsIn s i) port = true ∧
        rs = ((operandsIn s i).issueInstr port).rs1 ∨
      forwardRs2 s.operands (operandsIn s i) port = true ∧
        rs = ((operandsIn s i).issueInstr port).rs2) ∧
    ∃ n data, source (operandsIn s i) n = some (k, data, true) ∧
      (selRs (operandsIn s i) rs).index = n ∧ (selRs (operandsIn s i) rs).data = data

section Effects

variable {s : State cfg} {i : Input cfg} {cycles : History cfg} {head : Slot cfg}
  {xs : List (Instr cfg)}

/-- A mispredicted branch is not finished, so that no finished entry lies behind it. -/
theorem Inv.rightPath (inv : Inv cycles s head xs) (env : Environment s i) {j : Nat}
    (below : j < xs.length)
    (finished : ∀ j', j' < j → (s.scoreboard.mem (slot head j')).sbe.valid = true)
    (kept : (s.scoreboard.mem (slot head j)).cancelled = false) :
    RightPath (path cycles) s i (slot head j) := by
  have issued := inv.issued_slot below
  refine ⟨issued, ?_⟩
  rw [Path.wrongNow, ← inv.cancelled _ issued, kept, Bool.false_or]
  cases misses : mispredicted i with
  | none => rfl
  | some branch =>
      obtain ⟨port, j', rfl, beside⟩ := inv.beside env.resolves misses
      have inside : j' < xs.length := by
        rcases beside.last with last | ⟨last, _⟩
        · omega
        · omega
      have notBehind : ¬ j' < j := by
        intro behind
        exact Bool.false_ne_true (beside.unfinished.symm.trans (finished j' behind))
      dsimp only
      rw [decide_eq_false_iff_not, inv.number_lt inside below]
      exact notBehind

theorem Inv.first_head (inv : Inv cycles s head xs) {port : Fin cfg.nrCommitPorts}
    (first : port.val = 0) : s.scoreboard.commitPointer port = slot head 0 := by
  cases clear : Scoreboard.cleared (cycles.map scoreboardCycle) with
  | true =>
      rw [slot_zero]
      exact (inv.window.fresh clear).2 port
  | false =>
      rw [inv.window.pointers clear, first]
      rfl

/-- The first port shows the right path unless its entry is cancelled. -/
theorem Inv.rightPath_first (inv : Inv cycles s head xs) (env : Environment s i)
    {port : Fin cfg.nrCommitPorts} (first : port.val = 0)
    (valid : (Scoreboard.commitInstr s.scoreboard port).valid = true)
    (kept : Scoreboard.commitDrop s.scoreboard port = false) :
    RightPath (path cycles) s i (s.scoreboard.commitPointer port) := by
  have issued := inv.window.valid _ valid
  rw [inv.first_head first] at issued ⊢
  obtain ⟨j, below, _⟩ := inv.position issued
  refine inv.rightPath env (by omega) (fun j' behind => absurd behind (Nat.not_lt_zero j')) ?_
  rw [← inv.first_head first]
  exact kept

/-- So does every port that is acknowledged. -/
theorem Inv.rightPath_acked (inv : Inv cycles s head xs) (env : Environment s i)
    {port : Fin cfg.nrCommitPorts} (acked : (scoreboardIn s i).commitAck port = true)
    (kept : Scoreboard.commitDrop s.scoreboard port = false) :
    RightPath (path cycles) s i (s.scoreboard.commitPointer port) := by
  have hands := handshakes s i
  have inside := inv.gone_le i
  have count := (Scoreboard.commitAck_iff hands port).mp acked
  have here := inv.window.pointer hands count
  rw [Scoreboard.commitDrop, here] at kept
  rw [here]
  refine inv.rightPath env (by omega) ?_ kept
  intro j' before
  have port' : j' < cfg.nrCommitPorts := by
    have bound := port.isLt
    omega
  have acked' := (Scoreboard.commitAck_iff hands ⟨j', port'⟩).mpr (by simp only; omega)
  have valid := hands.2.2.1 _ acked'
  rw [Scoreboard.commitInstr, inv.window.pointer hands (by simp only; omega)] at valid
  exact valid

/-- A valid entry that could not be dropped is not dropped. -/
theorem Inv.undropped (inv : Inv cycles s head xs) {port : Fin cfg.nrCommitPorts}
    (valid : (Scoreboard.commitInstr s.scoreboard port).valid = true)
    (effect : ¬ Droppable (Scoreboard.commitInstr s.scoreboard port)) :
    Scoreboard.commitDrop s.scoreboard port = false := by
  rw [← Bool.not_eq_true]
  exact fun dropped => effect (inv.droppable _ (inv.window.valid _ valid) dropped)

/-- Forwarding takes issued entries that are not cancelled. -/
theorem TakesFrom.stillIssued {port : Nat} {k : Slot cfg} (takes : TakesFrom s i port k) :
    Scoreboard.stillIssued s.scoreboard k = true := by
  obtain ⟨rs, forwards, n, data, requests, index, _⟩ := takes
  have selected : (selRs (operandsIn s i) rs).req = true := by
    rcases forwards with ⟨forwards, rfl⟩ | ⟨forwards, rfl⟩
    · simp only [forwardRs1, rs1Valid, rsValid, Bool.and_eq_true] at forwards
      exact forwards.1.2.1
    · simp only [forwardRs2, rs2Valid, rsValid, Bool.and_eq_true] at forwards
      exact forwards.1.2.1
  have ports : 0 < cfg.nrSbEntries + cfg.nrWbPorts := by
    have wide := cfg.wide
    omega
  obtain ⟨_, _, _, granted, _⟩ := (CommonCells.rrArbTree_grants ports).some selected
  change fwdReq (operandsIn s i) rs (selRs (operandsIn s i) rs).index = true at granted
  rw [index, fwdReq, requests] at granted
  simp only [Bool.and_eq_true] at granted
  exact granted.1.2

theorem Inv.forwarded (inv : Inv cycles s head xs) (env : Environment s i)
    {port : Fin cfg.nrIssuePorts}
    (accepts : Scoreboard.accepted s.scoreboard (scoreboardIn s i) port = true) {k : Slot cfg}
    (takes : TakesFrom s i port.val k) : RightPath (path cycles) s i k := by
  obtain ⟨issued, kept⟩ := Bool.and_eq_true_iff.mp takes.stillIssued
  rw [Bool.not_eq_true'] at kept
  refine ⟨issued, ?_⟩
  rw [Path.wrongNow, ← inv.cancelled k issued, kept,
    mispredicted_quiet env (unflushed_of_accepted accepts)]
  rfl

/-- Registers are written from the right path. -/
theorem Inv.registers (inv : Inv cycles s head xs) (env : Environment s i)
    (port : Fin cfg.nrCommitPorts)
    (writes : (CommitStage.port (commitIn s i) port.val).weGpr = true ∨
      (CommitStage.port (commitIn s i) port.val).weFpr = true) :
    RightPath (path cycles) s i (s.scoreboard.commitPointer port) := by
  have shown := commitInstr_port s i port
  have drops := commitDrop_port s i port
  by_cases first : port.val = 0
  · rw [first] at writes shown drops
    rw [CommitStage.port, if_pos rfl, commit, (commit1_port0 _ _).1] at writes
    have effect : (Scoreboard.commitInstr s.scoreboard port).valid = true ∧
        (Scoreboard.commitDrop s.scoreboard port = false ∨
          isAmo (Scoreboard.commitInstr s.scoreboard port).op = true) := by
      rw [← shown, ← drops]
      rcases writes with gpr | fpr
      · exact commit0_weGpr gpr
      · exact ⟨(commit0_weFpr fpr).1, .inl (commit0_weFpr fpr).2⟩
    refine inv.rightPath_first env first effect.1 ?_
    rcases effect.2 with kept | amo
    · exact kept
    · apply inv.undropped effect.1
      rintro ⟨_, notAmo⟩
      exact Bool.false_ne_true (notAmo.symm.trans amo)
  · have second : port.val = 1 := by
      have few := cfg.commitPorts
      have bound := port.isLt
      omega
    have effect := commit1_effect (c := commitIn s i) <| by
      rw [CommitStage.port, if_neg first] at writes
      rcases writes with gpr | fpr
      · exact .inl gpr
      · exact .inr (.inl fpr)
    refine inv.rightPath_acked env ?_ ?_
    · change (CommitStage.port (commitIn s i) port.val).ack = true
      rw [CommitStage.port, if_neg first]
      exact effect.1
    · rw [← drops, second]
      exact effect.2

/-- The floating-point flags come from the right path. -/
theorem Inv.flags (inv : Inv cycles s head xs) (env : Environment s i)
    (writes : (commit (commitIn s i)).csrWriteFflags = true) :
    ∃ port : Fin cfg.nrCommitPorts, isFpu (Scoreboard.commitInstr s.scoreboard port) = true ∧
      RightPath (path cycles) s i (s.scoreboard.commitPointer port) := by
  cases first : (commit0 (commitIn s i)).csrWriteFflags with
  | true =>
      obtain ⟨valid, kept, fpu⟩ := commit0_csrWriteFflags first
      have ports : 0 < cfg.nrCommitPorts := by
        have few := cfg.commitPorts
        omega
      have shown := commitInstr_port s i ⟨0, ports⟩
      have drops := commitDrop_port s i ⟨0, ports⟩
      dsimp only at shown drops
      rw [shown] at valid fpu
      rw [drops] at kept
      exact ⟨⟨0, ports⟩, fpu, inv.rightPath_first env rfl valid kept⟩
  | false =>
      have fpu := commit1_csrWriteFflags writes first
      obtain ⟨acked, kept⟩ := commit1_effect (.inr (.inr ⟨writes, first⟩))
      have two := (commit1_ack (by rw [commit0_port1]; rfl) acked).1
      have shown := commitInstr_port s i ⟨1, two⟩
      have drops := commitDrop_port s i ⟨1, two⟩
      dsimp only at shown drops
      rw [shown] at fpu
      rw [drops] at kept
      exact ⟨⟨1, two⟩, fpu, inv.rightPath_acked env acked kept⟩

end Effects

section Example

end Example

end Cva6.BackEnd
