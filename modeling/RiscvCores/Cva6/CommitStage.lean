import RiscvCores.Cva6.Scoreboard

/-!
# The commit stage

`commit_stage`: the assignments of the process `commit` in their order, for port 0 and
then for port 1, and the process `exception_handling`.
-/

set_option autoImplicit false

namespace Cva6

/-- The parameters that the issue and commit logic reads besides. -/
structure CoreCfg extends BackendCfg where
  superscalarEn : Bool
  rva : Bool
  rvs : Bool
  rvh : Bool
  rvzcmp : Bool
  cvxifEn : Bool
  /-- `DCacheType == WB` -/
  dcacheWb : Bool
  issuePorts : nrIssuePorts = if superscalarEn then 2 else 1
  commitPorts : nrCommitPorts = 1 ∨ nrCommitPorts = 2
  /-- There are even and odd entries. -/
  someEntries : 0 < transIdBits

theorem CoreCfg.wide (cfg : CoreCfg) : 2 ≤ cfg.nrSbEntries :=
  Nat.pow_le_pow_right (n := 2) Nat.two_pos cfg.someEntries

instance (cfg : CoreCfg) : NeZero cfg.nrSbEntries := ⟨(Nat.two_pow_pos _).ne'⟩

theorem CoreCfg.two_ports : 2 = 1 ∨ 2 = 2 := .inr rfl

namespace CommitStage

variable {cfg : CoreCfg}

abbrev Instr (cfg : CoreCfg) : Type := ScoreboardEntry cfg.toBackendCfg

/-- The inputs; port 1 is read with two commit ports only. -/
structure Input (cfg : CoreCfg) where
  haltI : Bool
  flushDcache : Bool
  singleStep : Bool
  commitInstr : Nat → Instr cfg
  commitDrop : Nat → Bool
  amoAck : Bool
  amoResult : BitVec cfg.xlen
  commitLsuReady : Bool
  csrRdata : BitVec cfg.xlen
  csrException : Exception cfg.toBackendCfg
  noStPending : Bool

/-- What is driven for one port. -/
structure Port (cfg : CoreCfg) where
  ack : Bool := false
  macroAck : Bool := false
  weGpr : Bool := false
  weFpr : Bool := false
  wdata : BitVec cfg.xlen

structure Drive (cfg : CoreCfg) where
  port0 : Port cfg
  port1 : Port cfg
  amoValidCommit : Bool := false
  commitLsu : Bool := false
  commitCsr : Bool := false
  csrOp : FuOp := .add
  csrWdata : BitVec cfg.xlen := 0
  fenceI : Bool := false
  fence : Bool := false
  sfenceVma : Bool := false
  hfenceVvma : Bool := false
  hfenceGvma : Bool := false
  csrWriteFflags : Bool := false
  flushCommit : Bool := false

section Commit

variable (i : Input cfg)

/-- The default assignments. -/
def defaults : Drive cfg where
  port0 := { wdata := if cfg.rva && i.amoAck then i.amoResult else (i.commitInstr 0).result }
  port1 := { wdata := (i.commitInstr 1).result }

def instr0IsAmo : Bool := isAmo (i.commitInstr 0).op

/-- The destination is a floating-point register. -/
def rdFpr (instr : Instr cfg) : Bool := cfg.fpPresent && isRdFpr instr.op

def isFpu (instr : Instr cfg) : Bool := instr.fu == .fpu || instr.fu == .fpuVec

def macroDone (instr : Instr cfg) : Bool :=
  cfg.rvzcmp && instr.isMacroInstr && instr.isLastMacroInstr

/-- The acknowledge and the register write that the later assignments start from. -/
def retire0 (d : Drive cfg) : Drive cfg :=
  let instr := i.commitInstr 0
  { d with
    port0 :=
      { d.port0 with
        ack := true
        macroAck := macroDone instr
        weFpr := if !i.commitDrop 0 && rdFpr instr then true else d.port0.weFpr
        weGpr := if !i.commitDrop 0 && !rdFpr instr then true else d.port0.weGpr } }

def store0 (d : Drive cfg) : Drive cfg :=
  if (i.commitInstr 0).fu == .store && !(cfg.rva && instr0IsAmo i) then
    if i.commitLsuReady then { d with commitLsu := true }
    else { d with port0 := { d.port0 with ack := false } }
  else d

/-- The five exception flags of an FPU instruction. -/
def fflags (instr : Instr cfg) : BitVec cfg.xlen := (instr.ex.cause.setWidth 5).setWidth cfg.xlen

def fpuFlags0 (d : Drive cfg) : Drive cfg :=
  if cfg.fpPresent && isFpu (i.commitInstr 0) && !i.commitDrop 0 then
    { d with csrWdata := fflags (i.commitInstr 0), csrWriteFflags := true }
  else d

def csr0 (d : Drive cfg) : Drive cfg :=
  if (i.commitInstr 0).fu == .csr then
    let d := { d with csrOp := (i.commitInstr 0).op, csrWdata := (i.commitInstr 0).result }
    if !i.commitDrop 0 then
      if !i.csrException.valid then
        { d with commitCsr := true, port0 := { d.port0 with wdata := i.csrRdata } }
      else { d with port0 := { d.port0 with ack := false, weGpr := false } }
    else d
  else d

/-- The fences wait until no store is pending. -/
def waits0 (d : Drive cfg) : Drive cfg :=
  { d with port0 := { d.port0 with ack := i.noStPending } }

def sfenceVma0 (d : Drive cfg) : Drive cfg :=
  if cfg.rvs && (i.commitInstr 0).op == .sfenceVma && !i.commitDrop 0 then
    waits0 i { d with sfenceVma := i.noStPending }
  else d

def hfenceVvma0 (d : Drive cfg) : Drive cfg :=
  if cfg.rvh && (i.commitInstr 0).op == .hfenceVvma && !i.commitDrop 0 then
    waits0 i { d with hfenceVvma := i.noStPending }
  else d

def hfenceGvma0 (d : Drive cfg) : Drive cfg :=
  if cfg.rvh && (i.commitInstr 0).op == .hfenceGvma && !i.commitDrop 0 then
    waits0 i { d with hfenceGvma := i.noStPending }
  else d

def fenceI0 (d : Drive cfg) : Drive cfg :=
  if ((i.commitInstr 0).op == .fenceI ||
      i.flushDcache && cfg.dcacheWb && (i.commitInstr 0).fu != .store) && !i.commitDrop 0 then
    waits0 i { d with fenceI := i.noStPending }
  else d

def fence0 (d : Drive cfg) : Drive cfg :=
  if (i.commitInstr 0).op == .fence && !i.commitDrop 0 then
    waits0 i { d with fence := i.noStPending }
  else d

def amo0 (d : Drive cfg) : Drive cfg :=
  if cfg.rva && instr0IsAmo i then
    { d with
      port0 := { d.port0 with ack := i.amoAck, weGpr := i.amoAck }
      flushCommit := i.amoAck
      amoValidCommit := true }
  else d

/-- Port 0 of the process `commit`. -/
def commit0 : Drive cfg :=
  let d := defaults i
  if (i.commitInstr 0).valid && !i.haltI then
    if (i.commitInstr 0).ex.valid then
      if i.commitDrop 0 then { d with port0 := { d.port0 with ack := true } } else d
    else
      amo0 i (fence0 i (fenceI0 i (hfenceGvma0 i (hfenceVvma0 i (sfenceVma0 i (csr0 i
        (fpuFlags0 i (store0 i (retire0 i d)))))))))
  else d

/-- Port 1 may commit beside port 0. -/
def commits1 (d : Drive cfg) : Bool :=
  d.port0.ack && (i.commitInstr 1).valid && !i.haltI && (i.commitInstr 0).fu != .csr &&
    !i.flushDcache && !(cfg.rva && instr0IsAmo i) && !i.singleStep &&
    (!(i.commitInstr 1).ex.valid &&
      decide ((i.commitInstr 1).fu ∈ [Fu.alu, .load, .ctrlFlow, .mult, .fpu, .fpuVec]))

/-- Port 1 of the process `commit`. -/
def commit1 (d : Drive cfg) : Drive cfg :=
  let instr := i.commitInstr 1
  if decide (1 < cfg.nrCommitPorts) && commits1 i d then
    let d :=
      { d with port1 := { d.port1 with ack := true, macroAck := macroDone instr } }
    if !i.commitDrop 1 then
      let d :=
        if rdFpr instr then { d with port1 := { d.port1 with weFpr := true } }
        else { d with port1 := { d.port1 with weGpr := true } }
      if cfg.fpPresent && isFpu instr then
        { d with
          csrWdata :=
            if d.csrWriteFflags then fflags (i.commitInstr 0) ||| fflags instr
            else fflags instr
          csrWriteFflags := true }
      else d
    else d
  else d

/-- The process `commit`. -/
def commit : Drive cfg := commit1 i (commit0 i)

/-- What the process drives for port `k`. -/
def port (k : Nat) : Port cfg := if k = 0 then (commit i).port0 else (commit i).port1

/-- `commit_macro_ack_o[k]` -/
def commitMacroAck (k : Nat) : Bool :=
  if cfg.rvzcmp && (i.commitInstr k).isMacroInstr then (port i k).macroAck else (port i k).ack

/-- `waddr_o[k]` -/
def waddr (k : Nat) : BitVec 5 := (i.commitInstr k).rd

/-- `exception_o` -/
def exceptionO : Exception cfg.toBackendCfg :=
  let raised : Exception cfg.toBackendCfg :=
    if (i.commitInstr 0).valid && !i.commitDrop 0 then
      if (i.commitInstr 0).ex.valid then (i.commitInstr 0).ex
      else if i.csrException.valid then
        { i.csrException with tval := (i.commitInstr 0).ex.tval }
      else {}
    else {}
  if i.haltI then { raised with valid := false } else raised

end Commit

/-! ## Acknowledges -/

theorem commit0_ack {c : Input cfg} (acked : (commit0 c).port0.ack = true) :
    (c.commitInstr 0).valid = true := by
  unfold commit0 at acked
  split at acked
  · rename_i valid
    exact (Bool.and_eq_true_iff.mp valid).1
  · cases acked

/-- Port 1 changes nothing of port 0. -/
theorem commit1_port0 (c : Input cfg) (d : Drive cfg) :
    (commit1 c d).port0 = d.port0 ∧ (commit1 c d).commitLsu = d.commitLsu ∧
      (commit1 c d).commitCsr = d.commitCsr := by
  unfold commit1
  dsimp only
  split
  · split
    · split
      · split
        · exact ⟨rfl, rfl, rfl⟩
        · exact ⟨rfl, rfl, rfl⟩
      · split
        · exact ⟨rfl, rfl, rfl⟩
        · exact ⟨rfl, rfl, rfl⟩
    · exact ⟨rfl, rfl, rfl⟩
  · exact ⟨rfl, rfl, rfl⟩

theorem commit1_ack {c : Input cfg} {d : Drive cfg}
    (quiet : d.port1.ack = false) (acked : (commit1 c d).port1.ack = true) :
    1 < cfg.nrCommitPorts ∧ d.port0.ack = true ∧ (c.commitInstr 1).valid = true := by
  unfold commit1 at acked
  split at acked
  · rename_i commits
    obtain ⟨two, commits⟩ := Bool.and_eq_true_iff.mp commits
    simp only [commits1, Bool.and_eq_true] at commits
    exact ⟨of_decide_eq_true two, commits.1.1.1.1.1.1.1, commits.1.1.1.1.1.1.2⟩
  · rw [quiet] at acked
    cases acked

theorem commit0_port1 (c : Input cfg) : (commit0 c).port1 = (defaults c).port1 := by
  simp only [commit0, amo0, fence0, fenceI0, hfenceGvma0, hfenceVvma0, sfenceVma0, csr0,
    fpuFlags0, store0, retire0, waits0, apply_ite Drive.port1, ite_self]

/-- The second port commits only with the first, and both only what is valid. -/
theorem ack_valid {c : Input cfg} {k : Nat} (inside : k < cfg.nrCommitPorts)
    (acked : (port c k).ack = true) : (c.commitInstr k).valid = true := by
  unfold port commit at acked
  split at acked
  · rename_i first
    subst first
    rw [(commit1_port0 c _).1] at acked
    exact commit0_ack acked
  · have few := cfg.commitPorts
    obtain rfl : k = 1 := by omega
    exact (commit1_ack (by rw [commit0_port1]; rfl) acked).2.2

theorem ack_first {c : Input cfg} {k : Nat}
    (acked : (port c k).ack = true) : (port c 0).ack = true := by
  unfold port commit at acked ⊢
  split at acked
  · exact acked
  · rw [if_pos rfl, (commit1_port0 c _).1]
    exact (commit1_ack (by rw [commit0_port1]; rfl) acked).2.1

/-! ## Effects -/

section Effects

variable {c : Input cfg}

theorem commit0_weGpr (writes : (commit0 c).port0.weGpr = true) :
    (c.commitInstr 0).valid = true ∧
      (c.commitDrop 0 = false ∨ isAmo (c.commitInstr 0).op = true) := by
  simp only [commit0, amo0, fence0, fenceI0, hfenceGvma0, hfenceVvma0, sfenceVma0, csr0,
    fpuFlags0, store0, retire0, waits0, defaults, apply_ite Drive.port0,
    apply_ite Port.weGpr, ite_self] at writes
  grind [instr0IsAmo]

theorem commit0_weFpr (writes : (commit0 c).port0.weFpr = true) :
    (c.commitInstr 0).valid = true ∧ c.commitDrop 0 = false := by
  simp only [commit0, amo0, fence0, fenceI0, hfenceGvma0, hfenceVvma0, sfenceVma0, csr0,
    fpuFlags0, store0, retire0, waits0, defaults, apply_ite Drive.port0,
    apply_ite Port.weFpr, ite_self] at writes
  grind

theorem commit0_csrWriteFflags (writes : (commit0 c).csrWriteFflags = true) :
    (c.commitInstr 0).valid = true ∧ c.commitDrop 0 = false ∧
      isFpu (c.commitInstr 0) = true := by
  simp only [commit0, amo0, fence0, fenceI0, hfenceGvma0, hfenceVvma0, sfenceVma0, csr0,
    fpuFlags0, store0, retire0, waits0, defaults, apply_ite Drive.csrWriteFflags,
    ite_self] at writes
  grind

/-- Port 1 has an effect only when it acknowledges an instruction that is not dropped. -/
theorem commit1_effect
    (effect : (commit1 c (commit0 c)).port1.weGpr = true ∨
      (commit1 c (commit0 c)).port1.weFpr = true ∨
      (commit1 c (commit0 c)).csrWriteFflags = true ∧
        (commit0 c).csrWriteFflags = false) :
    (commit1 c (commit0 c)).port1.ack = true ∧ c.commitDrop 1 = false := by
  have quiet : (commit0 c).port1 = (defaults c).port1 := commit0_port1 c
  simp only [commit1, apply_ite Drive.port1, apply_ite Port.weGpr, apply_ite Port.weFpr,
    apply_ite Port.ack, apply_ite Drive.csrWriteFflags, quiet, defaults, ite_self] at effect ⊢
  grind

theorem commit1_csrWriteFflags (writes : (commit1 c (commit0 c)).csrWriteFflags = true)
    (quiet : (commit0 c).csrWriteFflags = false) : isFpu (c.commitInstr 1) = true := by
  simp only [commit1, apply_ite Drive.csrWriteFflags, quiet, ite_self] at writes
  grind

end Effects

end CommitStage

end Cva6
