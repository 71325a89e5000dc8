import RiscvCores.Cva6.CommitStage
import RiscvCores.Cva6.CsrAccess
import RiscvCores.Lib.Clocked

/-!
# Precise commits

The commit stage sets acknowledges, write enables and strobes early and takes them back
later.  First what port 0 drives, each output by itself; then what holds of both ports for
instructions as the decoder makes them, with the halt and the flush of the controller.
-/

set_option autoImplicit false

namespace Cva6.CommitStage

variable {cfg : CoreCfg} (i : Input cfg)

/-! ## Port 0 -/

/-- The instruction at port 0 is looked at and carries no exception. -/
def alive : Bool := (i.commitInstr 0).valid && !i.haltI && !(i.commitInstr 0).ex.valid

/-- An atomic operation is at port 0. -/
def amoThere : Bool := cfg.rva && instr0IsAmo i

/-- A store is at port 0 that is no atomic operation. -/
def storeThere : Bool := (i.commitInstr 0).fu == .store && !amoThere i

/-- Port 0 waits for the pending stores. -/
def fenceThere : Bool :=
  !i.commitDrop 0 &&
    (cfg.rvs && (i.commitInstr 0).op == .sfenceVma ||
      cfg.rvh && (i.commitInstr 0).op == .hfenceVvma ||
      cfg.rvh && (i.commitInstr 0).op == .hfenceGvma ||
      (i.commitInstr 0).op == .fenceI ||
      i.flushDcache && cfg.dcacheWb && (i.commitInstr 0).fu != .store ||
      (i.commitInstr 0).op == .fence)

/-- A CSR instruction that is not dropped is at port 0. -/
def csrThere : Bool := (i.commitInstr 0).fu == .csr && !i.commitDrop 0

theorem store0_ack (d : Drive cfg) :
    (store0 i d).port0.ack = (d.port0.ack && (!storeThere i || i.commitLsuReady)) := by
  change (if storeThere i then if i.commitLsuReady then _ else _ else d).port0.ack = _
  cases storeThere i with
  | false => simp
  | true =>
      cases i.commitLsuReady with
      | false => simp
      | true => simp

theorem csr0_ack (d : Drive cfg) :
    (csr0 i d).port0.ack = (d.port0.ack && !(csrThere i && i.csrException.valid)) := by
  unfold csr0
  rw [csrThere]
  cases (i.commitInstr 0).fu == .csr with
  | false => simp
  | true =>
      cases i.commitDrop 0 with
      | true => simp
      | false =>
          cases i.csrException.valid with
          | false => simp
          | true => simp

/-- The fences in front of the last one leave the wait to it. -/
theorem fences0_ack (d : Drive cfg) :
    (fence0 i (fenceI0 i (hfenceGvma0 i (hfenceVvma0 i (sfenceVma0 i d))))).port0.ack =
      if fenceThere i then i.noStPending else d.port0.ack := by
  rw [fenceThere]
  simp only [fence0, fenceI0, hfenceGvma0, hfenceVvma0, sfenceVma0, waits0,
    apply_ite Drive.port0, apply_ite Port.ack]
  cases i.commitDrop 0 with
  | true => simp
  | false =>
      simp only [Bool.not_false, Bool.and_true, Bool.true_and]
      generalize (i.commitInstr 0).op = op
      grind

/-- Port 0 behind the classes of instructions that wait or fail. -/
abbrev classes0 (d : Drive cfg) : Drive cfg :=
  amo0 i (fence0 i (fenceI0 i (hfenceGvma0 i (hfenceVvma0 i (sfenceVma0 i (csr0 i
    (fpuFlags0 i (store0 i (retire0 i d)))))))))

theorem commit0_alive (there : alive i = true) : commit0 i = classes0 i (defaults i) := by
  simp only [alive, Bool.and_eq_true, Bool.not_eq_true'] at there
  obtain ⟨⟨valid, running⟩, clean⟩ := there
  simp [commit0, valid, running, clean]

/-- Besides an acknowledge, nothing is driven for an instruction that is not looked at. -/
theorem commit0_dead (gone : alive i = false) :
    commit0 i =
      { defaults i with
        port0 :=
          { (defaults i).port0 with
            ack := (i.commitInstr 0).valid && !i.haltI && (i.commitInstr 0).ex.valid &&
              i.commitDrop 0 } } := by
  unfold commit0 alive at *
  cases valid : (i.commitInstr 0).valid && !i.haltI with
  | false => rfl
  | true =>
      cases failed : (i.commitInstr 0).ex.valid with
      | false => simp [valid, failed] at gone
      | true =>
          cases i.commitDrop 0 with
          | false => rfl
          | true => rfl

theorem fpuFlags0_port0 (d : Drive cfg) : (fpuFlags0 i d).port0 = d.port0 := by
  unfold fpuFlags0
  split
  · rfl
  · rfl

theorem classes0_ack (d : Drive cfg) :
    (classes0 i d).port0.ack =
      if amoThere i then i.amoAck
      else if fenceThere i then i.noStPending
      else (!storeThere i || i.commitLsuReady) && !(csrThere i && i.csrException.valid) := by
  have last (d : Drive cfg) :
      (amo0 i d).port0.ack = if amoThere i then i.amoAck else d.port0.ack := by
    unfold amo0 amoThere
    split
    · rfl
    · rfl
  rw [last, fences0_ack, csr0_ack, fpuFlags0_port0, store0_ack]
  rfl

theorem classes0_weGpr (d : Drive cfg) (quiet : d.port0.weGpr = false) :
    (classes0 i d).port0.weGpr =
      if amoThere i then i.amoAck
      else !i.commitDrop 0 && !rdFpr (i.commitInstr 0) &&
        !(csrThere i && i.csrException.valid) := by
  have last (d : Drive cfg) :
      (amo0 i d).port0.weGpr = if amoThere i then i.amoAck else d.port0.weGpr := by
    unfold amo0 amoThere
    split
    · rfl
    · rfl
  have fences (d : Drive cfg) :
      (fence0 i (fenceI0 i (hfenceGvma0 i (hfenceVvma0 i (sfenceVma0 i d))))).port0.weGpr =
        d.port0.weGpr := by
    simp only [fence0, fenceI0, hfenceGvma0, hfenceVvma0, sfenceVma0, waits0,
      apply_ite Drive.port0, apply_ite Port.weGpr, ite_self]
  have store (d : Drive cfg) : (store0 i d).port0.weGpr = d.port0.weGpr := by
    simp only [store0, apply_ite Drive.port0, apply_ite Port.weGpr, ite_self]
  have csr (d : Drive cfg) :
      (csr0 i d).port0.weGpr =
        (d.port0.weGpr && !(csrThere i && i.csrException.valid)) := by
    unfold csr0
    rw [csrThere]
    cases (i.commitInstr 0).fu == .csr with
    | false => simp
    | true =>
        cases i.commitDrop 0 with
        | true => simp
        | false =>
            cases i.csrException.valid with
            | false => simp
            | true => simp
  have retired : (retire0 i d).port0.weGpr =
      (!i.commitDrop 0 && !rdFpr (i.commitInstr 0)) := by
    simp only [retire0, quiet]
    cases !i.commitDrop 0 && !rdFpr (i.commitInstr 0) with
    | false => rfl
    | true => rfl
  rw [last, fences, csr, fpuFlags0_port0, store, retired]

theorem classes0_weFpr (d : Drive cfg) (quiet : d.port0.weFpr = false) :
    (classes0 i d).port0.weFpr = (!i.commitDrop 0 && rdFpr (i.commitInstr 0)) := by
  simp only [amo0, fence0, fenceI0, hfenceGvma0, hfenceVvma0, sfenceVma0, csr0,
    fpuFlags0, store0, retire0, waits0, apply_ite Drive.port0, apply_ite Port.weFpr, ite_self,
    quiet]
  cases !i.commitDrop 0 && rdFpr (i.commitInstr 0) with
  | false => rfl
  | true => rfl

theorem classes0_wdata (d : Drive cfg) :
    (classes0 i d).port0.wdata =
      if csrThere i && !i.csrException.valid then i.csrRdata else d.port0.wdata := by
  simp only [amo0, fence0, fenceI0, hfenceGvma0, hfenceVvma0, sfenceVma0, csr0,
    fpuFlags0, store0, retire0, waits0, apply_ite Drive.port0, apply_ite Port.wdata, ite_self]
  rw [csrThere]
  grind

theorem classes0_commitLsu (d : Drive cfg) (quiet : d.commitLsu = false) :
    (classes0 i d).commitLsu = (storeThere i && i.commitLsuReady) := by
  have store (d : Drive cfg) (quiet : d.commitLsu = false) :
      (store0 i d).commitLsu = (storeThere i && i.commitLsuReady) := by
    change (if storeThere i then if i.commitLsuReady then _ else _ else d).commitLsu = _
    cases storeThere i with
    | false => exact quiet
    | true =>
        cases i.commitLsuReady with
        | false => exact quiet
        | true => rfl
  rw [← store (retire0 i d) quiet]
  simp only [amo0, fence0, fenceI0, hfenceGvma0, hfenceVvma0, sfenceVma0, csr0, fpuFlags0,
    waits0, apply_ite Drive.commitLsu, ite_self]

theorem classes0_csr (d : Drive cfg) (quiet : d.commitCsr = false) (idle : d.csrOp = .add) :
    (classes0 i d).commitCsr = (csrThere i && !i.csrException.valid) ∧
      (classes0 i d).csrOp =
        if (i.commitInstr 0).fu = .csr then (i.commitInstr 0).op else .add := by
  constructor
  · simp only [amo0, fence0, fenceI0, hfenceGvma0, hfenceVvma0, sfenceVma0, csr0, fpuFlags0,
      store0, retire0, waits0, apply_ite Drive.commitCsr, ite_self, quiet]
    rw [csrThere]
    grind
  · simp only [amo0, fence0, fenceI0, hfenceGvma0, hfenceVvma0, sfenceVma0, csr0, fpuFlags0,
      store0, retire0, waits0, apply_ite Drive.csrOp, ite_self, idle, beq_iff_eq]

theorem classes0_fflags (d : Drive cfg) (quiet : d.csrWriteFflags = false) :
    (classes0 i d).csrWriteFflags =
        (cfg.fpPresent && isFpu (i.commitInstr 0) && !i.commitDrop 0) ∧
      (cfg.fpPresent = true → isFpu (i.commitInstr 0) = true → i.commitDrop 0 = false →
        (classes0 i d).csrWdata = fflags (i.commitInstr 0)) := by
  constructor
  · simp only [amo0, fence0, fenceI0, hfenceGvma0, hfenceVvma0, sfenceVma0, csr0, fpuFlags0,
      store0, retire0, waits0, apply_ite Drive.csrWriteFflags, ite_self, quiet]
    cases cfg.fpPresent && isFpu (i.commitInstr 0) && !i.commitDrop 0 with
    | false => rfl
    | true => rfl
  · intro present fpu kept
    have other : ((i.commitInstr 0).fu == .csr) = false := by
      apply Bool.eq_false_of_not_eq_true
      intro csr
      rw [isFpu, eq_of_beq csr] at fpu
      cases fpu
    simp only [amo0, fence0, fenceI0, hfenceGvma0, hfenceVvma0, sfenceVma0, csr0, fpuFlags0,
      store0, retire0, waits0, apply_ite Drive.csrWdata, ite_self, other, Bool.false_eq_true,
      if_false, present, fpu, kept, Bool.not_false, Bool.and_self, if_true]

theorem classes0_amo (d : Drive cfg) (quiet : d.amoValidCommit = false)
    (calm : d.flushCommit = false) :
    (classes0 i d).amoValidCommit = amoThere i ∧
      (classes0 i d).flushCommit = (amoThere i && i.amoAck) := by
  have there : (cfg.rva && instr0IsAmo i) = amoThere i := rfl
  constructor
  · simp only [amo0, fence0, fenceI0, hfenceGvma0, hfenceVvma0, sfenceVma0, csr0, fpuFlags0,
      store0, retire0, waits0, apply_ite Drive.amoValidCommit, ite_self, quiet, there]
    cases amoThere i with
    | false => rfl
    | true => rfl
  · simp only [amo0, fence0, fenceI0, hfenceGvma0, hfenceVvma0, sfenceVma0, csr0, fpuFlags0,
      store0, retire0, waits0, apply_ite Drive.flushCommit, ite_self, calm, there]
    cases amoThere i with
    | false => rfl
    | true => rfl

/-- A fence takes effect. -/
def Drive.fences (d : Drive cfg) : Bool :=
  d.fenceI || d.fence || d.sfenceVma || d.hfenceVvma || d.hfenceGvma

theorem classes0_fences (d : Drive cfg) (quiet : d.fences = false) :
    (classes0 i d).fences = true → fenceThere i = true ∧ i.noStPending = true := by
  simp only [Drive.fences, Bool.or_eq_false_iff] at quiet
  obtain ⟨⟨⟨⟨instruction, fence⟩, sfence⟩, vvma⟩, gvma⟩ := quiet
  simp only [Drive.fences, amo0, fence0, fenceI0, hfenceGvma0, hfenceVvma0, sfenceVma0, csr0,
    fpuFlags0, store0, retire0, waits0, apply_ite Drive.fenceI, apply_ite Drive.fence,
    apply_ite Drive.sfenceVma, apply_ite Drive.hfenceVvma, apply_ite Drive.hfenceGvma, ite_self,
    instruction, fence, sfence, vvma, gvma]
  rw [fenceThere]
  cases i.commitDrop 0 with
  | true => simp
  | false =>
      simp only [Bool.not_false, Bool.and_true, Bool.true_and]
      generalize (i.commitInstr 0).op = op
      grind

/-- What port 0 drives, output by output. -/
structure Drives0 (d : Drive cfg) : Prop where
  ack : d.port0.ack =
    if alive i then
      if amoThere i then i.amoAck
      else if fenceThere i then i.noStPending
      else (!storeThere i || i.commitLsuReady) && !(csrThere i && i.csrException.valid)
    else
      (i.commitInstr 0).valid && !i.haltI && (i.commitInstr 0).ex.valid && i.commitDrop 0
  weGpr : d.port0.weGpr =
    (alive i &&
      if amoThere i then i.amoAck
      else !i.commitDrop 0 && !rdFpr (i.commitInstr 0) &&
        !(csrThere i && i.csrException.valid))
  weFpr : d.port0.weFpr = (alive i && (!i.commitDrop 0 && rdFpr (i.commitInstr 0)))
  wdata : alive i = true → d.port0.wdata =
    if csrThere i && !i.csrException.valid then i.csrRdata
    else if cfg.rva && i.amoAck then i.amoResult else (i.commitInstr 0).result
  commitLsu : d.commitLsu = (alive i && (storeThere i && i.commitLsuReady))
  commitCsr : d.commitCsr = (alive i && (csrThere i && !i.csrException.valid))
  csrOp : d.csrOp =
    if alive i = true ∧ (i.commitInstr 0).fu = .csr then (i.commitInstr 0).op else .add
  csrWriteFflags : d.csrWriteFflags =
    (alive i && (cfg.fpPresent && isFpu (i.commitInstr 0) && !i.commitDrop 0))
  amoValidCommit : d.amoValidCommit = (alive i && amoThere i)
  flushCommit : d.flushCommit = (alive i && (amoThere i && i.amoAck))
  fences : d.fences = true → alive i = true ∧ fenceThere i = true ∧ i.noStPending = true
  port1 : d.port1 = (defaults i).port1

theorem commit0_drives : Drives0 i (commit0 i) := by
  cases there : alive i with
  | false =>
      rw [commit0_dead i there]
      constructor
      all_goals first
        | rw [there]; rfl
        | simp [there, Drive.fences, defaults]
  | true =>
      rw [commit0_alive i there]
      have port : (defaults i).port0.weGpr = false ∧ (defaults i).port0.weFpr = false :=
        ⟨rfl, rfl⟩
      constructor
      · rw [classes0_ack, there, if_pos rfl]
      · rw [classes0_weGpr i _ port.1, there, Bool.true_and]
      · rw [classes0_weFpr i _ port.2, there, Bool.true_and]
      · intro _
        exact classes0_wdata i _
      · rw [classes0_commitLsu i _ rfl, there, Bool.true_and]
      · rw [(classes0_csr i _ rfl rfl).1, there, Bool.true_and]
      · rw [(classes0_csr i _ rfl rfl).2]
        simp only [there, true_and]
      · rw [(classes0_fflags i _ rfl).1, there, Bool.true_and]
      · rw [(classes0_amo i _ rfl rfl).1, there, Bool.true_and]
      · rw [(classes0_amo i _ rfl rfl).2, there, Bool.true_and]
      · intro effect
        exact ⟨there, classes0_fences i _ rfl effect⟩
      · rw [← commit0_alive i there, commit0_port1]

/-! ## Port 1 -/

variable (d : Drive cfg)

/-- Both ports commit. -/
def both : Bool := decide (1 < cfg.nrCommitPorts) && commits1 i d

theorem commit1_port1 (quiet : d.port1 = (defaults i).port1) :
    (commit1 i d).port1.ack = both i d ∧
      (commit1 i d).port1.weGpr =
        (both i d && !i.commitDrop 1 && !rdFpr (i.commitInstr 1)) ∧
      (commit1 i d).port1.weFpr =
        (both i d && !i.commitDrop 1 && rdFpr (i.commitInstr 1)) ∧
      (commit1 i d).port1.wdata = (i.commitInstr 1).result := by
  have idle : d.port1 = { wdata := (i.commitInstr 1).result } := quiet
  have second : (decide (1 < cfg.nrCommitPorts) && commits1 i d) = both i d := rfl
  simp only [commit1, second, apply_ite Drive.port1, apply_ite Port.ack, apply_ite Port.weGpr,
    apply_ite Port.weFpr, apply_ite Port.wdata, ite_self, idle]
  cases both i d with
  | false => simp
  | true =>
      cases i.commitDrop 1 with
      | true => simp
      | false =>
          cases rdFpr (i.commitInstr 1) with
          | false => simp
          | true => simp

theorem commit1_fflags :
    (commit1 i d).csrWriteFflags =
        (d.csrWriteFflags ||
          both i d && !i.commitDrop 1 && (cfg.fpPresent && isFpu (i.commitInstr 1))) ∧
      (both i d = true → i.commitDrop 1 = false → cfg.fpPresent = true →
        isFpu (i.commitInstr 1) = true → d.csrWriteFflags = true →
        (commit1 i d).csrWdata = fflags (i.commitInstr 0) ||| fflags (i.commitInstr 1)) := by
  have second : (decide (1 < cfg.nrCommitPorts) && commits1 i d) = both i d := rfl
  constructor
  · simp only [commit1, second, apply_ite Drive.csrWriteFflags, ite_self]
    cases both i d with
    | false => simp
    | true =>
        cases i.commitDrop 1 with
        | true => simp
        | false =>
            cases cfg.fpPresent && isFpu (i.commitInstr 1) with
            | false => simp
            | true => simp
  · intro commits kept present fpu first
    simp only [commit1, second, commits, kept, present, fpu, if_true, Bool.not_false,
      Bool.and_self, apply_ite Drive.csrWriteFflags, first, ite_self]

/-- Of all other effects port 1 has none. -/
theorem commit1_others :
    (commit1 i d).port0 = d.port0 ∧ (commit1 i d).commitLsu = d.commitLsu ∧
      (commit1 i d).commitCsr = d.commitCsr ∧ (commit1 i d).csrOp = d.csrOp ∧
      (commit1 i d).amoValidCommit = d.amoValidCommit ∧
      (commit1 i d).flushCommit = d.flushCommit ∧ (commit1 i d).fences = d.fences := by
  simp only [commit1, apply_ite Drive.port0, apply_ite Drive.commitLsu,
    apply_ite Drive.commitCsr, apply_ite Drive.csrOp, apply_ite Drive.amoValidCommit,
    apply_ite Drive.flushCommit, Drive.fences, apply_ite Drive.fenceI, apply_ite Drive.fence,
    apply_ite Drive.sfenceVma, apply_ite Drive.hfenceVvma, apply_ite Drive.hfenceGvma, ite_self,
    and_self]

/-! ## Precise commits -/

def fenceOps : List FuOp := [.sfenceVma, .hfenceVvma, .hfenceGvma, .fenceI, .fence]

/-- The CSR file acts on these operations. -/
def csrActs : List FuOp :=
  [.csrWrite, .csrSet, .csrClear, .csrRead, .mret, .sret, .dret, .wfi]

/-- An instruction as the decoder makes it: a fence is a CSR instruction and an atomic
operation a store, and neither fences nor other stores name a destination. -/
structure Decoded (instr : Instr cfg) : Prop where
  fence : instr.op ∈ fenceOps → instr.fu = .csr ∧ instr.rd = 0
  amo : isAmo instr.op = true → instr.fu = .store ∧ cfg.rva = true
  store : instr.fu = .store → isAmo instr.op = false →
    instr.rd = 0 ∧ rdFpr instr = false

def Consistent : Prop :=
  ∀ k < cfg.nrCommitPorts, (i.commitInstr k).valid = true → Decoded (i.commitInstr k)

/-- The CSR file answers an access in the cycle, and the cache the atomic operation at
port 0. -/
structure Answered : Prop where
  csr : i.csrException.valid = true → CsrRegfile.csrAccess (commit i).csrOp = true
  amo : i.amoAck = true → (commit i).amoValidCommit = true

/-- Some effect outside of the scoreboard. -/
def Drive.effects (d : Drive cfg) : Bool :=
  d.port0.weGpr || d.port0.weFpr || d.port1.weGpr || d.port1.weFpr || d.commitLsu ||
    d.commitCsr || d.csrWriteFflags || d.amoValidCommit || d.flushCommit || d.fences

/-- What an instruction at port `k` writes. -/
def ownResult (k : Nat) : BitVec cfg.xlen :=
  if k = 0 ∧ (i.commitInstr 0).fu = .csr then i.csrRdata
  else if k = 0 ∧ amoThere i = true then i.amoResult
  else (i.commitInstr k).result

structure Precise : Prop where
  trapped : (exceptionO i).valid = true →
    (commit i).effects = false ∧ (commit i).port0.ack = false ∧ (commit i).port1.ack = false
  second : (commit i).port1.ack = true →
    (commit i).port0.ack = true ∧ (exceptionO i).valid = false ∧
      (commit i).commitCsr = false ∧ (commit i).csrOp = .add ∧
      (commit i).amoValidCommit = false ∧ (commit i).fences = false ∧
      (commit i).flushCommit = false ∧ i.flushDcache = false
  writes : ∀ k < cfg.nrCommitPorts, (port i k).ack = true → i.commitDrop k = false →
    (port i k).weFpr = rdFpr (i.commitInstr k) ∧
      (port i k).weGpr = !rdFpr (i.commitInstr k) ∧ (port i k).wdata = ownResult i k
  stores : (commit i).commitLsu = true ↔
    (commit i).port0.ack = true ∧ storeThere i = true ∧ (i.commitInstr 0).ex.valid = false
  /-- What waits writes at most the register that reads as zero. -/
  waits : ∀ k < cfg.nrCommitPorts, (port i k).ack = false →
    (port i k).weFpr = false ∧ ((port i k).weGpr = true → waddr i k = 0)
  /-- What waits at port 0 repeats no store, no flags, no fence and no CSR access. -/
  repeats : (commit i).port0.ack = false →
    (commit i).commitLsu = false ∧ (commit i).csrWriteFflags = false ∧
      (commit i).fences = false ∧ (commit i).flushCommit = false ∧
      ((commit i).commitCsr = true → (i.commitInstr 0).op ∈ fenceOps) ∧
      ((commit i).csrOp ∈ csrActs → (exceptionO i).valid = true)
  flags : cfg.fpPresent = true → (commit i).port0.ack = true → (commit i).port1.ack = true →
    isFpu (i.commitInstr 0) = true → isFpu (i.commitInstr 1) = true →
    i.commitDrop 0 = false → i.commitDrop 1 = false →
    (commit i).csrWriteFflags = true ∧
      (commit i).csrWdata = fflags (i.commitInstr 0) ||| fflags (i.commitInstr 1)

section Precise

variable {i}

/-- What port 0 drives for a living instruction when the cache is not flushed. -/
structure Alive (i : Input cfg) : Prop where
  there : alive i = true
  calm : i.flushDcache = false

theorem Alive.clean (live : Alive i) :
    (i.commitInstr 0).valid = true ∧ i.haltI = false ∧
      (i.commitInstr 0).ex.valid = false := by
  simpa [alive, and_assoc] using live.there

theorem Alive.fence_op (live : Alive i) (fence : fenceThere i = true) :
    (i.commitInstr 0).op ∈ fenceOps := by
  simp only [fenceThere, live.calm, Bool.false_and, Bool.or_false, Bool.and_eq_true,
    Bool.or_eq_true, beq_iff_eq] at fence
  simp only [fenceOps, List.mem_cons, List.not_mem_nil, or_false]
  tauto

theorem amo_op (amo : amoThere i = true) : isAmo (i.commitInstr 0).op = true :=
  (Bool.and_eq_true_iff.mp amo).2

theorem isAmo_of_fenceOps {op : FuOp} (fence : op ∈ fenceOps) : isAmo op = false := by
  revert op
  decide

theorem isRdFpr_of_fenceOps {op : FuOp} (fence : op ∈ fenceOps) : isRdFpr op = false := by
  revert op
  decide

theorem not_fenceOps_of_csrActs {op : FuOp} (acts : op ∈ csrActs) : op ∉ fenceOps := by
  revert op
  decide

theorem isAmo_of_csrActs {op : FuOp} (acts : op ∈ csrActs) : isAmo op = false := by
  revert op
  decide

theorem isRdFpr_of_csrActs {op : FuOp} (acts : op ∈ csrActs) : isRdFpr op = false := by
  revert op
  decide

theorem csrActs_of_access {op : FuOp} (access : CsrRegfile.csrAccess op = true) :
    op ∈ csrActs := by
  simp only [CsrRegfile.csrAccess, decide_eq_true_eq, List.mem_cons, List.not_mem_nil,
    or_false] at access
  rcases access with rfl | rfl | rfl | rfl
  all_goals decide

theorem isRdFpr_of_isAmo {op : FuOp} (amo : isAmo op = true) : isRdFpr op = false := by
  cases op <;> revert amo <;> decide

theorem exceptionO_valid_iff :
    (exceptionO i).valid = true ↔
      (i.commitInstr 0).valid = true ∧ i.commitDrop 0 = false ∧ i.haltI = false ∧
        ((i.commitInstr 0).ex.valid = true ∨ i.csrException.valid = true) := by
  unfold exceptionO
  cases (i.commitInstr 0).valid with
  | false => simp
  | true =>
      cases i.commitDrop 0 with
      | true => simp
      | false =>
          cases i.haltI with
          | true => simp
          | false =>
              cases failed : (i.commitInstr 0).ex.valid with
              | true => simp [failed]
              | false =>
                  cases refused : i.csrException.valid with
                  | false => simp
                  | true => simp [refused]

theorem both_conditions {d : Drive cfg} (second : both i d = true) :
    d.port0.ack = true ∧ i.haltI = false ∧ (i.commitInstr 0).fu ≠ .csr ∧
      i.flushDcache = false ∧ amoThere i = false := by
  simp only [both, commits1, Bool.and_eq_true, Bool.not_eq_true', bne_iff_ne] at second
  obtain ⟨-, ⟨⟨⟨⟨⟨⟨acked, -⟩, running⟩, other⟩, calm⟩, amo⟩, -⟩, -⟩ := second
  exact ⟨acked, running, other, calm, amo⟩

/-- The outputs of both ports by those of port 0. -/
theorem commit_others :
    (commit i).port0 = (commit0 i).port0 ∧ (commit i).commitLsu = (commit0 i).commitLsu ∧
      (commit i).commitCsr = (commit0 i).commitCsr ∧ (commit i).csrOp = (commit0 i).csrOp ∧
      (commit i).amoValidCommit = (commit0 i).amoValidCommit ∧
      (commit i).flushCommit = (commit0 i).flushCommit ∧
      (commit i).fences = (commit0 i).fences :=
  commit1_others i (commit0 i)

theorem refused_access (answered : Answered i)
    (refused : i.csrException.valid = true) :
    (i.commitInstr 0).fu = .csr ∧ (i.commitInstr 0).op ∈ csrActs := by
  have access := answered.csr refused
  rw [commit_others.2.2.2.1, (commit0_drives i).csrOp] at access
  split at access
  · rename_i csr
    exact ⟨csr.2, csrActs_of_access access⟩
  · cases access

/-- A CSR instruction that the CSR file acts on belongs to no other class. -/
theorem csr_class (live : Alive i) (csr : (i.commitInstr 0).fu = .csr)
    (acts : (i.commitInstr 0).op ∈ csrActs) :
    amoThere i = false ∧ fenceThere i = false ∧ storeThere i = false ∧
      rdFpr (i.commitInstr 0) = false ∧ isFpu (i.commitInstr 0) = false := by
  refine ⟨?_, ?_, ?_, ?_, ?_⟩
  · rw [amoThere, instr0IsAmo, isAmo_of_csrActs acts, Bool.and_false]
  · apply Bool.eq_false_of_not_eq_true
    intro fence
    exact not_fenceOps_of_csrActs acts (live.fence_op fence)
  · rw [storeThere, csr]
    rfl
  · rw [rdFpr, isRdFpr_of_csrActs acts, Bool.and_false]
  · rw [isFpu, csr]
    rfl

/-- Without an acknowledge at port 0, port 1 drives nothing. -/
theorem commit_unacked (unacked : (commit0 i).port0.ack = false) : commit i = commit0 i := by
  have alone : both i (commit0 i) = false := by
    apply Bool.eq_false_of_not_eq_true
    intro second
    rw [(both_conditions second).1] at unacked
    cases unacked
  rw [commit, commit1]
  exact if_neg (Bool.eq_false_iff.mp alone)

theorem commit0_effects (port : (commit0 i).port0.weGpr = false ∧ (commit0 i).port0.weFpr = false)
    (lsu : (commit0 i).commitLsu = false) (csr : (commit0 i).commitCsr = false)
    (flags : (commit0 i).csrWriteFflags = false) (amo : (commit0 i).amoValidCommit = false)
    (flush : (commit0 i).flushCommit = false) (fences : (commit0 i).fences = false) :
    (commit0 i).effects = false := by
  have idle : (commit0 i).port1 = { wdata := (i.commitInstr 1).result } := commit0_port1 i
  simp only [Drive.effects, port, lsu, csr, flags, amo, flush, fences, idle, Bool.or_self]

theorem effects_trapped (calm : i.flushDcache = true → i.haltI = true) (answered : Answered i)
    (raised : (exceptionO i).valid = true) :
    (commit i).effects = false ∧ (commit i).port0.ack = false ∧
      (commit i).port1.ack = false := by
  obtain ⟨valid, kept, running, cause⟩ := exceptionO_valid_iff.mp raised
  have drives := commit0_drives i
  have idle : (commit0 i).port1.ack = false := by
    rw [drives.port1]
    rfl
  have nothing : (commit0 i).effects = false ∧ (commit0 i).port0.ack = false := by
    cases there : alive i with
    | false =>
        rw [commit0_dead i there, kept]
        exact ⟨rfl, Bool.and_false _⟩
    | true =>
        have live : Alive i := by
          refine ⟨there, Bool.eq_false_of_not_eq_true ?_⟩
          intro flushes
          rw [calm flushes] at running
          cases running
        have refused : i.csrException.valid = true := by
          rcases cause with failed | refused
          · rw [live.clean.2.2] at failed
            cases failed
          · exact refused
        obtain ⟨csr, acts⟩ := refused_access answered refused
        obtain ⟨amo, fence, store, fpr, fpu⟩ := csr_class live csr acts
        have here : csrThere i = true := by
          rw [csrThere, csr, kept]
          rfl
        constructor
        · apply commit0_effects
          · rw [drives.weGpr, drives.weFpr, amo, here, refused, fpr]
            simp
          · rw [drives.commitLsu, store, Bool.false_and, Bool.and_false]
          · rw [drives.commitCsr, refused, Bool.not_true, Bool.and_false, Bool.and_false]
          · rw [drives.csrWriteFflags, fpu]
            simp
          · rw [drives.amoValidCommit, amo, Bool.and_false]
          · rw [drives.flushCommit, amo, Bool.false_and, Bool.and_false]
          · apply Bool.eq_false_of_not_eq_true
            intro effect
            rw [(drives.fences effect).2.1] at fence
            cases fence
        · rw [drives.ack, there, amo, fence, here, refused]
          simp
  rw [commit_unacked nothing.2]
  exact ⟨nothing.1, nothing.2, idle⟩

theorem firstPort (cfg : CoreCfg) : 0 < cfg.nrCommitPorts := by
  rcases cfg.commitPorts with one | two
  · rw [one]
    exact Nat.one_pos
  · rw [two]
    exact Nat.two_pos

theorem second_beside (calms : i.flushDcache = true → i.haltI = true)
    (consistent : Consistent i) (answered : Answered i)
    (acked : (commit i).port1.ack = true) :
    (commit i).port0.ack = true ∧ (exceptionO i).valid = false ∧
      (commit i).commitCsr = false ∧ (commit i).csrOp = .add ∧
      (commit i).amoValidCommit = false ∧ (commit i).fences = false ∧
      (commit i).flushCommit = false ∧ i.flushDcache = false := by
  have drives := commit0_drives i
  have second : both i (commit0 i) = true := by
    rw [← (commit1_port1 i _ drives.port1).1]
    exact acked
  obtain ⟨first, running, other, calm, amo⟩ := both_conditions second
  obtain ⟨port0, -, commitCsr, csrOp, amoValid, flush, fences⟩ := commit_others (i := i)
  have csr : csrThere i = false := by
    rw [csrThere, beq_false_of_ne other, Bool.false_and]
  refine ⟨by rw [port0, first], ?_, ?_, ?_, ?_, ?_, ?_, calm⟩
  · apply Bool.eq_false_of_not_eq_true
    intro raised
    rw [(effects_trapped calms answered raised).2.2] at acked
    cases acked
  · rw [commitCsr, drives.commitCsr, csr, Bool.false_and, Bool.and_false]
  · rw [csrOp, drives.csrOp, if_neg fun both => other both.2]
  · rw [amoValid, drives.amoValidCommit, amo, Bool.and_false]
  · apply Bool.eq_false_of_not_eq_true
    intro effect
    rw [fences] at effect
    obtain ⟨there, fence, -⟩ := drives.fences effect
    have live : Alive i := ⟨there, calm⟩
    exact other ((consistent 0 (firstPort cfg) live.clean.1).fence (live.fence_op fence)).1
  · rw [flush, drives.flushCommit, amo, Bool.false_and, Bool.and_false]

/-- The classes of a living instruction. -/
theorem Alive.classes (live : Alive i) (consistent : Consistent i) :
    (amoThere i = true → csrThere i = false ∧ storeThere i = false ∧
        rdFpr (i.commitInstr 0) = false ∧ isFpu (i.commitInstr 0) = false ∧
        fenceThere i = false ∧ (i.commitInstr 0).fu ≠ .csr) ∧
      (fenceThere i = true → storeThere i = false ∧ rdFpr (i.commitInstr 0) = false ∧
        isFpu (i.commitInstr 0) = false ∧ (i.commitInstr 0).rd = 0) ∧
      (storeThere i = true → amoThere i = false ∧ fenceThere i = false ∧
        rdFpr (i.commitInstr 0) = false ∧ isFpu (i.commitInstr 0) = false ∧
        csrThere i = false ∧ (i.commitInstr 0).fu ≠ .csr ∧ (i.commitInstr 0).rd = 0) := by
  have decoded := consistent 0 (firstPort cfg) live.clean.1
  refine ⟨?_, ?_, ?_⟩
  · intro amo
    have op := amo_op amo
    have unit := (decoded.amo op).1
    refine ⟨?_, ?_, ?_, ?_, ?_, ?_⟩
    · rw [csrThere, unit]
      rfl
    · rw [storeThere, amo, Bool.not_true, Bool.and_false]
    · rw [rdFpr, isRdFpr_of_isAmo op, Bool.and_false]
    · rw [isFpu, unit]
      rfl
    · apply Bool.eq_false_of_not_eq_true
      intro fence
      rw [isAmo_of_fenceOps (live.fence_op fence)] at op
      cases op
    · rw [unit]
      decide
  · intro fence
    have op := live.fence_op fence
    obtain ⟨unit, rd⟩ := decoded.fence op
    refine ⟨?_, ?_, ?_, rd⟩
    · rw [storeThere, unit]
      rfl
    · rw [rdFpr, isRdFpr_of_fenceOps op, Bool.and_false]
    · rw [isFpu, unit]
      rfl
  · intro store
    simp only [storeThere, Bool.and_eq_true, beq_iff_eq, Bool.not_eq_true'] at store
    obtain ⟨unit, other⟩ := store
    have op : isAmo (i.commitInstr 0).op = false := by
      apply Bool.eq_false_of_not_eq_true
      intro amo
      rw [amoThere, instr0IsAmo, amo, (decoded.amo amo).2] at other
      cases other
    obtain ⟨rd, fpr⟩ := decoded.store unit op
    refine ⟨other, ?_, fpr, ?_, ?_, ?_, rd⟩
    · apply Bool.eq_false_of_not_eq_true
      intro fence
      have csr := (decoded.fence (live.fence_op fence)).1
      rw [unit] at csr
      cases csr
    · rw [isFpu, unit]
      rfl
    · rw [csrThere, unit]
      rfl
    · rw [unit]
      decide

theorem port_zero : port i 0 = (commit0 i).port0 :=
  (if_pos rfl).trans commit_others.1

theorem port_one : port i 1 = (commit i).port1 := rfl

/-- An acknowledged instruction that is not dropped is a living one. -/
theorem alive_of_ack (calm : i.flushDcache = true → i.haltI = true)
    (acked : (commit0 i).port0.ack = true) (kept : i.commitDrop 0 = false) : Alive i := by
  have drives := commit0_drives i
  have there : alive i = true := by
    by_contra gone
    rw [drives.ack, if_neg gone, kept, Bool.and_false] at acked
    cases acked
  refine ⟨there, Bool.eq_false_of_not_eq_true ?_⟩
  intro flushes
  simp [alive, calm flushes] at there

theorem live_of_alive (calm : i.flushDcache = true → i.haltI = true) (there : alive i = true) :
    Alive i := by
  refine ⟨there, Bool.eq_false_of_not_eq_true ?_⟩
  intro flushes
  simp [alive, calm flushes] at there

theorem writes_first (calm : i.flushDcache = true → i.haltI = true)
    (consistent : Consistent i) (answered : Answered i)
    (acked : (commit0 i).port0.ack = true) (kept : i.commitDrop 0 = false) :
    (commit0 i).port0.weFpr = rdFpr (i.commitInstr 0) ∧
      (commit0 i).port0.weGpr = !rdFpr (i.commitInstr 0) ∧
      (commit0 i).port0.wdata = ownResult i 0 := by
  have drives := commit0_drives i
  have live := alive_of_ack calm acked kept
  obtain ⟨amoClass, fenceClass, -⟩ := live.classes consistent
  have amoAck : i.amoAck = true → amoThere i = true := by
    intro ack
    have valid := answered.amo ack
    rw [commit_others.2.2.2.2.1, drives.amoValidCommit] at valid
    exact (Bool.and_eq_true_iff.mp valid).2
  have granted : i.csrException.valid = false := by
    apply Bool.eq_false_of_not_eq_true
    intro refused
    have raised : (exceptionO i).valid = true :=
      exceptionO_valid_iff.mpr ⟨live.clean.1, kept, live.clean.2.1, .inr refused⟩
    have lost := (effects_trapped calm answered raised).2.1
    rw [commit_others.1, acked] at lost
    cases lost
  have written := drives.wdata live.there
  rw [drives.weFpr, drives.weGpr, written, live.there, kept, granted]
  cases amo : amoThere i with
  | true =>
      obtain ⟨csr, -, fpr, -, -, other⟩ := amoClass amo
      rw [drives.ack, if_pos live.there, if_pos amo] at acked
      have present : cfg.rva = true := (Bool.and_eq_true_iff.mp amo).1
      simp [csr, fpr, acked, present, ownResult, amo, other]
  | false =>
      have unacked : i.amoAck = false := by
        apply Bool.eq_false_of_not_eq_true
        intro ack
        rw [amoAck ack] at amo
        cases amo
      simp [csrThere, kept, unacked, ownResult, amo]

theorem stores_iff (calm : i.flushDcache = true → i.haltI = true) (consistent : Consistent i) :
    (commit0 i).commitLsu = true ↔
      (commit0 i).port0.ack = true ∧ storeThere i = true ∧
        (i.commitInstr 0).ex.valid = false := by
  have drives := commit0_drives i
  cases there : alive i with
  | false =>
      rw [drives.commitLsu, drives.ack, there]
      cases (i.commitInstr 0).ex.valid with
      | false => simp
      | true => simp
  | true =>
      have live := live_of_alive calm there
      rw [drives.commitLsu, drives.ack, there, live.clean.2.2]
      cases store : storeThere i with
      | false => simp
      | true =>
          obtain ⟨amo, fence, -, -, csr, -⟩ := (live.classes consistent).2.2 store
          simp [amo, fence, csr]

/-- What port 0 drives while its instruction waits. -/
theorem waits_first (calm : i.flushDcache = true → i.haltI = true) (consistent : Consistent i)
    (answered : Answered i) (unacked : (commit0 i).port0.ack = false) :
    ((commit0 i).port0.weFpr = false ∧
        ((commit0 i).port0.weGpr = true → (i.commitInstr 0).rd = 0)) ∧
      (commit0 i).csrWriteFflags = false ∧ (commit0 i).fences = false ∧
      (commit0 i).flushCommit = false ∧
      ((commit0 i).commitCsr = true → (i.commitInstr 0).op ∈ fenceOps) ∧
      ((commit0 i).csrOp ∈ csrActs → (exceptionO i).valid = true) := by
  have drives := commit0_drives i
  cases there : alive i with
  | false =>
      have op : (commit0 i).csrOp = .add := by
        rw [drives.csrOp, there]
        simp
      rw [commit0_dead i there] at *
      refine ⟨⟨rfl, fun write => ?_⟩, rfl, rfl, rfl, fun commits => ?_, fun acts => ?_⟩
      · cases write
      · cases commits
      · rw [op] at acts
        exact absurd acts (by decide)
  | true =>
      have live := live_of_alive calm there
      obtain ⟨amoClass, fenceClass, storeClass⟩ := live.classes consistent
      rw [drives.ack, if_pos there] at unacked
      have fences (absent : fenceThere i = true → i.noStPending = false) :
          (commit0 i).fences = false := by
        apply Bool.eq_false_of_not_eq_true
        intro effect
        obtain ⟨-, fence, drained⟩ := drives.fences effect
        rw [absent fence] at drained
        cases drained
      have idleOp (other : (i.commitInstr 0).fu ≠ .csr) : (commit0 i).csrOp ∉ csrActs := by
        rw [drives.csrOp, if_neg fun csr => other csr.2]
        decide
      cases amo : amoThere i with
      | true =>
          obtain ⟨csr, -, fpr, fpu, fence, other⟩ := amoClass amo
          rw [if_pos amo] at unacked
          rw [drives.weFpr, drives.weGpr, drives.csrWriteFflags, drives.flushCommit,
            drives.commitCsr]
          refine ⟨?_, ?_, fences fun there => ?_, ?_, ?_, fun acts => absurd acts (idleOp other)⟩
          · simp [fpr, amo, unacked]
          · simp [fpu]
          · rw [fence] at there
            cases there
          · simp [unacked]
          · simp [csr]
      | false =>
          rw [if_neg (Bool.eq_false_iff.mp amo)] at unacked
          rw [drives.weFpr, drives.weGpr, drives.csrWriteFflags, drives.flushCommit,
            drives.commitCsr]
          cases fence : fenceThere i with
          | true =>
              obtain ⟨-, fpr, fpu, rd⟩ := fenceClass fence
              have op := live.fence_op fence
              rw [if_pos fence] at unacked
              refine ⟨⟨?_, fun _ => rd⟩, ?_, fences fun _ => unacked, ?_, fun _ => op, ?_⟩
              · simp [fpr]
              · simp [fpu]
              · simp [amo]
              · intro acts
                rw [drives.csrOp] at acts
                split at acts
                · exact absurd op (not_fenceOps_of_csrActs acts)
                · exact absurd acts (by decide)
          | false =>
              rw [if_neg (Bool.eq_false_iff.mp fence)] at unacked
              have still := fences fun there => absurd there (Bool.eq_false_iff.mp fence)
              cases store : storeThere i with
              | true =>
                  obtain ⟨-, -, fpr, fpu, csr, other, rd⟩ := storeClass store
                  refine ⟨⟨?_, fun _ => rd⟩, ?_, still, ?_, ?_,
                    fun acts => absurd acts (idleOp other)⟩
                  · simp [fpr]
                  · simp [fpu]
                  · simp [amo]
                  · simp [csr]
              | false =>
                  have refused : csrThere i = true ∧ i.csrException.valid = true := by
                    simpa [store] using unacked
                  obtain ⟨csr, refused⟩ := refused
                  obtain ⟨unit, acts⟩ := refused_access answered refused
                  obtain ⟨-, -, -, fpr, fpu⟩ := csr_class live unit acts
                  refine ⟨?_, ?_, still, ?_, ?_, fun _ => ?_⟩
                  · simp [fpr, amo, csr, refused]
                  · simp [fpu]
                  · simp [amo]
                  · simp [refused]
                  · simp only [csrThere, Bool.and_eq_true, Bool.not_eq_true'] at csr
                    exact exceptionO_valid_iff.mpr
                      ⟨live.clean.1, csr.2, live.clean.2.1, .inr refused⟩

/-- Every input is committed precisely when the controller halts what it flushes. -/
theorem precise_of_calm (calm : i.flushDcache = true → i.haltI = true)
    (consistent : Consistent i) (answered : Answered i) : Precise i := by
  have drives := commit0_drives i
  obtain ⟨port0, commitLsu, commitCsr, csrOp, -, flush, fences⟩ := commit_others (i := i)
  obtain ⟨ack1, gpr1, fpr1, wdata1⟩ := commit1_port1 i (commit0 i) drives.port1
  have portOf : ∀ k < cfg.nrCommitPorts,
      k = 0 ∧ port i k = (commit0 i).port0 ∨ k = 1 ∧ port i k = (commit i).port1 := by
    intro k inside
    have few := cfg.commitPorts
    by_cases first : k = 0
    · subst first
      exact .inl ⟨rfl, port_zero⟩
    · obtain rfl : k = 1 := by omega
      exact .inr ⟨rfl, rfl⟩
  exact
    { trapped := effects_trapped calm answered
      second := second_beside calm consistent answered
      writes := by
        intro k inside acked kept
        rcases portOf k inside with ⟨rfl, eq⟩ | ⟨rfl, eq⟩
        · rw [eq] at acked ⊢
          exact writes_first calm consistent answered acked kept
        · rw [eq] at acked ⊢
          have second : both i (commit0 i) = true := ack1.symm.trans acked
          refine ⟨?_, ?_, ?_⟩
          · refine fpr1.trans ?_
            rw [second, kept]
            rfl
          · refine gpr1.trans ?_
            rw [second, kept]
            rfl
          · exact wdata1
      stores := by
        rw [commitLsu, port0]
        exact stores_iff calm consistent
      waits := by
        intro k inside unacked
        rcases portOf k inside with ⟨rfl, eq⟩ | ⟨rfl, eq⟩
        · rw [eq] at unacked ⊢
          exact (waits_first calm consistent answered unacked).1
        · rw [eq] at unacked ⊢
          have alone : both i (commit0 i) = false := ack1.symm.trans unacked
          refine ⟨fpr1.trans ?_, fun write => ?_⟩
          · rw [alone]
            rfl
          · have silent := gpr1
            rw [alone] at silent
            rw [show (commit i).port1.weGpr = false from silent] at write
            cases write
      repeats := by
        intro unacked
        rw [port0] at unacked
        rw [commit_unacked unacked]
        obtain ⟨-, flags, still, calm', pops, acts⟩ :=
          waits_first calm consistent answered unacked
        refine ⟨?_, flags, still, calm', pops, acts⟩
        apply Bool.eq_false_of_not_eq_true
        intro commits
        rw [((stores_iff calm consistent).mp commits).1] at unacked
        cases unacked
      flags := by
        intro present acked0 acked1 fpu0 fpu1 kept0 kept1
        rw [port0] at acked0
        have live := alive_of_ack calm acked0 kept0
        have first : (commit0 i).csrWriteFflags = true := by
          rw [drives.csrWriteFflags, live.there, present, fpu0, kept0]
          rfl
        obtain ⟨written, union⟩ := commit1_fflags i (commit0 i)
        refine ⟨written.trans ?_, union (ack1.symm.trans acked1) kept1 present fpu1 first⟩
        rw [first, Bool.true_or] }

end Precise

/-! ## The halt and the flush of the controller -/

/-- The registers of `controller`. -/
structure Controller where
  fenceActive : Bool
  flushDcache : Bool
  deriving DecidableEq

/-- The inputs of a cycle; the controller drives `haltI` and `flushDcache` of the pins. -/
structure Cycle (cfg : CoreCfg) where
  pins : Input cfg
  haltCsr : Bool
  haltAcc : Bool
  flushDcacheAck : Bool

/-- `halt_o` -/
def haltO (flushOnFence : Bool) (s : Controller) (j : Cycle cfg) : Bool :=
  j.haltCsr || j.haltAcc || flushOnFence && s.fenceActive

/-- What the commit stage sees. -/
def controlled (flushOnFence : Bool) (s : Controller) (j : Cycle cfg) : Input cfg :=
  { j.pins with haltI := haltO flushOnFence s j, flushDcache := s.flushDcache }

/-- The registers that the process `flush_ctrl` drives. -/
def controllerNext (flushOnFence : Bool) (s : Controller) (j : Cycle cfg) : Controller :=
  let d := commit (controlled flushOnFence s j)
  let fenced : Controller :=
    if (d.fence || d.fenceI) && flushOnFence then ⟨true, true⟩ else ⟨s.fenceActive, false⟩
  if flushOnFence then
    if j.flushDcacheAck && s.fenceActive then { fenced with fenceActive := false }
    else if s.fenceActive then { fenced with flushDcache := true }
    else fenced
  else fenced

/-- The commit stage with its controller. -/
def controlledMachine (cfg : CoreCfg) (flushOnFence : Bool) :
    Clocked.Machine Controller (Cycle cfg) where
  reset := ⟨false, false⟩
  next := controllerNext flushOnFence
  allowed _ _ _ := True

instance (cycles : List (Controller × Cycle cfg)) (flushOnFence : Bool) (s : Controller)
    (j : Cycle cfg) : Decidable ((controlledMachine cfg flushOnFence).allowed cycles s j) :=
  instDecidableTrue

/-- A halted commit stage starts no fence. -/
theorem fences_halted (halted : i.haltI = true) :
    (commit i).fence = false ∧ (commit i).fenceI = false := by
  have gone : alive i = false := by simp [alive, halted]
  have silent : (commit i).fences = false := by
    apply Bool.eq_false_of_not_eq_true
    intro effect
    rw [commit_others.2.2.2.2.2.2] at effect
    rw [((commit0_drives i).fences effect).1] at gone
    cases gone
  simp only [Drive.fences, Bool.or_eq_false_iff] at silent
  exact ⟨silent.1.1.1.2, silent.1.1.1.1⟩

/-- The cache is flushed exactly while a fence is active. -/
theorem flush_of_run {flushOnFence : Bool} {cycles : List (Controller × Cycle cfg)}
    {s : Controller} (run : (controlledMachine cfg flushOnFence).Run cycles s) :
    s.flushDcache = s.fenceActive ∧ (s.fenceActive = true → flushOnFence = true) := by
  induction run with
  | reset => exact ⟨rfl, fun active => by cases active⟩
  | @cycle cycles s j _ _ ih =>
      obtain ⟨together, enabled⟩ := ih
      change (controllerNext flushOnFence s j).flushDcache =
          (controllerNext flushOnFence s j).fenceActive ∧
        ((controllerNext flushOnFence s j).fenceActive = true → flushOnFence = true)
      cases active : s.fenceActive with
      | false =>
          simp only [controllerNext, active, Bool.and_false, Bool.false_eq_true, if_false,
            ite_self]
          cases flushes : (commit (controlled flushOnFence s j)).fence ||
              (commit (controlled flushOnFence s j)).fenceI with
          | false => simp
          | true =>
              cases flushOnFence with
              | false => simp
              | true => simp
      | true =>
          have on := enabled active
          subst on
          have halted : (controlled true s j).haltI = true := by
            simp [controlled, haltO, active]
          obtain ⟨fence, fenceI⟩ := fences_halted (controlled true s j) halted
          simp only [controllerNext, active, fence, fenceI, Bool.or_self,
            Bool.false_eq_true, if_false, if_true, Bool.and_true]
          cases j.flushDcacheAck with
          | false => exact ⟨rfl, fun _ => trivial⟩
          | true => exact ⟨rfl, fun _ => trivial⟩

/-- In every cycle of every run the commit stage is precise. -/
theorem commits_precisely {flushOnFence : Bool} {cycles : List (Controller × Cycle cfg)}
    {s : Controller} (run : (controlledMachine cfg flushOnFence).Run cycles s) (j : Cycle cfg)
    (consistent : Consistent (controlled flushOnFence s j))
    (answered : Answered (controlled flushOnFence s j)) :
    Precise (controlled flushOnFence s j) := by
  obtain ⟨together, enabled⟩ := flush_of_run run
  apply precise_of_calm _ consistent answered
  intro flushes
  have active : s.fenceActive = true := together.symm.trans flushes
  change haltO flushOnFence s j = true
  simp [haltO, active, enabled active]

/-- The CSR file refuses accesses only. -/
theorem csrException_access {csrCfg : CsrRegfile.CsrCfg} (s : CsrRegfile.Regs csrCfg)
    (j : CsrRegfile.Input csrCfg) (refused : CsrRegfile.csrException s j = true) :
    CsrRegfile.csrAccess j.csrOp = true := by
  by_contra other
  have access : CsrRegfile.csrAccess j.csrOp = false := Bool.eq_false_of_not_eq_true other
  have reads : CsrRegfile.csrRead s j = false := by
    rw [CsrRegfile.csrRead, access, Bool.false_and]
  have writes : CsrRegfile.csrWe s j = false := by
    simp only [CsrRegfile.csrAccess, decide_eq_false_iff_not, List.mem_cons, List.not_mem_nil,
      or_false, not_or] at access
    simp [CsrRegfile.csrWe, access]
  simp [CsrRegfile.csrException, CsrRegfile.csrWrite, CsrRegfile.csrReadProcess, reads, writes,
    CsrRegfile.privilegeViolation, CsrRegfile.virtualPrivilegeViolation, access,
    CsrRegfile.defaults] at refused

/-- The CSR file of the core answers as required. -/
theorem answered_of_csrFile {csrCfg : CsrRegfile.CsrCfg} (s : CsrRegfile.Regs csrCfg)
    (j : CsrRegfile.Input csrCfg) (asked : j.csrOp = (commit i).csrOp)
    (answers : i.csrException.valid = CsrRegfile.csrException s j)
    (amo : i.amoAck = true → (commit i).amoValidCommit = true) : Answered i where
  csr refused := by
    rw [← asked]
    exact csrException_access s j (answers.symm.trans refused)
  amo := amo

/-- Two commit ports before a write-back cache. -/
private def wbCore : CoreCfg where
  xlen := 8
  vlen := 8
  transIdBits := 2
  nrIssuePorts := 1
  nrCommitPorts := 2
  nrWbPorts := 2
  fpPresent := true
  debugEn := false
  speculativeSb := false
  superscalarEn := false
  rva := true
  rvs := true
  rvh := false
  rvzcmp := false
  cvxifEn := false
  dcacheWb := true
  issuePorts := rfl
  commitPorts := CoreCfg.two_ports
  someEntries := Nat.two_pos

/-- `first` at port 0 in front of an addition. -/
private def inFront (first : Instr wbCore) (refused flush : Bool) : Input wbCore where
  haltI := false
  flushDcache := flush
  singleStep := false
  commitInstr k := if k = 0 then first else { fu := .alu, rd := 2, valid := true }
  commitDrop _ := false
  amoAck := false
  amoResult := 0
  commitLsuReady := true
  csrRdata := 0
  csrException := { valid := refused }
  noStPending := true

private theorem decoded_inFront {first : Instr wbCore} (decoded : Decoded first)
    (refused flush : Bool) : Consistent (inFront first refused flush) := by
  intro k _ _
  change Decoded (if k = 0 then first else _)
  split
  · exact decoded
  · constructor
    all_goals decide

private def storeInstr : Instr wbCore := { fu := .store, op := .sd, valid := true }

private def csrInstr : Instr wbCore := { fu := .csr, op := .csrWrite, rd := 1, valid := true }

theorem commits_precisely_store :
    Precise (controlled true ⟨false, false⟩
      { pins := inFront storeInstr false false, haltCsr := false, haltAcc := false
        flushDcacheAck := false }) := by
  apply commits_precisely (Clocked.Machine.Run.reset (m := controlledMachine wbCore true))
  · have decoded : Decoded storeInstr := by
      constructor
      all_goals decide
    exact decoded_inFront decoded false false
  · constructor
    all_goals decide

/-- A refused CSR access is acknowledged in front of a write-back cache that is flushed
while the core is not halted. -/
theorem flushed_not_precise :
    ¬ ∀ i : Input wbCore, Consistent i → Answered i → Precise i := by
  intro precise
  have decoded : Decoded csrInstr := by
    constructor
    all_goals decide
  have answered : Answered (inFront csrInstr true true) := by
    constructor
    all_goals decide
  have trapped := (precise _ (decoded_inFront decoded true true) answered).trapped
  exact absurd (trapped (by decide)).2.1 (by decide)

end Cva6.CommitStage
