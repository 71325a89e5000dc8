import Mathlib.Data.Fintype.Basic
import Mathlib.Data.Fin.Basic
import RiscvCores.Lib.Clocked
import RiscvCores.Cva6.ArianePkg

/-!
# The scoreboard

One definition for each block of `scoreboard`: the issue handshake, the
successive assignments of `issue_fifo`, the pointers and the registers.
Ports and entries are functions on `Fin`, pointers wrap in `Fin (2 ^ bits)`.
-/

set_option autoImplicit false

namespace Cva6

/-- The parameters the issue and commit stages read. -/
structure BackendCfg where
  xlen : Nat
  vlen : Nat
  transIdBits : Nat
  nrIssuePorts : Nat
  nrCommitPorts : Nat
  nrWbPorts : Nat
  fpPresent : Bool
  debugEn : Bool
  speculativeSb : Bool

/-- `NR_SB_ENTRIES`. -/
abbrev BackendCfg.nrSbEntries (cfg : BackendCfg) : Nat := 2 ^ cfg.transIdBits

instance (cfg : BackendCfg) : NeZero cfg.nrSbEntries := ⟨(Nat.two_pow_pos _).ne'⟩

/-- A transaction id, also an index into the scoreboard. -/
abbrev TransId (cfg : BackendCfg) : Type := Fin cfg.nrSbEntries

/-- `exception_t`, without the hypervisor fields. -/
structure Exception (cfg : BackendCfg) where
  cause : BitVec cfg.xlen := 0
  tval : BitVec cfg.xlen := 0
  valid : Bool := false
  deriving DecidableEq

/-- `scoreboard_entry_t`. -/
structure ScoreboardEntry (cfg : BackendCfg) where
  pc : BitVec cfg.vlen := 0
  transId : TransId cfg := 0
  fu : Fu := .none
  op : FuOp := .add
  rs1 : BitVec 5 := 0
  rs2 : BitVec 5 := 0
  rd : BitVec 5 := 0
  result : BitVec cfg.xlen := 0
  valid : Bool := false
  useImm : Bool := false
  useZimm : Bool := false
  usePc : Bool := false
  ex : Exception cfg := {}
  predictAddress : BitVec cfg.vlen := 0
  isMacroInstr : Bool := false
  isLastMacroInstr : Bool := false
  isDoubleRdMacroInstr : Bool := false
  deriving DecidableEq

/-- `sb_mem_t`. -/
structure SbMem (cfg : BackendCfg) where
  issued : Bool := false
  cancelled : Bool := false
  isRdFprFlag : Bool := false
  sbe : ScoreboardEntry cfg := {}
  deriving DecidableEq

namespace Scoreboard

variable {cfg : BackendCfg}

/-- The registers. -/
structure State (cfg : BackendCfg) where
  mem : TransId cfg → SbMem cfg
  commitPointer : Fin cfg.nrCommitPorts → TransId cfg
  issuePointer : TransId cfg

/-- One write-back port. -/
structure WbPort (cfg : BackendCfg) where
  wtValid : Bool := false
  transId : TransId cfg := 0
  wbdata : BitVec cfg.xlen := 0
  ex : Exception cfg := {}

/-- `bp_resolve_t`, as far as the scoreboard reads it. -/
structure ResolvedBranch (cfg : BackendCfg) where
  valid : Bool := false
  isMispredict : Bool := false
  targetAddress : BitVec cfg.vlen := 0

/-- The inputs of one cycle. -/
structure Input (cfg : BackendCfg) where
  flushUnissuedInstr : Bool := false
  flush : Bool := false
  xTransactionAccepted : Bool := false
  xIssueWriteback : Bool := false
  xId : TransId cfg := 0
  commitAck : Fin cfg.nrCommitPorts → Bool := fun _ => false
  decodedInstr : Fin cfg.nrIssuePorts → ScoreboardEntry cfg := fun _ => {}
  decodedInstrValid : Fin cfg.nrIssuePorts → Bool := fun _ => false
  issueAck : Fin cfg.nrIssuePorts → Bool := fun _ => false
  resolvedBranch : ResolvedBranch cfg := {}
  wb : Fin cfg.nrWbPorts → WbPort cfg := fun _ => {}
  xWe : Bool := false
  xRd : BitVec 5 := 0

/-! ## Issue handshake -/

/-- Every slot whose index has the given parity is issued. -/
def parityFull (s : State cfg) (parity : Nat) : Bool :=
  decide (∀ k : TransId cfg, k.val % 2 = parity → (s.mem k).issued = true)

/-- `issue_full`: port 1 needs a free slot of each parity. -/
def issueFull (s : State cfg) (port : Fin cfg.nrIssuePorts) : Bool :=
  if port.val = 0 then parityFull s 0 && parityFull s 1
  else parityFull s 0 || parityFull s 1

/-- `issue_pointer`. -/
def issuePointer (s : State cfg) (count : Nat) : TransId cfg :=
  s.issuePointer + Fin.ofNat _ count

def issueInstrValid (s : State cfg) (i : Input cfg) (port : Fin cfg.nrIssuePorts) : Bool :=
  i.decodedInstrValid port && !issueFull s port

def decodedInstrAck (s : State cfg) (i : Input cfg) (port : Fin cfg.nrIssuePorts) : Bool :=
  i.issueAck port && !issueFull s port

/-- The condition under which a port writes its instruction into the buffer. -/
def accepted (s : State cfg) (i : Input cfg) (port : Fin cfg.nrIssuePorts) : Bool :=
  i.decodedInstrValid port && decodedInstrAck s i port && !i.flushUnissuedInstr

/-- `num_issue`. -/
def numIssue (s : State cfg) (i : Input cfg) : Nat :=
  ((List.finRange cfg.nrIssuePorts).filter (accepted s i)).length

/-! ## `issue_fifo`, block by block -/

abbrev Mem (cfg : BackendCfg) : Type := TransId cfg → SbMem cfg

/-- Change the entry of one slot. -/
def Mem.modify (mem : Mem cfg) (k : TransId cfg) (f : SbMem cfg → SbMem cfg) : Mem cfg :=
  fun k' => if k' = k then f (mem k') else mem k'

def newEntry (instr : ScoreboardEntry cfg) : SbMem cfg where
  issued := true
  cancelled := false
  isRdFprFlag := cfg.fpPresent && isRdFpr instr.op
  sbe := instr

def issueBlock (s : State cfg) (i : Input cfg) (mem : Mem cfg) : Mem cfg :=
  (List.finRange cfg.nrIssuePorts).foldl (fun mem port =>
    if accepted s i port then
      mem.modify (issuePointer s port.val) fun _ => newEntry (i.decodedInstr port)
    else mem) mem

def setValid (valid : Bool) (entry : SbMem cfg) : SbMem cfg :=
  { entry with sbe := { entry.sbe with valid := valid } }

@[simp] theorem setValid_valid (valid : Bool) (entry : SbMem cfg) :
    (setValid valid entry).sbe.valid = valid := rfl

def fuNoneBlock (s : State cfg) (mem : Mem cfg) : Mem cfg := fun k =>
  if (s.mem k).sbe.fu = .none ∧ (s.mem k).issued = true then setValid true (mem k)
  else mem k

/-- The index `8'(trans_id) - 1`: the subtraction is made in 32 bits, so that an
index below zero lies outside the buffer and the write to it has no effect. -/
def precedingIndex (k : TransId cfg) : Option (TransId cfg) :=
  let index := (BitVec.ofNat 8 k.val).setWidth 32 - 1#32
  if inside : index.toNat < cfg.nrSbEntries then some ⟨index.toNat, inside⟩ else none

def isDoubleMacro (entry : SbMem cfg) : Bool :=
  entry.sbe.isDoubleRdMacroInstr && entry.sbe.isMacroInstr

/-- The valid bits one write-back changes. -/
def wbValid (s : State cfg) (k : TransId cfg) (mem : Mem cfg) : Mem cfg :=
  if isDoubleMacro (s.mem k) then
    if (s.mem k).sbe.isLastMacroInstr then
      let written := mem.modify k (setValid true)
      match precedingIndex k with
      | some first => written.modify first (setValid true)
      | none => written
    else mem.modify k (setValid false)
  else mem.modify k (setValid true)

/-- The result, target address, destination and exception one write-back stores. -/
def wbData (s : State cfg) (i : Input cfg) (port : WbPort cfg) (entry : SbMem cfg) :
    SbMem cfg :=
  { entry with
    sbe := { entry.sbe with
      result := port.wbdata
      predictAddress :=
        if cfg.debugEn then i.resolvedBranch.targetAddress else entry.sbe.predictAddress
      rd := if entry.sbe.fu = .cvxif then if i.xWe then i.xRd else 0 else entry.sbe.rd
      ex :=
        if port.ex.valid then port.ex
        else if cfg.fpPresent ∧ ((s.mem port.transId).sbe.fu = .fpu ∨
            (s.mem port.transId).sbe.fu = .fpuVec) then
          { entry.sbe.ex with cause := port.ex.cause }
        else entry.sbe.ex } }

/-- The write-back of a port reaches the buffer only if its slot is issued. -/
def wbTakes (s : State cfg) (port : WbPort cfg) : Bool :=
  port.wtValid && (s.mem port.transId).issued

def wbStep (s : State cfg) (i : Input cfg) (mem : Mem cfg) (port : WbPort cfg) : Mem cfg :=
  if wbTakes s port then
    (wbValid s port.transId mem).modify port.transId (wbData s i port)
  else mem

def wbBlock (s : State cfg) (i : Input cfg) (mem : Mem cfg) : Mem cfg :=
  ((List.finRange cfg.nrWbPorts).map i.wb).foldl (wbStep s i) mem

def bmiss (i : Input cfg) : Bool := i.resolvedBranch.valid && i.resolvedBranch.isMispredict

/-- `after_flu_wb`. -/
def afterFluWb (i : Input cfg) : TransId cfg :=
  if h : fluWb < cfg.nrWbPorts then (i.wb ⟨fluWb, h⟩).transId + 1 else 0

def cancelBlock (s : State cfg) (i : Input cfg) (mem : Mem cfg) : Mem cfg :=
  if cfg.speculativeSb ∧ bmiss i = true ∧ afterFluWb i ≠ issuePointer s 0 then
    mem.modify (afterFluWb i) fun entry => { entry with cancelled := true }
  else mem

def retire (entry : SbMem cfg) : SbMem cfg :=
  { setValid false entry with issued := false, cancelled := false }

def commitBlock (s : State cfg) (i : Input cfg) (mem : Mem cfg) : Mem cfg :=
  (List.finRange cfg.nrCommitPorts).foldl (fun mem port =>
    if i.commitAck port then mem.modify (s.commitPointer port) retire else mem) mem

def flushEntry (entry : SbMem cfg) : SbMem cfg :=
  { issued := false
    cancelled := false
    isRdFprFlag := entry.isRdFprFlag
    sbe := { entry.sbe with valid := false, ex := { entry.sbe.ex with valid := false } } }

def flushBlock (i : Input cfg) (mem : Mem cfg) : Mem cfg := fun k =>
  if i.flush then flushEntry (mem k) else mem k

/-- `mem_n`. -/
def memN (s : State cfg) (i : Input cfg) : Mem cfg :=
  flushBlock i (commitBlock s i (cancelBlock s i (wbBlock s i (fuNoneBlock s
    (issueBlock s i s.mem)))))

/-! ## Pointers and registers -/

/-- `num_commit`. -/
def numCommit (i : Input cfg) : Nat :=
  ((List.finRange cfg.nrCommitPorts).filter i.commitAck).length

/-- `commit_pointer_n`: port `k` points `k` slots behind port 0. -/
def commitPointerN (s : State cfg) (i : Input cfg) (port : Fin cfg.nrCommitPorts) :
    TransId cfg :=
  if i.flush then 0
  else s.commitPointer ⟨0, port.pos⟩ + Fin.ofNat _ (numCommit i) + Fin.ofNat _ port.val

/-- `issue_pointer_n`. -/
def issuePointerN (s : State cfg) (i : Input cfg) : TransId cfg :=
  if i.flush then 0 else issuePointer s (numIssue s i)

/-- The registered buffer: the extension interface may clear one destination. -/
def registeredMem (s : State cfg) (i : Input cfg) : Mem cfg :=
  (memN s i).modify i.xId fun entry =>
    if i.xTransactionAccepted && !i.xIssueWriteback then
      { entry with sbe := { entry.sbe with rd := 0 } }
    else entry

def next (s : State cfg) (i : Input cfg) : State cfg where
  mem := registeredMem s i
  commitPointer := commitPointerN s i
  issuePointer := issuePointerN s i

def reset : State cfg where
  mem := fun _ => {}
  commitPointer := fun _ => 0
  issuePointer := 0

/-! ## Outputs -/

/-- `commit_instr_o`. -/
def commitInstr (s : State cfg) (port : Fin cfg.nrCommitPorts) : ScoreboardEntry cfg :=
  { (s.mem (s.commitPointer port)).sbe with transId := s.commitPointer port }

/-- `commit_drop_o`. -/
def commitDrop (s : State cfg) (port : Fin cfg.nrCommitPorts) : Bool :=
  (s.mem (s.commitPointer port)).cancelled

/-- `issue_instr_o`. -/
def issueInstr (s : State cfg) (i : Input cfg) (port : Fin cfg.nrIssuePorts) :
    ScoreboardEntry cfg :=
  { i.decodedInstr port with transId := issuePointer s port.val }

/-- `still_issued`. -/
def stillIssued (s : State cfg) (k : TransId cfg) : Bool :=
  (s.mem k).issued && !(s.mem k).cancelled

/-! ## The clocked machine -/

/-- What the assertions of the module demand of its inputs, and that ports are
acknowledged in order. -/
def Asserted (s : State cfg) (i : Input cfg) : Prop :=
  (∀ port, i.issueAck port = true → issueInstrValid s i port = true) ∧
    (∀ port port', port' < port → i.issueAck port = true → i.issueAck port' = true) ∧
    (∀ port, i.commitAck port = true → (commitInstr s port).valid = true) ∧
    (∀ port port', port' < port → i.commitAck port = true → i.commitAck port' = true) ∧
    ∀ port port', (i.wb port).wtValid = true → (i.wb port').wtValid = true →
      port ≠ port' → (i.wb port).transId ≠ (i.wb port').transId

instance (s : State cfg) (i : Input cfg) : Decidable (Asserted s i) :=
  inferInstanceAs (Decidable (_ ∧ _ ∧ _ ∧ _ ∧ _))

def machine (cfg : BackendCfg) : Clocked.Machine (State cfg) (Input cfg) where
  reset := reset
  next := next
  allowed _ s i := Asserted s i

instance (cycles : List (State cfg × Input cfg)) (s : State cfg) (i : Input cfg) :
    Decidable ((machine cfg).allowed cycles s i) :=
  inferInstanceAs (Decidable (Asserted s i))

/-! ## What each block leaves alone -/

/-- Some port issues into slot `k`. -/
def issuedTo (s : State cfg) (i : Input cfg) (k : TransId cfg) : Bool :=
  decide (∃ port, accepted s i port = true ∧ issuePointer s port.val = k)

/-- Some port commits slot `k`. -/
def committedFrom (s : State cfg) (i : Input cfg) (k : TransId cfg) : Bool :=
  decide (∃ port, i.commitAck port = true ∧ s.commitPointer port = k)

@[simp] theorem Mem.modify_same (mem : Mem cfg) (k : TransId cfg)
    (f : SbMem cfg → SbMem cfg) : mem.modify k f k = f (mem k) := by
  simp [Mem.modify]

theorem Mem.modify_other (mem : Mem cfg) {k k' : TransId cfg} (f : SbMem cfg → SbMem cfg)
    (other : k' ≠ k) : mem.modify k f k' = mem k' := by
  simp [Mem.modify, other]

/-- A chain of conditional changes at other slots does not reach slot `k`. -/
theorem foldl_modify_other {ι : Type} (ports : List ι) (enabled : ι → Bool)
    (slot : ι → TransId cfg) (f : ι → SbMem cfg → SbMem cfg) (k : TransId cfg)
    (mem : Mem cfg) (other : ∀ port ∈ ports, enabled port = true → slot port ≠ k) :
    ports.foldl (fun mem port =>
      if enabled port then Mem.modify mem (slot port) (f port) else mem) mem k = mem k := by
  induction ports generalizing mem with
  | nil => rfl
  | cons port ports ih =>
      rw [List.foldl_cons, ih _ fun port' member => other port' (by simp [member])]
      split
      · next enabled =>
        exact Mem.modify_other mem _ (other port (by simp) enabled).symm
      · rfl

theorem issueBlock_other (s : State cfg) (i : Input cfg) (mem : Mem cfg) (k : TransId cfg)
    (other : issuedTo s i k = false) : issueBlock s i mem k = mem k := by
  refine foldl_modify_other _ (accepted s i) (fun port => issuePointer s port.val)
    (fun port _ => newEntry (i.decodedInstr port)) k mem fun port _ taken => ?_
  intro same
  exact (of_decide_eq_false other) ⟨port, taken, same⟩

theorem commitBlock_other (s : State cfg) (i : Input cfg) (mem : Mem cfg) (k : TransId cfg)
    (other : committedFrom s i k = false) : commitBlock s i mem k = mem k := by
  refine foldl_modify_other _ i.commitAck s.commitPointer (fun _ => retire) k mem
    fun port _ acked => ?_
  intro same
  exact (of_decide_eq_false other) ⟨port, acked, same⟩

end Scoreboard

end Cva6
