import RiscvCores.Lib.Clocked
import RiscvCores.Toooba.ProcTypes

/-!
# The reorder buffer

`mkSupReorderBuffer`: one circular FIFO of rows for each way of the
superscalar core.  The enqueue and dequeue ports rotate through the FIFOs, and
a misprediction rewinds all enqueue pointers by distances deduced from the
position of the mispredicted row.  In a cycle the dequeues come first, then
the methods that fill rows, then a wrong speculation or the enqueues.  The
rows are those without `INCLUDE_TANDEM_VERIF` and `INORDER_CORE`.
-/

set_option autoImplicit false

namespace Toooba.ReorderBuffer

/-- `SupSize` is a power of two and `NumInstTags` is `ROB_SIZE`.  A port number extends to
an `InstTime`. -/
structure RobCfg where
  lgSupSize : Nat
  numInstTags : Nat
  numSpecTags : Nat
  aluExeNum : Nat
  fpuMulDivExeNum : Nat
  someTags : 0 < numInstTags
  instTime : lgSupSize ≤ tLog numInstTags

namespace RobCfg

variable (c : RobCfg)

def supSize : Nat := 2 ^ c.lgSupSize

/-- `TDiv#(NumInstTags, SupSize)` rounds up. -/
def singleScalarSize : Nat := (c.numInstTags + (c.supSize - 1)) / c.supSize

theorem supSize_pos : 0 < c.supSize := Nat.two_pow_pos c.lgSupSize

theorem singleScalarSize_pos : 0 < c.singleScalarSize := by
  have some := c.someTags
  exact Nat.div_pos (by omega) c.supSize_pos

instance : NeZero c.supSize := ⟨c.supSize_pos.ne'⟩

instance : NeZero c.singleScalarSize := ⟨c.singleScalarSize_pos.ne'⟩

abbrev SupWaySel := Fin c.supSize

abbrev SingleScalarPtr := Fin c.singleScalarSize

abbrev InstTime := Fin (2 ^ tLog c.numInstTags)

instance : NeZero (2 ^ tLog c.numInstTags) := ⟨(Nat.two_pow_pos _).ne'⟩

abbrev SpecTag := Fin c.numSpecTags

abbrev SpecBits := c.SpecTag → Bool

end RobCfg

abbrev Addr := BitVec 64

abbrev Data := BitVec 64

/-- The number of a CSR. -/
abbrev CSR := BitVec 12

inductive IType
  | unsupported | nop | amo | alu | ld | st | lr | sc | j | jr | br | auipc | fpu | csr | fence
  | fenceI | sFence | ecall | ebreak | sret | mret | interrupt
deriving DecidableEq

inductive Exception
  | instAddrMisaligned | instAccessFault | illegalInst | breakpoint | loadAddrMisaligned
  | loadAccessFault | storeAddrMisaligned | storeAccessFault | envCallU | envCallS | envCallM
  | instPageFault | loadPageFault | storePageFault
deriving DecidableEq

inductive Interrupt
  | userSoftware | supervisorSoftware | machineSoftware | userTimer | supervisorTimer
  | machineTimer | userExternal | supervisorExternel | machineExternal
deriving DecidableEq

inductive Trap
  | exception (e : Exception)
  | interrupt (i : Interrupt)
deriving DecidableEq

inductive PPCVAddrCSRData
  | ppc (a : Addr)
  | vAddr (a : Addr)
  | csrData (d : Data)
deriving DecidableEq

inductive LdStQTag
  | ld (tag : Nat)
  | st (tag : Nat)
deriving DecidableEq

inductive LdKilledBy
  | ld | st | cache
deriving DecidableEq

inductive RobInstState
  | notDone | executed
deriving DecidableEq

variable (c : RobCfg)

structure ToReorderBuffer where
  pc : Addr := 0
  origInst : BitVec 32 := 0
  iType : IType := .nop
  dst : Option ArchRIndx := none
  dstData : Data := 0
  csr : Option CSR := none
  claimedPhyReg : Bool := false
  trap : Option Trap := none
  tval : Addr := 0
  ppcVaddrCsrData : PPCVAddrCSRData := .ppc 0
  fflags : BitVec 5 := 0
  willDirtyFpuState : Bool := false
  robInstState : RobInstState := .notDone
  lsqTag : LdStQTag := .ld 0
  ldKilled : Option LdKilledBy := none
  memAccessAtCommit : Bool := false
  lsqAtCommitNotified : Bool := false
  nonMMIOStDone : Bool := false
  epochIncremented : Bool := false
  specBits : c.SpecBits := fun _ => false

structure InstTag where
  way : c.SupWaySel
  ptr : c.SingleScalarPtr
  t : c.InstTime
deriving DecidableEq

/-! ## Rows -/

variable {c}

/-- `write_enq`: the destination data of the row stays what it was. -/
def writeEnq (row x : ToReorderBuffer c) : ToReorderBuffer c :=
  { x with
    dstData := row.dstData
    ldKilled := none
    memAccessAtCommit := decide (x.iType = .fence)
    lsqAtCommitNotified := false
    nonMMIOStDone := false }

structure ControlFlow where
  pc : Addr
  nextPc : Addr
  taken : Bool
  mispredict : Bool

structure FinishAlu where
  dstData : Data
  csrData : Option Data
  cf : ControlFlow

structure FinishFpuMulDiv where
  dstData : Data
  fflags : BitVec 5

structure DeqLSQ where
  cause : Option Exception
  ldKilled : Option LdKilledBy

structure FinishMem where
  vaddr : Addr
  accessAtCommit : Bool
  nonMmioStDone : Bool

def setFinishAlu (x : FinishAlu) (row : ToReorderBuffer c) : ToReorderBuffer c :=
  { row with
    robInstState := .executed
    dstData := x.dstData
    ppcVaddrCsrData := match x.csrData with
      | some d => .csrData d
      | none => .ppc x.cf.nextPc }

def setFinishFpuMulDiv (x : FinishFpuMulDiv) (row : ToReorderBuffer c) : ToReorderBuffer c :=
  { row with robInstState := .executed, dstData := x.dstData, fflags := x.fflags }

def setDeqLSQ (x : DeqLSQ) (row : ToReorderBuffer c) : ToReorderBuffer c :=
  { row with
    robInstState := .executed
    trap := match x.cause with
      | some e => some (.exception e)
      | none => row.trap
    ldKilled := x.ldKilled }

def setFinishMem (x : FinishMem) (row : ToReorderBuffer c) : ToReorderBuffer c :=
  { row with
    robInstState := if x.nonMmioStDone then .executed else row.robInstState
    ppcVaddrCsrData := .vAddr x.vaddr
    memAccessAtCommit := x.accessAtCommit
    nonMMIOStDone := x.nonMmioStDone }

def setNotified (row : ToReorderBuffer c) : ToReorderBuffer c :=
  { row with lsqAtCommitNotified := true }

def dependsOnWrongSpec (row : ToReorderBuffer c) (tag : c.SpecTag) : Bool := row.specBits tag

def correctRow (mask : c.SpecBits) (row : ToReorderBuffer c) : ToReorderBuffer c :=
  { row with specBits := fun tag => row.specBits tag && mask tag }

/-! ## The buffer -/

variable (c)

structure ROBWrongSpecInput where
  killAll : Bool
  specTag : c.SpecTag
  killInstTag : InstTag c

structure State where
  row : c.SupWaySel → c.SingleScalarPtr → ToReorderBuffer c
  valid : c.SupWaySel → c.SingleScalarPtr → Bool
  enqP : c.SupWaySel → c.SingleScalarPtr
  deqP : c.SupWaySel → c.SingleScalarPtr
  firstEnqWay : c.SupWaySel
  firstDeqWay : c.SupWaySel
  enqTime : c.InstTime
  deqTime : c.InstTime

/-- The methods called in one cycle. -/
structure Input where
  enq : c.SupWaySel → Option (ToReorderBuffer c) := fun _ => none
  deq : c.SupWaySel → Bool := fun _ => false
  finishAlu : Fin c.aluExeNum → Option (InstTag c × FinishAlu) := fun _ => none
  finishFpuMulDiv : Fin c.fpuMulDivExeNum → Option (InstTag c × FinishFpuMulDiv) := fun _ => none
  deqLSQ : Option (InstTag c × DeqLSQ) := none
  finishMem : Option (InstTag c × FinishMem) := none
  notified : Option (InstTag c) := none
  wrongSpec : Option (ROBWrongSpecInput c) := none
  correctSpec : Option c.SpecBits := none

variable {c}

/-- The rows hold anything at power-up. -/
def reset (row : c.SupWaySel → c.SingleScalarPtr → ToReorderBuffer c) : State c where
  row := row
  valid _ _ := false
  enqP _ := 0
  deqP _ := 0
  firstEnqWay := 0
  firstDeqWay := 0
  enqTime := 0
  deqTime := 0

def getNextPtr (p : c.SingleScalarPtr) : c.SingleScalarPtr :=
  if last : p.val = c.singleScalarSize - 1 then 0
  else ⟨p.val + 1, by have inside := p.isLt; omega⟩

section Ports

variable (s : State c)

def getEnqFifoWay (enqPort : c.SupWaySel) : c.SupWaySel := s.firstEnqWay + enqPort

def getDeqFifoWay (deqPort : c.SupWaySel) : c.SupWaySel := s.firstDeqWay + deqPort

def getEnqPort (fifoWay : c.SupWaySel) : c.SupWaySel := fifoWay - s.firstEnqWay

def getDeqPort (fifoWay : c.SupWaySel) : c.SupWaySel := fifoWay - s.firstDeqWay

def canEnq (port : c.SupWaySel) : Bool :=
  let way := getEnqFifoWay s port
  !s.valid way (s.enqP way)

def getEnqInstTag (port : c.SupWaySel) : InstTag c :=
  let way := getEnqFifoWay s port
  { way := way, ptr := s.enqP way, t := s.enqTime + Fin.ofNat _ port.val }

def canDeq (port : c.SupWaySel) : Bool :=
  let way := getDeqFifoWay s port
  s.valid way (s.deqP way)

def deqData (port : c.SupWaySel) : ToReorderBuffer c :=
  let way := getDeqFifoWay s port
  s.row way (s.deqP way)

def getDeqInstTag (port : c.SupWaySel) : InstTag c :=
  let way := getDeqFifoWay s port
  { way := way, ptr := s.deqP way, t := s.deqTime + Fin.ofNat _ port.val }

end Ports

section Cycle

variable (s : State c) (i : Input c)

/-- `canon_deq`.  When all ports dequeue, the way keeps its place. -/
def canonDeq : State c :=
  { s with
    deqP := fun w => if i.deq (getDeqPort s w) then getNextPtr (s.deqP w) else s.deqP w
    valid := fun w p =>
      if i.deq (getDeqPort s w) = true ∧ p = s.deqP w then false else s.valid w p
    firstDeqWay := s.firstDeqWay + Fin.ofNat _ (firstIdle i.deq)
    deqTime := s.deqTime + Fin.ofNat _ (firstIdle i.deq) }

def atSlot (x : InstTag c) (w : c.SupWaySel) (p : c.SingleScalarPtr) : Bool :=
  decide (x.way = w ∧ x.ptr = p)

/-- What a method does to the row at a slot. -/
def callAt {α : Type} (call : Option (InstTag c × α))
    (set : α → ToReorderBuffer c → ToReorderBuffer c) (w : c.SupWaySel) (p : c.SingleScalarPtr)
    (row : ToReorderBuffer c) : ToReorderBuffer c :=
  match call with
  | some (x, args) => if atSlot x w p then set args row else row
  | none => row

/-- The methods that fill rows, in the order of their ports. -/
def setRow (w : c.SupWaySel) (p : c.SingleScalarPtr) (row : ToReorderBuffer c) :
    ToReorderBuffer c :=
  let alu := (List.finRange c.aluExeNum).foldl
    (fun row port => callAt (i.finishAlu port) setFinishAlu w p row) row
  let fpu := (List.finRange c.fpuMulDivExeNum).foldl
    (fun row port => callAt (i.finishFpuMulDiv port) setFinishFpuMulDiv w p row) alu
  let lsq := callAt i.deqLSQ setDeqLSQ w p fpu
  let mem := callAt i.finishMem setFinishMem w p lsq
  callAt (i.notified.map fun x => (x, ())) (fun _ => setNotified) w p mem

def setRows : State c := { s with row := fun w p => setRow i w p (s.row w p) }

def decrPtr (ptr : c.SingleScalarPtr) (len : Nat) : c.SingleScalarPtr :=
  if ptr.val < len then Fin.ofNat _ (ptr.val + c.singleScalarSize - len)
  else Fin.ofNat _ (ptr.val - len)

def killDistToEnqP (killInstTag : InstTag c) : Nat :=
  let killEnqP := s.enqP killInstTag.way
  if killInstTag.ptr < killEnqP then killEnqP.val - killInstTag.ptr.val
  else killEnqP.val + c.singleScalarSize - killInstTag.ptr.val

def toVirtualWay (realWay : c.SupWaySel) : c.SupWaySel := realWay - s.firstEnqWay

def distToEnqP (killInstTag : InstTag c) (w : c.SupWaySel) : Nat :=
  if toVirtualWay s killInstTag.way < toVirtualWay s w then killDistToEnqP s killInstTag
  else killDistToEnqP s killInstTag - 1

/-- `canon_wrongSpec` on the registers after the dequeues; the spec bits and the enqueue
pointers are still those of the start of the cycle. -/
def canonWrongSpec (now : State c) (x : ROBWrongSpecInput c) : State c :=
  if x.killAll then
    { now with
      valid := fun _ _ => false
      enqP := fun _ => 0
      deqP := fun _ => 0
      firstEnqWay := 0
      firstDeqWay := 0
      enqTime := 0
      deqTime := 0 }
  else
    { now with
      valid := fun w p => if dependsOnWrongSpec (s.row w p) x.specTag then false else now.valid w p
      firstEnqWay := x.killInstTag.way + Fin.ofNat _ 1
      enqTime := x.killInstTag.t + Fin.ofNat _ 1
      enqP := fun w => decrPtr (s.enqP w) (distToEnqP s x.killInstTag w) }

/-- `canon_enq` on the registers after the dequeues and the filled rows. -/
def canonEnq (now : State c) : State c :=
  { now with
    row := fun w p =>
      match i.enq (getEnqPort s w) with
      | some x => if p = s.enqP w then writeEnq (now.row w p) x else now.row w p
      | none => now.row w p
    valid := fun w p =>
      if (i.enq (getEnqPort s w)).isSome = true ∧ p = s.enqP w then true else now.valid w p
    enqP := fun w => if (i.enq (getEnqPort s w)).isSome then getNextPtr (s.enqP w) else s.enqP w
    firstEnqWay := s.firstEnqWay + Fin.ofNat _ (firstIdle fun port => (i.enq port).isSome)
    enqTime := s.enqTime + Fin.ofNat _ (firstIdle fun port => (i.enq port).isSome) }

def correctRows (now : State c) : State c :=
  match i.correctSpec with
  | some mask => { now with row := fun w p => correctRow mask (now.row w p) }
  | none => now

def next : State c :=
  let now := setRows (canonDeq s i) i
  correctRows i (match i.wrongSpec with
    | some x => canonWrongSpec s now x
    | none => canonEnq s i now)

end Cycle

/-! ## The list of live rows -/

section Rows

variable (s : State c)

/-- The slot of the `age`-th oldest row, read in rotating way order. -/
def tagAt (age : Nat) : InstTag c :=
  let way := s.firstDeqWay + Fin.ofNat _ age
  { way := way
    ptr := s.deqP way + Fin.ofNat _ (age / c.supSize)
    t := s.deqTime + Fin.ofNat _ age }

def rowAt (x : InstTag c) : InstTag c × ToReorderBuffer c := (x, s.row x.way x.ptr)

/-- The live rows from the oldest on, up to the first slot that is not valid. -/
def rowsOf : List (InstTag c × ToReorderBuffer c) :=
  ((List.range (c.supSize * c.singleScalarSize)).takeWhile fun age =>
    s.valid (tagAt s age).way (tagAt s age).ptr).map fun age => rowAt s (tagAt s age)

end Rows

/-- The rows after `killInstTag` carry the tag of a wrong speculation and no others do. -/
structure KillsSuffix (s : State c) (i : Input c) (x : ROBWrongSpecInput c) : Prop where
  live : ∃ m : Fin (rowsOf s).length, ((rowsOf s).get m).1 = x.killInstTag ∧
    ∀ j : Fin (rowsOf s).length,
      dependsOnWrongSpec ((rowsOf s).get j).2 x.specTag = decide (m < j)
  committed : ∀ port, i.deq port = true → dependsOnWrongSpec (deqData s port) x.specTag = false

instance (s : State c) (i : Input c) (x : ROBWrongSpecInput c) : Decidable (KillsSuffix s i x) :=
  decidable_of_iff (_ ∧ _) ⟨fun ⟨live, committed⟩ => ⟨live, committed⟩,
    fun ⟨live, committed⟩ => ⟨live, committed⟩⟩

/-- The guards hold and the calls are consecutive, no enqueue comes with a wrong
speculation, and that kills the rows after its instruction; as the commit stage asserts, a
row that is dequeued carries no tag. -/
structure Environment (s : State c) (i : Input c) : Prop where
  deqs : Consecutive i.deq
  canDeq : ∀ port, i.deq port = true → canDeq s port = true
  enqs : Consecutive fun port => (i.enq port).isSome
  canEnq : ∀ port, (i.enq port).isSome = true → canEnq s port = true
  noEnq : i.wrongSpec.isSome = true → ∀ port, (i.enq port).isSome = false
  suffix : ∀ x ∈ i.wrongSpec, x.killAll = false → KillsSuffix s i x

instance (s : State c) (i : Input c) : Decidable (Environment s i) :=
  decidable_of_iff (_ ∧ _ ∧ _ ∧ _ ∧ _ ∧ _)
    ⟨fun ⟨deqs, canDeq, enqs, canEnq, noEnq, suffix⟩ =>
      ⟨deqs, canDeq, enqs, canEnq, noEnq, suffix⟩,
    fun ⟨deqs, canDeq, enqs, canEnq, noEnq, suffix⟩ =>
      ⟨deqs, canDeq, enqs, canEnq, noEnq, suffix⟩⟩

def machine (c : RobCfg) (row : c.SupWaySel → c.SingleScalarPtr → ToReorderBuffer c) :
    Clocked.Machine (State c) (Input c) where
  reset := reset row
  next := next
  allowed _ := Environment

instance (row : c.SupWaySel → c.SingleScalarPtr → ToReorderBuffer c)
    (cycles : List (State c × Input c)) (s : State c) (i : Input c) :
    Decidable ((machine c row).allowed cycles s i) :=
  inferInstanceAs (Decidable (Environment s i))

end Toooba.ReorderBuffer
