import RiscvCores.Cva6.WtAxiAdapter

/-!
# Which request a response answers

The ledger follows every request of the caches from its acceptance over the bus to its
answer.  It knows which response the bus owes to which request, and what the answer to a
request is.  The environment answers what it owes, in order for each id.
-/

set_option autoImplicit false

namespace Cva6.AxiAdapter

variable {cfg : AdapterCfg}

/-- What a request gets: the words of a read in the order of their addresses, a bare
acknowledge, or the outcome of a store-conditional. -/
inductive Answer (cfg : AdapterCfg)
  | words (beats : List cfg.AxiData)
  | stored
  | conditional (exokay : Bool)

structure Ledger (cfg : AdapterCfg) where
  iAccepted : List IReq := []
  iQueue : List IReq := []
  /-- The line fills that the bus owes, with the beats of the oldest. -/
  iReads : List IReq := []
  iBeats : List cfg.AxiData := []
  iAnswered : List (IReq × Answer cfg) := []
  dAccepted : List (DReq cfg) := []
  dQueue : List (DReq cfg) := []
  /-- The requests sent on the read channel and not answered, with the beats of the oldest load. -/
  reads : List (DReq cfg) := []
  beats : List cfg.AxiData := []
  /-- The requests sent on the write channel and not answered. -/
  writes : List (DReq cfg) := []
  /-- The write responses that the bus owes under each of the two ids. -/
  stores : List (DReq cfg) := []
  atomics : List (DReq cfg) := []
  /-- The write responses that wait in the adapter. -/
  bs : List (DReq cfg × Bool) := []
  dAnswered : List (DReq cfg × Answer cfg) := []

namespace Ledger

variable (L : Ledger cfg) (s : State cfg) (i : Input cfg)

/-- The line fill that is completed. -/
def iDue : Option (IReq × Answer cfg) :=
  match icacheBeat s i, L.iReads with
  | some r, q :: _ => if r.last then some (q, .words (L.iBeats ++ [r.data])) else none
  | _, _ => none

/-- The atomic that the bus owes a read beat. -/
def atomicRead : Option (DReq cfg) := (L.reads.find? isLr).or (L.writes.find? isRmw)

/-- The write response that is taken. -/
def received : List (DReq cfg × Bool) :=
  match i.b with
  | some b =>
      if bPush s i then
        ((if b.id = 1 then L.stores else L.atomics).take 1).map fun q => (q, b.resp == .exokay)
      else []
  | none => []

/-- The request that is answered, with its answer. -/
def dDue : Option (DReq cfg × Answer cfg) :=
  match dcacheBeat s i with
  | some r =>
      if r.last then
        if r.id = 3 then L.atomicRead.map fun q => (q, .words [r.data])
        else (L.reads.find? isLoad).map fun q => (q, .words (L.beats ++ [r.data]))
      else none
  | none =>
      if bPop s i then
        match L.bs ++ L.received s i with
        | (q, exokay) :: _ =>
            if isStore q then some (q, .stored)
            else if isSc q then some (q, .conditional exokay)
            else none
        | [] => none
      else none

/-- The request of the data cache that is granted on the read or on the write channel. -/
def sentRead : List (DReq cfg) := if arbAck s i 1 && rdGnt s i then L.dQueue.take 1 else []

def sentWrite : List (DReq cfg) := if arbAck s i 1 && wrGnt s i then L.dQueue.take 1 else []

def unanswered (open' : List (DReq cfg)) : List (DReq cfg) :=
  match L.dDue s i with
  | some (q, _) => open'.erase q
  | none => open'

/-- The write responses owed under an id. -/
def owed (id : Nat) (open' : List (DReq cfg)) : List (DReq cfg) :=
  if bPush s i && i.b.any (fun b => b.id == id) then open'.tail else open'

def icacheAccepted : List IReq := if icacheDataAck s i then i.icacheReq.toList else []

def dcacheAccepted : List (DReq cfg) := if dcacheDataAck s i then i.dcacheReq.toList else []

def step : Ledger cfg where
  iAccepted := L.iAccepted ++ icacheAccepted s i
  iQueue := (if arbAck s i 0 then L.iQueue.tail else L.iQueue) ++ icacheAccepted s i
  iReads := (if icacheDone s i then L.iReads.tail else L.iReads) ++
    if arbAck s i 0 then L.iQueue.take 1 else []
  iBeats := match icacheBeat s i with
    | some r => if r.last then [] else L.iBeats ++ [r.data]
    | none => L.iBeats
  iAnswered := L.iAnswered ++ (L.iDue s i).toList
  dAccepted := L.dAccepted ++ dcacheAccepted s i
  dQueue := (if arbAck s i 1 then L.dQueue.tail else L.dQueue) ++ dcacheAccepted s i
  reads := L.unanswered s i L.reads ++ L.sentRead s i
  beats := match dcacheBeat s i with
    | some r => if r.last || r.id == 3 then [] else L.beats ++ [r.data]
    | none => L.beats
  writes := L.unanswered s i L.writes ++ L.sentWrite s i
  stores := owed s i 1 L.stores ++ (L.sentWrite s i).filter isStore
  atomics := owed s i 3 L.atomics ++ (L.sentWrite s i).filter isAtomic
  bs := if bPop s i then (L.bs ++ L.received s i).tail else L.bs ++ L.received s i
  dAnswered := L.dAnswered ++ (L.dDue s i).toList

end Ledger

abbrev Cycle (cfg : AdapterCfg) : Type := State cfg × Input cfg

def ledger (cycles : List (Cycle cfg)) : Ledger cfg :=
  cycles.foldl (fun L now => L.step now.1 now.2) {}

theorem ledger_concat (cycles : List (Cycle cfg)) (s : State cfg) (i : Input cfg) :
    ledger (cycles ++ [(s, i)]) = (ledger cycles).step s i := by
  simp [ledger]

/-! ## The environment -/

/-- A read beat is owed under its id; the last one comes when the burst is complete. -/
structure OwesBeat (L : Ledger cfg) (r : RBeat cfg) : Prop where
  icache : r.id = 0 → ∃ q ∈ L.iReads.head?, r.last = decide (L.iBeats.length = icacheLen cfg q)
  load : r.id = 1 → ∃ q ∈ L.reads.find? isLoad, r.last = decide (L.beats.length = dcacheLen q)
  atomic : r.id = 3 → L.atomicRead.isSome = true ∧ r.last = true
  id : r.id = 0 ∨ r.id = 1 ∨ r.id = 3

/-- The data cache sends loads, stores and single-word atomics. -/
def Known (q : DReq cfg) : Prop :=
  isLoad q = true ∨ isStore q = true ∨
    isAtomic q = true ∧ cfg.rva = true ∧ q.amoOp ≠ .none ∧ q.size.msb = false

/-- The bus answers what it owes and nothing is invalidated from outside; an atomic is sent
when all earlier requests have been answered. -/
structure Environment (L : Ledger cfg) (s : State cfg) (i : Input cfg) : Prop where
  beat : ∀ r ∈ i.r, OwesBeat L r
  response : ∀ b ∈ i.b, b.id = 1 ∧ L.stores ≠ [] ∨ b.id = 3 ∧ L.atomics ≠ []
  inval : i.inval = none
  known : ∀ q ∈ i.dcacheReq, Known q
  alone : ∀ q ∈ i.dcacheReq, dcacheDataAck s i = true → isAtomic q = true →
    L.dQueue = [] ∧ L.reads = [] ∧ L.writes = []

def machine (cfg : AdapterCfg) : Clocked.Machine (State cfg) (Input cfg) where
  reset := reset cfg
  next := next
  allowed cycles := Environment (ledger cycles)

/-- The answers come in the order in which the requests of each id queue were sent, a load
reserved while no write is open and atomics between bursts; when the write response of an
atomic with a read beat is dropped, the flag still describes that atomic; and the memories
of the request queues are not read while they are written. -/
structure Orderly (L : Ledger cfg) (s : State cfg) (i : Input cfg) : Prop where
  read : ∀ q ∈ L.dDue s i, asksRead q.1 = true → L.reads.head? = some q.1
  write : ∀ q ∈ L.dDue s i, asksWrite q.1 = true → L.writes.head? = some q.1
  loadReserved : ∀ q ∈ L.dDue s i, isLr q.1 = true → L.writes = []
  whole : ∀ r ∈ dcacheBeat s i, r.id = 3 → L.beats = []
  flag : ∀ q ∈ (L.bs ++ L.received s i).head?, bPop s i = true → isRmw q.1 = true →
    s.amoGenR = true
  icacheQueue : ¬ s.icacheData.Stale (reqCfg cfg) (icacheDataIn s i)
  dcacheQueue : ¬ s.dcacheData.Stale (reqCfg cfg) (dcacheDataIn s i)

/-! ## Packets -/

/-- The words come in the order of their addresses. -/
def Carries {n : Nat} {α : Type} (data : Fin n → α) (beats : List α) : Prop :=
  beats.length ≤ n ∧ ∀ j (inside : j < n) (sent : j < beats.length), data ⟨j, inside⟩ = beats[j]

def IMatches (p : IRtrn cfg) (q : IReq × Answer cfg) : Prop :=
  p.tid = q.1.tid ∧ match q.2 with
    | .words beats => beats.length = icacheLen cfg q.1 + 1 ∧ Carries p.data beats
    | _ => False

/-- The packet answers a request with its id, its type and its answer. -/
def DMatches (p : DRtrn cfg) (q : DReq cfg × Answer cfg) : Prop :=
  p.tid = q.1.tid ∧ match q.2 with
    | .words beats => p.rtype = (if isLoad q.1 then .loadAck else .atomicAck) ∧
        beats.length = dcacheLen q.1 + 1 ∧ Carries p.data beats
    | .stored => isStore q.1 = true ∧ p.rtype = .storeAck
    | .conditional exokay => isSc q.1 = true ∧ p.rtype = .atomicAck ∧
        p.data ⟨0, cfg.someDcacheWords⟩ = scWord (scOff q.1) exokay

def isAnswer (p : DRtrn cfg) : Bool := p.rtype != .invReq

/-- The packets that the caches have seen. -/
def iPackets (cycles : List (Cycle cfg)) (s : State cfg) : List (IRtrn cfg) :=
  (cycles.map Prod.fst ++ [s]).filterMap icacheOut

def dPackets (cycles : List (Cycle cfg)) (s : State cfg) : List (DRtrn cfg) :=
  ((cycles.map Prod.fst ++ [s]).filterMap dcacheOut).filter isAnswer

end Cva6.AxiAdapter
