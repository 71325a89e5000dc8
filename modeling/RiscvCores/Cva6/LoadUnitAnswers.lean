import RiscvCores.Cva6.LoadStoreUnit
import RiscvCores.Lib.Tickets

/-!
# The answers of the load unit

Requests stand in the load buffer until the cache answers their index.  A load
takes a ticket when it leaves the bypass; its request holds the ticket, and the
request of a load that stays in the bypass, for a missed translation or a stall,
holds none.  The cache answers in any order, after any delay from the cycle of
the tag on, but it answers a request that is killed in the cycle of the kill.
-/

set_option autoImplicit false

namespace Cva6.LoadUnit

open Tickets

variable {cfg : LsuCfg}

/-! ## Outputs -/

section Outputs

variable (fpPresent : Bool) (s : State cfg) (i : Input cfg)

def answersRequest : Bool :=
  i.dataRvalid && !s.ldbufFlushed (ldbufRindex i) &&
    (s.ldbufLastId != ldbufRindex i || !(drives s i).killReq ||
      i.exValid && s.control == .sendTag)

/-- An exception of the translation retires, if no response does. -/
def retiresException : Bool :=
  (cfg.mmuPresent || cfg.nonIdemPotenceEn) && s.control == .waitTranslation && !i.dataRvalid &&
    i.exValid && i.valid

def validO : Bool := answersRequest s i || retiresException s i

def transIdO : BitVec cfg.transIdBits :=
  if retiresException s i then i.lsuCtrl.transId else (s.ldbuf (ldbufRindex i)).transId

def exValidO : Bool :=
  i.dataRvalid && !s.ldbufFlushed (ldbufRindex i) && (i.exValid && s.control == .sendTag) ||
    retiresException s i

/-- The low bits of the shifted data under the sign. -/
def extended {xlen : Nat} (shifted : BitVec xlen) (signBit : Bool) (width : Nat) : BitVec xlen :=
  let low := (shifted.setWidth width).setWidth xlen
  if signBit then low ||| (BitVec.allOnes xlen <<< width) else low

/-- The result mux. -/
def loadResult {xlen k : Nat} (operation : FuOp) (addressOffset : BitVec k)
    (rdata : BitVec xlen) : BitVec xlen :=
  let shifted := rdata >>> (8 * addressOffset.toNat)
  let isSigned := operation ∈ [FuOp.lw, .lh, .lb, .hlvW, .hlvH, .hlvB]
  let isFpSigned := operation ∈ [FuOp.flw, .flh, .flb]
  let rdataOffset :=
    if operation ∈ [FuOp.lw, .flw, .hlvW] ∧ xlen = 64 then addressOffset + 3
    else if operation ∈ [FuOp.lh, .flh, .hlvH] then addressOffset + 1
    else addressOffset
  let signBit := isSigned && rdata.getLsbD (8 * rdataOffset.toNat + 7) || fpPresent && isFpSigned
  match operation with
  | .lw | .lwu | .hlvW | .hlvWu | .hlvxWu => extended shifted signBit 32
  | .lh | .lhu | .hlvH | .hlvHu | .hlvxHu => extended shifted signBit 16
  | .lb | .lbu | .hlvB | .hlvBu => extended shifted signBit 8
  | .flw => if fpPresent then extended shifted signBit 32 else shifted
  | .flh => if fpPresent then extended shifted signBit 16 else shifted
  | .flb => if fpPresent then extended shifted signBit 8 else shifted
  | _ => shifted

def resultO (rdata : BitVec cfg.xlen) : BitVec cfg.xlen :=
  let entry := s.ldbuf (ldbufRindex i)
  loadResult fpPresent entry.operation entry.addressOffset rdata

end Outputs

/-! ## The ledger -/

/-- A request with the load it was made for; `raised` tells whether its translation raised an
exception, which shows in the cycle after the grant. -/
structure Request (cfg : LsuCfg) where
  ctrl : LsuCtrl cfg
  raised : Bool

structure Ledger (cfg : LsuCfg) where
  owed : Fin cfg.nrLoadBufEntries → Option (Request cfg)
  tickets : Office (Fin cfg.nrLoadBufEntries)
  fresh : Option (Fin cfg.nrLoadBufEntries)

def Ledger.reset : Ledger cfg where
  owed _ := none
  tickets := .opened
  fresh := none

namespace Ledger

variable (g : Ledger cfg) (s : State cfg) (i : Input cfg)

def isFresh (r : Fin cfg.nrLoadBufEntries) : Bool := g.fresh == some r

/-- The request of the last cycle sees its exception. -/
def translated (r : Fin cfg.nrLoadBufEntries) : Option (Request cfg) :=
  (g.owed r).map fun q => if g.isFresh r then { q with raised := i.exValid } else q

def answered : Ledger cfg :=
  if i.dataRvalid then
    { g with
      owed := Function.update (g.translated i) (ldbufRindex i) none
      tickets := g.tickets.returned (ldbufRindex i) }
  else { g with owed := g.translated i }

def granted : Ledger cfg :=
  let g := g.answered i
  if ldbufW s i then
    { owed := Function.update g.owed (ldbufWindex s i) (some { ctrl := i.lsuCtrl, raised := false })
      tickets := if (drives s i).popLd then g.tickets.hand (ldbufWindex s i) else g.tickets
      fresh := some (ldbufWindex s i) }
  else
    { g with
      tickets := if (drives s i).popLd then g.tickets.pass else g.tickets
      fresh := none }

def next : Ledger cfg :=
  let g := g.granted s i
  if i.flush then { g with tickets := g.tickets.voidHeld } else g

end Ledger

/-! ## The load that an answer is due to -/

structure Answer (cfg : LsuCfg) where
  load : Nat
  ctrl : LsuCtrl cfg
  exception : Bool

section Due

variable (g : Ledger cfg) (s : State cfg) (i : Input cfg)

/-- A response is due to the load whose request it answers, unless the load was flushed. -/
def responseDue : Option (Answer cfg) :=
  match g.translated i (ldbufRindex i), g.tickets.redeems (ldbufRindex i) with
  | some q, some load => some { load := load, ctrl := q.ctrl, exception := q.raised }
  | _, _ => none

/-- A load that leaves the bypass without a request has an exception. -/
def due : Option (Answer cfg) :=
  if i.dataRvalid then responseDue g i
  else if (drives s i).popLd && !ldbufW s i then
    some { load := g.tickets.issued, ctrl := i.lsuCtrl, exception := true }
  else none

variable (fpPresent : Bool)

/-- What the outputs and the load buffer do in a cycle. -/
structure Accounted : Prop where
  valid : validO s i = (due g s i).isSome
  transId : ∀ a, due g s i = some a → transIdO s i = a.ctrl.transId
  exception : ∀ a, due g s i = some a → exValidO s i = a.exception
  result : ∀ a, due g s i = some a → i.dataRvalid = true → ∀ rdata,
    resultO fpPresent s i rdata =
      loadResult fpPresent a.ctrl.operation
        (a.ctrl.vaddr.extractLsb' 0 (Nat.clog 2 (cfg.xlen / 8))) rdata
  unowed : ldbufW s i = true → g.owed (ldbufWindex s i) = none ∨
    (i.dataRvalid = true ∧ ldbufRindex i = ldbufWindex s i)

end Due

/-! ## Runs -/

/-- The cache answers what it owes, and the bypass keeps the load that waits. -/
structure Environment (g : Ledger cfg) (s : State cfg) (i : Input cfg) : Prop where
  answers : i.dataRvalid = true → (g.owed (ldbufRindex i)).isSome = true
  held : s.control = .waitTranslation → i.valid = true

/-- The request granted in the last cycle is answered at once if it is killed. -/
def KillAnswered (g : Ledger cfg) (s : State cfg) (i : Input cfg) : Prop :=
  ∀ r, g.fresh = some r → (drives s i).killReq = true →
    i.dataRvalid = true ∧ ldbufRindex i = r

/-- The unit with a cache that answers once; `prompt` tells whether it answers kills at once. -/
def machine (cfg : LsuCfg) (prompt : Bool) :
    Clocked.Machine (Ledger cfg × State cfg) (Input cfg) where
  reset := (.reset, reset cfg)
  next now i := (now.1.next now.2 i, next now.2 i)
  allowed _ now i := Environment now.1 now.2 i ∧ (prompt = true → KillAnswered now.1 now.2 i)

/-- The loads that cause `valid_o`, in the order of the cycles. -/
def validLoads (cycles : List ((Ledger cfg × State cfg) × Input cfg)) : List Nat :=
  cycles.filterMap fun c => (due c.1.1 c.1.2 c.2).map (·.load)

/-! ## What a cycle does to the state -/

section Moves

variable (s : State cfg) (i : Input cfg)

/-- States in which the unit will ask without another look at the buffer. -/
def KeepsRoom (c : Control) : Prop :=
  c = .waitGnt ∨ c = .waitPageOffset ∨ c = .waitTranslation ∨ c = .waitWbEmpty

/-- The unit kills the request that it was just granted. -/
def Aborting (cfg : LsuCfg) (c : Control) : Prop :=
  (c = .abortTransaction ∧ cfg.mmuPresent = true) ∨
    (c = .abortTransactionNi ∧ cfg.nonIdemPotenceEn = true)

structure Moves (d : Drives) : Prop where
  asks : d.dataReq = true → s.control = .waitGnt ∨ acceptReq s i = true
  taken : d.dataReq = true → i.dataGnt = true → d.popLd = true → d.controlD = .sendTag
  aborted : d.dataReq = true → i.dataGnt = true → d.popLd = false → Aborting cfg d.controlD
  ungranted : (d.dataReq && i.dataGnt) = false →
    d.controlD ≠ .sendTag ∧ d.controlD ≠ .abortTransaction ∧ d.controlD ≠ .abortTransactionNi
  pops : (d.dataReq && i.dataGnt) = false → d.popLd = true →
    s.control = .waitTranslation ∧ (cfg.mmuPresent || cfg.nonIdemPotenceEn) = true ∧
      i.exValid = true ∧ i.dataRvalid = false
  excepts : s.control = .waitTranslation → (cfg.mmuPresent || cfg.nonIdemPotenceEn) = true →
    i.exValid = true → i.dataRvalid = false → d.popLd = true ∧ d.dataReq = false
  kills : d.killReq = true ↔ (s.control = .sendTag ∧ i.exValid = true) ∨ s.control = .waitFlush ∨
    Aborting cfg s.control
  room : (d.dataReq && i.dataGnt) = false → KeepsRoom d.controlD →
    KeepsRoom s.control ∨ acceptReq s i = true ∨ Aborting cfg s.control
  flushed : d.controlD ≠ .waitFlush

theorem nonIdem_of_stallNi (stalled : stallNi i = true) : cfg.nonIdemPotenceEn = true := by
  simp only [stallNi, Bool.and_eq_true] at stalled
  exact stalled.2.2

theorem moves : Moves s i (control s i) := by
  have stall := nonIdem_of_stallNi i
  cases state : s.control <;> constructor <;>
    simp only [control, state, accepting, granted, killing, quiet, KeepsRoom, Aborting] <;>
    grind -ring -linarith

end Moves

end Cva6.LoadUnit
