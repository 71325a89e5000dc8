import RiscvCores.Cva6.Icache

/-!
# What the instruction cache has been asked and told

The history numbers the accepted requests and follows the last one until it is answered or
killed.  It knows the fill that the memory owes, and which lines were installed since the
last flush and the last invalidation of their place.  The contents of the memory change only
with a flush.
-/

set_option autoImplicit false

namespace Cva6.Icache

open AxiAdapter (IReq)

variable {cfg : IcacheCfg}

/-- An accepted request that is not killed and not answered, with its translation. -/
structure Request where
  id : Nat
  vaddr : Nat
  paddr : Option Nat

/-- A fill that was sent, for the request `owner` and after `epoch` flushes. -/
structure Sent where
  owner : Nat
  epoch : Nat
  req : IReq

structure History (cfg : IcacheCfg) where
  epoch : Nat := 0
  accepted : Nat := 0
  request : Option Request := none
  answered : List Nat := []
  sent : Option Sent := none
  fresh : cfg.Index → cfg.Way → Bool := fun _ _ => false
  /-- The first clearing of the valid bits is over. -/
  booted : Bool := false

/-- An invalidation of the line in a way of a set. -/
def invalidates (i : Input cfg) (set : cfg.Index) (k : cfg.Way) : Bool :=
  invEn i && decide (cfg.index i.memRtrn.inv.idx = set) &&
    (i.memRtrn.inv.all || i.memRtrn.inv.vld && icacheWayBin2oh i.memRtrn.inv.way k)

def installs (s : State cfg) (i : Input cfg) (set : cfg.Index) (k : cfg.Way) : Bool :=
  (ctrl s i).cacheWren && decide (clIndex s i = set) && s.replWayOh k

/-- The physical address that is shown for the request in the cache. -/
def shown (s : State cfg) (i : Input cfg) : Option Nat :=
  if (ctrl s i).fetchReq && i.fetchValid && !i.fetchException then some i.fetchPaddr else none

namespace History

variable (H : History cfg) (s : State cfg) (i : Input cfg)

/-- The request with the address that it is translated to by now. -/
def current : Option Request :=
  H.request.map fun r => { r with paddr := r.paddr.or (shown s i) }

def step : History cfg where
  epoch := if i.flush then H.epoch + 1 else H.epoch
  accepted := if accepts s i then H.accepted + 1 else H.accepted
  request :=
    if accepts s i then if i.killS1 then none else some ⟨H.accepted, i.vaddr, none⟩
    else if i.killS2 || (ctrl s i).valid then none
    else H.current s i
  answered := if (ctrl s i).valid then H.answered ++ (H.request.map Request.id).toList
    else H.answered
  sent :=
    if (ctrl s i).memDataReq && i.memDataAck then
      H.request.map fun r => ⟨r.id, H.epoch, memData s i⟩
    else if ifill i then none
    else H.sent
  fresh set k :=
    if i.flush || invalidates i set k then false
    else installs s i set k || H.fresh set k
  booted := H.booted || decide (s.state ≠ .flush)

end History

abbrev Cycle (cfg : IcacheCfg) : Type := State cfg × Input cfg

def history (cycles : List (Cycle cfg)) : History cfg :=
  cycles.foldl (fun H now => H.step now.1 now.2) {}

theorem history_concat (cycles : List (Cycle cfg)) (s : State cfg) (i : Input cfg) :
    history (cycles ++ [(s, i)]) = (history cycles).step s i := by
  simp [history]

/-! ## The environment -/

/-- The bytes that answer a fill: a line, a double word in front, or a repeated word. -/
def Fills (cfg : IcacheCfg) (mem : Nat → BitVec 8) (req : IReq) (data : cfg.Line) : Prop :=
  ∀ k : Fin cfg.lineBytes,
    if req.nc then
      if cfg.axi then k.val < 8 → data k = mem (req.paddr + k.val)
      else data k = mem (req.paddr + k.val % 4)
    else data k = mem (req.paddr + k.val)

/-- No translation is shown during a fill; it keeps the offset in the page and does not
change while a request is open; each fill is answered once, with the contents of the memory;
and a flush comes with a kill. -/
structure Environment (mem : Nat → Nat → BitVec 8) (H : History cfg) (s : State cfg)
    (i : Input cfg) : Prop where
  asked : i.fetchValid = true → s.state ≠ .miss
  page : ∀ p ∈ shown s i, p < 2 ^ (cfg.tagWidth + cfg.indexWidth) ∧
    p % 2 ^ cfg.indexWidth = fetchVaddr s % 2 ^ cfg.indexWidth
  stable : ∀ p ∈ shown s i, ∀ r ∈ H.request, ∀ q ∈ r.paddr, p = q
  fill : ifill i = true → ∃ sent ∈ H.sent,
    sent.epoch = H.epoch → Fills cfg (mem H.epoch) sent.req i.memRtrn.data
  killed : i.flush = true → i.killS2 = true

/-- The memories may hold anything after reset. -/
def machine (mem : Nat → Nat → BitVec 8)
    (tagSram : cfg.Way → TechCells.Sram cfg.Index (Bool × Nat))
    (dataSram : cfg.Way → TechCells.Sram cfg.Index cfg.Line) :
    Clocked.Machine (State cfg) (Input cfg) where
  reset := reset tagSram dataSram
  next := next
  allowed cycles := Environment mem (history cycles)

/-! ## What is promised -/

/-- The line of a way is valid and has a tag. -/
def Valid (s : State cfg) (set : cfg.Index) (k : cfg.Way) (tag : Nat) : Prop :=
  (s.tagSram k).words set = (true, tag)

/-- What holds in a cycle of the cache. -/
structure Sound (mem : Nat → Nat → BitVec 8) (H : History cfg) (s : State cfg) (i : Input cfg) :
    Prop where
  /-- An answer belongs to the open request and carries the bytes at its physical address. -/
  answer : (ctrl s i).valid = true → i.killS2 = false ∧ ∃ r ∈ H.current s i,
    r.vaddr = s.vaddr ∧ (i.fetchException = false → ∃ p ∈ r.paddr,
      ∀ j : Fin cfg.fetchBytes, dreqData s i j = mem H.epoch (p + j.val))
  once : (H.step s i).answered.Nodup
  /-- A fill is delivered or written only for the request that it was sent for. -/
  filled : ifill i = true → (ctrl s i).valid = true ∨ (ctrl s i).cacheWren = true →
    i.killS2 = false ∧ ∃ sent ∈ H.sent, ∃ r ∈ H.request, sent.owner = r.id
  /-- A tag is valid in one way at most. -/
  unique : H.booted = true ∨ s.state ≠ .flush →
    ∀ set k k' tag, Valid s set k tag → Valid s set k' tag → k = k'
  /-- A line that is hit was installed after the last flush and the last invalidation. -/
  fresh : (ctrl s i).valid = true → s.state = .read → i.fetchException = false →
    anyHit s i = true ∧
      ∀ k, clHit s i k = true → H.fresh (cfg.index s.vaddr) k = true

end Cva6.Icache
