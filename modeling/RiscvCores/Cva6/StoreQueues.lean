import RiscvCores.Cva6.StoreBuffer

/-!
# The store buffer refines two queues

A ledger, kept from the inputs alone, numbers the stores as they are pushed and
moves each from the speculative list to the committed or the flushed one.  In
every run the two circular queues hold the ledger's speculative stores and its
committed stores that are not granted yet.
-/

set_option autoImplicit false

namespace Cva6.StoreBuffer

open Ring

variable {cfg : StoreCfg}

/-! ## The ledger -/

/-- A store with its number in the order of pushes. -/
abbrev Numbered (cfg : StoreCfg) : Type := Nat × Store cfg

/-- Where every pushed store is: still speculative, committed or flushed. -/
structure Ledger (cfg : StoreCfg) where
  pushes : Nat
  speculative : List (Numbered cfg)
  committed : List (Numbered cfg)
  flushed : List (Numbered cfg)

def Ledger.push (l : Ledger cfg) (store : Store cfg) : Ledger cfg :=
  { l with
    pushes := l.pushes + 1
    speculative := l.speculative ++ [(l.pushes, store)] }

/-- The oldest speculative store is committed. -/
def Ledger.commit (l : Ledger cfg) : Ledger cfg :=
  { l with
    speculative := l.speculative.tail
    committed := l.committed ++ l.speculative.head?.toList }

def Ledger.flush (l : Ledger cfg) : Ledger cfg :=
  { l with
    speculative := []
    flushed := l.flushed ++ l.speculative }

def Ledger.afterPush (l : Ledger cfg) (i : Input cfg) : Ledger cfg :=
  if i.valid then l.push i.store else l

def Ledger.afterCommit (l : Ledger cfg) (i : Input cfg) : Ledger cfg :=
  if i.commit then (l.afterPush i).commit else l.afterPush i

def Ledger.cycle (l : Ledger cfg) (i : Input cfg) : Ledger cfg :=
  if i.flush then (l.afterCommit i).flush else l.afterCommit i

def ledger (cycles : List (State cfg × Input cfg)) : Ledger cfg :=
  cycles.foldl (fun l now => l.cycle now.2)
    { pushes := 0, speculative := [], committed := [], flushed := [] }

/-- The requests the data cache granted, in order. -/
def granted (cycles : List (State cfg × Input cfg)) : List (Request cfg) :=
  (cycles.filter fun now => grants now.1 now.2).map fun now => request now.1

/-- Numbers grow from the committed to the speculative stores, and no flushed
store is among them. -/
structure Ledger.Ordered (l : Ledger cfg) : Prop where
  sorted : (l.committed ++ l.speculative).Pairwise fun x y => x.1 < y.1
  below : ∀ x ∈ l.committed ++ l.speculative ++ l.flushed, x.1 < l.pushes
  apart : ∀ x ∈ l.flushed, ∀ y ∈ l.committed ++ l.speculative, x.1 ≠ y.1

theorem Ledger.Ordered.push {l : Ledger cfg} (ordered : l.Ordered) (store : Store cfg) :
    (l.push store).Ordered := by
  obtain ⟨sorted, below, apart⟩ := ordered
  refine ⟨?_, ?_, ?_⟩
  · simp only [Ledger.push, ← List.append_assoc]
    rw [List.pairwise_append]
    refine ⟨sorted, List.pairwise_singleton _ _, fun x member y last => ?_⟩
    rw [List.mem_singleton] at last
    subst last
    exact below x (List.mem_append_left _ member)
  · intro x member
    simp only [Ledger.push, List.mem_append, List.mem_singleton] at member ⊢
    rcases member with (committed | speculative | rfl) | flushed
    · exact Nat.lt_succ_of_lt (below x (by simp [committed]))
    · exact Nat.lt_succ_of_lt (below x (by simp [speculative]))
    · exact Nat.lt_succ_self _
    · exact Nat.lt_succ_of_lt (below x (by simp [flushed]))
  · intro x flushed y member
    simp only [Ledger.push, List.mem_append, List.mem_singleton] at flushed member
    rcases member with committed | speculative | rfl
    · exact apart x flushed y (by simp [committed])
    · exact apart x flushed y (by simp [speculative])
    · exact Nat.ne_of_lt (below x (by simp [flushed]))

theorem Ledger.commit_live (l : Ledger cfg) :
    l.commit.committed ++ l.commit.speculative = l.committed ++ l.speculative := by
  cases speculative : l.speculative <;> simp [Ledger.commit, speculative]

theorem Ledger.Ordered.commit {l : Ledger cfg} (ordered : l.Ordered) : l.commit.Ordered := by
  obtain ⟨sorted, below, apart⟩ := ordered
  refine ⟨?_, ?_, ?_⟩
  · rw [Ledger.commit_live]
    exact sorted
  · rw [Ledger.commit_live]
    exact below
  · rw [Ledger.commit_live]
    exact apart

theorem Ledger.Ordered.flush {l : Ledger cfg} (ordered : l.Ordered) : l.flush.Ordered := by
  obtain ⟨sorted, below, apart⟩ := ordered
  rw [List.pairwise_append] at sorted
  obtain ⟨committedSorted, _, crossed⟩ := sorted
  refine ⟨?_, ?_, ?_⟩
  · simpa [Ledger.flush] using committedSorted
  · intro x member
    apply below x
    simp only [Ledger.flush, List.mem_append, List.append_nil] at member ⊢
    tauto
  · intro x flushed y member
    simp only [Ledger.flush, List.mem_append, List.append_nil] at flushed member
    rcases flushed with earlier | now
    · exact apart x earlier y (by simp [member])
    · exact (Nat.ne_of_lt (crossed y member x now)).symm

theorem Ledger.Ordered.cycle {l : Ledger cfg} (ordered : l.Ordered) (i : Input cfg) :
    (l.cycle i).Ordered := by
  have pushed : (l.afterPush i).Ordered := by
    unfold Ledger.afterPush
    split
    · exact ordered.push i.store
    · exact ordered
  have evicted : (l.afterCommit i).Ordered := by
    unfold Ledger.afterCommit
    split
    · exact pushed.commit
    · exact pushed
  unfold Ledger.cycle
  split
  · exact evicted.flush
  · exact evicted

theorem ledger_append (cycles : List (State cfg × Input cfg)) (s : State cfg) (i : Input cfg) :
    ledger (cycles ++ [(s, i)]) = (ledger cycles).cycle i := by
  simp [ledger]

theorem granted_append (cycles : List (State cfg × Input cfg)) (s : State cfg)
    (i : Input cfg) :
    granted (cycles ++ [(s, i)]) =
      if grants s i then granted cycles ++ [request s] else granted cycles := by
  unfold granted
  split_ifs with grant <;> simp [List.filter_append, grant]

theorem ledger_ordered (cycles : List (State cfg × Input cfg)) : (ledger cycles).Ordered := by
  induction cycles using List.reverseRecOn with
  | nil => exact ⟨List.Pairwise.nil, by simp [ledger], by simp [ledger]⟩
  | append_singleton cycles now ih =>
      rw [show now = (now.1, now.2) from rfl, ledger_append]
      exact ih.cycle now.2

/-! ## A queue of entries -/

/-- The entries between the pointers are the valid ones and hold `stores`. -/
structure QueueHolds {depth : Nat} [NeZero depth] (queue : Fin depth → Entry cfg)
    (read write : Fin depth) (stores : List (Store cfg)) : Prop where
  occupied : Occupied (fun p => (queue p).valid) read write stores.length
  holds : Holds (fun p => (queue p).toStore) read stores

section Queue

variable {depth : Nat} [NeZero depth] {queue : Fin depth → Entry cfg}
  {read write : Fin depth} {stores : List (Store cfg)}

theorem QueueHolds.push (inv : QueueHolds queue read write stores)
    (room : stores.length < depth) (store : Store cfg) :
    QueueHolds (Function.update queue write { store with valid := true }) read (write + 1)
      (stores ++ [store]) where
  occupied := by
    have pushed := inv.occupied.push room
    rw [List.length_append, List.length_singleton]
    convert pushed using 1
    funext p
    by_cases same : p = write
    · simp [same]
    · simp [same]
  holds := by
    have pushed := inv.holds.push room store
    rw [← inv.occupied.write_eq] at pushed
    convert pushed using 1
    funext p
    by_cases same : p = write
    · simp [same]
    · simp [same]

theorem QueueHolds.pop {store : Store cfg}
    (inv : QueueHolds queue read write (store :: stores)) :
    QueueHolds (Function.update queue read { queue read with valid := false }) (read + 1)
      write stores where
  occupied := by
    have popped := inv.occupied.pop
    convert popped using 1
    funext p
    by_cases same : p = read
    · simp [same]
    · simp [same]
  holds := by
    have popped := inv.holds.pop
    convert popped using 1
    funext p
    by_cases same : p = read
    · simp [same]
    · simp [same]

theorem QueueHolds.clear (queue : Fin depth → Entry cfg) (read : Fin depth) :
    QueueHolds (fun p => { queue p with valid := false }) read read [] where
  occupied := Occupied.empty read
  holds := Holds.nil _ read

end Queue

/-! ## Status counters -/

theorem toNat_add_one {count : BitVec 3} (room : count.toNat < 4) :
    (count + 1).toNat = count.toNat + 1 := by
  have one : (1 : BitVec 3).toNat = 1 := rfl
  rw [BitVec.toNat_add, one]
  omega

theorem toNat_sub_one {count : BitVec 3} (nonempty : 0 < count.toNat) :
    (count - 1).toNat = count.toNat - 1 := by
  have one : (1 : BitVec 3).toNat = 1 := rfl
  have small := count.isLt
  rw [BitVec.toNat_sub, one]
  omega

/-! ## One cycle -/

/-- The stores that are committed but not granted yet. -/
def pending (cycles : List (State cfg × Input cfg)) : List (Numbered cfg) :=
  (ledger cycles).committed.drop (granted cycles).length

/-- The queues follow the ledger, and a full speculative queue was announced in
the cycle before. -/
structure Refines (cycles : List (State cfg × Input cfg)) (s : State cfg) : Prop where
  speculative : QueueHolds s.speculativeQueue s.speculativeReadPointer
    s.speculativeWritePointer ((ledger cycles).speculative.map Prod.snd)
  speculativeCount : s.speculativeStatusCnt.toNat = (ledger cycles).speculative.length
  committed : QueueHolds s.commitQueue s.commitReadPointer s.commitWritePointer
    ((pending cycles).map Prod.snd)
  commitCount : s.commitStatusCnt.toNat = (pending cycles).length
  served : granted cycles = ((ledger cycles).committed.take (granted cycles).length).map
    fun store => requestOf store.2
  full : s.speculativeStatusCnt.toNat = depthSpec → wasReady cycles = false

section Cycle

variable {cycles : List (State cfg × Input cfg)} {s : State cfg} {i : Input cfg}

theorem Refines.room (inv : Refines cycles s) (driven : Driven cycles s i)
    (valid : i.valid = true) : s.speculativeStatusCnt.toNat < depthSpec := by
  have bound := inv.speculative.occupied.bound
  rw [List.length_map, ← inv.speculativeCount] at bound
  rcases Nat.lt_or_eq_of_le bound with room | isFull
  · exact room
  · have notReady := inv.full isFull
    rw [driven.1 valid] at notReady
    cases notReady

theorem Refines.pushed (inv : Refines cycles s) (driven : Driven cycles s i) :
    QueueHolds (pushedQueue s i) s.speculativeReadPointer
        (if i.valid then s.speculativeWritePointer + 1 else s.speculativeWritePointer)
        (((ledger cycles).afterPush i).speculative.map Prod.snd) ∧
      (if i.valid then s.speculativeStatusCnt + 1 else s.speculativeStatusCnt).toNat =
        ((ledger cycles).afterPush i).speculative.length := by
  unfold pushedQueue Ledger.afterPush
  split_ifs with valid
  · have room := inv.room driven valid
    have pushed := inv.speculative.push
      (by rw [List.length_map, ← inv.speculativeCount]; exact room) i.store
    constructor
    · simpa [Ledger.push] using pushed
    · rw [toNat_add_one room, inv.speculativeCount]
      simp [Ledger.push]
  · exact ⟨inv.speculative, inv.speculativeCount⟩

theorem Refines.speculative_nonempty (inv : Refines cycles s) (driven : Driven cycles s i)
    (commit : i.commit = true) : (ledger cycles).speculative ≠ [] := by
  intro empty
  have count := inv.speculativeCount
  rw [empty, List.length_nil] at count
  exact (driven.2.1 commit).1 (BitVec.eq_of_toNat_eq count)

/-- The entry that a commit takes is the ledger's oldest speculative store. -/
theorem Refines.oldest (inv : Refines cycles s) {first : Numbered cfg}
    {rest : List (Numbered cfg)} (nonempty : (ledger cycles).speculative = first :: rest) :
    s.speculativeQueue s.speculativeReadPointer = { first.2 with valid := true } := by
  have holds := inv.speculative.holds
  have live := inv.speculative.occupied.live_read
  rw [nonempty] at holds live
  have valid : (s.speculativeQueue s.speculativeReadPointer).valid = true :=
    live.mpr (Nat.succ_pos _)
  have store : (s.speculativeQueue s.speculativeReadPointer).toStore = first.2 := holds.head
  rw [← valid, ← store]

theorem Refines.evicted (inv : Refines cycles s) (driven : Driven cycles s i) :
    QueueHolds (evictedQueue s i) (speculativeReadPointerN s i)
        (if i.valid then s.speculativeWritePointer + 1 else s.speculativeWritePointer)
        (((ledger cycles).afterCommit i).speculative.map Prod.snd) ∧
      (let pushed := if i.valid then s.speculativeStatusCnt + 1 else s.speculativeStatusCnt
        if i.commit then pushed - 1 else pushed).toNat =
        ((ledger cycles).afterCommit i).speculative.length := by
  obtain ⟨pushed, count⟩ := inv.pushed driven
  unfold evictedQueue Ledger.afterCommit speculativeReadPointerN
  by_cases commit : i.commit = true
  · simp only [if_pos commit]
    obtain ⟨first, rest, nonempty⟩ : ∃ first rest,
        ((ledger cycles).afterPush i).speculative = first :: rest := by
      obtain ⟨first, rest, nonempty⟩ :=
        List.exists_cons_of_ne_nil (inv.speculative_nonempty driven commit)
      unfold Ledger.afterPush
      split_ifs
      · exact ⟨first, rest ++ [((ledger cycles).pushes, i.store)], by
          simp [Ledger.push, nonempty]⟩
      · exact ⟨first, rest, nonempty⟩
    rw [nonempty] at pushed count
    constructor
    · simpa [Ledger.commit, nonempty] using pushed.pop
    · rw [toNat_sub_one (by rw [count]; exact Nat.succ_pos _), count]
      simp [Ledger.commit, nonempty]
  · simp only [if_neg commit]
    exact ⟨pushed, count⟩

theorem Refines.speculativeN (inv : Refines cycles s) (driven : Driven cycles s i) :
    QueueHolds (speculativeQueueN s i) (speculativeReadPointerN s i)
        (speculativeWritePointerN s i) (((ledger cycles).cycle i).speculative.map Prod.snd) ∧
      (speculativeStatusCntN s i).toNat = ((ledger cycles).cycle i).speculative.length := by
  obtain ⟨evicted, count⟩ := inv.evicted driven
  unfold speculativeQueueN Ledger.cycle speculativeWritePointerN speculativeStatusCntN
  by_cases flush : i.flush = true
  · simp only [if_pos flush]
    have noCommit : ¬ i.commit = true := fun commit => driven.2.2 ⟨commit, flush⟩
    rw [speculativeReadPointerN, if_neg noCommit]
    exact ⟨QueueHolds.clear _ _, rfl⟩
  · simp only [if_neg flush]
    exact ⟨evicted, count⟩

/-- A queue that is full in the next cycle makes `ready_o` low in this one: a
commit could only leave it full if a store was pushed into a full queue. -/
theorem Refines.fullN (inv : Refines cycles s) (driven : Driven cycles s i)
    (isFull : (speculativeStatusCntN s i).toNat = depthSpec) : ready s i = false := by
  have noCommit : i.commit = false := by
    by_contra commit
    rw [Bool.not_eq_false] at commit
    have noFlush : ¬ i.flush = true := fun flush => driven.2.2 ⟨commit, flush⟩
    have nonempty : s.speculativeStatusCnt.toNat ≠ 0 := fun zero =>
      (driven.2.1 commit).1 (BitVec.eq_of_toNat_eq zero)
    unfold speculativeStatusCntN at isFull
    simp only [if_neg noFlush, if_pos commit] at isFull
    by_cases valid : i.valid = true
    · have room := inv.room driven valid
      rw [if_pos valid, toNat_sub_one (by rw [toNat_add_one room]; omega),
        toNat_add_one room] at isFull
      omega
    · have bound := inv.speculative.occupied.bound
      rw [List.length_map, ← inv.speculativeCount] at bound
      rw [if_neg valid, toNat_sub_one (by omega)] at isFull
      omega
  simp [ready, isFull, noCommit]

/-! ## The commit queue -/

theorem Refines.granted_le (inv : Refines cycles s) :
    (granted cycles).length ≤ (ledger cycles).committed.length := by
  have length := congrArg List.length inv.served
  rw [List.length_map, List.length_take] at length
  omega

theorem Refines.dataReq_iff (inv : Refines cycles s) :
    dataReq s i = true ↔ i.stallStPending = false ∧ pending cycles ≠ [] := by
  have live := inv.committed.occupied.live_read
  rw [List.length_map] at live
  simp only [dataReq, Bool.and_eq_true, Bool.not_eq_true', live, List.length_pos_iff]
  exact and_comm

/-- The request on the port is the oldest pending store. -/
theorem Refines.request_eq (inv : Refines cycles s) {first : Numbered cfg}
    {rest : List (Numbered cfg)} (nonempty : pending cycles = first :: rest) :
    request s = requestOf first.2 := by
  have holds := inv.committed.holds
  rw [nonempty] at holds
  rw [request, holds.head]

theorem Refines.pending_cons (inv : Refines cycles s) (grant : grants s i = true) :
    ∃ first rest, pending cycles = first :: rest := by
  simp only [grants, Bool.and_eq_true] at grant
  exact List.exists_cons_of_ne_nil (inv.dataReq_iff.mp grant.1).2

/-- The stores one cycle commits: none or the oldest speculative one. -/
def newlyCommitted (l : Ledger cfg) (i : Input cfg) : List (Numbered cfg) :=
  if i.commit then (l.afterPush i).speculative.head?.toList else []

theorem Ledger.cycle_committed (l : Ledger cfg) (i : Input cfg) :
    (l.cycle i).committed = l.committed ++ newlyCommitted l i := by
  have kept : (l.afterPush i).committed = l.committed := by
    unfold Ledger.afterPush
    split <;> rfl
  unfold Ledger.cycle Ledger.afterCommit newlyCommitted
  split_ifs <;> simp [Ledger.commit, Ledger.flush, kept]

theorem Refines.pending_append (inv : Refines cycles s) :
    pending (cycles ++ [(s, i)]) =
      (if grants s i then (pending cycles).tail else pending cycles) ++
        newlyCommitted (ledger cycles) i := by
  unfold pending
  rw [ledger_append, granted_append, Ledger.cycle_committed]
  split_ifs with grant
  · obtain ⟨first, rest, nonempty⟩ := inv.pending_cons grant
    have more : (granted cycles).length < (ledger cycles).committed.length := by
      by_contra done
      rw [pending, List.drop_eq_nil_of_le (Nat.le_of_not_lt done)] at nonempty
      cases nonempty
    rw [List.length_append, List.length_singleton, List.drop_append_of_le_length more,
      List.tail_drop]
  · rw [List.drop_append_of_le_length inv.granted_le]

theorem Refines.grantedN (inv : Refines cycles s) :
    QueueHolds (grantedQueue s i) (commitReadPointerN s i) s.commitWritePointer
        ((if grants s i then (pending cycles).tail else pending cycles).map Prod.snd) ∧
      (if grants s i then s.commitStatusCnt - 1 else s.commitStatusCnt).toNat =
        (if grants s i then (pending cycles).tail else pending cycles).length := by
  unfold grantedQueue commitReadPointerN
  have holds := inv.committed
  have count := inv.commitCount
  split_ifs with grant
  · obtain ⟨first, rest, nonempty⟩ := inv.pending_cons grant
    rw [nonempty] at holds count ⊢
    constructor
    · exact holds.pop
    · rw [toNat_sub_one (by rw [count]; exact Nat.succ_pos _), count]
      rfl
  · exact ⟨holds, count⟩

theorem Refines.commitN (inv : Refines cycles s) (driven : Driven cycles s i) :
    QueueHolds (commitQueueN s i) (commitReadPointerN s i) (commitWritePointerN s i)
        ((pending (cycles ++ [(s, i)])).map Prod.snd) ∧
      (commitStatusCntN s i).toNat = (pending (cycles ++ [(s, i)])).length := by
  obtain ⟨holds, count⟩ := inv.grantedN (i := i)
  rw [inv.pending_append]
  unfold commitQueueN commitWritePointerN commitStatusCntN newlyCommitted
  by_cases commit : i.commit = true
  · simp only [if_pos commit]
    obtain ⟨oldest, rest, nonempty⟩ :=
      List.exists_cons_of_ne_nil (inv.speculative_nonempty driven commit)
    have newly : ((ledger cycles).afterPush i).speculative.head?.toList = [oldest] := by
      unfold Ledger.afterPush
      split_ifs <;> simp [Ledger.push, nonempty]
    have room : s.commitStatusCnt.toNat < depthCommit := by
      simpa [commitReady] using (driven.2.1 commit).2
    have left : (if grants s i then (pending cycles).tail else pending cycles).length <
        depthCommit := by
      rw [inv.commitCount] at room
      split_ifs
      · rw [List.length_tail]
        omega
      · exact room
    rw [newly, inv.oldest nonempty, List.map_append, List.length_append,
      toNat_add_one (by rw [count]; exact left), count]
    exact ⟨holds.push (by rw [List.length_map]; exact left) oldest.2, rfl⟩
  · simp only [if_neg commit, List.append_nil]
    exact ⟨holds, count⟩

theorem Refines.servedN (inv : Refines cycles s) :
    granted (cycles ++ [(s, i)]) =
      ((ledger (cycles ++ [(s, i)])).committed.take
        (granted (cycles ++ [(s, i)])).length).map fun store => requestOf store.2 := by
  rw [ledger_append, granted_append, Ledger.cycle_committed]
  split_ifs with grant
  · obtain ⟨first, rest, nonempty⟩ := inv.pending_cons grant
    have next : (ledger cycles).committed[(granted cycles).length]? = some first := by
      rw [← List.head?_drop]
      exact congrArg List.head? nonempty
    obtain ⟨inside, value⟩ := List.getElem?_eq_some_iff.mp next
    rw [List.length_append, List.length_singleton,
      List.take_append_of_le_length inside, List.take_succ_eq_append_getElem inside,
      List.map_append, ← inv.served, value, inv.request_eq nonempty]
    rfl
  · rw [List.take_append_of_le_length inv.granted_le]
    exact inv.served

theorem Refines.cycle (inv : Refines cycles s) (driven : Driven cycles s i) :
    Refines (cycles ++ [(s, i)]) (next s i) where
  speculative := by
    rw [ledger_append]
    exact (inv.speculativeN driven).1
  speculativeCount := by
    rw [ledger_append]
    exact (inv.speculativeN driven).2
  committed := (inv.commitN driven).1
  commitCount := (inv.commitN driven).2
  served := inv.servedN
  full := by
    intro isFull
    rw [wasReady, List.getLast?_concat]
    exact inv.fullN driven isFull

end Cycle

/-! ## Runs -/

theorem refines_reset : Refines [] (reset : State cfg) where
  speculative := QueueHolds.clear (fun _ => zeroEntry) 0
  speculativeCount := rfl
  committed := QueueHolds.clear (fun _ => zeroEntry) 0
  commitCount := rfl
  served := rfl
  full := by
    intro isFull
    cases isFull

theorem refines_of_run {cycles : List (State cfg × Input cfg)} {s : State cfg}
    (run : (machine cfg).Run cycles s) : Refines cycles s :=
  run.invariant Refines refines_reset fun _ _ _ _ inv driven => inv.cycle driven

/-- Index and tag cover the address, so a request shows all of its store. -/
theorem requestOf_injective : Function.Injective (@requestOf cfg) := by
  intro x y same
  have address : x.address = y.address := by
    apply BitVec.eq_of_getLsbD_eq
    intro k inside
    by_cases low : k < cfg.dcacheIndexWidth
    · have bit := congrArg (fun r => r.addressIndex.getLsbD k) same
      simpa [requestOf, BitVec.getLsbD_extractLsb', low] using bit
    · have bit := congrArg (fun r => r.addressTag.getLsbD (k - cfg.dcacheIndexWidth)) same
      have tag : k - cfg.dcacheIndexWidth < cfg.dcacheTagWidth := by
        unfold StoreCfg.dcacheTagWidth
        omega
      simpa [requestOf, BitVec.getLsbD_extractLsb', tag,
        Nat.add_sub_cancel' (Nat.le_of_not_lt low)] using bit
  have data : x.data = y.data := congrArg Request.dataWdata same
  have be : x.be = y.be := congrArg Request.dataBe same
  have size : x.dataSize = y.dataSize := congrArg Request.dataSize same
  cases x
  cases y
  simp_all

/-- A cycle in which the data cache would grant a request. -/
def offersGrant (now : State cfg × Input cfg) : Bool :=
  !now.2.stallStPending && now.2.dataGnt

/-- No committed store is taken back. -/
theorem ledger_committed_length_le (cycles more : List (State cfg × Input cfg)) :
    (ledger cycles).committed.length ≤ (ledger (cycles ++ more)).committed.length := by
  induction more using List.reverseRecOn with
  | nil => rw [List.append_nil]
  | append_singleton more now ih =>
      rw [← List.append_assoc, show now = (now.1, now.2) from rfl, ledger_append,
        Ledger.cycle_committed, List.length_append]
      omega

/-- Each offered grant serves one of the stores committed so far. -/
theorem granted_progress {cycles more : List (State cfg × Input cfg)} {s : State cfg}
    (run : (machine cfg).Run (cycles ++ more) s) :
    min (ledger cycles).committed.length
        ((granted cycles).length + (more.filter offersGrant).length) ≤
      (granted (cycles ++ more)).length := by
  induction more using List.reverseRecOn generalizing s with
  | nil => simp
  | append_singleton more now ih =>
      cases now with | mk s' i =>
      rw [← List.append_assoc] at run ⊢
      obtain ⟨before, driven, _⟩ := run.of_append_singleton
      have inv := refines_of_run before
      have earlier := ih before
      have grown := ledger_committed_length_le cycles more
      rw [granted_append, List.filter_append, List.length_append]
      by_cases offers : offersGrant (s', i) = true
      · rw [List.filter_cons_of_pos offers, List.filter_nil, List.length_singleton]
        by_cases served : (ledger cycles).committed.length ≤ (granted (cycles ++ more)).length
        · split_ifs
          · rw [List.length_append]
            omega
          · omega
        · have grant : grants s' i = true := by
            simp only [offersGrant, Bool.and_eq_true, Bool.not_eq_true'] at offers
            rw [grants, Bool.and_eq_true, inv.dataReq_iff]
            refine ⟨⟨offers.1, ?_⟩, offers.2⟩
            rw [pending, ne_eq, List.drop_eq_nil_iff]
            omega
          rw [if_pos grant, List.length_append, List.length_singleton]
          omega
      · rw [List.filter_cons_of_neg offers, List.filter_nil, List.length_nil]
        split_ifs
        · rw [List.length_append]
          omega
        · omega

/-- What the store buffer promises in a cycle with registers `s` and inputs `i`. -/
structure TwoQueues (cycles : List (State cfg × Input cfg)) (s : State cfg) (i : Input cfg) :
    Prop where
  speculativeCount :
    s.speculativeStatusCnt.toNat =
      (Finset.univ.filter fun p => (s.speculativeQueue p).valid = true).card
  speculativeInterval : ∀ p, (s.speculativeQueue p).valid = true ↔
    InWindow s.speculativeReadPointer s.speculativeStatusCnt.toNat p
  speculativeWrite : s.speculativeWritePointer =
    slot s.speculativeReadPointer s.speculativeStatusCnt.toNat
  commitCount :
    s.commitStatusCnt.toNat =
      (Finset.univ.filter fun p => (s.commitQueue p).valid = true).card
  commitInterval : ∀ p, (s.commitQueue p).valid = true ↔
    InWindow s.commitReadPointer s.commitStatusCnt.toNat p
  commitWrite : s.commitWritePointer = slot s.commitReadPointer s.commitStatusCnt.toNat
  pushRoom : i.valid = true → s.speculativeStatusCnt.toNat < depthSpec
  commitRoom : i.commit = true →
    0 < s.speculativeStatusCnt.toNat ∧ s.commitStatusCnt.toNat < depthCommit
  grantNonempty : grants s i = true → 0 < s.commitStatusCnt.toNat
  inOrder : granted cycles = ((ledger cycles).committed.take (granted cycles).length).map
    fun store => requestOf store.2
  presented : dataReq s i = true ↔
    i.stallStPending = false ∧ (granted cycles).length < (ledger cycles).committed.length
  ownPayload : ∀ inside : (granted cycles).length < (ledger cycles).committed.length,
    request s = requestOf ((ledger cycles).committed[(granted cycles).length]).2
  distinct : (ledger cycles).committed.Pairwise fun x y => x.1 < y.1
  flushedApart : ∀ x ∈ (ledger cycles).flushed, ∀ y ∈ (ledger cycles).committed, x.1 ≠ y.1

theorem Refines.twoQueues {cycles : List (State cfg × Input cfg)} {s : State cfg}
    {i : Input cfg} (inv : Refines cycles s) (driven : Driven cycles s i) :
    TwoQueues cycles s i := by
  obtain ⟨_, speculativeWrite, speculativeLive⟩ := inv.speculative.occupied
  obtain ⟨_, commitWrite, commitLive⟩ := inv.committed.occupied
  have speculativeCard := inv.speculative.occupied.card
  have commitCard := inv.committed.occupied.card
  rw [List.length_map, ← inv.speculativeCount] at speculativeWrite speculativeLive speculativeCard
  rw [List.length_map, ← inv.commitCount] at commitWrite commitLive commitCard
  have ordered := ledger_ordered cycles
  have pendingLength : (pending cycles).length =
      (ledger cycles).committed.length - (granted cycles).length := List.length_drop
  exact {
    speculativeCount := speculativeCard.symm
    speculativeInterval := speculativeLive
    speculativeWrite := speculativeWrite
    commitCount := commitCard.symm
    commitInterval := commitLive
    commitWrite := commitWrite
    pushRoom := inv.room driven
    commitRoom := by
      intro commit
      obtain ⟨nonempty, isReady⟩ := driven.2.1 commit
      exact ⟨Nat.pos_of_ne_zero fun zero => nonempty (BitVec.eq_of_toNat_eq zero),
        by simpa [commitReady] using isReady⟩
    grantNonempty := by
      intro grant
      obtain ⟨first, rest, nonempty⟩ := inv.pending_cons grant
      rw [inv.commitCount, nonempty]
      exact Nat.succ_pos _
    inOrder := inv.served
    presented := by
      rw [inv.dataReq_iff, ← List.length_pos_iff, pendingLength, Nat.sub_pos_iff_lt]
    ownPayload := by
      intro inside
      exact inv.request_eq (List.drop_eq_getElem_cons inside)
    distinct := (List.pairwise_append.mp ordered.sorted).1
    flushedApart := fun x flushed y committed =>
      ordered.apart x flushed y (List.mem_append_left _ committed) }

/-- In every run the store buffer is two bounded queues: committed stores are
presented unchanged and granted in order, each once and each as soon as enough
grants are offered, and flushed stores never are. -/
theorem storeBuffer_twoQueues {cycles : List (State cfg × Input cfg)} {s : State cfg}
    {i : Input cfg} (run : (machine cfg).Run cycles s)
    (driven : (machine cfg).allowed cycles s i) :
    TwoQueues cycles s i ∧ Function.Injective (@requestOf cfg) ∧
      ∀ more s', (machine cfg).Run (cycles ++ more) s' →
        min (ledger cycles).committed.length
            ((granted cycles).length + (more.filter offersGrant).length) ≤
          (granted (cycles ++ more)).length :=
  ⟨(refines_of_run run).twoQueues driven, requestOf_injective,
    fun _ _ later => granted_progress later⟩

section Example

/-- 56-bit addresses, 64-bit data and a 4 KiB way. -/
def plainCfg : StoreCfg :=
  { plen := 56, xlen := 64, dcacheIndexWidth := 12, indexInside := by decide }

def idle : Input plainCfg where
  flush := false
  stallStPending := false
  pageOffset := 0
  commit := false
  valid := false
  validWithoutFlush := false
  store := { address := 0, data := 0, be := 0, dataSize := 0 }
  dataGnt := false

/-- One store is pushed, committed and granted, a second one flushed. -/
def pushCommitFlush : List (Input plainCfg) :=
  [{ idle with
      valid := true, store := { address := 0x1008, data := 5, be := 0xff, dataSize := 3 } },
    { idle with
      commit := true
      valid := true
      store := { address := 0x2010, data := 6, be := 0xff, dataSize := 3 } },
    { idle with flush := true, dataGnt := true }]

theorem storeBuffer_twoQueues_pushCommitFlush :
    let cycles := (machine plainCfg).cyclesOf reset pushCommitFlush
    TwoQueues cycles ((machine plainCfg).after reset pushCommitFlush) idle ∧
      Function.Injective (@requestOf plainCfg) ∧
      ∀ more s', (machine plainCfg).Run (cycles ++ more) s' →
        min (ledger cycles).committed.length
            ((granted cycles).length + (more.filter offersGrant).length) ≤
          (granted (cycles ++ more)).length :=
  storeBuffer_twoQueues (Clocked.Machine.run_of_accepts pushCommitFlush (by decide +kernel))
    (by decide +kernel)

end Example

end Cva6.StoreBuffer
