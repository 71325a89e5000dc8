import RiscvCores.Lib.WriteCombining
import RiscvCores.Toooba.StoreBuffer

/-!
# The store buffer loses no byte

The entries are the slots of a write-combining buffer: `enq` puts the bytes of
a store into the slot of its index and `deq` drains the slot.  What carries
the proof is that the queues and the issued indices share out the indices and
that no two valid entries have one block address.
-/

set_option autoImplicit false

namespace Toooba.StoreBuffer

open WriteCombining

variable {sbSize : Nat}

/-- The addresses are in one word. -/
def SameWord (a b : Addr) : Prop :=
  getSBBlockAddr a = getSBBlockAddr b ∧ getSBBlockDataSel a = getSBBlockDataSel b

instance (a b : Addr) : Decidable (SameWord a b) := inferInstanceAs (Decidable (_ ∧ _))

/-- The bytes a store writes. -/
def storeBytes (r : EnqReq) : Patch Addr Byte := fun a =>
  if SameWord a r.paddr ∧ r.be (byteOffset a) = true then some (r.d (byteOffset a)) else none

/-- The bytes an entry writes. -/
def entryBytes (e : SBEntry) : Patch Addr Byte := fun a =>
  if getSBBlockAddr a = e.addr ∧ e.byteEn (getSBBlockDataSel a) (byteOffset a) = true then
    some (e.data (getSBBlockDataSel a) (byteOffset a))
  else none

def slots (s : State sbSize) (k : Fin sbSize) : Patch Addr Byte :=
  if s.valid k then entryBytes (s.entry k) else Patch.none

theorem entryBytes_addr {e : SBEntry} {a : Addr} (held : (entryBytes e a).isSome = true) :
    getSBBlockAddr a = e.addr := by
  by_contra other
  simp [entryBytes, other] at held

theorem storeBytes_addr {r : EnqReq} {a : Addr} (writes : (storeBytes r a).isSome = true) :
    getSBBlockAddr a = getSBBlockAddr r.paddr := by
  by_contra other
  simp [storeBytes, SameWord, other] at writes

theorem entryBytes_newEntry (r : EnqReq) : entryBytes (newEntry r) = storeBytes r := by
  funext a
  by_cases sel : getSBBlockDataSel a = getSBBlockDataSel r.paddr <;>
    simp [entryBytes, newEntry, storeBytes, SameWord, sel]

theorem entryBytes_mergeEntry {e : SBEntry} {r : EnqReq}
    (same : e.addr = getSBBlockAddr r.paddr) :
    entryBytes (mergeEntry e r) = (entryBytes e).merge (storeBytes r) := by
  funext a
  by_cases here : getSBBlockAddr a = getSBBlockAddr r.paddr
  · by_cases sel : getSBBlockDataSel a = getSBBlockDataSel r.paddr
    · cases written : r.be (byteOffset a) <;>
        simp [entryBytes, mergeEntry, storeBytes, SameWord, Patch.merge, same, here, sel, written]
    · simp [entryBytes, mergeEntry, storeBytes, SameWord, Patch.merge, same, here, sel]
  · simp [entryBytes, mergeEntry, storeBytes, SameWord, Patch.merge, same, here]

theorem slots_isSome {s : State sbSize} {k : Fin sbSize} {a : Addr}
    (held : (slots s k a).isSome = true) :
    s.valid k = true ∧ (entryBytes (s.entry k) a).isSome = true := by
  cases valid : s.valid k with
  | true => exact ⟨rfl, by simpa [slots, valid] using held⟩
  | false => simp [slots, valid, Patch.none] at held

/-! ## What the methods select -/

theorem searchIndex_some {pred : Fin sbSize → Bool} {idx : Fin sbSize}
    (found : searchIndex pred = some idx) : pred idx = true := List.find?_some found

theorem searchIndex_none {pred : Fin sbSize → Bool} (unfound : searchIndex pred = none)
    (k : Fin sbSize) : pred k = false := by
  have rejected := List.find?_eq_none.mp unfound k (List.mem_finRange k)
  simpa using rejected

theorem getEnqIndex_spec {s : State sbSize} {freeQ : List (Fin sbSize)} {paddr : Addr}
    {idx : Fin sbSize} (given : getEnqIndex s freeQ paddr = some idx) :
    (s.valid idx = true ∧ (s.entry idx).addr = getSBBlockAddr paddr) ∨
      (∀ k, s.valid k = true → (s.entry k).addr ≠ getSBBlockAddr paddr) ∧
        freeQ.head? = some idx := by
  unfold getEnqIndex at given
  split at given
  next k found =>
    obtain rfl : k = idx := Option.some_inj.mp given
    have hit := searchIndex_some found
    exact .inl (by simpa using hit)
  next unfound =>
    refine .inr ⟨fun k valid same => ?_, given⟩
    have missed := searchIndex_none unfound k
    simp [valid, same] at missed

/-! ## The invariant -/

/-- The indices the initialisation has handed to `freeQ` so far. -/
def filled (s : State sbSize) : List (Fin sbSize) :=
  if s.inited then List.finRange sbSize else (List.finRange sbSize).take s.initIdx

/-- `out` are the issued indices, `ops` the stores and dequeues so far and `handed` the
entries dequeued. -/
structure Kept (s : State sbSize) (out : List (Fin sbSize))
    (ops : List (Op (Fin sbSize) Addr Byte)) (handed : List SBEntry) : Prop where
  partition : (s.freeQ ++ s.issueQ ++ out).Perm (filled s)
  starting : s.inited = false → s.issueQ = [] ∧ out = []
  valid : ∀ k, s.valid k = true ↔ k ∈ s.issueQ ++ out
  unique : ∀ k l, s.valid k = true → s.valid l = true →
    (s.entry k).addr = (s.entry l).addr → k = l
  coherent : ∀ m, Coherent ⟨slots s, handed.foldl (fun m e => (entryBytes e).apply m) m⟩ ops m

variable {s : State sbSize} {out : List (Fin sbSize)}
  {ops : List (Op (Fin sbSize) Addr Byte)} {handed : List SBEntry}

theorem Kept.nodup (kept : Kept s out ops handed) : (s.freeQ ++ s.issueQ ++ out).Nodup := by
  refine kept.partition.nodup_iff.mpr ?_
  unfold filled
  split
  · exact List.nodup_finRange sbSize
  · exact (List.nodup_finRange sbSize).sublist (List.take_sublist _ _)

theorem Kept.not_valid_of_free (kept : Kept s out ops handed) {k : Fin sbSize}
    (free : k ∈ s.freeQ) : s.valid k = false := by
  rw [← Bool.not_eq_true, kept.valid]
  have apart := kept.nodup
  rw [List.append_assoc] at apart
  exact List.disjoint_of_nodup_append apart free

theorem Kept.issue (kept : Kept s out ops handed) {idx : Fin sbSize} {rest : List (Fin sbSize)}
    (queue : s.issueQ = idx :: rest) : Kept (issue s) (out ++ [idx]) ops handed where
  partition := by
    refine List.Perm.trans ?_ kept.partition
    rw [List.perm_iff_count]
    intro k
    simp only [StoreBuffer.issue, queue, List.tail_cons, List.count_append, List.count_cons,
      List.count_nil]
    omega
  starting fresh := by
    have empty := (kept.starting fresh).1
    simp [queue] at empty
  valid k := by
    rw [StoreBuffer.issue, kept.valid, queue]
    simp
    tauto
  unique := kept.unique
  coherent := kept.coherent

theorem Kept.deq (kept : Kept s out ops handed) {idx : Fin sbSize} (issued : idx ∈ out) :
    Kept (deq s idx) (out.erase idx) (ops ++ [.drain idx]) (handed ++ [s.entry idx]) where
  partition := by
    refine List.Perm.trans ?_ kept.partition
    refine List.Perm.trans ?_ ((List.perm_cons_erase issued).symm.append_left _)
    rw [List.perm_iff_count]
    intro k
    simp only [StoreBuffer.deq, List.count_append, List.count_cons, List.count_nil]
    omega
  starting fresh := by
    have none := (kept.starting fresh).2
    simp [none] at issued
  valid k := by
    have apart := List.nodup_append.mp kept.nodup
    have erased : k ∈ out.erase idx ↔ k ≠ idx ∧ k ∈ out := apart.2.1.mem_erase_iff
    by_cases same : k = idx
    · subst same
      have unqueued : k ∉ s.issueQ := fun queued =>
        apart.2.2 k (List.mem_append_right _ queued) k issued rfl
      simp [StoreBuffer.deq, erased, unqueued]
    · have before := kept.valid k
      simpa [StoreBuffer.deq, Function.update_of_ne same, erased, same] using before
  unique k l := by
    intro valid valid'
    have was : ∀ j, (StoreBuffer.deq s idx).valid j = true → s.valid j = true := by
      intro j now
      by_cases same : j = idx
      · simp [StoreBuffer.deq, same] at now
      · simpa [StoreBuffer.deq, Function.update_of_ne same] using now
    exact kept.unique k l (was k valid) (was l valid')
  coherent m := by
    have step := (kept.coherent m).drain idx
    have valid : s.valid idx = true := (kept.valid idx).mpr (List.mem_append_right _ issued)
    have emptied : slots (StoreBuffer.deq s idx) =
        fun k => if k = idx then Patch.none else slots s k := by
      funext k
      by_cases same : k = idx
      · simp [slots, StoreBuffer.deq, same]
      · simp [slots, StoreBuffer.deq, same]
    simpa [Buffer.drain, slots, valid, emptied, List.foldl_append] using step

/-- The store touches no other slot. -/
theorem Kept.apart (kept : Kept s out ops handed) {idx : Fin sbSize} {r : EnqReq}
    {freeQ : List (Fin sbSize)} (given : getEnqIndex s freeQ r.paddr = some idx)
    (mem : Addr → Byte) : Apart ⟨slots s, mem⟩ idx (storeBytes r) := by
  intro other differs a writes
  by_contra held
  obtain ⟨valid, held⟩ := slots_isSome (Option.isSome_iff_ne_none.mpr held)
  have same : (s.entry other).addr = getSBBlockAddr r.paddr :=
    (entryBytes_addr held).symm.trans (storeBytes_addr writes)
  rcases getEnqIndex_spec given with ⟨valid', hit⟩ | ⟨missed, -⟩
  · exact differs (kept.unique other idx valid valid' (same.trans hit.symm))
  · exact missed other valid same

theorem Kept.enq (kept : Kept s out ops handed) (inited : s.inited = true) {idx : Fin sbSize}
    {r : EnqReq} (given : getEnqIndex s s.freeQ r.paddr = some idx) :
    Kept (enq s idx r) out (ops ++ [.put idx (storeBytes r)]) handed := by
  have coherent := fun m => (kept.coherent m).put (kept.apart given _)
  rcases getEnqIndex_spec given with ⟨valid, hit⟩ | ⟨missed, first⟩
  · have merges : StoreBuffer.enq s idx r =
        { s with entry := Function.update s.entry idx (mergeEntry (s.entry idx) r) } := by
      simp [StoreBuffer.enq, valid]
    have addrs : ∀ k, ((StoreBuffer.enq s idx r).entry k).addr = (s.entry k).addr := by
      intro k
      by_cases same : k = idx
      · subst same
        simp [merges, mergeEntry, hit]
      · simp [merges, Function.update_of_ne same]
    refine ⟨?_, ?_, ?_, ?_, ?_⟩
    · simpa [merges, filled] using kept.partition
    · simpa [merges] using kept.starting
    · simpa [merges] using kept.valid
    · intro k l
      rw [addrs, addrs]
      simpa [merges] using kept.unique k l
    · intro m
      have step := coherent m
      have merged : slots (StoreBuffer.enq s idx r) = fun k =>
          if k = idx then (slots s k).merge (storeBytes r) else slots s k := by
        funext k
        by_cases same : k = idx
        · subst same
          simp [slots, merges, valid, entryBytes_mergeEntry hit]
        · simp [slots, merges, same]
      simpa [Buffer.put, merged] using step
  · obtain ⟨rest, queue⟩ : ∃ rest, s.freeQ = idx :: rest := by
      cases queue : s.freeQ with
      | nil => simp [queue] at first
      | cons head rest => exact ⟨rest, by simpa [queue] using first⟩
    have free : s.valid idx = false := kept.not_valid_of_free (by simp [queue])
    have allocates : StoreBuffer.enq s idx r =
        { s with
          valid := Function.update s.valid idx true
          entry := Function.update s.entry idx (newEntry r)
          issueQ := s.issueQ ++ [idx]
          freeQ := rest } := by
      simp [StoreBuffer.enq, free, queue]
    refine ⟨?_, ?_, ?_, ?_, ?_⟩
    · have shared : filled (StoreBuffer.enq s idx r) = filled s := by
        simp [filled, allocates]
      rw [shared]
      refine List.Perm.trans ?_ kept.partition
      rw [List.perm_iff_count]
      intro k
      simp only [allocates, queue, List.count_append, List.count_cons, List.count_nil]
      omega
    · intro fresh
      simp [allocates, inited] at fresh
    · intro k
      by_cases same : k = idx
      · simp [allocates, same]
      · simpa [allocates, same] using kept.valid k
    · have clash : ∀ k, k ≠ idx → (StoreBuffer.enq s idx r).valid k = true →
          ((StoreBuffer.enq s idx r).entry k).addr ≠
            ((StoreBuffer.enq s idx r).entry idx).addr := by
        intro k differs valid
        have before : s.valid k = true := by simpa [allocates, differs] using valid
        simpa [allocates, differs, newEntry] using missed k before
      intro k l valid valid' addr
      by_cases same : k = idx <;> by_cases same' : l = idx
      · rw [same, same']
      · subst same
        exact (clash l same' valid' addr.symm).elim
      · subst same'
        exact (clash k same valid addr).elim
      · refine kept.unique k l ?_ ?_ ?_
        · simpa [allocates, same] using valid
        · simpa [allocates, same'] using valid'
        · simpa [allocates, same, same'] using addr
    · intro m
      have step := coherent m
      have placed : slots (StoreBuffer.enq s idx r) = fun k =>
          if k = idx then (slots s k).merge (storeBytes r) else slots s k := by
        funext k
        by_cases same : k = idx
        · subst same
          funext a
          simp [slots, allocates, free, entryBytes_newEntry, Patch.merge, Patch.none]
        · simp [slots, allocates, same]
      simpa [Buffer.put, placed] using step

theorem Kept.initFreeQ [NeZero sbSize] (kept : Kept s out ops handed)
    (fresh : s.inited = false) : Kept (initFreeQ s) out ops handed where
  partition := by
    obtain ⟨queue, none⟩ := kept.starting fresh
    have before := kept.partition
    have bound := s.initIdx.isLt
    have taken : (List.finRange sbSize).take (s.initIdx.val + 1) =
        (List.finRange sbSize).take s.initIdx.val ++ [s.initIdx] := by
      rw [List.take_add_one]
      simp [bound]
    have after : filled (StoreBuffer.initFreeQ s) =
        (List.finRange sbSize).take (s.initIdx.val + 1) := by
      by_cases last : s.initIdx.val = sbSize - 1
      · have all : sbSize ≤ s.initIdx.val + 1 := by omega
        have whole : (List.finRange sbSize).take (s.initIdx.val + 1) = List.finRange sbSize :=
          List.take_of_length_le (by simpa using all)
        rw [whole]
        simp [filled, StoreBuffer.initFreeQ, last]
      · have up : (s.initIdx + 1).val = s.initIdx.val + 1 := by
          rw [Fin.val_add_one_of_lt']
          omega
        simp [filled, StoreBuffer.initFreeQ, last, fresh, up]
    rw [after, taken]
    simp only [queue, none, filled, fresh, List.append_nil] at before
    simpa [StoreBuffer.initFreeQ, queue, none] using before.append_right [s.initIdx]
  starting _ := kept.starting fresh
  valid := kept.valid
  unique := kept.unique
  coherent := kept.coherent

/-! ## Cycles -/

/-- The stores and dequeues of a cycle, in the declared order. -/
def cycleOps (now : State sbSize × Input sbSize) : List (Op (Fin sbSize) Addr Byte) :=
  now.2.deq.toList.map (fun idx => .drain idx) ++
    (enqIndex now.1 now.2).toList.map fun (idx, r) => .put idx (storeBytes r)

def opsOf (cycles : History sbSize) : List (Op (Fin sbSize) Addr Byte) := cycles.flatMap cycleOps

/-- The entries `deq` returned, in order. -/
def handedOut (cycles : History sbSize) : List SBEntry :=
  cycles.flatMap fun now => now.2.deq.toList.map (deqO now.1)

/-- The stores enqueued, in order. -/
def storesOf (cycles : History sbSize) : List EnqReq :=
  cycles.flatMap fun now => (enqIndex now.1 now.2).toList.map Prod.snd

/-- Memory after the entries are written to it. -/
def drainAll (entries : List SBEntry) (m : Addr → Byte) : Addr → Byte :=
  entries.foldl (fun m e => (entryBytes e).apply m) m

/-- Memory after the stores are performed on it. -/
def storeAll (stores : List EnqReq) (m : Addr → Byte) : Addr → Byte :=
  stores.foldl (fun m r => (storeBytes r).apply m) m

theorem getEnqIndex_append {freeQ : List (Fin sbSize)} {paddr : Addr} {idx : Fin sbSize}
    (given : getEnqIndex s freeQ paddr = some idx) (more : List (Fin sbSize)) :
    getEnqIndex s (freeQ ++ more) paddr = some idx := by
  unfold getEnqIndex at given ⊢
  split
  next k found =>
    rw [found] at given
    exact given
  next unfound =>
    rw [unfound] at given
    cases freeQ with
    | nil => simp at given
    | cons head rest => simpa using given

section Cycle

variable {cycles : History sbSize} {i : Input sbSize}

theorem Kept.afterIssue (kept : Kept s (issued cycles) ops handed) (env : Environment cycles s i) :
    Kept (afterIssue s i) (issuedNow (issued cycles) (s, i)) ops handed := by
  cases issues : i.issue with
  | false => simpa [StoreBuffer.afterIssue, issuedNow, issues] using kept
  | true =>
      obtain ⟨idx, rest, queue⟩ := List.exists_cons_of_ne_nil (env.1 issues)
      simpa [StoreBuffer.afterIssue, issuedNow, issues, queue] using kept.issue queue

theorem afterIssue_entry : (afterIssue s i).entry = s.entry := by
  unfold afterIssue
  split <;> rfl

theorem Kept.afterDeq (kept : Kept s (issued cycles) ops handed) (env : Environment cycles s i) :
    Kept (afterDeq s i) (issued (cycles ++ [(s, i)]))
      (ops ++ i.deq.toList.map (fun idx => .drain idx))
      (handed ++ i.deq.toList.map (deqO s)) := by
  have issue := kept.afterIssue env
  cases drained : i.deq with
  | none =>
      simpa [StoreBuffer.afterDeq, issued, List.foldl_append, drained] using issue
  | some idx =>
      have step := issue.deq (env.2.1 idx drained).2
      simpa [StoreBuffer.afterDeq, issued, List.foldl_append, drained, deqO,
        afterIssue_entry] using step

theorem afterDeq_freeQ : (afterDeq s i).freeQ = s.freeQ ++ i.deq.toList := by
  have issue : (afterIssue s i).freeQ = s.freeQ := by
    unfold afterIssue
    split <;> rfl
  cases drained : i.deq <;> simp [afterDeq, drained, deq, issue]

theorem afterDeq_inited : (afterDeq s i).inited = s.inited := by
  have issue : (afterIssue s i).inited = s.inited := by
    unfold afterIssue
    split <;> rfl
  cases drained : i.deq <;> simp [afterDeq, drained, deq, issue]

theorem enqIndex_some {idx : Fin sbSize} {r : EnqReq} (stores : enqIndex s i = some (idx, r)) :
    i.enq = some r ∧ getEnqIndex (afterDeq s i) s.freeQ r.paddr = some idx := by
  simp only [enqIndex, Option.bind_eq_some_iff, Option.map_eq_some_iff, Prod.mk.injEq] at stores
  obtain ⟨asked, enq, given, gives, rfl, rfl⟩ := stores
  exact ⟨enq, gives⟩

theorem Kept.afterEnq (kept : Kept s (issued cycles) ops handed) (env : Environment cycles s i) :
    Kept (afterEnq s i) (issued (cycles ++ [(s, i)])) (ops ++ cycleOps (s, i))
      (handed ++ i.deq.toList.map (deqO s)) := by
  have deqs := kept.afterDeq env
  cases stores : enqIndex s i with
  | none => simpa [StoreBuffer.afterEnq, cycleOps, stores] using deqs
  | some given =>
      obtain ⟨idx, r⟩ := given
      obtain ⟨asked, gives⟩ := enqIndex_some stores
      have inited : (StoreBuffer.afterDeq s i).inited = true := by
        rw [afterDeq_inited]
        exact (env.2.2 (by simp [asked])).1
      have found := getEnqIndex_append gives i.deq.toList
      rw [← afterDeq_freeQ] at found
      simpa [StoreBuffer.afterEnq, cycleOps, stores] using deqs.enq inited found

theorem afterEnq_inited : (afterEnq s i).inited = s.inited := by
  unfold afterEnq
  split
  · unfold enq
    split <;> exact afterDeq_inited
  · exact afterDeq_inited

end Cycle

/-- The invariant of the buffer. -/
def Inv (cycles : History sbSize) (s : State sbSize) : Prop :=
  Kept s (issued cycles) (opsOf cycles) (handedOut cycles)

theorem inv_reset [NeZero sbSize] (entry : Fin sbSize → SBEntry) : Inv [] (reset entry) where
  partition := by simp [filled, reset, issued]
  starting _ := ⟨rfl, rfl⟩
  valid k := by simp [reset, issued]
  unique k l valid := by simp [reset] at valid
  coherent m := coherent_empty m

theorem Inv.next [NeZero sbSize] {cycles : History sbSize} {i : Input sbSize}
    (inv : Inv cycles s) (env : Environment cycles s i) :
    Inv (cycles ++ [(s, i)]) (next s i) := by
  have step := Kept.afterEnq inv env
  have logs : opsOf (cycles ++ [(s, i)]) = opsOf cycles ++ cycleOps (s, i) := by
    simp [opsOf]
  have hands : handedOut (cycles ++ [(s, i)]) =
      handedOut cycles ++ i.deq.toList.map (deqO s) := by
    simp [handedOut]
  unfold Inv
  rw [logs, hands]
  cases inited : s.inited with
  | true => simpa [StoreBuffer.next, inited] using step
  | false =>
      have fresh : (StoreBuffer.afterEnq s i).inited = false := by
        rw [afterEnq_inited, inited]
      simpa [StoreBuffer.next, inited] using step.initFreeQ fresh

theorem inv_run [NeZero sbSize] {entry : Fin sbSize → SBEntry} {cycles : History sbSize}
    (run : (machine entry).Run cycles s) : Inv cycles s :=
  Clocked.Machine.Run.invariant Inv (inv_reset entry)
    (fun _ _ _ _ inv env => inv.next env) run

theorem apply_written (cycles : History sbSize) (m : Addr → Byte) :
    (written (opsOf cycles)).apply m = storeAll (storesOf cycles) m := by
  induction cycles using List.reverseRecOn with
  | nil => rfl
  | append_singleton before now ih =>
      have logs : opsOf (before ++ [now]) = opsOf before ++ cycleOps now := by
        simp [opsOf]
      have stores : storesOf (before ++ [now]) =
          storesOf before ++ (enqIndex now.1 now.2).toList.map Prod.snd := by
        simp [storesOf]
      have performed : storeAll (storesOf (before ++ [now])) m =
          storeAll ((enqIndex now.1 now.2).toList.map Prod.snd) (storeAll (storesOf before) m) := by
        rw [stores]
        exact List.foldl_append
      have cycle : ∀ m, (written (cycleOps now)).apply m =
          storeAll ((enqIndex now.1 now.2).toList.map Prod.snd) m := by
        intro m
        cases drained : now.2.deq <;> cases given : enqIndex now.1 now.2 <;>
          simp [cycleOps, written, storeAll, drained, given, Patch.apply_merge]
      rw [logs, performed, apply_written_append, cycle, ih]

theorem Inv.memory {cycles : History sbSize} (inv : Inv cycles s) (m : Addr → Byte) (a : Addr)
    (free : ∀ k, slots s k a = none) :
    drainAll (handedOut cycles) m a = storeAll (storesOf cycles) m a := by
  rw [← apply_written]
  exact (inv.coherent m).memory a free

/-- A byte that waits for the `deq` of its index is in that entry, with the last value
enqueued for it. -/
theorem Inv.waiting {cycles : History sbSize} (inv : Inv cycles s) (k : Fin sbSize) (a : Addr) :
    (slots s k a).isSome = true ↔ Waiting (opsOf cycles) k a :=
  (inv.coherent fun _ => 0).waiting k a

theorem Inv.last {cycles : History sbSize} (inv : Inv cycles s) {k : Fin sbSize} {a : Addr}
    (held : (slots s k a).isSome = true) : slots s k a = written (opsOf cycles) a :=
  (inv.coherent fun _ => 0).last k a held

/-! ## Search -/

section Search

variable {paddr : Addr} {be : ByteEn}

theorem matchEntry_spec {k : Fin sbSize} (hit : matchEntry s paddr be k = true) :
    s.valid k = true ∧ getSBBlockAddr paddr = (s.entry k).addr := by
  simp only [matchEntry, Bool.and_eq_true, decide_eq_true_eq] at hit
  exact hit.1

/-- The value forwarded is that of a matching entry which has every byte asked for. -/
theorem search_forwards {d : Data} (forwards : (search s paddr be).forwardData = some d) :
    ∃ k, s.valid k = true ∧ ∀ a, SameWord a paddr → be (byteOffset a) = true →
      slots s k a = some (d (byteOffset a)) := by
  unfold search at forwards
  split at forwards
  next k found =>
    obtain ⟨valid, addr⟩ := matchEntry_spec (searchIndex_some found)
    split at forwards
    next covered =>
      obtain rfl := Option.some_inj.mp forwards
      refine ⟨k, valid, fun a word asked => ?_⟩
      have enabled := List.all_eq_true.mp covered (byteOffset a) (List.mem_finRange _)
      simp only [asked, getEntryBE, Bool.and_true, beq_true] at enabled
      simp [slots, valid, entryBytes, word.1, addr, enabled, word.2]
    next => simp at forwards
  next => simp at forwards

/-- When nothing matches, no byte asked for is in the buffer. -/
theorem search_misses (misses : (search s paddr be).matchIdx = none) (k : Fin sbSize) {a : Addr}
    (word : SameWord a paddr) (asked : be (byteOffset a) = true) : slots s k a = none := by
  unfold search at misses
  split at misses
  · split at misses <;> simp at misses
  next unfound =>
    by_contra held
    obtain ⟨valid, held⟩ := slots_isSome (Option.isSome_iff_ne_none.mpr held)
    have addr := entryBytes_addr held
    have enabled : (s.entry k).byteEn (getSBBlockDataSel a) (byteOffset a) = true := by
      by_contra disabled
      simp [entryBytes, disabled] at held
    have overlap : ((List.finRange 8).any fun b => be b && getEntryBE s paddr k b) = true :=
      List.any_eq_true.mpr ⟨byteOffset a, List.mem_finRange _, by
        simp [asked, getEntryBE, ← word.2, enabled]⟩
    have missed := searchIndex_none unfound k
    simp [matchEntry, valid, overlap, ← word.1, addr] at missed

theorem noMatch_eq : noMatch s paddr be = (search s paddr be).matchIdx.isNone := by
  have found : (searchIndex (matchEntry s paddr be)).isSome =
      (List.finRange sbSize).any (matchEntry s paddr be) :=
    List.isSome_find?
  unfold noMatch search
  rw [← found]
  split
  next k hit => split <;> simp [hit]
  next miss => simp [miss]

end Search

/-! ## What every run keeps -/

/-- What holds after any run: who holds which index, which bytes the entries hold and what
memory lacks, and what a search answers. -/
structure LosesNoByte (cycles : History sbSize) (s : State sbSize) : Prop where
  partition : s.inited = true →
    (s.freeQ ++ s.issueQ ++ issued cycles).Perm (List.finRange sbSize)
  filling : s.inited = false → s.issueQ = [] ∧ issued cycles = [] ∧
    s.freeQ.Perm ((List.finRange sbSize).take s.initIdx)
  free : ∀ k, s.valid k = true ↔ s.inited = true ∧ k ∉ s.freeQ
  unique : ∀ k l, s.valid k = true → s.valid l = true →
    (s.entry k).addr = (s.entry l).addr → k = l
  kept : ∀ k a, Waiting (opsOf cycles) k a → s.valid k = true ∧
    (entryBytes (s.entry k) a).isSome = true
  only : ∀ k a v, s.valid k = true → entryBytes (s.entry k) a = some v →
    Waiting (opsOf cycles) k a ∧ written (opsOf cycles) a = some v
  memory : ∀ m a, (∀ k, s.valid k = true → entryBytes (s.entry k) a = none) →
    drainAll (handedOut cycles) m a = storeAll (storesOf cycles) m a
  drained : isEmpty s = true → ∀ m, drainAll (handedOut cycles) m = storeAll (storesOf cycles) m
  forwards : ∀ paddr be d, (search s paddr be).forwardData = some d →
    ∃ k, s.valid k = true ∧ ∀ a, SameWord a paddr → be (byteOffset a) = true →
      entryBytes (s.entry k) a = some (d (byteOffset a)) ∧
        written (opsOf cycles) a = some (d (byteOffset a))
  misses : ∀ paddr be, (search s paddr be).matchIdx = none → ∀ k, s.valid k = true →
    ∀ a, SameWord a paddr → be (byteOffset a) = true → entryBytes (s.entry k) a = none

/-- What the calls of a cycle find: `deq` returns all the bytes that wait for it, each
with its last value, and no queue over- or underflows. -/
structure Served (cycles : History sbSize) (s : State sbSize) (i : Input sbSize) : Prop where
  deqBytes : ∀ idx, i.deq = some idx → s.valid idx = true ∧ s.freeQ.length < sbSize ∧ ∀ a,
    ((entryBytes (deqO s idx) a).isSome = true ↔ Waiting (opsOf cycles) idx a) ∧
      ((entryBytes (deqO s idx) a).isSome = true →
        entryBytes (deqO s idx) a = written (opsOf cycles) a)
  enqMerges : ∀ idx r, enqIndex s i = some (idx, r) → (afterDeq s i).valid idx = true →
    ((afterDeq s i).entry idx).addr = getSBBlockAddr r.paddr
  enqAllocates : ∀ idx r, enqIndex s i = some (idx, r) → (afterDeq s i).valid idx = false →
    s.freeQ.head? = some idx ∧ s.issueQ.length < sbSize

theorem Kept.lengths (kept : Kept s out ops handed) :
    s.freeQ.length + s.issueQ.length + out.length ≤ sbSize := by
  have shared := kept.partition.length_eq
  have bound : (filled s).length ≤ sbSize := by
    unfold filled
    split <;> simp
  simp only [List.length_append] at shared
  omega

theorem Inv.accounted {cycles : History sbSize} (inv : Inv cycles s) :
    LosesNoByte cycles s where
  partition inited := by simpa [filled, inited] using inv.partition
  filling fresh := by
    obtain ⟨queue, none⟩ := inv.starting fresh
    exact ⟨queue, none, by simpa [filled, fresh, queue, none] using inv.partition⟩
  free k := by
    constructor
    · intro valid
      refine ⟨?_, fun free => ?_⟩
      · by_contra fresh
        obtain ⟨queue, none⟩ := inv.starting (Bool.not_eq_true _ ▸ fresh)
        have busy := (inv.valid k).mp valid
        simp [queue, none] at busy
      · simp [inv.not_valid_of_free free] at valid
    · rintro ⟨inited, busy⟩
      have all : k ∈ s.freeQ ++ s.issueQ ++ issued cycles := by
        rw [inv.partition.mem_iff]
        simp [filled, inited]
      rw [inv.valid]
      simpa [busy] using all
  unique := inv.unique
  kept k a waiting := slots_isSome ((inv.waiting k a).mpr waiting)
  only k a v valid holds := by
    have held : slots s k a = some v := by simpa [slots, valid] using holds
    have some : (slots s k a).isSome = true := by simp [held]
    exact ⟨(inv.waiting k a).mp some, (inv.last some).symm.trans held⟩
  memory m a free := by
    refine inv.memory m a fun k => ?_
    by_contra held
    obtain ⟨valid, held⟩ := slots_isSome (Option.isSome_iff_ne_none.mpr held)
    simp [free k valid] at held
  drained empty m := by
    funext a
    refine inv.memory m a fun k => ?_
    have invalid := List.all_eq_true.mp empty k (List.mem_finRange k)
    simp only [Bool.not_eq_true'] at invalid
    simp [slots, invalid, Patch.none]
  forwards paddr be d forwards := by
    obtain ⟨k, valid, bytes⟩ := search_forwards forwards
    refine ⟨k, valid, fun a word asked => ?_⟩
    have held := bytes a word asked
    refine ⟨by simpa [slots, valid] using held, ?_⟩
    exact (inv.last (by simp [held])).symm.trans held
  misses paddr be misses k valid a word asked := by
    simpa [slots, valid] using search_misses misses k word asked

theorem Inv.served {cycles : History sbSize} {i : Input sbSize} (inv : Inv cycles s)
    (env : Environment cycles s i) : Served cycles s i where
  deqBytes idx deqs := by
    have now := (env.2.1 idx deqs).2
    have issue := Kept.afterIssue inv env
    have same : (afterIssue s i).valid = s.valid ∧ (afterIssue s i).freeQ = s.freeQ := by
      unfold afterIssue
      split <;> exact ⟨rfl, rfl⟩
    have valid : s.valid idx = true := by
      rw [← same.1, issue.valid]
      exact List.mem_append_right _ now
    have room := issue.lengths
    have some := List.length_pos_of_mem now
    rw [same.2] at room
    refine ⟨valid, by omega, fun a => ⟨?_, fun held => ?_⟩⟩
    · simpa [slots, valid, deqO] using inv.waiting idx a
    · simpa [slots, valid, deqO] using inv.last (k := idx)
        (by simpa [slots, valid, deqO] using held)
  enqMerges idx r gives valid := by
    have deqs := Kept.afterDeq inv env
    rcases getEnqIndex_spec (enqIndex_some gives).2 with ⟨-, hit⟩ | ⟨missed, first⟩
    · exact hit
    · have free : idx ∈ (afterDeq s i).freeQ := by
        rw [afterDeq_freeQ]
        exact List.mem_append_left _ (List.mem_of_head? first)
      simp [deqs.not_valid_of_free free] at valid
  enqAllocates idx r gives invalid := by
    rcases getEnqIndex_spec (enqIndex_some gives).2 with ⟨valid, -⟩ | ⟨-, first⟩
    · simp [invalid] at valid
    · have room := Kept.lengths inv
      have some := List.length_pos_of_mem (List.mem_of_head? first)
      exact ⟨first, by omega⟩

/-- In every run the buffer accounts for every index and every byte. -/
theorem losesNoByte [NeZero sbSize] {entry : Fin sbSize → SBEntry} {cycles : History sbSize}
    (run : (machine entry).Run cycles s) :
    LosesNoByte cycles s ∧ ∀ i, Environment cycles s i → Served cycles s i :=
  ⟨(inv_run run).accounted, fun _ env => (inv_run run).served env⟩

section Example

def noEntry : SBEntry where
  addr := 0
  byteEn _ _ := false
  data _ _ := 0
  pcHash := 0

/-- One byte of the line at address 64. -/
def byteStore (offset : Fin 8) (value : Byte) : EnqReq where
  paddr := 64
  be b := decide (b = offset)
  d _ := value
  pcHash := 0
  undef _ _ := 0

/-- After the initialisation a store merges into an issued entry, and the next one to the
line comes with the `deq` of that entry. -/
def mergeRun : List (Input 2) :=
  [{}, {}, { enq := some (byteStore 0 1) }, { issue := true, enq := some (byteStore 1 2) },
    { deq := some 0, enq := some (byteStore 0 3) }]

theorem losesNoByte_mergeRun :
    let m := machine fun _ : Fin 2 => noEntry
    let cycles := m.cyclesOf m.reset mergeRun
    let s := m.after m.reset mergeRun
    ((handedOut cycles).map (fun e => entryBytes e 65) = [some 2] ∧ s.valid 1 = true) ∧
      LosesNoByte cycles s ∧ ∀ i, Environment cycles s i → Served cycles s i :=
  ⟨by decide +kernel,
    losesNoByte (Clocked.Machine.run_of_accepts (m := machine fun _ => noEntry) mergeRun
      (by decide +kernel))⟩

/-- After reset `freeQ` is still empty. -/
theorem not_partition_reset :
    ¬ ∀ (cycles : History 4) (s : State 4), (machine fun _ => noEntry).Run cycles s →
      (s.freeQ ++ s.issueQ ++ issued cycles).Perm (List.finRange 4) := by
  intro partition
  have shared := (partition [] _ .reset).length_eq
  exact absurd shared (by decide)

end Example

end Toooba.StoreBuffer
