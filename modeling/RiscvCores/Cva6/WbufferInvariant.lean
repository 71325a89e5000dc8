import RiscvCores.Cva6.WbufferBytes

/-!
# The transactions of the write buffer

A transaction slot is taken when bytes are sent and free again when the returned
acknowledge evicts them.  The bytes in flight of an entry are those of its one slot.
-/

set_option autoImplicit false

namespace Cva6.Wbuffer

open CommonCells

variable {cfg : DcacheCfg}

/-! ## The history of the transactions -/

abbrev Cycle (cfg : DcacheCfg) : Type := State cfg × Input cfg

section History

variable (now : Cycle cfg) (id : cfg.TxId)

/-- A transaction is accepted under an id. -/
def sent : Bool := dirtyRdEn now.1 now.2 && decide (txId now.1 = id)

/-- A write acknowledge returns with an id. -/
def acked : Bool := now.2.missRtrnVld && decide (now.2.missRtrnId = id)

/-- A returned id leaves the queue. -/
def evicted : Bool := evict now.1 now.2 && decide (rtrnId now.1 = id)

/-- The transactions that are accepted and not acknowledged. -/
def outstanding (cycles : List (Cycle cfg)) : cfg.TxId → Bool :=
  cycles.foldl (fun before now id => (before id || sent now id) && !acked now id) fun _ => false

/-- The acknowledges that are still in the queue. -/
def returnedAcks (cycles : List (Cycle cfg)) : cfg.TxId → Bool :=
  cycles.foldl (fun before now id => before id && !evicted now id || acked now id) fun _ => false

theorem outstanding_concat (cycles : List (Cycle cfg)) :
    outstanding (cycles ++ [now]) id =
      ((outstanding cycles id || sent now id) && !acked now id) := by
  simp [outstanding]

theorem returnedAcks_concat (cycles : List (Cycle cfg)) :
    returnedAcks (cycles ++ [now]) id =
      (returnedAcks cycles id && !evicted now id || acked now id) := by
  simp [returnedAcks]

end History

/-- Every acknowledge is for a transaction that is accepted and not acknowledged. -/
def Acks (cycles : List (Cycle cfg)) (s : State cfg) (i : Input cfg) : Prop :=
  i.missRtrnVld = true →
    outstanding cycles i.missRtrnId = true ∨ sent (s, i) i.missRtrnId = true

instance (cycles : List (Cycle cfg)) (s : State cfg) (i : Input cfg) :
    Decidable (Acks cycles s i) := inferInstanceAs (Decidable (_ → _))

def machine (cfg : DcacheCfg) : Clocked.Machine (State cfg) (Input cfg) where
  reset := reset
  next := next
  allowed := Acks

instance (cycles : List (Cycle cfg)) (s : State cfg) (i : Input cfg) :
    Decidable ((machine cfg).allowed cycles s i) := inferInstanceAs (Decidable (Acks cycles s i))

/-! ## The invariant -/

/-- A slot is in use for an entry. -/
def Slot (s : State cfg) (id : cfg.TxId) (k : cfg.Ptr) : Prop :=
  (s.txStat id).vld = true ∧ (s.txStat id).ptr = k

structure Inv (cycles : List (Cycle cfg)) (s : State cfg) : Prop where
  states : ∀ k l, (s.wbuffer k).valid l = ((s.wbuffer k).dirty l || (s.wbuffer k).txblock l)
  unique : ∀ j k, valid s j = true → valid s k = true →
    (s.wbuffer j).wtag = (s.wbuffer k).wtag → j = k
  block : ∀ k l, (s.wbuffer k).txblock l = true ↔ ∃ id, Slot s id k ∧ (s.txStat id).be l = true
  single : ∀ id id' k, Slot s id k → Slot s id' k → id = id'
  some : ∀ id, (s.txStat id).vld = true → anyByte (s.txStat id).be = true
  ids : ∃ xs, s.rtrnIds.Holds (rtrnCfg cfg) xs ∧ xs.Nodup ∧
    ∀ id, id ∈ xs ↔ returnedAcks cycles id = true
  used : ∀ id, (s.txStat id).vld = (outstanding cycles id || returnedAcks cycles id)
  apart : ∀ id, outstanding cycles id = true → returnedAcks cycles id = false
  dirtyLocked : s.dirtyRr.Locked (dirty s)
  txLocked : s.txIdRr.Locked fun k => !txVld s k

theorem inv_reset : Inv [] (reset : State cfg) where
  states _ _ := rfl
  unique j _ some := by simp [valid, reset, anyByte] at some
  block k l := by simp [reset, Slot]
  single id _ _ used := by simp [Slot, reset] at used
  some id used := by simp [reset] at used
  ids := ⟨[], Fifo.reset_holds 0, List.nodup_nil, fun id => by simp [returnedAcks]⟩
  used _ := rfl
  apart _ waits := by simp [outstanding] at waits
  dirtyLocked := RrState.locked_reset _
  txLocked := RrState.locked_reset _

section Cycle

variable {cycles : List (Cycle cfg)} {s : State cfg} {i : Input cfg}

/-! ## Pointers -/

theorem Inv.valid_of_slot (inv : Inv cycles s) {id : cfg.TxId} {k : cfg.Ptr} (slot : Slot s id k) :
    valid s k = true := by
  obtain ⟨l, be⟩ := anyByte_iff.mp (inv.some id slot.1)
  refine anyByte_iff.mpr ⟨l, ?_⟩
  rw [inv.states, (inv.block k l).mpr ⟨id, slot, be⟩, Bool.or_true]

/-- An entry with a slot is not sent. -/
theorem Inv.not_dirty (inv : Inv cycles s) {id : cfg.TxId} {k : cfg.Ptr} (slot : Slot s id k) :
    dirty s k = false := by
  obtain ⟨l, be⟩ := anyByte_iff.mp (inv.some id slot.1)
  have blocked := anyByte_iff.mpr ⟨l, (inv.block k l).mpr ⟨id, slot, be⟩⟩
  rw [dirty, bdirty, if_pos blocked]
  exact decide_eq_false fun ⟨_, set⟩ => Bool.false_ne_true set

theorem Inv.dirty_selected (inv : Inv cycles s) (sends : dirtyRdEn s i = true) :
    dirty s (dirtyPtr s) = true := by
  have request := (Bool.and_eq_true_iff.mp sends).1
  have some := of_decide_eq_true (Bool.and_eq_true_iff.mp request).1
  exact inv.dirtyLocked.idxO some

theorem Inv.txId_free (inv : Inv cycles s) (sends : dirtyRdEn s i = true) :
    (s.txStat (txId s)).vld = false := by
  have request := (Bool.and_eq_true_iff.mp sends).1
  have free := of_decide_eq_true (Bool.and_eq_true_iff.mp request).2
  have selected : (!txVld s (txId s)) = true :=
    inv.txLocked.idxO (free.imp fun k clear => by rw [clear]; rfl)
  exact Bool.not_eq_true' _ |>.mp selected

/-- The id in front of the queue is that of a slot in use. -/
theorem Inv.evict_slot (inv : Inv cycles s) (evicts : evict s i = true) :
    returnedAcks cycles (rtrnId s) = true ∧ Slot s (rtrnId s) (rtrnPtr s) := by
  obtain ⟨xs, holds, _, members⟩ := inv.ids
  have ready := (Bool.and_eq_true_iff.mp evicts).1
  have nonempty := (Bool.and_eq_true_iff.mp ready).1
  rw [Bool.not_eq_true'] at nonempty
  cases xs with
  | nil =>
      have isEmpty := (holds.empty_iff rfl i.missRtrnVld).mpr rfl
      rw [rtrnEmpty, isEmpty] at nonempty
      cases nonempty
  | cons id rest =>
      have front : rtrnId s = id := holds.stored
      have returned : returnedAcks cycles (rtrnId s) = true :=
        (members _).mp (by rw [front]; exact List.mem_cons_self)
      refine ⟨returned, ?_, rfl⟩
      rw [inv.used, returned, Bool.or_true]

theorem Inv.sends_dirty (inv : Inv cycles s) {k : cfg.Ptr} {l : cfg.Lane}
    (sends : sends s i k = true) (be : txBe s l = true) :
    k = dirtyPtr s ∧ (s.wbuffer k).dirty l = true ∧ dirty s k = true := by
  obtain ⟨enable, here⟩ := Bool.and_eq_true_iff.mp sends
  have same := of_decide_eq_true here
  have ready := inv.dirty_selected enable
  have waits := bdirty_of_txBe ready be
  refine ⟨same, ?_, same ▸ ready⟩
  rw [same]
  unfold bdirty at waits
  split at waits
  · cases waits
  · exact (Bool.and_eq_true_iff.mp waits).1

/-- A store goes to the entry of its word or to a free one. -/
theorem wrPtr_cases (s : State cfg) (i : Input cfg) (grants : dataGnt s i = true) :
    (valid s (wrPtr s i) = true ∧ (s.wbuffer (wrPtr s i)).wtag = reqWtag i) ∨
      (valid s (wrPtr s i) = false ∧
        ∀ k, valid s k = true → (s.wbuffer k).wtag ≠ reqWtag i) := by
  have ready := (Bool.and_eq_true_iff.mp (Bool.and_eq_true_iff.mp grants).1).2
  cases hit : anyHit s i with
  | true =>
      obtain ⟨k, hits⟩ := of_decide_eq_true hit
      obtain ⟨inside, isSet, _⟩ := lzcCnt_of_set cfg.wbufDepth (RrState.bits (wbufferHitOh s i))
        k.val k.isLt (by rwa [RrState.bits_fin])
      have same : wrPtr s i = ⟨_, inside⟩ := by
        rw [wrPtr, if_pos hit]
        exact Fin.ext (Nat.mod_eq_of_lt inside)
      have hits' : wbufferHitOh s i (wrPtr s i) = true := by
        rw [same, ← isSet]
        exact (RrState.bits_fin _ ⟨_, inside⟩).symm
      obtain ⟨some, tag⟩ := Bool.and_eq_true_iff.mp hits'
      exact .inl ⟨some, beq_iff_eq.mp tag⟩
  | false =>
      have room : full s = false := by
        rw [rdy, hit, Bool.false_or] at ready
        exact Bool.not_eq_true' _ |>.mp ready
      have none := of_decide_eq_false hit
      refine .inr ⟨?_, fun k some tag => none ⟨k, ?_⟩⟩
      · have some : ∃ k : cfg.Ptr, valid s k = false := by
          by_contra all
          have isFull : full s = true := by
            rw [full, lzcEmpty_iff _ _ cfg.someEntries]
            intro j inside
            have bit := RrState.bits_fin (fun k => !valid s k) ⟨j, inside⟩
            rw [bit, Bool.not_eq_false']
            exact Bool.not_eq_false _ |>.mp fun free => all ⟨_, free⟩
          rw [room] at isFull
          cases isFull
        obtain ⟨k, free⟩ := some
        obtain ⟨inside, isSet, _⟩ := lzcCnt_of_set cfg.wbufDepth
          (RrState.bits fun k => !valid s k) k.val k.isLt
          (by rw [RrState.bits_fin, free]; rfl)
        have same : wrPtr s i = ⟨_, inside⟩ := by
          rw [wrPtr, if_neg (by rw [hit]; exact Bool.false_ne_true)]
          exact Fin.ext (Nat.mod_eq_of_lt inside)
        rw [same]
        have bit := RrState.bits_fin (fun k => !valid s k) ⟨_, inside⟩
        exact Bool.not_eq_true' _ |>.mp (bit.symm.trans isSet)
      · exact Bool.and_eq_true_iff.mpr ⟨some, beq_iff_eq.mpr tag⟩

/-! ## One cycle -/

theorem txStatD_eq (s : State cfg) (i : Input cfg) (id : cfg.TxId) :
    txStatD s i id = if sent (s, i) id then { vld := true, be := txBe s, ptr := dirtyPtr s }
      else if evicted (s, i) id then { s.txStat id with vld := false } else s.txStat id := by
  have update (stat : cfg.TxId → TxStat cfg) (at' : cfg.TxId) (new : TxStat cfg) :
      Function.update stat at' new id = if at' = id then new else stat id := by
    rw [Function.update_apply]
    exact if_congr eq_comm rfl rfl
  unfold txStatD sent evicted
  cases dirtyRdEn s i with
  | true =>
      simp only [if_true, update, Bool.true_and, decide_eq_true_eq]
      refine if_congr Iff.rfl rfl ?_
      cases evict s i with
      | true =>
          simp only [if_true, update, Bool.true_and, decide_eq_true_eq]
          split
          next same => rw [same]
          next => rfl
      | false => rfl
  | false =>
      simp only [Bool.false_eq_true, if_false, Bool.false_and]
      cases evict s i with
      | true =>
          simp only [if_true, update, Bool.true_and, decide_eq_true_eq]
          split
          next same => rw [same]
          next => rfl
      | false => rfl

theorem sent_iff (id : cfg.TxId) :
    sent (s, i) id = true ↔ dirtyRdEn s i = true ∧ txId s = id := by
  rw [sent, Bool.and_eq_true_iff, decide_eq_true_iff]

theorem evicted_iff (id : cfg.TxId) :
    evicted (s, i) id = true ↔ evict s i = true ∧ rtrnId s = id := by
  rw [evicted, Bool.and_eq_true_iff, decide_eq_true_iff]

/-- A slot stays as it is, leaves, or is taken for the entry that is sent. -/
theorem Inv.slot_next (inv : Inv cycles s) (id : cfg.TxId) (k : cfg.Ptr) (l : cfg.Lane) :
    (Slot (next s i) id k ∧ ((next s i).txStat id).be l = true) ↔
      (sent (s, i) id = true ∧ dirtyPtr s = k ∧ txBe s l = true) ∨
        (Slot s id k ∧ (s.txStat id).be l = true ∧ evicted (s, i) id = false) := by
  have stat : (next s i).txStat id = _ := txStatD_eq s i id
  unfold Slot
  rw [stat]
  cases new : sent (s, i) id with
  | true =>
      obtain ⟨enable, rfl⟩ := (sent_iff _).mp new
      have free := inv.txId_free enable
      simp [free]
  | false =>
      cases gone : evicted (s, i) id with
      | true => simp
      | false => simp [and_assoc]

theorem Inv.block_next (inv : Inv cycles s) (k : cfg.Ptr) (l : cfg.Lane) :
    ((next s i).wbuffer k).txblock l = true ↔
      ∃ id, Slot (next s i) id k ∧ ((next s i).txStat id).be l = true := by
  have block : ((next s i).wbuffer k).txblock l = _ := wbufferD_txblock s i k l
  simp only [inv.slot_next]
  rw [block, Bool.or_eq_true_iff, Bool.and_eq_true_iff, Bool.and_eq_true_iff, inv.block,
    Bool.not_eq_true']
  constructor
  · rintro (⟨⟨id, slot, be⟩, stays⟩ | ⟨sends, be⟩)
    · refine ⟨id, .inr ⟨slot, be, ?_⟩⟩
      by_contra gone
      rw [Bool.not_eq_false] at gone
      obtain ⟨evicts, rfl⟩ := (evicted_iff _).mp gone
      have leaves' : leaves s i k = true :=
        Bool.and_eq_true_iff.mpr ⟨evicts, decide_eq_true slot.2.symm⟩
      rw [leaves', be] at stays
      cases stays
    · obtain ⟨enable, here⟩ := Bool.and_eq_true_iff.mp sends
      exact ⟨txId s, .inl ⟨(sent_iff _).mpr ⟨enable, rfl⟩, (of_decide_eq_true here).symm, be⟩⟩
  · rintro ⟨id, ⟨new, rfl, be⟩ | ⟨slot, be, stays⟩⟩
    · obtain ⟨enable, _⟩ := (sent_iff _).mp new
      exact .inr ⟨Bool.and_eq_true_iff.mpr ⟨enable, decide_eq_true rfl⟩, be⟩
    · refine .inl ⟨⟨id, slot, be⟩, ?_⟩
      by_contra leaves'
      obtain ⟨evicts, _⟩ := Bool.and_eq_true_iff.mp (Bool.not_eq_false _ |>.mp leaves')
      obtain ⟨enable, here⟩ := Bool.and_eq_true_iff.mp evicts
      have slot' := (inv.evict_slot enable).2
      rw [← of_decide_eq_true here] at slot'
      have gone := (evicted_iff id).mpr ⟨enable, inv.single _ _ _ slot' slot⟩
      rw [stays] at gone
      cases gone

theorem Inv.states_next (inv : Inv cycles s) (k : cfg.Ptr) (l : cfg.Lane) :
    ((next s i).wbuffer k).valid l =
      (((next s i).wbuffer k).dirty l || ((next s i).wbuffer k).txblock l) := by
  change (wbufferD s i k).valid l = ((wbufferD s i k).dirty l || (wbufferD s i k).txblock l)
  rw [wbufferD_valid, wbufferD_dirty, wbufferD_txblock, inv.states]
  have sentDirty : (sends s i k && txBe s l) = true → (s.wbuffer k).dirty l = true := fun both =>
    (inv.sends_dirty (Bool.and_eq_true_iff.mp both).1 (Bool.and_eq_true_iff.mp both).2).2.1
  cases dirty' : (s.wbuffer k).dirty l with
  | true => cases sends s i k && txBe s l <;> simp
  | false =>
      have idle : (sends s i k && txBe s l) = false :=
        Bool.not_eq_true _ |>.mp fun both => by
          rw [sentDirty both] at dirty'
          cases dirty'
      rw [idle]
      simp [Bool.or_comm]

theorem Inv.single_next (inv : Inv cycles s) {id id' : cfg.TxId} {k : cfg.Ptr}
    (slot : Slot (next s i) id k) (slot' : Slot (next s i) id' k) : id = id' := by
  have old : ∀ id, Slot (next s i) id k →
      (sent (s, i) id = true ∧ dirtyPtr s = k) ∨ (sent (s, i) id = false ∧ Slot s id k) := by
    intro id slot
    have stat : (next s i).txStat id = _ := txStatD_eq s i id
    unfold Slot at slot ⊢
    rw [stat] at slot
    cases new : sent (s, i) id with
    | true => exact .inl ⟨rfl, by simpa [new] using slot⟩
    | false =>
        rw [new] at slot
        cases gone : evicted (s, i) id with
        | true => simp [gone] at slot
        | false => exact .inr ⟨rfl, by simpa [gone] using slot⟩
  have apart : ∀ {id id'}, sent (s, i) id = true → dirtyPtr s = k → Slot s id' k → False := by
    intro id id' new same slot'
    have ready := inv.dirty_selected ((sent_iff _).mp new).1
    rw [same, inv.not_dirty slot'] at ready
    cases ready
  rcases old id slot with ⟨new, same⟩ | ⟨_, slot⟩
  · rcases old id' slot' with ⟨new', _⟩ | ⟨_, slot'⟩
    · rw [← ((sent_iff _).mp new).2, ((sent_iff _).mp new').2]
    · exact (apart new same slot').elim
  · rcases old id' slot' with ⟨new', same⟩ | ⟨_, slot'⟩
    · exact (apart new' same slot).elim
    · exact inv.single _ _ _ slot slot'

theorem valid_next {k : cfg.Ptr} (some : valid (next s i) k = true) :
    valid s k = true ∨ stores s i k = true := by
  obtain ⟨l, set⟩ := anyByte_iff.mp some
  have value : ((next s i).wbuffer k).valid l = _ := wbufferD_valid s i k l
  rw [value, Bool.or_eq_true_iff, Bool.and_eq_true_iff, Bool.and_eq_true_iff] at set
  rcases set with ⟨before, _⟩ | ⟨stored, _⟩
  · exact .inl (anyByte_iff.mpr ⟨l, before⟩)
  · exact .inr stored

theorem stores_iff (k : cfg.Ptr) : stores s i k = true ↔ dataGnt s i = true ∧ k = wrPtr s i := by
  rw [stores, strobe, Bool.and_eq_true_iff, decide_eq_true_iff]

theorem Inv.unique_next (inv : Inv cycles s) {j k : cfg.Ptr} (someJ : valid (next s i) j = true)
    (someK : valid (next s i) k = true)
    (same : ((next s i).wbuffer j).wtag = ((next s i).wbuffer k).wtag) : j = k := by
  have tag : ∀ k, ((next s i).wbuffer k).wtag = _ := wbufferD_wtag s i
  rw [tag, tag] at same
  have other : ∀ {j k}, stores s i j = true → stores s i k = false → valid (next s i) k = true →
      reqWtag i = (s.wbuffer k).wtag → j = k := by
    intro j k stored idle some same
    obtain ⟨grants, rfl⟩ := (stores_iff j).mp stored
    have before : valid s k = true := by
      rcases valid_next some with before | stored'
      · exact before
      · rw [idle] at stored'
        cases stored'
    rcases wrPtr_cases s i grants with ⟨held, hit⟩ | ⟨_, none⟩
    · exact inv.unique _ _ held before (hit.trans same)
    · exact (none k before same.symm).elim
  cases storedJ : stores s i j with
  | true =>
      cases storedK : stores s i k with
      | true => rw [((stores_iff j).mp storedJ).2, ((stores_iff k).mp storedK).2]
      | false =>
          simp only [storedJ, storedK, if_true, Bool.false_eq_true, if_false] at same
          exact other storedJ storedK someK same
  | false =>
      cases storedK : stores s i k with
      | true =>
          simp only [storedJ, storedK, if_true, Bool.false_eq_true, if_false] at same
          exact (other storedK storedJ someJ same.symm).symm
      | false =>
          simp only [storedJ, storedK, Bool.false_eq_true, if_false] at same
          refine inv.unique _ _ ?_ ?_ same
          · exact (valid_next someJ).resolve_right (by rw [storedJ]; exact Bool.false_ne_true)
          · exact (valid_next someK).resolve_right (by rw [storedK]; exact Bool.false_ne_true)

/-- An acknowledge is for an id that is not in the queue. -/
theorem Inv.acked_fresh (inv : Inv cycles s) (acks : Acks cycles s i) {id : cfg.TxId}
    (returns : acked (s, i) id = true) :
    (outstanding cycles id = true ∨ sent (s, i) id = true) ∧ returnedAcks cycles id = false := by
  obtain ⟨enable, same⟩ := Bool.and_eq_true_iff.mp returns
  obtain rfl : i.missRtrnId = id := of_decide_eq_true same
  refine ⟨acks enable, ?_⟩
  rcases acks enable with waits | new
  · exact inv.apart _ waits
  · obtain ⟨sends, same⟩ := (sent_iff _).mp new
    have free := inv.txId_free sends
    rw [same, inv.used] at free
    exact (Bool.or_eq_false_iff.mp free).2

theorem Inv.ids_next (inv : Inv cycles s) (acks : Acks cycles s i) :
    ∃ xs, (next s i).rtrnIds.Holds (rtrnCfg cfg) xs ∧ xs.Nodup ∧
      ∀ id, id ∈ xs ↔ returnedAcks (cycles ++ [(s, i)]) id = true := by
  obtain ⟨xs, holds, nodup, members⟩ := inv.ids
  let io : FifoIn cfg.TxId :=
    { flush := false, push := i.missRtrnVld, data := i.missRtrnId, pop := evict s i }
  have fresh : i.missRtrnVld = true → i.missRtrnId ∉ xs := by
    intro push inside
    have returns : acked (s, i) i.missRtrnId = true :=
      Bool.and_eq_true_iff.mpr ⟨push, decide_eq_true rfl⟩
    rw [members, (inv.acked_fresh acks returns).2] at inside
    cases inside
  have front : evict s i = true → ∃ rest, xs = rtrnId s :: rest := by
    intro pop
    have inside := (members _).mpr (inv.evict_slot pop).1
    cases xs with
    | nil => cases inside
    | cons id rest => exact ⟨rest, by rw [rtrnId, holds.stored]⟩
  have respects : io.Respects cfg.maxTx xs := by
    constructor
    · intro push
      have more := (List.nodup_cons.mpr ⟨fresh push, nodup⟩).length_le_card
      rwa [Fintype.card_fin] at more
    · intro pop
      obtain ⟨rest, same⟩ := front pop
      rw [same]
      exact List.cons_ne_nil _ _
  have stale : ¬ s.rtrnIds.Stale (rtrnCfg cfg) io := by
    rintro ⟨altera, _⟩
    simp [rtrnCfg, FifoCfg.altera] at altera
  have kept : (if evict s i then xs.tail else xs).Nodup ∧ ∀ id,
      id ∈ (if evict s i then xs.tail else xs) ↔
        (returnedAcks cycles id && !evicted (s, i) id) = true := by
    cases pop : evict s i with
    | true =>
        obtain ⟨rest, rfl⟩ := front pop
        obtain ⟨gone, nodup'⟩ := List.nodup_cons.mp nodup
        refine ⟨nodup', fun id => ?_⟩
        have here : evicted (s, i) id = decide (rtrnId s = id) := by
          rw [evicted, pop, Bool.true_and]
        rw [here, Bool.and_eq_true_iff, ← members]
        simp only [if_true, List.tail_cons, List.mem_cons, Bool.not_eq_true',
          decide_eq_false_iff_not]
        constructor
        · intro inside
          exact ⟨.inr inside, fun same => gone (same ▸ inside)⟩
        · rintro ⟨same | inside, other⟩
          · exact (other same.symm).elim
          · exact inside
    | false =>
        refine ⟨nodup, fun id => ?_⟩
        rw [evicted, pop, Bool.false_and, Bool.not_false, Bool.and_true, ← members]
        rfl
  refine ⟨io.after xs, holds.cycle respects stale rfl 0, ?_, fun id => ?_⟩
  · unfold FifoIn.after
    cases push : i.missRtrnVld with
    | false => simpa [io, push] using kept.1
    | true =>
        have outside : i.missRtrnId ∉ (if evict s i then xs.tail else xs) := by
          intro inside
          have old := (Bool.and_eq_true_iff.mp ((kept.2 _).mp inside)).1
          exact fresh push ((members _).mpr old)
        rw [if_pos push]
        refine List.nodup_append.mpr
          ⟨kept.1, List.nodup_singleton _, fun id inside other last => ?_⟩
        intro same
        have here : id = i.missRtrnId := same.trans (List.mem_singleton.mp last)
        exact outside (here ▸ inside)
  · rw [returnedAcks_concat, Bool.or_eq_true_iff, ← kept.2]
    unfold FifoIn.after acked
    cases push : i.missRtrnVld with
    | false => simp [io, push]
    | true =>
        simp only [io, push, if_true, List.mem_append, List.mem_singleton, Bool.true_and,
          decide_eq_true_eq]
        exact or_congr Iff.rfl eq_comm

theorem Inv.used_next (inv : Inv cycles s) (acks : Acks cycles s i) (id : cfg.TxId) :
    ((next s i).txStat id).vld =
      (outstanding (cycles ++ [(s, i)]) id || returnedAcks (cycles ++ [(s, i)]) id) := by
  have stat : (next s i).txStat id = _ := txStatD_eq s i id
  rw [stat, outstanding_concat, returnedAcks_concat]
  cases new : sent (s, i) id with
  | true => cases acked (s, i) id <;> simp
  | false =>
      have known := inv.used id
      have apart := inv.apart id
      have returns : acked (s, i) id = true →
          (outstanding cycles id = true ∨ sent (s, i) id = true) ∧
          returnedAcks cycles id = false := inv.acked_fresh acks
      rw [new] at returns
      cases gone : evicted (s, i) id with
      | true =>
          obtain ⟨enable, rfl⟩ := (evicted_iff _).mp gone
          have back := (inv.evict_slot enable).1
          rw [back] at apart returns ⊢
          cases waits : outstanding cycles (rtrnId s) with
          | true => cases apart waits
          | false =>
              cases ack : acked (s, i) (rtrnId s) with
              | true => cases (returns ack).2
              | false => rfl
      | false =>
          rw [if_neg Bool.false_ne_true, if_neg Bool.false_ne_true, known]
          cases waits : outstanding cycles id with
          | true => cases acked (s, i) id <;> simp
          | false =>
              cases ack : acked (s, i) id with
              | true =>
                  rcases (returns ack).1 with old | sent'
                  · rw [waits] at old
                    cases old
                  · cases sent'
              | false => simp

theorem Inv.apart_next (inv : Inv cycles s) (id : cfg.TxId)
    (waits : outstanding (cycles ++ [(s, i)]) id = true) :
    returnedAcks (cycles ++ [(s, i)]) id = false := by
  rw [outstanding_concat, Bool.and_eq_true_iff, Bool.or_eq_true_iff, Bool.not_eq_true'] at waits
  rw [returnedAcks_concat, waits.2, Bool.or_false]
  rcases waits.1 with before | new
  · rw [inv.apart id before, Bool.false_and]
  · obtain ⟨enable, rfl⟩ := (sent_iff _).mp new
    have free := inv.txId_free enable
    rw [inv.used, Bool.or_eq_false_iff] at free
    rw [free.2, Bool.false_and]

/-- What waits to be sent waits until it is sent. -/
theorem dirty_stays (idle : dirtyRdEn s i = false) {k : cfg.Ptr} (waits : dirty s k = true) :
    dirty (next s i) k = true := by
  obtain ⟨l, set⟩ := anyByte_iff.mp waits
  unfold bdirty at set
  split at set
  · cases set
  next clear =>
    obtain ⟨isDirty, isValid⟩ := Bool.and_eq_true_iff.mp set
    have noSend : ∀ k, sends s i k = false := fun k => by rw [sends, strobe, idle, Bool.false_and]
    have dirty' : ((next s i).wbuffer k).dirty l = _ := wbufferD_dirty s i k l
    have valid' : ((next s i).wbuffer k).valid l = _ := wbufferD_valid s i k l
    have clear' : ¬ anyByte ((next s i).wbuffer k).txblock = true := by
      intro some
      obtain ⟨l', block⟩ := anyByte_iff.mp some
      have block' : ((next s i).wbuffer k).txblock l' = _ := wbufferD_txblock s i k l'
      rw [block', noSend, Bool.false_and, Bool.or_false] at block
      exact clear (anyByte_iff.mpr ⟨l', (Bool.and_eq_true_iff.mp block).1⟩)
    refine anyByte_iff.mpr ⟨l, ?_⟩
    rw [bdirty, if_neg clear', dirty', valid', noSend, isDirty, isValid]
    simp

theorem inv_next (inv : Inv cycles s) (acks : Acks cycles s i) :
    Inv (cycles ++ [(s, i)]) (next s i) where
  states := inv.states_next
  unique _ _ := inv.unique_next
  block := inv.block_next
  single _ _ _ := inv.single_next
  some id used := by
    have stat : (next s i).txStat id = _ := txStatD_eq s i id
    rw [stat] at used ⊢
    cases new : sent (s, i) id with
    | true => exact anyByte_txBe (inv.dirty_selected ((sent_iff _).mp new).1)
    | false =>
        rw [new] at used
        cases gone : evicted (s, i) id with
        | true => simp [gone] at used
        | false => exact inv.some id (by simpa [gone] using used)
  ids := inv.ids_next acks
  used := inv.used_next acks
  apart := inv.apart_next
  dirtyLocked := inv.dirtyLocked.next fun idle _ => dirty_stays idle
  txLocked := inv.txLocked.next fun idle id free => by
    have stat : (next s i).txStat id = _ := txStatD_eq s i id
    have old : sent (s, i) id = false := by rw [sent, idle, Bool.false_and]
    rw [Bool.not_eq_true'] at free
    unfold txVld at free ⊢
    rw [stat, old, Bool.not_eq_true']
    cases evicted (s, i) id with
    | true => rfl
    | false => exact free

end Cycle

theorem inv_of_run {cycles : List (Cycle cfg)} {s : State cfg} (run : (machine cfg).Run cycles s) :
    Inv cycles s :=
  run.invariant Inv inv_reset fun _ _ _ _ inv acks => inv_next inv acks

end Cva6.Wbuffer
