import RiscvCores.Cva6.WbufferInvariant

/-!
# No stored byte is lost

The last value stored to a byte waits in the buffer, is in flight, or has been
acknowledged.  What becomes of it is read off the history: a store begins anew, an
accepted transaction that carries the value takes it along, and an acknowledge under the
id of that transaction completes it.
-/

set_option autoImplicit false

namespace Cva6.Wbuffer

open CommonCells

variable {cfg : DcacheCfg}

/-! ## What becomes of a stored byte -/

/-- A transaction as the miss unit sees it. -/
structure Tx (cfg : DcacheCfg) where
  id : cfg.TxId
  paddr : Nat
  size : Nat
  wdata : cfg.Word

def missTx (s : State cfg) : Tx cfg := ⟨txId s, missPaddr s, missSize s, missWdata s⟩

/-- The transaction writes a value to a byte of a word. -/
def Tx.Carries (tx : Tx cfg) (wtag : Nat) (l : cfg.Lane) (v : BitVec 8) : Prop :=
  tx.paddr / cfg.bytes = wtag ∧ tx.paddr % cfg.bytes ≤ l.val ∧
    l.val < tx.paddr % cfg.bytes + 2 ^ tx.size ∧ tx.wdata l = v

instance (tx : Tx cfg) (wtag : Nat) (l : cfg.Lane) (v : BitVec 8) :
    Decidable (tx.Carries wtag l v) := inferInstanceAs (Decidable (_ ∧ _ ∧ _ ∧ _))

inductive Fate (cfg : DcacheCfg)
  | unwritten
  | waiting (v : BitVec 8)
  | inFlight (v : BitVec 8) (id : cfg.TxId)
  | acknowledged (v : BitVec 8)

section History

variable (now : Cycle cfg) (wtag : Nat) (l : cfg.Lane)

/-- The byte is stored to on the core port. -/
def granted : Bool :=
  dataGnt now.1 now.2 && decide (reqWtag now.2 = wtag) && now.2.dataBe l

def Fate.send : Fate cfg → Fate cfg
  | .waiting v =>
      if dirtyRdEn now.1 now.2 = true ∧ (missTx now.1).Carries wtag l v then
        .inFlight v (missTx now.1).id
      else .waiting v
  | fate => fate

def Fate.ack : Fate cfg → Fate cfg
  | .inFlight v id => if acked now id then .acknowledged v else .inFlight v id
  | fate => fate

def Fate.store (fate : Fate cfg) : Fate cfg :=
  if granted now wtag l then .waiting (now.2.dataWdata l) else fate

def fate (cycles : List (Cycle cfg)) : Fate cfg :=
  cycles.foldl (fun before now => ((before.send now wtag l).ack now).store now wtag l) .unwritten

def lastGranted (cycles : List (Cycle cfg)) : Option (BitVec 8) :=
  cycles.foldl (fun before now => if granted now wtag l then some (now.2.dataWdata l) else before)
    none

def Fate.value : Fate cfg → Option (BitVec 8)
  | .unwritten => none
  | .waiting v | .inFlight v _ | .acknowledged v => some v

theorem fate_concat (cycles : List (Cycle cfg)) : fate wtag l (cycles ++ [now]) =
    (((fate wtag l cycles).send now wtag l).ack now).store now wtag l := by
  simp [fate]

theorem send_waiting (v : BitVec 8) : (Fate.waiting v).send now wtag l =
    if dirtyRdEn now.1 now.2 = true ∧ (missTx now.1).Carries wtag l v then
      .inFlight v (missTx now.1).id
    else .waiting v := rfl

theorem ack_inFlight (v : BitVec 8) (id : cfg.TxId) : (Fate.inFlight v id).ack now =
    if acked now id then .acknowledged v else .inFlight v id := rfl

theorem value_send (fate : Fate cfg) : (fate.send now wtag l).value = fate.value := by
  cases fate with
  | waiting v =>
      rw [send_waiting]
      split <;> rfl
  | unwritten | inFlight _ _ | acknowledged _ => rfl

theorem value_ack (fate : Fate cfg) : (fate.ack now).value = fate.value := by
  cases fate with
  | inFlight v id =>
      rw [ack_inFlight]
      split <;> rfl
  | unwritten | waiting _ | acknowledged _ => rfl

/-- The value that is followed is the last one stored. -/
theorem fate_value (cycles : List (Cycle cfg)) :
    (fate wtag l cycles).value = lastGranted wtag l cycles := by
  induction cycles using List.reverseRecOn with
  | nil => rfl
  | append_singleton cycles now ih =>
      rw [fate_concat]
      unfold lastGranted at ih ⊢
      rw [List.foldl_append, ← ih, Fate.store]
      simp only [List.foldl_cons, List.foldl_nil]
      split
      · rfl
      · rw [value_ack, value_send]

end History

/-! ## Where the value is -/

/-- The buffer holds what a fate says. -/
def FateHolds (cycles : List (Cycle cfg)) (s : State cfg) (wtag : Nat) (l : cfg.Lane) :
    Fate cfg → Prop
  | .waiting v => ∃ k, (s.wbuffer k).wtag = wtag ∧ (s.wbuffer k).dirty l = true ∧
      (s.wbuffer k).data l = v
  | .inFlight v id => ∃ k, (s.wbuffer k).wtag = wtag ∧ (s.wbuffer k).dirty l = false ∧
      (s.wbuffer k).data l = v ∧ Slot s id k ∧ (s.txStat id).be l = true ∧
      outstanding cycles id = true
  | .unwritten | .acknowledged _ => True

section Cycle

variable {cycles : List (Cycle cfg)} {s : State cfg} {i : Input cfg}

/-- The address shows the word and the first byte. -/
theorem missPaddr_split (ready : dirty s (dirtyPtr s) = true) :
    missPaddr s / cfg.bytes = (s.wbuffer (dirtyPtr s)).wtag ∧
      missPaddr s % cfg.bytes = bdirtyOff s := by
  have inside := (missSize_transfers ready).inside
  have some := Nat.two_pow_pos (missSize s)
  have bytes := Nat.two_pow_pos cfg.xlenAlignBytes
  have small : bdirtyOff s < cfg.bytes := by omega
  unfold missPaddr
  rw [Nat.mul_comm]
  exact ⟨by rw [Nat.mul_add_div bytes, Nat.div_eq_of_lt small, Nat.add_zero],
    by rw [Nat.mul_add_mod, Nat.mod_eq_of_lt small]⟩

theorem carries_iff (ready : dirty s (dirtyPtr s) = true) (wtag : Nat) (l : cfg.Lane)
    (v : BitVec 8) : (missTx s).Carries wtag l v ↔ (s.wbuffer (dirtyPtr s)).wtag = wtag ∧
      txBe s l = true ∧ (s.wbuffer (dirtyPtr s)).data l = v := by
  obtain ⟨word, offset⟩ := missPaddr_split ready
  unfold Tx.Carries missTx
  dsimp only
  rw [word, offset, txBe_iff ready]
  constructor
  · rintro ⟨tag, low, high, data⟩
    rw [missWdata_of_txBe ready ((txBe_iff ready l).mpr ⟨low, high⟩)] at data
    exact ⟨tag, ⟨low, high⟩, data⟩
  · rintro ⟨tag, ⟨low, high⟩, data⟩
    refine ⟨tag, low, high, ?_⟩
    rwa [missWdata_of_txBe ready ((txBe_iff ready l).mpr ⟨low, high⟩)]

/-- An entry that holds bytes keeps its word. -/
theorem wtag_keeps {k : cfg.Ptr} (some : valid s k = true) :
    ((next s i).wbuffer k).wtag = (s.wbuffer k).wtag := by
  have tag : ((next s i).wbuffer k).wtag = _ := wbufferD_wtag s i k
  rw [tag]
  split
  next stored =>
    obtain ⟨grants, rfl⟩ := (stores_iff k).mp stored
    rcases wrPtr_cases s i grants with ⟨_, hit⟩ | ⟨free, _⟩
    · exact hit.symm
    · rw [some] at free
      cases free
  next => rfl

/-- A byte that is not stored to keeps its value. -/
theorem byte_keeps {k : cfg.Ptr} {l : cfg.Lane} (some : valid s k = true)
    (quiet : granted (s, i) (s.wbuffer k).wtag l = false) :
    (stores s i k && i.dataBe l) = false := by
  rw [Bool.and_eq_false_iff]
  by_contra both
  rw [not_or, Bool.not_eq_false, Bool.not_eq_false] at both
  obtain ⟨grants, rfl⟩ := (stores_iff k).mp both.1
  rcases wrPtr_cases s i grants with ⟨_, hit⟩ | ⟨free, _⟩
  · simp [granted, grants, hit, both.2] at quiet
  · rw [some] at free
    cases free

theorem Inv.fate_store (wtag : Nat) (l : cfg.Lane) (cycles' : List (Cycle cfg))
    (stored : granted (s, i) wtag l = true) :
    FateHolds cycles' (next s i) wtag l (.waiting (i.dataWdata l)) := by
  rw [granted, Bool.and_eq_true_iff, Bool.and_eq_true_iff, decide_eq_true_iff] at stored
  obtain ⟨⟨grants, tag⟩, be⟩ := stored
  have here : stores s i (wrPtr s i) = true := (stores_iff _).mpr ⟨grants, rfl⟩
  have tag' : ((next s i).wbuffer (wrPtr s i)).wtag = _ := wbufferD_wtag s i _
  have dirty' : ((next s i).wbuffer (wrPtr s i)).dirty l = _ := wbufferD_dirty s i _ l
  have data' : ((next s i).wbuffer (wrPtr s i)).data l = _ := wbufferD_data s i _ l
  dsimp only at be
  refine ⟨wrPtr s i, ?_, ?_, ?_⟩
  · rw [tag', if_pos here]
    exact tag
  · rw [dirty', here, be]
    simp
  · rw [data', here, be]
    rfl

/-- A value that waits is sent with its byte, or waits on. -/
theorem Inv.fate_waiting (inv : Inv cycles s) {wtag : Nat} {l : cfg.Lane}
    {v : BitVec 8} (holds : FateHolds cycles s wtag l (.waiting v))
    (quiet : granted (s, i) wtag l = false) :
    FateHolds (cycles ++ [(s, i)]) (next s i) wtag l
      (((Fate.waiting v).send (s, i) wtag l).ack (s, i)) := by
  obtain ⟨k, rfl, isDirty, rfl⟩ := holds
  have isValid : (s.wbuffer k).valid l = true := by rw [inv.states, isDirty, Bool.true_or]
  have some : valid s k = true := anyByte_iff.mpr ⟨l, isValid⟩
  have still := byte_keeps some quiet
  have tag' : ((next s i).wbuffer k).wtag = _ := wtag_keeps (i := i) some
  have dirty' : ((next s i).wbuffer k).dirty l = _ := wbufferD_dirty s i k l
  have data' : ((next s i).wbuffer k).data l = _ := wbufferD_data s i k l
  rw [still, isDirty, Bool.or_false, Bool.true_and] at dirty'
  rw [still, if_neg Bool.false_ne_true] at data'
  rw [send_waiting]
  split
  next taken =>
    obtain ⟨enable, carries⟩ := taken
    have ready := inv.dirty_selected enable
    obtain ⟨tag, be, _⟩ := (carries_iff ready _ _ _).mp carries
    obtain ⟨l', waits⟩ := anyByte_iff.mp ready
    have held : valid s (dirtyPtr s) = true := by
      unfold bdirty at waits
      split at waits
      · cases waits
      · exact anyByte_iff.mpr ⟨l', (Bool.and_eq_true_iff.mp waits).2⟩
    have same : dirtyPtr s = k := inv.unique _ _ held some tag
    rw [ack_inFlight]
    split
    next => trivial
    next noAck =>
      have new : sent (s, i) (txId s) = true := (sent_iff _).mpr ⟨enable, rfl⟩
      have sends' : sends s i k = true :=
        Bool.and_eq_true_iff.mpr ⟨enable, decide_eq_true same.symm⟩
      have slot := (inv.slot_next (i := i) (txId s) k l).mpr (.inl ⟨new, same, be⟩)
      have noAck' : acked (s, i) (txId s) = false := Bool.not_eq_true _ |>.mp noAck
      refine ⟨k, tag', ?_, data', slot.1, slot.2, ?_⟩
      · rw [dirty', sends', be]
        rfl
      · change outstanding (cycles ++ [(s, i)]) (txId s) = true
        rw [outstanding_concat, new, noAck']
        simp
  next left =>
    refine ⟨k, tag', ?_, data'⟩
    rw [dirty', Bool.not_eq_true', Bool.and_eq_false_iff]
    by_contra both
    rw [not_or, Bool.not_eq_false, Bool.not_eq_false] at both
    obtain ⟨enable, _⟩ := Bool.and_eq_true_iff.mp both.1
    obtain ⟨same, _, _⟩ := inv.sends_dirty both.1 both.2
    refine left ⟨enable, (carries_iff (inv.dirty_selected enable) _ _ _).mpr ?_⟩
    rw [← same]
    exact ⟨rfl, both.2, rfl⟩

/-- A value in flight is acknowledged, or stays in the buffer. -/
theorem Inv.fate_inFlight (inv : Inv cycles s) {wtag : Nat} {l : cfg.Lane} {v : BitVec 8}
    {id : cfg.TxId} (holds : FateHolds cycles s wtag l (.inFlight v id))
    (quiet : granted (s, i) wtag l = false) :
    FateHolds (cycles ++ [(s, i)]) (next s i) wtag l
      (((Fate.inFlight v id).send (s, i) wtag l).ack (s, i)) := by
  obtain ⟨k, rfl, clean, rfl, slot, be, waits⟩ := holds
  have some := inv.valid_of_slot slot
  have still := byte_keeps some quiet
  have dirty' : ((next s i).wbuffer k).dirty l = _ := wbufferD_dirty s i k l
  have data' : ((next s i).wbuffer k).data l = _ := wbufferD_data s i k l
  rw [still, clean, Bool.or_false, Bool.false_and] at dirty'
  rw [still, if_neg Bool.false_ne_true] at data'
  have stays : evicted (s, i) id = false := by
    by_contra gone
    obtain ⟨enable, rfl⟩ := (evicted_iff _).mp (Bool.not_eq_false _ |>.mp gone)
    have returned := (inv.evict_slot enable).1
    rw [inv.apart _ waits] at returned
    cases returned
  change FateHolds _ _ _ _ ((Fate.inFlight _ id).ack (s, i))
  rw [ack_inFlight]
  split
  next => trivial
  next noAck =>
    have slot' := (inv.slot_next (i := i) id k l).mpr (.inr ⟨slot, be, stays⟩)
    refine ⟨k, wtag_keeps some, dirty', data', slot'.1, slot'.2, ?_⟩
    rw [outstanding_concat, waits, Bool.not_eq_true _ |>.mp noAck]
    simp

theorem Inv.fate_next (inv : Inv cycles s) {wtag : Nat} {l : cfg.Lane}
    (holds : FateHolds cycles s wtag l (fate wtag l cycles)) :
    FateHolds (cycles ++ [(s, i)]) (next s i) wtag l (fate wtag l (cycles ++ [(s, i)])) := by
  rw [fate_concat, Fate.store]
  split
  next stored => exact Inv.fate_store wtag l _ stored
  next idle =>
    have quiet : granted (s, i) wtag l = false := Bool.not_eq_true _ |>.mp idle
    revert holds
    cases fate wtag l cycles with
    | unwritten => exact fun _ => trivial
    | waiting v => exact fun holds => inv.fate_waiting holds quiet
    | inFlight v id => exact fun holds => inv.fate_inFlight holds quiet
    | acknowledged v => exact fun _ => trivial

end Cycle

theorem fate_of_run {cycles : List (Cycle cfg)} {s : State cfg} (run : (machine cfg).Run cycles s)
    (wtag : Nat) (l : cfg.Lane) : FateHolds cycles s wtag l (fate wtag l cycles) :=
  run.invariant (fun cycles s => FateHolds cycles s wtag l (fate wtag l cycles)) trivial
    fun _ _ _ before holds _ => (inv_of_run before).fate_next holds

/-! ## The guarantees of the buffer -/

structure Safe (cycles : List (Cycle cfg)) (s : State cfg) : Prop where
  byteStates : ∀ k l, ((s.wbuffer k).valid l, (s.wbuffer k).dirty l, (s.wbuffer k).txblock l) ∈
    [(false, false, false), (true, true, false), (true, false, true), (true, true, true)]
  unique : ∀ j k, valid s j = true → valid s k = true →
    (s.wbuffer j).wtag = (s.wbuffer k).wtag → j = k
  inFlight : ∀ k l, (s.wbuffer k).txblock l = true ↔
    ∃ id, (s.txStat id).vld = true ∧ (s.txStat id).ptr = k ∧ (s.txStat id).be l = true
  oneTransaction : ∀ id id', (s.txStat id).vld = true → (s.txStat id').vld = true →
    (s.txStat id).ptr = (s.txStat id').ptr → id = id'
  noLoss : ∀ wtag l v, lastGranted wtag l cycles = some v →
    (∃ k, (s.wbuffer k).wtag = wtag ∧ (s.wbuffer k).valid l = true ∧ (s.wbuffer k).data l = v) ∨
      fate wtag l cycles = .acknowledged v
  freeSlot : ∀ i, dirtyRdEn s i = true → (s.txStat (txId s)).vld = false ∧
    outstanding cycles (txId s) = false ∧ returnedAcks cycles (txId s) = false
  keepsTag : ∀ i id, (s.txStat id).vld = true ∨ returnedAcks cycles id = true →
    ((next s i).wbuffer (s.txStat id).ptr).wtag = (s.wbuffer (s.txStat id).ptr).wtag

theorem safe_of_run {cycles : List (Cycle cfg)} {s : State cfg}
    (run : (machine cfg).Run cycles s) : Safe cycles s := by
  have inv := inv_of_run run
  refine ⟨fun k l => ?_, inv.unique, fun k l => ?_, ?_, ?_, ?_, ?_⟩
  · rw [inv.states]
    cases (s.wbuffer k).dirty l <;> cases (s.wbuffer k).txblock l <;> simp
  · rw [inv.block]
    simp only [Slot, and_assoc]
  · exact fun id id' used used' same => inv.single id id' _ ⟨used, same⟩ ⟨used', rfl⟩
  · intro wtag l v last
    have holds := fate_of_run run wtag l
    rw [← fate_value] at last
    cases followed : fate wtag l cycles with
    | unwritten =>
        rw [followed] at last
        cases last
    | waiting v' =>
        rw [followed] at last holds
        obtain ⟨k, tag, isDirty, data⟩ := holds
        refine .inl ⟨k, tag, ?_, data.trans (Option.some.inj last)⟩
        rw [inv.states, isDirty, Bool.true_or]
    | inFlight v' id =>
        rw [followed] at last holds
        obtain ⟨k, tag, _, data, slot, be, _⟩ := holds
        refine .inl ⟨k, tag, ?_, data.trans (Option.some.inj last)⟩
        rw [inv.states, (inv.block k l).mpr ⟨id, slot, be⟩, Bool.or_true]
    | acknowledged v' =>
        rw [followed] at last
        exact .inr (congrArg Fate.acknowledged (Option.some.inj last))
  · intro i sends
    have free := inv.txId_free sends
    exact ⟨free, Bool.or_eq_false_iff.mp (inv.used _ ▸ free)⟩
  · intro i id used
    have used' : (s.txStat id).vld = true := by
      rcases used with used | returned
      · exact used
      · rw [inv.used, returned, Bool.or_true]
    exact wtag_keeps (inv.valid_of_slot ⟨used', rfl⟩)

section Example

/-- Two words of four bytes and two transactions. -/
def twoWords : DcacheCfg where
  xlen64 := false
  tagWidth := 4
  indexWidth := 4
  offsetWidth := 3
  setAssoc := 1
  memTidWidth := 1
  wbufDepth := 2
  fpgaEn := false
  dataUserEn := false
  nonIdemPotenceEn := false
  isInsideCacheableRegions _ := true
  isInsideNonidempotentRegions _ := false
  someEntries := Nat.two_pos
  wordInLine := by decide
  lineInIndex := by decide
  wordInTag := by decide

/-- A byte is stored again in the cycle in which its transaction is acknowledged. -/
def overwriteRun : List (Input twoWords) :=
  let store (v : BitVec 8) : Input twoWords :=
    { dataReq := true, dataWdata := fun _ => v, dataBe := fun l => decide (l.val = 1) }
  [store 5, { missAck := true }, { store 6 with missRtrnVld := true }]

theorem safe_of_run_overwriteRun :
    let m := machine twoWords
    let cycles := m.cyclesOf m.reset overwriteRun
    let s := m.after m.reset overwriteRun
    let lane : twoWords.Lane := ⟨1, by decide⟩
    (lastGranted 0 lane cycles = some 6 ∧ (s.wbuffer 0).txblock lane = true) ∧ Safe cycles s :=
  ⟨by decide +kernel, safe_of_run (Clocked.Machine.run_of_accepts
    (m := machine twoWords) overwriteRun (by decide +kernel))⟩

end Example

end Cva6.Wbuffer
