import RiscvCores.Cva6.LoadStoreUnit

/-!
# Loads and older stores

Requests are numbered as they arrive.  A store is queued from the cycle behind its pop
until the data cache takes it.  While a load is at the head of the bypass no store is
popped, so that what the address check has excluded once stays excluded.
-/

set_option autoImplicit false

namespace Cva6.Lsu

open Ring

variable {cfg : LsuCfg}

/-! ## The numbers of the requests -/

/-- The numbers of the requests in the bypass, in the store buffer, and of the head one
cycle before. -/
structure Ages where
  arrived : Nat
  bypass : Fin 2 → Nat
  previous : Nat
  speculative : Fin StoreBuffer.depthSpec → Nat
  commit : Fin StoreBuffer.depthCommit → Nat

/-- The number of the request at the head. -/
def Ages.head (a : Ages) (s : State cfg) : Nat :=
  if LsuBypass.empty s.bypass then a.arrived else a.bypass s.bypass.readPointer

def Ages.cycle (a : Ages) (s : State cfg) (i : Input cfg) : Ages where
  arrived := if i.lsuReq.valid then a.arrived + 1 else a.arrived
  bypass :=
    if i.lsuReq.valid then Function.update a.bypass s.bypass.writePointer a.arrived
    else a.bypass
  previous := a.head s
  speculative :=
    if (storeBufferIn s i).valid then
      Function.update a.speculative s.storeBuffer.speculativeWritePointer a.previous
    else a.speculative
  commit :=
    if i.commit then
      Function.update a.commit s.storeBuffer.commitWritePointer
        (a.speculative s.storeBuffer.speculativeReadPointer)
    else a.commit

def ages (cycles : List (State cfg × Input cfg)) : Ages :=
  cycles.foldl (fun a now => a.cycle now.1 now.2)
    { arrived := 0, bypass := fun _ => 0, previous := 0, speculative := fun _ => 0
      commit := fun _ => 0 }

/-- Bits `[11:3]` of an address. -/
def wordBits {n : Nat} (address : BitVec n) : BitVec 9 := address.extractLsb' 3 9

/-- A store with its number and the word of its address still waits. -/
inductive Waits (a : Ages) (s : State cfg) (i : Input cfg) : Nat → BitVec 9 → Prop
  | speculative (p : Fin StoreBuffer.depthSpec)
      (valid : (s.storeBuffer.speculativeQueue p).valid = true) :
      Waits a s i (a.speculative p) (wordBits (s.storeBuffer.speculativeQueue p).address)
  | commit (p : Fin StoreBuffer.depthCommit)
      (valid : (s.storeBuffer.commitQueue p).valid = true) :
      Waits a s i (a.commit p) (wordBits (s.storeBuffer.commitQueue p).address)
  | pushing (valid : s.storeUnit.control = .validStore) :
      Waits a s i a.previous (wordBits i.paddr)
  | held (waiting : s.storeUnit.control = .waitTranslation ∨
        s.storeUnit.control = .waitStoreReady) :
      Waits a s i (a.head s) (wordBits (lsuCtrl s i).vaddr)

/-- The tag of a granted load is sent and not killed. -/
def Confirms (s : State cfg) (i : Input cfg) : Prop :=
  (loadDrives s i).tagValid = true ∧ (loadDrives s i).killReq = false

/-- Since the last flush an exception has met a store that had been popped before. -/
def troubled (cycles : List (State cfg × Input cfg)) : Bool :=
  cycles.foldl (fun before now => !now.2.flush &&
    (before || now.1.storeUnit.control == .validStore && now.2.exValid)) false

/-! ## The load unit -/

namespace Load

open LoadUnit

/-- The load at the head has been checked and is not granted for good. -/
def Checked (c : LoadUnit.Control) : Prop :=
  c = .waitGnt ∨ c = .abortTransaction ∨ c = .abortTransactionNi ∨ c = .waitTranslation ∨
    c = .waitWbEmpty

/-- A new load is taken up and checked. -/
def Takes (s : LoadUnit.State cfg) (i : LoadUnit.Input cfg) : Prop :=
  (s.control = .idle ∨ s.control = .sendTag) ∧ i.valid = true

/-- The load unit works on the load at the head. -/
def Works (s : LoadUnit.State cfg) (i : LoadUnit.Input cfg) : Prop :=
  Checked s.control ∨ s.control = .waitPageOffset ∨ Takes s i

/-- The load at the head is checked now or was before. -/
def Clears (s : LoadUnit.State cfg) (i : LoadUnit.Input cfg) : Prop :=
  Checked s.control ∨
    (s.control = .waitPageOffset ∨ Takes s i) ∧ i.pageOffsetMatches = false

variable {s : LoadUnit.State cfg} {i : LoadUnit.Input cfg}

/-- The outcome of a cycle without a flush: the load at the head is popped, left alone
with a check behind it, or left alone without one. -/
structure Outcome (s : LoadUnit.State cfg) (i : LoadUnit.Input cfg) (d : Drives) : Prop where
  pops : d.popLd = true → Works s i
  checked : Checked d.controlD → d.popLd = false ∧ Clears s i
  waits : d.controlD = .waitPageOffset →
    d.popLd = false ∧ (s.control = .waitPageOffset ∨ Takes s i)
  sends : d.controlD = .sendTag → d.popLd = true ∧ Clears s i

theorem outcome_quiet {control : LoadUnit.Control} (idle : control = .idle) {d : Drives}
    (same : d.controlD = control) (popLd : d.popLd = false) : Outcome s i d where
  pops popped := by
    rw [popLd] at popped
    cases popped
  checked isChecked := by
    rw [same, idle] at isChecked
    rcases isChecked with h | h | h | h | h <;> cases h
  waits waiting := by
    rw [same, idle] at waiting
    cases waiting
  sends sent := by
    rw [same, idle] at sent
    cases sent

theorem outcome_checked {d : Drives} (clears : Clears s i) (popLd : d.popLd = false)
    (isChecked : Checked d.controlD) : Outcome s i d where
  pops popped := by
    rw [popLd] at popped
    cases popped
  checked _ := ⟨popLd, clears⟩
  waits waiting := by
    rw [waiting] at isChecked
    rcases isChecked with h | h | h | h | h <;> cases h
  sends sent := by
    rw [sent] at isChecked
    rcases isChecked with h | h | h | h | h <;> cases h

theorem Clears.works (clears : Clears s i) : Works s i := by
  rcases clears with isChecked | ⟨waiting | takes, _⟩
  · exact .inl isChecked
  · exact .inr (.inl waiting)
  · exact .inr (.inr takes)

theorem outcome_granted {d : Drives} (clears : Clears s i) (popLd : d.popLd = false)
    (start : d.controlD = .idle ∨ d.controlD = .waitGnt) : Outcome s i (granted i d) := by
  unfold granted
  split_ifs
  · exact outcome_checked clears popLd (.inr (.inl rfl))
  · refine ⟨fun _ => clears.works, fun isChecked => ?_, ?_, fun _ => ⟨rfl, clears⟩⟩
    · rcases isChecked with h | h | h | h | h <;> cases h
    · intro impossible
      cases impossible
  · exact outcome_checked clears popLd (.inr (.inr (.inl rfl)))
  · rcases start with idle | waiting
    · exact outcome_quiet rfl idle popLd
    · exact outcome_checked clears popLd (.inl waiting)

theorem outcome_accepting {d : Drives} (open' : s.control = .idle ∨ s.control = .sendTag)
    (popLd : d.popLd = false) (idle : d.controlD = .idle) : Outcome s i (accepting s i d) := by
  unfold accepting
  split_ifs with accepts free noGrant
  · have takes : Takes s i := by
      rw [acceptReq, Bool.and_eq_true] at accepts
      exact ⟨open', accepts.1⟩
    exact outcome_checked (.inr ⟨.inr takes, by simpa using free⟩) popLd (.inl rfl)
  · have takes : Takes s i := by
      rw [acceptReq, Bool.and_eq_true] at accepts
      exact ⟨open', accepts.1⟩
    exact outcome_granted (.inr ⟨.inr takes, by simpa using free⟩) popLd (.inl idle)
  · have takes : Takes s i := by
      rw [acceptReq, Bool.and_eq_true] at accepts
      exact ⟨open', accepts.1⟩
    refine ⟨fun popped => ?_, fun isChecked => ?_, fun _ => ⟨popLd, .inr takes⟩, ?_⟩
    · rw [popLd] at popped
      cases popped
    · rcases isChecked with h | h | h | h | h <;> cases h
    · intro impossible
      cases impossible
  · exact outcome_quiet rfl idle popLd

theorem outcome_kill {d : Drives} (outcome : Outcome s i d) :
    Outcome s i { d with killReq := true } :=
  ⟨outcome.pops, outcome.checked, outcome.waits, outcome.sends⟩

theorem outcome (s : LoadUnit.State cfg) (i : LoadUnit.Input cfg) :
    Outcome s i (LoadUnit.control s i) := by
  unfold LoadUnit.control
  cases state : s.control with
  | idle => exact outcome_accepting (.inl state) rfl rfl
  | waitGnt =>
      have clears : Clears s i := .inl (.inl state)
      simp only
      split_ifs
      · exact outcome_granted clears rfl (.inr rfl)
      · exact outcome_checked clears rfl (.inl rfl)
  | sendTag =>
      have accepted := outcome_accepting (d := { quiet .idle with tagValid := true })
        (i := i) (.inr state) rfl rfl
      simp only
      split_ifs
      · exact outcome_kill accepted
      · exact accepted
  | waitPageOffset =>
      simp only
      split_ifs with free
      · exact outcome_checked (.inr ⟨.inl state, by simpa using free⟩) rfl (.inl rfl)
      · refine ⟨fun popped => ?_, fun isChecked => ?_, fun _ => ⟨rfl, .inl state⟩,
          fun impossible => ?_⟩
        · cases popped
        · rcases isChecked with h | h | h | h | h <;> cases h
        · cases impossible
  | abortTransaction =>
      simp only
      split_ifs
      · exact outcome_checked (.inl (.inr (.inl state))) rfl (.inr (.inr (.inr (.inl rfl))))
      · exact outcome_quiet rfl rfl rfl
  | abortTransactionNi =>
      simp only
      split_ifs
      · exact outcome_checked (.inl (.inr (.inr (.inl state)))) rfl (.inr (.inr (.inr (.inr rfl))))
      · exact outcome_quiet rfl rfl rfl
  | waitTranslation =>
      have clears : Clears s i := .inl (.inr (.inr (.inr (.inl state))))
      simp only
      split_ifs
      · refine ⟨fun _ => clears.works, fun isChecked => ?_, fun impossible => ?_,
          fun impossible => ?_⟩
        · rcases isChecked with h | h | h | h | h <;> cases h
        · cases impossible
        · cases impossible
      · exact outcome_checked clears rfl (.inl rfl)
      · exact outcome_checked clears rfl (.inr (.inr (.inr (.inl rfl))))
      · exact outcome_quiet rfl rfl rfl
  | waitFlush => exact outcome_quiet rfl rfl rfl
  | waitWbEmpty =>
      have clears : Clears s i := .inl (.inr (.inr (.inr (.inr state))))
      simp only
      split_ifs
      · exact outcome_checked clears rfl (.inr (.inr (.inr (.inl rfl))))
      · exact outcome_quiet rfl rfl rfl

theorem accepting_tag (d : Drives) :
    (accepting s i d).tagValid = d.tagValid ∧ (accepting s i d).killReq = d.killReq := by
  unfold accepting granted
  split_ifs <;> exact ⟨rfl, rfl⟩

/-- Only the tag state sends a tag without a kill. -/
theorem control_of_confirm (tag : (LoadUnit.control s i).tagValid = true)
    (noKill : (LoadUnit.control s i).killReq = false) : s.control = .sendTag := by
  unfold LoadUnit.control at tag noKill
  cases state : s.control with
  | idle =>
      simp only [state] at tag
      rw [(accepting_tag _).1] at tag
      cases tag
  | waitGnt =>
      simp only [state, granted] at tag
      split_ifs at tag <;> cases tag
  | sendTag => rfl
  | waitPageOffset =>
      simp only [state] at tag
      split_ifs at tag <;> cases tag
  | abortTransaction =>
      simp only [state] at tag noKill
      split_ifs at tag noKill
      · cases noKill
      · cases tag
  | abortTransactionNi =>
      simp only [state] at tag noKill
      split_ifs at tag noKill
      · cases noKill
      · cases tag
  | waitTranslation =>
      simp only [state] at tag
      split_ifs at tag <;> cases tag
  | waitFlush =>
      simp only [state] at noKill
      cases noKill
  | waitWbEmpty =>
      simp only [state] at tag
      split_ifs at tag <;> cases tag

end Load

/-! ## The store unit -/

namespace Store

open StoreUnit

/-- A store at the head waits in the store unit. -/
def Waiting (c : StoreUnit.Control) : Prop := c = .waitTranslation ∨ c = .waitStoreReady

variable (s : StoreUnit.State cfg) (i : StoreUnit.Input cfg) (ready : Bool)

/-- A store is popped on its way to the valid state and waits at the head otherwise. -/
theorem controlD_cases :
    controlD s i ready = .idle ∨
    controlD s i ready = .validStore ∧ i.flush = false ∧ takesUp s i = true ∧
      StoreUnit.popSt s i ready = true ∨
    Waiting (controlD s i ready) ∧ StoreUnit.popSt s i ready = false ∧
      (takesUp s i = true ∨ Waiting s.control) := by
  by_cases stop : (i.flush || excepts s i) = true
  · left
    rw [controlD, if_pos stop]
  rw [Bool.not_eq_true, Bool.or_eq_false_iff] at stop
  by_cases takes : takesUp s i = true
  · right
    unfold controlD StoreUnit.popSt
    cases ready <;> cases misses i <;> simp [stop, takes, Waiting]
  · rw [Bool.not_eq_true] at takes
    unfold controlD StoreUnit.popSt
    cases state : s.control <;> simp only [stop, takes, Waiting, Bool.or_self, Bool.false_and] <;>
      simp <;> split_ifs <;> simp

/-- What is popped without trouble is the store that is taken up or waits. -/
theorem of_popSt (popped : StoreUnit.popSt s i ready = true)
    (noTrouble : ¬ (s.control = .validStore ∧ i.exValid = true)) :
    takesUp s i = true ∨ Waiting s.control := by
  rw [StoreUnit.popSt, Bool.or_eq_true, Bool.and_eq_true, Bool.and_eq_true] at popped
  rcases popped with excepted | ⟨⟨takes, _⟩, _⟩
  · rw [excepts, Bool.and_eq_true] at excepted
    cases state : s.control with
    | idle => simp [state] at excepted
    | validStore => exact absurd ⟨state, excepted.1⟩ noTrouble
    | waitTranslation => exact .inr (.inl rfl)
    | waitStoreReady => exact .inr (.inr rfl)
  · exact .inl takes

end Store

/-! ## The bypass as a queue -/

namespace Bypass

variable {b : LsuBypass.State cfg} {ages : Fin 2 → Nat} {arrived : Nat}
  {xs : List (LsuCtrl cfg × Nat)}

/-- The bypass contains the requests of `xs` with their numbers. -/
structure Holding (b : LsuBypass.State cfg) (ages : Fin 2 → Nat) (arrived : Nat)
    (xs : List (LsuCtrl cfg × Nat)) : Prop where
  holds : Holds (fun p => (b.mem p, ages p)) b.readPointer xs
  write_eq : b.writePointer = slot b.readPointer xs.length
  count_eq : b.statusCnt = BitVec.ofNat 2 xs.length
  valid : ∀ x ∈ xs, x.1.valid = true
  sorted : xs.Pairwise fun x y => x.2 < y.2
  below : ∀ x ∈ xs, x.2 < arrived

def push (b : LsuBypass.State cfg) (req : LsuCtrl cfg) : LsuBypass.State cfg where
  mem := Function.update b.mem b.writePointer req
  readPointer := b.readPointer
  writePointer := b.writePointer + 1
  statusCnt := b.statusCnt + 1

def pop (b : LsuBypass.State cfg) : LsuBypass.State cfg where
  mem := Function.update b.mem b.readPointer { b.mem b.readPointer with valid := false }
  readPointer := b.readPointer + 1
  writePointer := b.writePointer
  statusCnt := b.statusCnt - 1

def pushIf (b : LsuBypass.State cfg) (req : LsuCtrl cfg) : LsuBypass.State cfg :=
  if req.valid then push b req else b

/-- Without a flush and with at most one pop a cycle is a push and a pop. -/
theorem next_eq {i : LsuBypass.Input cfg} (noFlush : i.flush = false)
    (same : i.lsuReqValid = i.lsuReq.valid) (single : ¬ (i.popLd = true ∧ i.popSt = true)) :
    LsuBypass.next b i =
      if i.popLd || i.popSt then pop (pushIf b i.lsuReq) else pushIf b i.lsuReq := by
  cases popLd : i.popLd <;> cases popSt : i.popSt <;> cases valid : i.lsuReq.valid <;>
    simp_all [LsuBypass.next, LsuBypass.popped, LsuBypass.written, LsuBypass.readPointerN,
      LsuBypass.statusCntN, pop, push, pushIf]

theorem Holding.nil (empty : b.statusCnt = 0) (same : b.writePointer = b.readPointer) :
    Holding b ages arrived [] where
  holds := .nil _ _
  write_eq := by rw [same, List.length_nil, slot_zero]
  count_eq := empty
  valid _ impossible := absurd impossible (List.not_mem_nil)
  sorted := .nil
  below _ impossible := absurd impossible (List.not_mem_nil)

theorem Holding.push (holding : Holding b ages arrived xs) (room : xs.length ≤ 1)
    {req : LsuCtrl cfg} (valid : req.valid = true) :
    Holding (push b req) (Function.update ages b.writePointer arrived) (arrived + 1)
      (xs ++ [(req, arrived)]) where
  holds := by
    have pushed := holding.holds.push (by omega) (req, arrived)
    rw [← holding.write_eq] at pushed
    refine pushed.congr fun p _ => ?_
    by_cases same : p = b.writePointer
    · subst same
      simp [Bypass.push]
    · simp [Bypass.push, Function.update_of_ne same]
  write_eq := by
    simp only [Bypass.push]
    rw [holding.write_eq, slot_add_one, List.length_append, List.length_singleton]
  count_eq := by
    simp only [Bypass.push]
    rw [holding.count_eq, List.length_append, List.length_singleton, BitVec.ofNat_add]
    rfl
  valid x inside := by
    rcases List.mem_append.mp inside with old | new
    · exact holding.valid x old
    · rw [List.mem_singleton.mp new]
      exact valid
  sorted := by
    rw [List.pairwise_append]
    refine ⟨holding.sorted, List.pairwise_singleton _ _, fun x old y new => ?_⟩
    rw [List.mem_singleton.mp new]
    exact holding.below x old
  below x inside := by
    rcases List.mem_append.mp inside with old | new
    · exact Nat.lt_succ_of_lt (holding.below x old)
    · rw [List.mem_singleton.mp new]
      exact Nat.lt_succ_self arrived

theorem Holding.pop {x : LsuCtrl cfg × Nat} (holding : Holding b ages arrived (x :: xs)) :
    Holding (pop b) ages arrived xs where
  holds := by
    refine holding.holds.pop.congr fun p inside => ?_
    have other := ((inWindow_pop holding.holds.1).mp inside).2
    simp [Bypass.pop, Function.update_of_ne other]
  write_eq := by
    simp only [Bypass.pop]
    rw [holding.write_eq, add_one_eq_slot, slot_add, List.length_cons, Nat.add_comm]
  count_eq := by
    simp only [Bypass.pop]
    rw [holding.count_eq, List.length_cons, BitVec.ofNat_add]
    exact BitVec.add_sub_cancel _ _
  valid y inside := holding.valid y (List.mem_cons_of_mem x inside)
  sorted := holding.sorted.of_cons
  below y inside := holding.below y (List.mem_cons_of_mem x inside)

theorem Holding.empty_iff (holding : Holding b ages arrived xs) :
    LsuBypass.empty b = true ↔ xs = [] := by
  have bound := holding.holds.1
  rw [LsuBypass.empty, beq_iff_eq, holding.count_eq]
  constructor
  · intro zero
    have vals := congrArg BitVec.toNat zero
    rw [BitVec.toNat_ofNat, Nat.mod_eq_of_lt (by omega)] at vals
    exact List.length_eq_zero_iff.mp vals
  · rintro rfl
    rfl

end Bypass

/-! ## The queued stores -/

/-- A store with its number and word was popped and is not yet taken by the cache. -/
inductive Queued (a : Ages) (s : State cfg) : Nat → BitVec 9 → Prop
  | speculative (p : Fin StoreBuffer.depthSpec)
      (valid : (s.storeBuffer.speculativeQueue p).valid = true) :
      Queued a s (a.speculative p) (wordBits (s.storeBuffer.speculativeQueue p).address)
  | commit (p : Fin StoreBuffer.depthCommit)
      (valid : (s.storeBuffer.commitQueue p).valid = true) :
      Queued a s (a.commit p) (wordBits (s.storeBuffer.commitQueue p).address)
  | pushing (valid : s.storeUnit.control = .validStore) :
      Queued a s a.previous (wordBits s.lsuVaddr)

section Queued

variable {a : Ages} {s : State cfg} {i : Input cfg} {number : Nat} {bits : BitVec 9}

theorem wordBits_pageOffset {n : Nat} (address : BitVec n) :
    (address.extractLsb' 0 12).extractLsb' 3 9 = wordBits address := by
  rw [BitVec.extractLsb'_extractLsb'_of_le (by omega), wordBits]

theorem wordBits_paddr (sameOffset : i.paddr.extractLsb' 0 12 = s.lsuVaddr.extractLsb' 0 12) :
    wordBits i.paddr = wordBits s.lsuVaddr := by
  rw [← wordBits_pageOffset, sameOffset, wordBits_pageOffset]

theorem next_validStore (valid : (next s i).storeUnit.control = .validStore) :
    i.flush = false ∧ StoreUnit.takesUp s.storeUnit (storeUnitIn s i) = true ∧
      popSt s i = true := by
  rcases Store.controlD_cases s.storeUnit (storeUnitIn s i) (stReady s i) with
    idle | ⟨_, outcome⟩ | ⟨waiting, _⟩
  · exact absurd (idle.symm.trans valid) (by decide)
  · exact outcome
  · rcases waiting with waiting | waiting <;> exact absurd (waiting.symm.trans valid) (by decide)

/-- What the store unit takes up is a valid store at the head. -/
theorem head_of_takesUp (takes : StoreUnit.takesUp s.storeUnit (storeUnitIn s i) = true) :
    (lsuCtrl s i).fu = .store ∧ (lsuCtrl s i).valid = true := by
  have valid : stValid s i = true := by
    unfold StoreUnit.takesUp at takes
    cases state : s.storeUnit.control <;> simp only [state, storeUnitIn] at takes
    · exact takes
    · rw [Bool.or_eq_true, Bool.and_eq_true, Bool.and_eq_true, Bool.and_eq_true] at takes
      exact takes.elim (fun h => h.1.1) (fun h => h.1)
    · cases takes
    · cases takes
  simpa [stValid] using valid

/-- After a cycle a queued store was queued before or has just been popped. -/
theorem Queued.of_next (sameOffset : i.paddr.extractLsb' 0 12 = s.lsuVaddr.extractLsb' 0 12)
    (queued : Queued (a.cycle s i) (next s i) number bits) :
    Queued a s number bits ∨ ((next s i).storeUnit.control = .validStore ∧
      number = a.head s ∧ bits = wordBits (lsuCtrl s i).vaddr) := by
  cases queued with
  | speculative p valid =>
      left
      simp only [next, StoreBuffer.next, StoreBuffer.speculativeQueueN] at valid ⊢
      split_ifs at valid ⊢ with flush
      simp only [StoreBuffer.evictedQueue] at valid ⊢
      have kept : (StoreBuffer.pushedQueue s.storeBuffer (storeBufferIn s i) p).valid = true ∧
          (if (storeBufferIn s i).commit = true then
            Function.update (StoreBuffer.pushedQueue s.storeBuffer (storeBufferIn s i))
              s.storeBuffer.speculativeReadPointer
              { StoreBuffer.pushedQueue s.storeBuffer (storeBufferIn s i)
                  s.storeBuffer.speculativeReadPointer with valid := false }
          else StoreBuffer.pushedQueue s.storeBuffer (storeBufferIn s i)) p =
            StoreBuffer.pushedQueue s.storeBuffer (storeBufferIn s i) p := by
        split_ifs at valid ⊢ with commit
        · by_cases same : p = s.storeBuffer.speculativeReadPointer
          · subst same
            simp at valid
          · rw [Function.update_of_ne same] at valid ⊢
            exact ⟨valid, rfl⟩
        · exact ⟨valid, rfl⟩
      rw [kept.2]
      replace valid := kept.1
      simp only [Ages.cycle, StoreBuffer.pushedQueue] at valid ⊢
      split_ifs at valid ⊢ with pushed
      · by_cases same : p = s.storeBuffer.speculativeWritePointer
        · subst same
          simp only [Function.update_self, storeBufferIn]
          rw [wordBits_paddr sameOffset]
          refine .pushing ?_
          simp only [storeBufferIn, StoreUnit.storeBufferValid, StoreUnit.stValid] at pushed
          simp_all
        · rw [Function.update_of_ne same] at valid ⊢
          rw [Function.update_of_ne same]
          exact .speculative p valid
      · exact .speculative p valid
  | commit p valid =>
      left
      simp only [next, StoreBuffer.next, StoreBuffer.commitQueueN, Ages.cycle] at valid ⊢
      have old : ∀ q, (StoreBuffer.grantedQueue s.storeBuffer (storeBufferIn s i) q).valid = true →
          Queued a s (a.commit q)
            (wordBits (StoreBuffer.grantedQueue s.storeBuffer (storeBufferIn s i) q).address) := by
        intro q live
        unfold StoreBuffer.grantedQueue at live ⊢
        split_ifs at live ⊢
        · by_cases same : q = s.storeBuffer.commitReadPointer
          · subst same
            simp at live
          · rw [Function.update_of_ne same] at live ⊢
            exact .commit q live
        · exact .commit q live
      have commits : (storeBufferIn s i).commit = i.commit := rfl
      rw [commits] at valid ⊢
      split_ifs at valid ⊢
      · by_cases same : p = s.storeBuffer.commitWritePointer
        · subst same
          simp only [Function.update_self] at valid ⊢
          exact .speculative _ valid
        · rw [Function.update_of_ne same] at valid ⊢
          rw [Function.update_of_ne same]
          exact old p valid
      · exact old p valid
  | pushing valid =>
      right
      have isStore := (head_of_takesUp (next_validStore valid).2.1).1
      refine ⟨valid, rfl, ?_⟩
      simp [next, mmuVaddr, isStore]

/-- The address check sees every queued store. -/
theorem Queued.ne_of_check (queued : Queued a s number bits)
    (sameOffset : i.paddr.extractLsb' 0 12 = s.lsuVaddr.extractLsb' 0 12)
    (free : (loadUnitIn s i).pageOffsetMatches = false) :
    bits ≠ wordBits (lsuCtrl s i).vaddr := by
  simp only [loadUnitIn, StoreBuffer.pageOffsetMatches, StoreBuffer.offsetMatches,
    Bool.or_eq_false_iff] at free
  obtain ⟨⟨noCommit, noSpeculative⟩, noPush⟩ := free
  simp only [storeBufferIn, pageOffset, wordBits_pageOffset] at noCommit noSpeculative noPush
  rw [decide_eq_false_iff_not, not_exists] at noCommit noSpeculative
  cases queued with
  | speculative p valid =>
      intro same
      exact noSpeculative p ⟨beq_iff_eq.mpr same.symm, valid⟩
  | commit p valid =>
      intro same
      exact noCommit p ⟨beq_iff_eq.mpr same.symm, valid⟩
  | pushing valid =>
      intro same
      rw [← wordBits_paddr sameOffset] at same
      have found : StoreUnit.stValidWithoutFlush s.storeUnit = true := by
        simp [StoreUnit.stValidWithoutFlush, valid]
      rw [found, Bool.and_true] at noPush
      exact absurd same.symm (beq_eq_false_iff_ne.mp noPush)

end Queued

/-! ## One cycle without trouble -/

section Calm

variable {a : Ages} {s : State cfg} {i : Input cfg} {xs : List (LsuCtrl cfg × Nat)}

/-- The requests of a cycle, with one that arrives. -/
def incoming (a : Ages) (i : Input cfg) (xs : List (LsuCtrl cfg × Nat)) :
    List (LsuCtrl cfg × Nat) :=
  if i.lsuReq.valid then xs ++ [(i.lsuReq, a.arrived)] else xs

/-- The bypass of the unit contains `xs`. -/
def Holding (a : Ages) (s : State cfg) (xs : List (LsuCtrl cfg × Nat)) : Prop :=
  Bypass.Holding s.bypass a.bypass a.arrived xs

theorem incoming_length (a : Ages) (i : Input cfg) (xs : List (LsuCtrl cfg × Nat)) :
    (incoming a i xs).length ≤ xs.length + 1 := by
  unfold incoming
  split_ifs
  · simp
  · omega

theorem Holding.head (holding : Holding a s xs) {x : LsuCtrl cfg × Nat}
    {rest : List (LsuCtrl cfg × Nat)} (first : incoming a i xs = x :: rest) :
    lsuCtrl s i = x.1 ∧ a.head s = x.2 := by
  have emptyIff := Bypass.Holding.empty_iff holding
  unfold lsuCtrl LsuBypass.lsuCtrl Ages.head
  cases xs with
  | nil =>
      rw [if_pos (emptyIff.mpr rfl), if_pos (emptyIff.mpr rfl)]
      unfold incoming at first
      split_ifs at first
      rw [List.nil_append, List.cons.injEq] at first
      rw [← first.1]
      exact ⟨rfl, rfl⟩
  | cons y ys =>
      have nonempty : ¬ LsuBypass.empty s.bypass = true := fun empty => by
        cases emptyIff.mp empty
      rw [if_neg nonempty, if_neg nonempty]
      have same : y = x := by
        unfold incoming at first
        split_ifs at first
        · rw [List.cons_append, List.cons.injEq] at first
          exact first.1
        · rw [List.cons.injEq] at first
          exact first.1
      have stored := Bypass.Holding.holds holding |>.head
      rw [← same]
      exact ⟨congrArg Prod.fst stored, congrArg Prod.snd stored⟩

theorem Holding.of_valid (holding : Holding a s xs) (valid : (lsuCtrl s i).valid = true) :
    ∃ x rest, incoming a i xs = x :: rest := by
  cases xs with
  | nil =>
      rw [lsuCtrl, LsuBypass.lsuCtrl, if_pos (Bypass.Holding.empty_iff holding |>.mpr rfl)]
        at valid
      exact ⟨_, _, by rw [incoming, if_pos valid, List.nil_append]⟩
  | cons x rest =>
      unfold incoming
      split_ifs
      · exact ⟨_, _, rfl⟩
      · exact ⟨_, _, rfl⟩

theorem Holding.arrive (holding : Holding a s xs)
    (room : i.lsuReq.valid = true → xs.length ≤ 1) :
    Bypass.Holding (Bypass.pushIf s.bypass i.lsuReq) (a.cycle s i).bypass
      (a.cycle s i).arrived (incoming a i xs) := by
  simp only [Bypass.pushIf, Ages.cycle, incoming]
  split_ifs with valid
  · exact Bypass.Holding.push holding (room valid) valid
  · exact holding

/-- The requests that stay. -/
def staying (a : Ages) (s : State cfg) (i : Input cfg) (xs : List (LsuCtrl cfg × Nat)) :
    List (LsuCtrl cfg × Nat) :=
  if popLd s i || popSt s i then (incoming a i xs).tail else incoming a i xs

/-- The bypass takes the request that arrives and loses the one that is popped. -/
theorem Holding.cycle (holding : Holding a s xs)
    (room : i.lsuReq.valid = true → xs.length ≤ 1) (noFlush : i.flush = false)
    (single : ¬ (popLd s i = true ∧ popSt s i = true))
    (some : popLd s i = true ∨ popSt s i = true → ∃ x rest, incoming a i xs = x :: rest) :
    Holding (a.cycle s i) (next s i) (staying a s i xs) := by
  have arrived := holding.arrive room
  have stepped : (next s i).bypass =
      if popLd s i || popSt s i then Bypass.pop (Bypass.pushIf s.bypass i.lsuReq)
      else Bypass.pushIf s.bypass i.lsuReq := Bypass.next_eq noFlush rfl single
  rw [Holding, stepped, staying]
  by_cases pops : (popLd s i || popSt s i) = true
  · obtain ⟨x, rest, first⟩ := some (by simpa using pops)
    rw [if_pos pops, if_pos pops]
    rw [first] at arrived ⊢
    exact arrived.pop
  · rw [if_neg pops, if_neg pops]
    exact arrived

/-- A number is older than the requests in the bypass and all that will come. -/
def Behind (a : Ages) (xs : List (LsuCtrl cfg × Nat)) (number : Nat) : Prop :=
  number < a.arrived ∧ ∀ x ∈ xs, number < x.2

theorem Behind.cycle {number : Nat} (behind : Behind a xs number) :
    Behind (a.cycle s i) (staying a s i xs) number := by
  have arrive : Behind (a.cycle s i) (incoming a i xs) number := by
    simp only [Behind, Ages.cycle, incoming]
    by_cases valid : i.lsuReq.valid = true
    · rw [if_pos valid, if_pos valid]
      refine ⟨Nat.lt_succ_of_lt behind.1, fun x inside => ?_⟩
      rcases List.mem_append.mp inside with old | new
      · exact behind.2 x old
      · rw [List.mem_singleton.mp new]
        exact behind.1
    · rw [if_neg valid, if_neg valid]
      exact behind
  unfold staying
  split_ifs
  · exact ⟨arrive.1, fun x inside => arrive.2 x (List.mem_of_mem_tail inside)⟩
  · exact arrive

/-- As long as no popped store meets an exception: what is in the bypass is younger than
what is queued, and the check of a load holds on. -/
structure Calm (a : Ages) (s : State cfg) (xs : List (LsuCtrl cfg × Nat)) : Prop where
  holding : Holding a s xs
  queued : ∀ number bits, Queued a s number bits → Behind a xs number
  storing : Store.Waiting s.storeUnit.control →
    ∃ x rest, xs = x :: rest ∧ x.1.fu = .store
  loading : Load.Checked s.loadUnit.control ∨ s.loadUnit.control = .waitPageOffset →
    ∃ x rest, xs = x :: rest ∧ x.1.fu = .load
  checked : Load.Checked s.loadUnit.control → ∀ x rest, xs = x :: rest →
    ∀ number bits, Queued a s number bits → bits ≠ wordBits x.1.vaddr
  sent : s.loadUnit.control = .sendTag → Behind a xs a.previous
  tagged : s.loadUnit.control = .sendTag →
    ∀ number bits, Queued a s number bits → bits ≠ wordBits s.lsuVaddr

theorem incoming_cons (a : Ages) (i : Input cfg) (x : LsuCtrl cfg × Nat)
    (rest : List (LsuCtrl cfg × Nat)) :
    ∃ more, incoming a i (x :: rest) = x :: more := by
  unfold incoming
  split_ifs
  · exact ⟨_, rfl⟩
  · exact ⟨_, rfl⟩

theorem Calm.store_head (calm : Calm a s xs)
    (stores : StoreUnit.takesUp s.storeUnit (storeUnitIn s i) = true ∨
      Store.Waiting s.storeUnit.control) :
    ∃ x rest, incoming a i xs = x :: rest ∧ x.1.fu = .store := by
  rcases stores with takes | waiting
  · have isStore := head_of_takesUp takes
    obtain ⟨x, rest, first⟩ := calm.holding.of_valid (i := i) isStore.2
    exact ⟨x, rest, first, by rw [← (calm.holding.head first).1]; exact isStore.1⟩
  · obtain ⟨x, rest, rfl, isStore⟩ := calm.storing waiting
    obtain ⟨more, first⟩ := incoming_cons a i x rest
    exact ⟨x, more, first, isStore⟩

theorem Calm.load_head (calm : Calm a s xs) (works : Load.Works s.loadUnit (loadUnitIn s i)) :
    ∃ x rest, incoming a i xs = x :: rest ∧ x.1.fu = .load := by
  have resting : (Load.Checked s.loadUnit.control ∨ s.loadUnit.control = .waitPageOffset) →
      ∃ x rest, incoming a i xs = x :: rest ∧ x.1.fu = .load := by
    intro busy
    obtain ⟨x, rest, rfl, isLoad⟩ := calm.loading busy
    obtain ⟨more, first⟩ := incoming_cons a i x rest
    exact ⟨x, more, first, isLoad⟩
  rcases works with isChecked | waiting | ⟨_, valid⟩
  · exact resting (.inl isChecked)
  · exact resting (.inr waiting)
  · have isLoad : (lsuCtrl s i).fu = .load ∧ (lsuCtrl s i).valid = true := by
      simpa [loadUnitIn, ldValid] using valid
    obtain ⟨x, rest, first⟩ := calm.holding.of_valid (i := i) isLoad.2
    exact ⟨x, rest, first, by rw [← (calm.holding.head first).1]; exact isLoad.1⟩

/-- A load and a store are not at the head together. -/
theorem not_both {full : List (LsuCtrl cfg × Nat)}
    (load : ∃ x rest, full = x :: rest ∧ x.1.fu = .load)
    (store : ∃ x rest, full = x :: rest ∧ x.1.fu = .store) : False := by
  obtain ⟨x, rest, rfl, isLoad⟩ := load
  obtain ⟨y, more, same, isStore⟩ := store
  rw [List.cons.injEq] at same
  rw [← same.1, isLoad] at isStore
  cases isStore

/-- What the check has excluded once stays excluded. -/
theorem Calm.clears (calm : Calm a s xs)
    (sameOffset : i.paddr.extractLsb' 0 12 = s.lsuVaddr.extractLsb' 0 12)
    (clears : Load.Clears s.loadUnit (loadUnitIn s i)) {number : Nat} {bits : BitVec 9}
    (queued : Queued a s number bits) : bits ≠ wordBits (lsuCtrl s i).vaddr := by
  rcases clears with isChecked | ⟨_, free⟩
  · obtain ⟨x, rest, rfl, _⟩ := calm.loading (.inl isChecked)
    obtain ⟨more, first⟩ := incoming_cons a i x rest
    rw [(calm.holding.head first).1]
    exact calm.checked isChecked x rest rfl number bits queued
  · exact queued.ne_of_check sameOffset free

/-- A cycle without a flush and without trouble. -/
theorem Calm.cycle (calm : Calm a s xs)
    (sameOffset : i.paddr.extractLsb' 0 12 = s.lsuVaddr.extractLsb' 0 12)
    (room : i.lsuReq.valid = true → xs.length ≤ 1) (noFlush : i.flush = false)
    (noTrouble : ¬ (s.storeUnit.control = .validStore ∧ i.exValid = true)) :
    Calm (a.cycle s i) (next s i) (staying a s i xs) := by
  have storeHead (popped : popSt s i = true) :
      ∃ x rest, incoming a i xs = x :: rest ∧ x.1.fu = .store :=
    calm.store_head (Store.of_popSt _ _ _ popped noTrouble)
  have same : loadDrives s i = LoadUnit.control s.loadUnit (loadUnitIn s i) := by
    simp [loadDrives, LoadUnit.drives, loadUnitIn, noFlush]
  have outcome : Load.Outcome s.loadUnit (loadUnitIn s i) (loadDrives s i) :=
    same ▸ Load.outcome s.loadUnit (loadUnitIn s i)
  have loadHead (popped : popLd s i = true) :
      ∃ x rest, incoming a i xs = x :: rest ∧ x.1.fu = .load :=
    calm.load_head (outcome.pops popped)
  have holding : Holding (a.cycle s i) (next s i) (staying a s i xs) := by
    refine calm.holding.cycle room noFlush (fun both => ?_) (fun pops => ?_)
    · exact not_both (loadHead both.1) (storeHead both.2)
    · rcases pops with popped | popped
      · obtain ⟨x, rest, first, _⟩ := loadHead popped
        exact ⟨x, rest, first⟩
      · obtain ⟨x, rest, first, _⟩ := storeHead popped
        exact ⟨x, rest, first⟩
  -- A request that leaves the bypass is older than those that stay.
  have behind (pops : (popLd s i || popSt s i) = true)
      (some : ∃ x rest, incoming a i xs = x :: rest) :
      Behind (a.cycle s i) (staying a s i xs) (a.head s) := by
    obtain ⟨x, rest, first⟩ := some
    have arrive := calm.holding.arrive room
    rw [first] at arrive
    rw [staying, if_pos pops, first, (calm.holding.head first).2]
    exact ⟨arrive.below x List.mem_cons_self, fun _ => List.rel_of_pairwise_cons arrive.sorted⟩
  -- While a load is worked on, no store is popped and what is queued was queued before.
  have kept (works : Load.Works s.loadUnit (loadUnitIn s i)) {number : Nat} {bits : BitVec 9}
      (queued : Queued (a.cycle s i) (next s i) number bits) : Queued a s number bits := by
    rcases queued.of_next sameOffset with old | ⟨valid, _⟩
    · exact old
    · exact (not_both (calm.load_head works) (storeHead (next_validStore valid).2.2)).elim
  have noPop (works : Load.Works s.loadUnit (loadUnitIn s i)) (noLd : popLd s i = false) :
      staying a s i xs = incoming a i xs := by
    rw [staying, if_neg]
    rw [noLd, Bool.false_or]
    exact fun popped => not_both (calm.load_head works) (storeHead popped)
  refine ⟨holding, fun number bits queued => ?_, fun waiting => ?_, fun busy => ?_,
    fun isChecked x rest first number bits queued => ?_, fun sent => ?_,
    fun sent number bits queued => ?_⟩
  · rcases queued.of_next sameOffset with old | ⟨valid, rfl, _⟩
    · exact (calm.queued number bits old).cycle
    · have popped := (next_validStore valid).2.2
      obtain ⟨x, rest, first, _⟩ := storeHead popped
      exact behind (by rw [popped, Bool.or_true]) ⟨x, rest, first⟩
  · rcases Store.controlD_cases s.storeUnit (storeUnitIn s i) (stReady s i) with
      idle | ⟨valid, _⟩ | ⟨_, noSt, stores⟩
    · rcases waiting with waiting | waiting <;> exact absurd (idle.symm.trans waiting) (by decide)
    · rcases waiting with waiting | waiting <;> exact absurd (valid.symm.trans waiting) (by decide)
    · have noLd : popLd s i = false := by
        rw [← Bool.not_eq_true]
        exact fun popped => not_both (loadHead popped) (calm.store_head stores)
      rw [staying, if_neg (by rw [noLd, popSt, noSt]; decide)]
      exact calm.store_head stores
  · rcases busy with isChecked | waiting
    · have clears := outcome.checked isChecked
      rw [noPop clears.2.works clears.1]
      exact calm.load_head clears.2.works
    · have waits := outcome.waits waiting
      have works : Load.Works s.loadUnit (loadUnitIn s i) :=
        waits.2.elim (fun h => .inr (.inl h)) (fun h => .inr (.inr h))
      rw [noPop works waits.1]
      exact calm.load_head works
  · have clears := outcome.checked isChecked
    rw [noPop clears.2.works clears.1] at first
    rw [← (calm.holding.head first).1]
    exact calm.clears sameOffset clears.2 (kept clears.2.works queued)
  · have sends := outcome.sends sent
    obtain ⟨x, rest, first, _⟩ := loadHead sends.1
    exact behind (by rw [popLd, sends.1, Bool.true_or]) ⟨x, rest, first⟩
  · have sends := outcome.sends sent
    obtain ⟨x, rest, first, isLoad⟩ := loadHead sends.1
    rw [← (calm.holding.head first).1] at isLoad
    have address : (next s i).lsuVaddr = (lsuCtrl s i).vaddr := by
      simp [next, mmuVaddr, isLoad]
    rw [address]
    exact calm.clears sameOffset sends.2 (kept sends.2.works queued)

/-- The numbers in use have been given. -/
structure Given (a : Ages) (s : State cfg) : Prop where
  bypass : ∀ p, (s.bypass.mem p).valid = true → a.bypass p < a.arrived
  queued : ∀ number bits, Queued a s number bits → number < a.arrived

/-- A flush empties the bypass and both units. -/
theorem calm_of_flush (given : Given (a.cycle s i) (next s i)) (flush : i.flush = true) :
    Calm (a.cycle s i) (next s i) [] := by
  have storeIdle : (next s i).storeUnit.control = .idle := by
    simp [next, StoreUnit.next, StoreUnit.controlD, storeUnitIn, flush]
  have loadFlushes : (next s i).loadUnit.control = .waitFlush := by
    simp [next, LoadUnit.next, LoadUnit.drives, loadUnitIn, flush]
  have noLoad : ¬ Load.Checked (next s i).loadUnit.control := by
    rw [loadFlushes]
    rintro (h | h | h | h | h) <;> cases h
  refine ⟨?_, fun number bits queued => ?_, fun waiting => ?_, fun busy => ?_,
    fun isChecked => absurd isChecked noLoad, fun sent => ?_, fun sent => ?_⟩
  · apply Bypass.Holding.nil
    · simp [next, LsuBypass.next, bypassIn, flush]
    · simp [next, LsuBypass.next, bypassIn, flush]
  · exact ⟨given.queued number bits queued, fun x inside => absurd inside List.not_mem_nil⟩
  · rw [storeIdle] at waiting
    rcases waiting with h | h <;> cases h
  · rcases busy with isChecked | waiting
    · exact absurd isChecked noLoad
    · exact absurd (loadFlushes.symm.trans waiting) (by decide)
  · exact absurd (loadFlushes.symm.trans sent) (by decide)
  · exact absurd (loadFlushes.symm.trans sent) (by decide)

end Calm

/-! ## Every run -/

section Run

variable {a : Ages} {s : State cfg} {i : Input cfg}

theorem arrived_le_cycle : a.arrived ≤ (a.cycle s i).arrived := by
  simp only [Ages.cycle]
  split_ifs
  · exact Nat.le_succ _
  · exact Nat.le_refl _

/-- A valid head has a number that was given. -/
theorem Given.head (given : Given a s) (valid : (lsuCtrl s i).valid = true) :
    a.head s < (a.cycle s i).arrived := by
  unfold lsuCtrl LsuBypass.lsuCtrl at valid
  unfold Ages.head
  split_ifs at valid ⊢
  · simp only [Ages.cycle]
    rw [if_pos valid]
    exact Nat.lt_succ_self _
  · exact Nat.lt_of_lt_of_le (given.bypass _ valid) arrived_le_cycle

/-- A valid entry of the bypass was valid before or has just been written. -/
theorem bypass_valid_cases {p : Fin 2} (valid : ((next s i).bypass.mem p).valid = true) :
    (i.lsuReq.valid = true ∧ p = s.bypass.writePointer) ∨
      (s.bypass.mem p).valid = true ∧ ¬ (i.lsuReq.valid = true ∧ p = s.bypass.writePointer) := by
  by_cases written : i.lsuReq.valid = true ∧ p = s.bypass.writePointer
  · exact .inl written
  · have unwritten : LsuBypass.written s.bypass (bypassIn s i) p = s.bypass.mem p := by
      by_cases arrives : (bypassIn s i).lsuReqValid = true
      · rw [LsuBypass.written, if_pos arrives]
        exact Function.update_of_ne (fun same => written ⟨arrives, same⟩) _ _
      · rw [LsuBypass.written, if_neg arrives]
    refine .inr ⟨?_, written⟩
    rw [← unwritten]
    simp only [next, LsuBypass.next] at valid
    split_ifs at valid
    · cases valid
    · simp only [LsuBypass.popped] at valid
      split_ifs at valid
      · cases valid
      · by_cases same : p = s.bypass.readPointer
        · subst same
          simp at valid
        · rwa [Function.update_of_ne same] at valid
      · exact valid

theorem Given.cycle (given : Given a s)
    (sameOffset : i.paddr.extractLsb' 0 12 = s.lsuVaddr.extractLsb' 0 12) :
    Given (a.cycle s i) (next s i) where
  bypass p valid := by
    rcases bypass_valid_cases valid with ⟨arrives, rfl⟩ | ⟨old, unwritten⟩
    · simp [Ages.cycle, arrives]
    · have sameAge : (a.cycle s i).bypass p = a.bypass p := by
        simp only [Ages.cycle]
        split_ifs with arrives
        · exact Function.update_of_ne (fun same => unwritten ⟨arrives, same⟩) _ _
        · rfl
      rw [sameAge]
      exact Nat.lt_of_lt_of_le (given.bypass p old) arrived_le_cycle
  queued number bits queued := by
    rcases queued.of_next sameOffset with old | ⟨valid, rfl, _⟩
    · exact Nat.lt_of_lt_of_le (given.queued number bits old) arrived_le_cycle
    · exact given.head (head_of_takesUp (next_validStore valid).2.1).2

theorem ages_append (cycles : List (State cfg × Input cfg)) (s : State cfg) (i : Input cfg) :
    ages (cycles ++ [(s, i)]) = (ages cycles).cycle s i := by
  simp [ages, List.foldl_append]

theorem troubled_append (cycles : List (State cfg × Input cfg)) (s : State cfg)
    (i : Input cfg) :
    troubled (cycles ++ [(s, i)]) = (!i.flush &&
      (troubled cycles || s.storeUnit.control == .validStore && i.exValid)) := by
  simp [troubled, List.foldl_append]

theorem calm_reset (cfg : LsuCfg) :
    Calm (ages ([] : List (State cfg × Input cfg))) (reset cfg) [] := by
  have nothing : ∀ number bits,
      ¬ Queued (ages ([] : List (State cfg × Input cfg))) (reset cfg) number bits := by
    rintro number bits (⟨p, valid⟩ | ⟨p, valid⟩ | valid) <;> cases valid
  refine ⟨.nil rfl rfl, fun number bits queued => absurd queued (nothing number bits),
    fun waiting => ?_, fun busy => ?_, fun isChecked x rest first => ?_, fun sent => ?_,
    fun sent => ?_⟩
  · rcases waiting with h | h <;> cases h
  · rcases busy with (h | h | h | h | h) | h <;> cases h
  · cases first
  · cases sent
  · cases sent

/-- What holds in every run. -/
def Ordered (cycles : List (State cfg × Input cfg)) (s : State cfg) : Prop :=
  Given (ages cycles) s ∧ (troubled cycles = false →
    ∃ xs, Calm (ages cycles) s xs ∧ (wasReady cycles = true → xs.length ≤ 1))

theorem ordered_run {cycles : List (State cfg × Input cfg)}
    (run : (machine cfg).Run cycles s) : Ordered cycles s := by
  apply run.invariant
  · refine ⟨⟨fun p valid => ?_, fun number bits queued => ?_⟩, fun _ => ?_⟩
    · cases valid
    · exact ((calm_reset cfg).queued number bits queued).1
    · exact ⟨[], calm_reset cfg, fun _ => Nat.zero_le 1⟩
  · intro cycles s i _ ordered driven
    have given := ordered.1.cycle (i := i) driven.2
    rw [Ordered, ages_append, troubled_append]
    refine ⟨given, fun untroubled => ?_⟩
    cases flush : i.flush with
    | true => exact ⟨[], calm_of_flush given flush, fun _ => Nat.zero_le 1⟩
    | false =>
        rw [flush, Bool.not_false, Bool.true_and, Bool.or_eq_false_iff] at untroubled
        obtain ⟨xs, calm, short⟩ := ordered.2 untroubled.1
        have noTrouble : ¬ (s.storeUnit.control = .validStore ∧ i.exValid = true) := by
          rintro ⟨valid, excepts⟩
          simp [valid, excepts] at untroubled
        have stays := calm.cycle driven.2 (fun arrives => short (driven.1 arrives)) flush noTrouble
        refine ⟨staying (ages cycles) s i xs, stays, fun ready => ?_⟩
        have empty : LsuBypass.empty s.bypass = true := by
          simpa [wasReady, LsuBypass.ready] using ready
        rw [Bypass.Holding.empty_iff calm.holding] at empty
        have few := incoming_length (ages cycles) i xs
        rw [empty, List.length_nil] at few
        unfold staying
        split_ifs
        · rw [List.length_tail, empty]
          omega
        · rw [empty]
          exact few

/-- A tag that is confirmed belongs to the load granted in the cycle before. -/
theorem Confirms.control (confirms : Confirms s i) : s.loadUnit.control = .sendTag := by
  obtain ⟨tag, noKill⟩ := confirms
  have same : (LoadUnit.control s.loadUnit (loadUnitIn s i)).tagValid = true ∧
      (LoadUnit.control s.loadUnit (loadUnitIn s i)).killReq = false := by
    unfold loadDrives LoadUnit.drives at tag noKill
    split_ifs at tag noKill
    · exact ⟨tag, noKill⟩
    · exact ⟨tag, noKill⟩
  exact Load.control_of_confirm same.1 same.2

/-- As long as no exception has met a popped store since the last flush, no older store
to the word of a confirmed load waits. -/
theorem lsu_orders_loads {cycles : List (State cfg × Input cfg)}
    (run : (machine cfg).Run cycles s) (allowed : (machine cfg).allowed cycles s i)
    (confirms : Confirms s i) (untroubled : troubled cycles = false) :
    ∀ number bits, Waits (ages cycles) s i number bits →
      number < (ages cycles).previous → bits ≠ wordBits i.paddr := by
  obtain ⟨xs, calm, _⟩ := (ordered_run run).2 untroubled
  have sent := confirms.control
  rw [wordBits_paddr allowed.2]
  intro number bits waits older
  cases waits with
  | speculative p valid => exact calm.tagged sent _ _ (.speculative p valid)
  | commit p valid => exact calm.tagged sent _ _ (.commit p valid)
  | pushing valid => exact absurd older (Nat.lt_irrefl _)
  | held waiting =>
      obtain ⟨x, rest, rfl, _⟩ := calm.storing waiting
      obtain ⟨more, first⟩ := incoming_cons (ages cycles) i x rest
      have younger := (calm.sent sent).2 x List.mem_cons_self
      rw [(calm.holding.head first).2] at older
      omega

end Run

section Example

/-- 32-bit data, 16-bit addresses and a translation. -/
def smallCfg : LsuCfg where
  plen := 16
  xlen := 32
  dcacheIndexWidth := 12
  indexInside := by decide
  vlen := 16
  ppnw := 4
  transIdBits := 2
  mmuPresent := true
  rva := false
  nonIdemPotenceEn := false
  nonIdempotent := fun _ => false
  nrLoadBufEntries := 2
  someLoadBuf := Nat.two_pos

/-- No request, the translation hits, and loads are granted but no stores. -/
def still : Input smallCfg where
  flush := false
  lsuReq := LsuCtrl.zero smallCfg
  exValid := false
  dtlbHit := true
  dtlbPpn := 0
  paddr := 0
  commit := false
  stallStPending := false
  amoBufferReady := true
  storeGnt := false
  commitTranId := 0
  dcacheWbufferNotNi := true
  loadGnt := true
  loadRvalid := false
  loadRid := 0

def requestAt (fu : Fu) (operation : FuOp) (vaddr : BitVec 16) : LsuCtrl smallCfg :=
  { LsuCtrl.zero smallCfg with
    valid := true, fu := fu, operation := operation, be := 0xf, vaddr := vaddr }

/-- A store and, in the next cycle, a load of another word. -/
def storeThenLoad : List (Input smallCfg) :=
  [{ still with lsuReq := requestAt .store .sw 0x1000 },
    { still with lsuReq := requestAt .load .lw 0x1008, paddr := 0x1000 }]

theorem lsu_orders_loads_storeThenLoad :
    let cycles := (machine smallCfg).cyclesOf (reset smallCfg) storeThenLoad
    let s := (machine smallCfg).after (reset smallCfg) storeThenLoad
    let i := { still with paddr := 0x1008 }
    ∀ number bits, Waits (ages cycles) s i number bits →
      number < (ages cycles).previous → bits ≠ wordBits i.paddr :=
  lsu_orders_loads (Clocked.Machine.run_of_accepts storeThenLoad (by decide +kernel))
    (by decide +kernel) (by unfold Confirms; decide +kernel) (by decide +kernel)

/-- The store to `0x1000` is committed and waits for the cache.  The exception of the store
to `0x1008`, popped before, pops the load behind it, and the load unit, which waits for a
page offset, serves the load of `0x1000` instead. -/
def poppedTwice : List (Input smallCfg) :=
  [{ still with lsuReq := requestAt .store .sw 0x1000 },
    { still with paddr := 0x1000 },
    { still with lsuReq := requestAt .store .sw 0x1008, commit := true },
    { still with lsuReq := requestAt .load .lw 0x1008, paddr := 0x1008, exValid := true },
    { still with lsuReq := { LsuCtrl.zero smallCfg with vaddr := 0x10 }, paddr := 0x1008 },
    { still with lsuReq := requestAt .load .lw 0x1000 }]

theorem lsu_passes_store :
    ¬ ∀ (cfg : LsuCfg) (cycles : List (State cfg × Input cfg)) (s : State cfg) (i : Input cfg),
      (machine cfg).Run cycles s → (machine cfg).allowed cycles s i → Confirms s i →
      ∀ number bits, Waits (ages cycles) s i number bits →
        number < (ages cycles).previous → bits ≠ wordBits i.paddr := by
  intro ordered
  have run := Clocked.Machine.run_of_accepts (m := machine smallCfg) poppedTwice
    (by decide +kernel)
  refine ordered smallCfg _ _ { still with paddr := 0x1000 } run (by decide +kernel)
    (by unfold Confirms; decide +kernel) _ _ (.commit 0 (by decide +kernel)) (by decide +kernel) ?_
  decide +kernel

end Example

end Cva6.Lsu
