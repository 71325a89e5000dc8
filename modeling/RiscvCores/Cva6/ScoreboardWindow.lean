import RiscvCores.Lib.Interleave
import RiscvCores.Lib.Ring
import RiscvCores.Cva6.Scoreboard

/-!
# The scoreboard as a circular window

The issued entries are the slots from the first commit pointer to the issue pointer.
Instructions enter behind the window and leave in front of it.  What identifies an
instruction is kept in its slot, so that the order is read off the entries themselves.
-/

set_option autoImplicit false

namespace Cva6.Scoreboard

open Ring Interleave

variable {cfg : BackendCfg}

/-! ## What the neighbours guarantee -/

/-- Acknowledges come to valid ports only, and to the second port only with the first. -/
def Handshakes (s : State cfg) (i : Input cfg) : Prop :=
  (∀ port, i.issueAck port = true → issueInstrValid s i port = true) ∧
    (∀ port port', port' < port → i.issueAck port = true → i.issueAck port' = true) ∧
    (∀ port, i.commitAck port = true → (commitInstr s port).valid = true) ∧
    ∀ port port', port' < port → i.commitAck port = true → i.commitAck port' = true

instance (s : State cfg) (i : Input cfg) : Decidable (Handshakes s i) :=
  inferInstanceAs (Decidable (_ ∧ _ ∧ _ ∧ _))

/-- The write-back of a second half finds an issued entry in front of it. -/
def Paired (s : State cfg) (i : Input cfg) : Prop :=
  ∀ port, wbTakes s (i.wb port) = true → isDoubleMacro (s.mem (i.wb port).transId) = true →
    (s.mem (i.wb port).transId).sbe.isLastMacroInstr = true →
      ∀ first, precedingIndex (i.wb port).transId = some first →
        (s.mem first).issued = true ∨ issuedTo s i first = true

def windowMachine (cfg : BackendCfg) : Clocked.Machine (State cfg) (Input cfg) where
  reset := reset
  next := next
  allowed _ s i := Handshakes s i

/-! ## The bits of a slot after a cycle -/

/-- What identifies an instruction: its fields but those that the scoreboard writes. -/
def kept (instr : ScoreboardEntry cfg) : ScoreboardEntry cfg :=
  { instr with
    transId := 0, rd := 0, result := 0, valid := false, ex := {}, predictAddress := 0 }

/-- Two entries with one instruction and one issued bit. -/
def SameInstr (new old : SbMem cfg) : Prop :=
  new.issued = old.issued ∧ kept new.sbe = kept old.sbe

theorem SameInstr.refl (entry : SbMem cfg) : SameInstr entry entry := ⟨rfl, rfl⟩

theorem SameInstr.trans {a b c : SbMem cfg} (first : SameInstr a b) (second : SameInstr b c) :
    SameInstr a c :=
  ⟨first.1.trans second.1, first.2.trans second.2⟩

theorem modify_sameInstr (mem : Mem cfg) (slot k : TransId cfg) {f : SbMem cfg → SbMem cfg}
    (same : ∀ entry, SameInstr (f entry) entry) : SameInstr (mem.modify slot f k) (mem k) := by
  by_cases here : k = slot
  · rw [here, Mem.modify_same]
    exact same _
  · rw [Mem.modify_other _ _ here]
    exact .refl _

/-- What a chain of conditional changes leaves in a slot that one of them reaches. -/
theorem foldl_modify_hit {ι : Type} (ports : List ι) (enabled : ι → Bool)
    (slot : ι → TransId cfg) (f : ι → SbMem cfg → SbMem cfg) {k : TransId cfg}
    (mem : Mem cfg) (good : SbMem cfg → Prop) {port : ι} (member : port ∈ ports)
    (takes : enabled port = true) (here : slot port = k)
    (hit : ∀ entry, good (f port entry))
    (later : ∀ port', enabled port' = true → slot port' = k →
      ∀ entry, good entry → good (f port' entry)) :
    good (ports.foldl (fun mem port =>
      if enabled port then Mem.modify mem (slot port) (f port) else mem) mem k) := by
  have after (ports : List ι) (mem : Mem cfg) (start : port ∈ ports ∨ good (mem k)) :
      good (ports.foldl (fun mem port =>
        if enabled port then Mem.modify mem (slot port) (f port) else mem) mem k) := by
    induction ports generalizing mem with
    | nil => exact start.resolve_left List.not_mem_nil
    | cons first rest ih =>
        rw [List.foldl_cons]
        apply ih
        rcases start with member | already
        · rcases List.mem_cons.mp member with same | further
          · right
            rw [← same, if_pos takes, here, Mem.modify_same]
            exact hit _
          · exact .inl further
        · right
          by_cases reaches : enabled first = true ∧ slot first = k
          · rw [if_pos reaches.1, reaches.2, Mem.modify_same]
            exact later first reaches.1 reaches.2 _ already
          · split_ifs with takes'
            · rw [Mem.modify_other _ _ fun same => reaches ⟨takes', same.symm⟩]
              exact already
            · exact already
  exact after ports mem (.inl member)

section Slot

variable (s : State cfg) (i : Input cfg) (mem : Mem cfg) (k : TransId cfg)

theorem fuNoneBlock_sameInstr : SameInstr (fuNoneBlock s mem k) (mem k) := by
  unfold fuNoneBlock
  split_ifs
  · exact ⟨rfl, rfl⟩
  · exact .refl _

theorem wbValid_sameInstr (slot : TransId cfg) : SameInstr (wbValid s slot mem k) (mem k) := by
  have set (valid : Bool) (entry : SbMem cfg) : SameInstr (setValid valid entry) entry :=
    ⟨rfl, rfl⟩
  unfold wbValid
  split_ifs
  · cases precedingIndex slot with
    | none => exact modify_sameInstr _ _ _ (set true)
    | some first =>
        exact (modify_sameInstr _ _ _ (set true)).trans (modify_sameInstr _ _ _ (set true))
  · exact modify_sameInstr _ _ _ (set false)
  · exact modify_sameInstr _ _ _ (set true)

theorem wbStep_sameInstr (port : WbPort cfg) : SameInstr (wbStep s i mem port k) (mem k) := by
  have data (entry : SbMem cfg) : SameInstr (wbData s i port entry) entry := ⟨rfl, rfl⟩
  unfold wbStep
  split_ifs
  · exact (modify_sameInstr _ _ _ data).trans (wbValid_sameInstr s mem k port.transId)
  · exact .refl _

theorem wbBlock_sameInstr : SameInstr (wbBlock s i mem k) (mem k) := by
  unfold wbBlock
  induction (List.finRange cfg.nrWbPorts).map i.wb generalizing mem with
  | nil => exact .refl _
  | cons port ports ih => exact (ih _).trans (wbStep_sameInstr s i mem k port)

theorem cancelBlock_sameInstr : SameInstr (cancelBlock s i mem k) (mem k) := by
  unfold cancelBlock
  split_ifs
  · exact modify_sameInstr _ _ _ fun _ => ⟨rfl, rfl⟩
  · exact .refl _

/-- The buffer in front of the commit ports. -/
def beforeCommit : Mem cfg :=
  cancelBlock s i (wbBlock s i (fuNoneBlock s (issueBlock s i s.mem)))

theorem beforeCommit_sameInstr :
    SameInstr (beforeCommit s i k) (issueBlock s i s.mem k) :=
  ((cancelBlock_sameInstr s i _ k).trans (wbBlock_sameInstr s i _ k)).trans
    (fuNoneBlock_sameInstr s _ k)

theorem issueBlock_issued :
    (issueBlock s i mem k).issued = (issuedTo s i k || (mem k).issued) := by
  by_cases issues : issuedTo s i k = true
  · rw [issues, Bool.true_or]
    obtain ⟨port, takes, here⟩ := of_decide_eq_true issues
    exact foldl_modify_hit _ (accepted s i) (fun port => issuePointer s port.val)
      (fun port _ => newEntry (i.decodedInstr port)) mem (fun entry => entry.issued = true)
      (List.mem_finRange port) takes here (fun _ => rfl) (fun _ _ _ _ _ => rfl)
  · rw [Bool.not_eq_true] at issues
    rw [issueBlock_other s i mem k issues, issues, Bool.false_or]

/-- The entry of a slot that exactly one port writes. -/
theorem issueBlock_new {port : Fin cfg.nrIssuePorts} (takes : accepted s i port = true)
    (here : issuePointer s port.val = k)
    (only : ∀ port', accepted s i port' = true → issuePointer s port'.val = k → port' = port) :
    issueBlock s i mem k = newEntry (i.decodedInstr port) := by
  refine foldl_modify_hit _ (accepted s i) (fun port => issuePointer s port.val)
    (fun port _ => newEntry (i.decodedInstr port)) mem
    (fun entry => entry = newEntry (i.decodedInstr port)) (List.mem_finRange port) takes here
    (fun _ => rfl) fun port' takes' here' _ _ => ?_
  rw [only port' takes' here']

theorem commitBlock_retired (retires : committedFrom s i k = true) :
    (commitBlock s i mem k).issued = false ∧ (commitBlock s i mem k).cancelled = false ∧
      (commitBlock s i mem k).sbe.valid = false := by
  obtain ⟨port, acked, here⟩ := of_decide_eq_true retires
  exact foldl_modify_hit _ i.commitAck s.commitPointer (fun _ => retire) mem
    (fun entry => entry.issued = false ∧ entry.cancelled = false ∧ entry.sbe.valid = false)
    (List.mem_finRange port) acked here (fun _ => ⟨rfl, rfl, rfl⟩)
    (fun _ _ _ _ _ => ⟨rfl, rfl, rfl⟩)

theorem next_issued : ((next s i).mem k).issued =
    (!i.flush && !committedFrom s i k && (issuedTo s i k || (s.mem k).issued)) := by
  have registered : ((next s i).mem k).issued = (memN s i k).issued := by
    simp only [next, registeredMem, Mem.modify]
    split_ifs <;> rfl
  have before := (beforeCommit_sameInstr s i k).1
  rw [issueBlock_issued] at before
  rw [registered, memN, flushBlock]
  by_cases flush : i.flush = true
  · rw [if_pos flush, flush]
    rfl
  · rw [if_neg flush, Bool.not_eq_true] at *
    rw [flush, ← before]
    by_cases retires : committedFrom s i k = true
    · rw [retires]
      exact (commitBlock_retired s i _ k retires).1
    · rw [Bool.not_eq_true] at retires
      rw [retires, commitBlock_other s i _ k retires]
      rfl

theorem next_kept (stays : committedFrom s i k = false) (noFlush : i.flush = false) :
    kept ((next s i).mem k).sbe = kept (issueBlock s i s.mem k).sbe := by
  have registered : kept ((next s i).mem k).sbe = kept (memN s i k).sbe := by
    simp only [next, registeredMem, Mem.modify]
    split_ifs <;> rfl
  rw [registered, memN, flushBlock, if_neg (by rw [noFlush]; decide),
    commitBlock_other s i _ k stays]
  exact (beforeCommit_sameInstr s i k).2

/-! ## Valid entries -/

/-- Every valid entry is issued. -/
def ValidIssued (mem : Mem cfg) : Prop := ∀ k, (mem k).sbe.valid = true → (mem k).issued = true

end Slot

section Valid

variable {s : State cfg} {i : Input cfg} {mem : Mem cfg}

theorem ValidIssued.modify (inv : ValidIssued mem) (slot : TransId cfg)
    {f : SbMem cfg → SbMem cfg}
    (keeps : ((mem slot).sbe.valid = true → (mem slot).issued = true) →
      (f (mem slot)).sbe.valid = true → (f (mem slot)).issued = true) :
    ValidIssued (mem.modify slot f) := by
  intro k valid
  by_cases here : k = slot
  · rw [here, Mem.modify_same] at valid ⊢
    exact keeps (inv slot) valid
  · rw [Mem.modify_other _ _ here] at valid ⊢
    exact inv k valid

theorem ValidIssued.issueBlock (inv : ValidIssued mem) :
    ValidIssued (issueBlock s i mem) := by
  unfold Scoreboard.issueBlock
  induction List.finRange cfg.nrIssuePorts generalizing mem with
  | nil => exact inv
  | cons port ports ih =>
      rw [List.foldl_cons]
      apply ih
      split_ifs
      · exact inv.modify _ fun _ _ => rfl
      · exact inv

theorem ValidIssued.fuNoneBlock (inv : ValidIssued mem)
    (issued : ∀ k, (s.mem k).issued = true → (mem k).issued = true) :
    ValidIssued (fuNoneBlock s mem) := by
  intro k valid
  unfold Scoreboard.fuNoneBlock at valid ⊢
  split_ifs at valid ⊢ with none
  · exact issued k none.2
  · exact inv k valid

/-- A write-back validates its own slot, which is issued, and that of the first half. -/
theorem ValidIssued.wbStep {port : WbPort cfg} (inv : ValidIssued mem)
    (issued : ∀ k, (s.mem k).issued = true ∨ issuedTo s i k = true → (mem k).issued = true)
    (paired : wbTakes s port = true → isDoubleMacro (s.mem port.transId) = true →
      (s.mem port.transId).sbe.isLastMacroInstr = true →
        ∀ first, precedingIndex port.transId = some first →
          (s.mem first).issued = true ∨ issuedTo s i first = true) :
    ValidIssued (wbStep s i mem port) := by
  by_cases takes : wbTakes s port = true
  · have own : (mem port.transId).issued = true := by
      rw [wbTakes, Bool.and_eq_true] at takes
      exact issued _ (.inl takes.2)
    have set (valid : Bool) (mem : Mem cfg) (inv : ValidIssued mem)
        (own : (mem port.transId).issued = true) :
        ValidIssued (mem.modify port.transId (setValid valid)) :=
      inv.modify _ fun _ _ => own
    have validated : ValidIssued (wbValid s port.transId mem) := by
      unfold wbValid
      split_ifs with double last
      · cases before : precedingIndex port.transId with
        | none => exact set true mem inv own
        | some first =>
            refine (set true mem inv own).modify _ fun _ _ => ?_
            have firstIssued := issued first (paired takes double last first before)
            simp only [Mem.modify]
            split_ifs
            · exact firstIssued
            · exact firstIssued
      · exact set false mem inv own
      · exact set true mem inv own
    rw [Scoreboard.wbStep, if_pos takes]
    exact validated.modify _ fun keeps valid => keeps valid
  · rw [Scoreboard.wbStep, if_neg takes]
    exact inv

theorem ValidIssued.wbBlock (inv : ValidIssued mem)
    (issued : ∀ k, (s.mem k).issued = true ∨ issuedTo s i k = true → (mem k).issued = true)
    (paired : Paired s i) : ValidIssued (wbBlock s i mem) := by
  unfold Scoreboard.wbBlock
  rw [List.foldl_map]
  induction List.finRange cfg.nrWbPorts generalizing mem with
  | nil => exact inv
  | cons port rest ih =>
      refine ih (inv.wbStep issued (paired port)) fun k here => ?_
      rw [(wbStep_sameInstr s i mem k _).1]
      exact issued k here

theorem ValidIssued.cancelBlock (inv : ValidIssued mem) : ValidIssued (cancelBlock s i mem) := by
  unfold Scoreboard.cancelBlock
  split_ifs
  · exact inv.modify _ fun keeps valid => keeps valid
  · exact inv

theorem ValidIssued.commitBlock (inv : ValidIssued mem) : ValidIssued (commitBlock s i mem) := by
  unfold Scoreboard.commitBlock
  induction List.finRange cfg.nrCommitPorts generalizing mem with
  | nil => exact inv
  | cons port ports ih =>
      rw [List.foldl_cons]
      apply ih
      split_ifs
      · refine inv.modify _ fun _ valid => ?_
        cases valid
      · exact inv

theorem ValidIssued.next (inv : ValidIssued s.mem) (paired : Paired s i) :
    ValidIssued (next s i).mem := by
  have issued (k : TransId cfg) (here : (s.mem k).issued = true ∨ issuedTo s i k = true) :
      (Scoreboard.fuNoneBlock s (Scoreboard.issueBlock s i s.mem) k).issued = true := by
    rw [(fuNoneBlock_sameInstr s _ k).1, issueBlock_issued, Bool.or_eq_true]
    exact here.symm
  have starts := inv.issueBlock (i := i) (s := s)
  have noned := starts.fuNoneBlock (s := s) fun k old => by
    rw [issueBlock_issued, old, Bool.or_true]
  have committed := ((noned.wbBlock issued paired).cancelBlock (i := i) (s := s)).commitBlock
    (i := i) (s := s)
  have flushed : ValidIssued (memN s i) := by
    intro k valid
    simp only [memN, flushBlock] at valid ⊢
    split_ifs at valid ⊢
    · cases valid
    · exact committed k valid
  refine flushed.modify _ fun keeps valid => ?_
  split_ifs at valid ⊢
  · exact keeps valid
  · exact keeps valid

end Valid

/-! ## The window -/

/-- The instructions accepted in a cycle and those that leave through the commit ports. -/
def accepts (s : State cfg) (i : Input cfg) : List (ScoreboardEntry cfg) :=
  ((List.finRange cfg.nrIssuePorts).filter (accepted s i)).map fun port =>
    kept (i.decodedInstr port)

def leaves (s : State cfg) (i : Input cfg) : List (ScoreboardEntry cfg) :=
  ((List.finRange cfg.nrCommitPorts).filter i.commitAck).map fun port =>
    kept (commitInstr s port)

/-- Since the last flush. -/
structure Log (cfg : BackendCfg) where
  issued : List (ScoreboardEntry cfg)
  left : List (ScoreboardEntry cfg)

def Log.cycle (log : Log cfg) (now : State cfg × Input cfg) : Log cfg :=
  if now.2.flush then ⟨[], []⟩
  else ⟨log.issued ++ accepts now.1 now.2, log.left ++ leaves now.1 now.2⟩

def log (cycles : List (State cfg × Input cfg)) : Log cfg := cycles.foldl Log.cycle ⟨[], []⟩

/-- No cycle yet, or a flush in the last one. -/
def cleared (cycles : List (State cfg × Input cfg)) : Bool :=
  match cycles.getLast? with
  | some now => now.2.flush
  | none => true

/-- The issued entries are `xs` from `head` on. -/
structure Window (cycles : List (State cfg × Input cfg)) (s : State cfg) (head : TransId cfg)
    (xs : List (ScoreboardEntry cfg)) : Prop where
  issued : Occupied (fun k => (s.mem k).issued) head s.issuePointer xs.length
  entries : Holds (fun k => kept (s.mem k).sbe) head xs
  valid : ValidIssued s.mem
  pointers : cleared cycles = false → ∀ port, s.commitPointer port = head + Fin.ofNat _ port.val
  fresh : cleared cycles = true → xs = [] ∧ ∀ port, s.commitPointer port = head
  logged : (log cycles).issued = (log cycles).left ++ xs

section Cycle

variable {s : State cfg} {i : Input cfg} {cycles : List (State cfg × Input cfg)}
  {head : TransId cfg} {xs : List (ScoreboardEntry cfg)}

/-- A port accepts only with the ports before it. -/
theorem accepted_closed (hands : Handshakes s i) (y : Fin cfg.nrIssuePorts)
    (takes : accepted s i y = true) (x : Fin cfg.nrIssuePorts) (below : x ≤ y) :
    accepted s i x = true := by
  rcases Nat.eq_or_lt_of_le below with same | before
  · rw [Fin.ext same]
    exact takes
  · simp only [accepted, decodedInstrAck, Bool.and_eq_true] at takes ⊢
    have acked := hands.2.1 y x before takes.1.2.1
    have valid := hands.1 x acked
    rw [issueInstrValid, Bool.and_eq_true] at valid
    exact ⟨⟨valid.1, acked, valid.2⟩, takes.2⟩

theorem commitAck_closed (hands : Handshakes s i) (y : Fin cfg.nrCommitPorts)
    (acked : i.commitAck y = true) (x : Fin cfg.nrCommitPorts) (below : x ≤ y) :
    i.commitAck x = true := by
  rcases Nat.eq_or_lt_of_le below with same | before
  · rw [Fin.ext same]
    exact acked
  · exact hands.2.2.2 y x before acked

theorem accepted_iff (hands : Handshakes s i) (port : Fin cfg.nrIssuePorts) :
    accepted s i port = true ↔ port.val < numIssue s i := by
  rw [iff_lt_countP (accepted_closed hands), List.countP_eq_length_filter]
  rfl

theorem commitAck_iff (hands : Handshakes s i) (port : Fin cfg.nrCommitPorts) :
    i.commitAck port = true ↔ port.val < numCommit i := by
  rw [iff_lt_countP (commitAck_closed hands), List.countP_eq_length_filter]
  rfl

theorem numIssue_le (s : State cfg) (i : Input cfg) : numIssue s i ≤ cfg.nrIssuePorts := by
  have few := List.length_filter_le (accepted s i) (List.finRange cfg.nrIssuePorts)
  rwa [List.length_finRange] at few

theorem numCommit_le (i : Input cfg) : numCommit i ≤ cfg.nrCommitPorts := by
  have few := List.length_filter_le i.commitAck (List.finRange cfg.nrCommitPorts)
  rwa [List.length_finRange] at few

theorem issuedTo_iff (hands : Handshakes s i) (k : TransId cfg) :
    issuedTo s i k = true ↔ InWindow s.issuePointer (numIssue s i) k := by
  rw [issuedTo, decide_eq_true_iff]
  constructor
  · rintro ⟨port, takes, here⟩
    exact ⟨port.val, (accepted_iff hands port).mp takes, here⟩
  · rintro ⟨j, below, here⟩
    have inside := Nat.lt_of_lt_of_le below (numIssue_le s i)
    exact ⟨⟨j, inside⟩, (accepted_iff hands ⟨j, inside⟩).mpr below, here⟩

/-- A parity that is not full has a free slot. -/
theorem exists_free {parity : Nat} (notFull : parityFull s parity = false) :
    ∃ k : TransId cfg, k.val % 2 = parity ∧ (s.mem k).issued = false := by
  have some := of_decide_eq_false notFull
  push Not at some
  obtain ⟨k, even, free⟩ := some
  exact ⟨k, even, by simpa using free⟩

/-- Ports that accept have their slots behind the window. -/
theorem Window.room (window : Window cycles s head xs) (hands : Handshakes s i)
    (ports : cfg.nrIssuePorts ≤ 2) : xs.length + numIssue s i ≤ cfg.nrSbEntries := by
  have bound := window.issued.bound
  have few := numIssue_le s i
  have notFull (port : Fin cfg.nrIssuePorts) (below : port.val < numIssue s i) :
      issueFull s port = false := by
    have takes := (accepted_iff hands port).mpr below
    simp only [accepted, decodedInstrAck, Bool.and_eq_true, Bool.not_eq_true'] at takes
    exact takes.1.2.2
  have dead {k : TransId cfg} (free : (s.mem k).issued = false) :
      InWindow s.issuePointer (cfg.nrSbEntries - xs.length) k :=
    (window.issued.dead_iff k).mp free
  rcases (by omega : numIssue s i = 0 ∨ numIssue s i = 1 ∨ numIssue s i = 2) with
    none | one | two
  · omega
  · have free := notFull ⟨0, by omega⟩ (by simp [one])
    rw [issueFull, if_pos rfl, Bool.and_eq_false_iff] at free
    have someFree : ∃ k, (s.mem k).issued = false := by
      rcases free with even | odd
      · obtain ⟨k, _, free⟩ := exists_free even
        exact ⟨k, free⟩
      · obtain ⟨k, _, free⟩ := exists_free odd
        exact ⟨k, free⟩
    obtain ⟨k, free⟩ := someFree
    obtain ⟨j, below, _⟩ := dead free
    omega
  · have free := notFull ⟨1, by omega⟩ (by simp [two])
    rw [issueFull, if_neg (by simp), Bool.or_eq_false_iff] at free
    obtain ⟨k, even, kFree⟩ := exists_free free.1
    obtain ⟨l, odd, lFree⟩ := exists_free free.2
    -- two free slots, since one is even and the other odd
    obtain ⟨j, jBelow, rfl⟩ := dead kFree
    obtain ⟨j', jBelow', rfl⟩ := dead lFree
    have apart : j ≠ j' := by
      rintro rfl
      omega
    omega

theorem Window.no_ack (window : Window cycles s head xs) (hands : Handshakes s i)
    (clear : cleared cycles = true) : numCommit i = 0 := by
  obtain ⟨empty, _⟩ := window.fresh clear
  by_contra some
  have positive : 0 < numCommit i := Nat.pos_of_ne_zero some
  have inside := Nat.lt_of_lt_of_le positive (numCommit_le i)
  have acked := (commitAck_iff hands ⟨0, inside⟩).mpr positive
  have issued := window.valid _ (hands.2.2.1 _ acked)
  obtain ⟨j, below, _⟩ := (window.issued.live_iff _).mp issued
  rw [empty] at below
  exact absurd below (Nat.not_lt_zero j)

/-- The acknowledged ports show the first instructions of the window. -/
theorem Window.pointer (window : Window cycles s head xs) (hands : Handshakes s i)
    {port : Fin cfg.nrCommitPorts} (below : port.val < numCommit i) :
    s.commitPointer port = slot head port.val := by
  cases clear : cleared cycles with
  | false => exact window.pointers clear port
  | true =>
      rw [window.no_ack hands clear] at below
      exact absurd below (Nat.not_lt_zero _)

theorem Window.inside (window : Window cycles s head xs) (hands : Handshakes s i)
    (ports : cfg.nrCommitPorts ≤ cfg.nrSbEntries) : numCommit i ≤ xs.length := by
  by_contra more
  have few := numCommit_le i
  have inside : xs.length < cfg.nrCommitPorts := by omega
  have below : (⟨xs.length, inside⟩ : Fin cfg.nrCommitPorts).val < numCommit i := by
    simp only
    omega
  have acked := (commitAck_iff hands ⟨xs.length, inside⟩).mpr below
  have issued := window.valid _ (hands.2.2.1 _ acked)
  rw [window.pointer hands below] at issued
  exact not_inWindow_slot (by omega) ((window.issued.live_iff _).mp issued)

theorem Window.committedFrom_iff (window : Window cycles s head xs) (hands : Handshakes s i)
    (k : TransId cfg) : committedFrom s i k = true ↔ InWindow head (numCommit i) k := by
  rw [committedFrom, decide_eq_true_iff]
  constructor
  · rintro ⟨port, acked, here⟩
    have below := (commitAck_iff hands port).mp acked
    exact ⟨port.val, below, (window.pointer hands below).symm.trans here⟩
  · rintro ⟨j, below, here⟩
    have inside := Nat.lt_of_lt_of_le below (numCommit_le i)
    exact ⟨⟨j, inside⟩, (commitAck_iff hands ⟨j, inside⟩).mpr below,
      (window.pointer hands below).trans here⟩

theorem accepts_length (s : State cfg) (i : Input cfg) :
    (accepts s i).length = numIssue s i := by
  rw [accepts, List.length_map]
  rfl

/-- The accepted instructions are those of the first ports. -/
theorem accepts_getElem (hands : Handshakes s i) {j : Nat} (below : j < (accepts s i).length)
    (inside : j < cfg.nrIssuePorts) :
    (accepts s i)[j] = kept (i.decodedInstr ⟨j, inside⟩) := by
  simp only [accepts, filter_finRange_eq_take (accepted_closed hands), List.getElem_map,
    List.getElem_take, List.getElem_finRange]
  rfl

theorem Window.leaves_eq (window : Window cycles s head xs) (hands : Handshakes s i)
    (ports : cfg.nrCommitPorts ≤ cfg.nrSbEntries) : leaves s i = xs.take (numCommit i) := by
  have count : numCommit i = (List.finRange cfg.nrCommitPorts).countP i.commitAck := by
    rw [List.countP_eq_length_filter]
    rfl
  have inside := window.inside hands ports
  have few := numCommit_le i
  rw [leaves, filter_finRange_eq_take (commitAck_closed hands), ← count]
  apply List.ext_getElem
  · simp only [List.length_map, List.length_take, List.length_finRange]
    omega
  · intro j below _
    simp only [List.length_map, List.length_take, List.length_finRange] at below
    have stored := window.entries.2 j (by omega)
    simp only [List.getElem_map, List.getElem_take, List.getElem_finRange]
    have here : s.commitPointer ⟨j, by omega⟩ = slot head j :=
      window.pointer hands (by simp only; omega)
    rw [← stored, ← here]
    rfl

/-- The slots of the accepted instructions hold them after the cycle. -/
theorem Window.accepts_hold (window : Window cycles s head xs) (hands : Handshakes s i)
    (ports : cfg.nrIssuePorts ≤ 2) (outside : ∀ k, InWindow s.issuePointer (numIssue s i) k →
      committedFrom s i k = false) (noFlush : i.flush = false) :
    Holds (fun k => kept ((next s i).mem k).sbe) s.issuePointer (accepts s i) := by
  have room := window.room hands ports
  refine ⟨by rw [accepts_length]; omega, fun j below => ?_⟩
  have count := below
  rw [accepts_length] at count
  have inside := Nat.lt_of_lt_of_le count (numIssue_le s i)
  have only (port' : Fin cfg.nrIssuePorts) (takes' : accepted s i port' = true)
      (here : issuePointer s port'.val = slot s.issuePointer j) : port' = ⟨j, inside⟩ := by
    have below' := (accepted_iff hands port').mp takes'
    have same : port'.val = j := slot_inj (by omega) (by omega) here
    exact Fin.ext same
  have here : issuePointer s (⟨j, inside⟩ : Fin cfg.nrIssuePorts).val =
      slot s.issuePointer j := rfl
  have takes := (accepted_iff hands ⟨j, inside⟩).mpr count
  change kept ((next s i).mem (slot s.issuePointer j)).sbe = _
  rw [next_kept s i _ (outside _ ⟨j, count, rfl⟩) noFlush,
    issueBlock_new s i s.mem _ takes here only, accepts_getElem hands below inside]
  rfl

theorem log_append (cycles : List (State cfg × Input cfg)) (now : State cfg × Input cfg) :
    log (cycles ++ [now]) = (log cycles).cycle now := by
  simp [log, List.foldl_append]

theorem cleared_append (cycles : List (State cfg × Input cfg)) (now : State cfg × Input cfg) :
    cleared (cycles ++ [now]) = now.2.flush := by
  simp [cleared]

theorem Window.flushed (window : Window cycles s head xs) (paired : Paired s i)
    (flush : i.flush = true) : Window (cycles ++ [(s, i)]) (next s i) 0 [] where
  issued := by
    have dead : (fun k => ((next s i).mem k).issued) = fun _ => false := by
      funext k
      rw [next_issued, flush]
      rfl
    have pointer : (next s i).issuePointer = 0 := by simp [next, issuePointerN, flush]
    rw [dead, pointer]
    exact .empty 0
  entries := .nil _ _
  valid := window.valid.next paired
  pointers notClear := by
    rw [cleared_append, flush] at notClear
    cases notClear
  fresh _ := ⟨rfl, fun port => by simp [next, commitPointerN, flush]⟩
  logged := by
    rw [log_append, Log.cycle, if_pos flush]
    rfl

/-- A cycle without a flush: the accepted instructions enter behind the window, the
acknowledged ones leave in front. -/
theorem Window.cycle (window : Window cycles s head xs) (hands : Handshakes s i)
    (paired : Paired s i) (issuePorts : cfg.nrIssuePorts ≤ 2)
    (commitPorts : cfg.nrCommitPorts ≤ cfg.nrSbEntries) (noFlush : i.flush = false) :
    Window (cycles ++ [(s, i)]) (next s i) (slot head (numCommit i))
      (xs.drop (numCommit i) ++ accepts s i) := by
  have room := window.room hands issuePorts
  have inside := window.inside hands commitPorts
  have length : (xs.drop (numCommit i) ++ accepts s i).length =
      xs.length + numIssue s i - numCommit i := by
    rw [List.length_append, List.length_drop, accepts_length]
    omega
  have outside (k : TransId cfg) (behind : InWindow s.issuePointer (numIssue s i) k) :
      committedFrom s i k = false := by
    rw [← Bool.not_eq_true, window.committedFrom_iff hands]
    rintro ⟨j, below, rfl⟩
    rw [window.issued.write_eq] at behind
    exact not_inWindow_both room ⟨j, by omega, rfl⟩ behind
  have stays (k : TransId cfg) : ((next s i).mem k).issued = true ↔
      ((s.mem k).issued = true ∨ InWindow s.issuePointer (numIssue s i) k) ∧
        ¬ InWindow head (numCommit i) k := by
    rw [next_issued, noFlush, Bool.not_false, Bool.true_and, Bool.and_eq_true, Bool.or_eq_true,
      issuedTo_iff hands, Bool.not_eq_true', ← Bool.not_eq_true, window.committedFrom_iff hands,
      or_comm, and_comm]
  have grown : Occupied (fun k => (s.mem k).issued || issuedTo s i k) head
      (slot s.issuePointer (numIssue s i)) (xs.length + numIssue s i) := by
    refine window.issued.pushMany room fun k => ?_
    rw [Bool.or_eq_true, issuedTo_iff hands]
  exact {
    issued := by
      rw [length]
      have pointer : (next s i).issuePointer = slot s.issuePointer (numIssue s i) := by
        simp [next, issuePointerN, noFlush, issuePointer, slot]
      rw [pointer]
      refine grown.popMany (by omega) fun k => ?_
      rw [stays, Bool.or_eq_true, issuedTo_iff hands]
    entries := by
      have old : Holds (fun k => kept ((next s i).mem k).sbe) (slot head (numCommit i))
          (xs.drop (numCommit i)) := by
        refine (window.entries.drop (numCommit i) inside).congr fun k here => ?_
        rw [List.length_drop] at here
        have notNew : issuedTo s i k = false := by
          rw [← Bool.not_eq_true, issuedTo_iff hands, window.issued.write_eq]
          intro behind
          have early : InWindow head (numCommit i + (xs.length - numCommit i)) k :=
            inWindow_add.mpr (.inr here)
          rw [Nat.add_sub_cancel' inside] at early
          exact not_inWindow_both room early behind
        have stayed : committedFrom s i k = false := by
          rw [← Bool.not_eq_true, window.committedFrom_iff hands]
          intro early
          exact not_inWindow_both (by omega) early here
        rw [next_kept s i k stayed noFlush, issueBlock_other s i s.mem k notNew]
      refine old.append ?_ ?_
      · rw [← List.length_append, length]
        omega
      · rw [List.length_drop, slot_add, Nat.add_sub_cancel' inside, ← window.issued.write_eq]
        exact window.accepts_hold hands issuePorts outside noFlush
    valid := window.valid.next paired
    pointers := by
      intro _ port
      have first : s.commitPointer ⟨0, port.pos⟩ = head := by
        cases clear : cleared cycles with
        | true => exact (window.fresh clear).2 _
        | false =>
            rw [window.pointers clear]
            exact slot_zero head
      simp [next, commitPointerN, noFlush, first, slot]
    fresh := by
      intro clear
      rw [cleared_append, noFlush] at clear
      cases clear
    logged := by
      rw [log_append, Log.cycle, if_neg (by rw [noFlush]; decide)]
      simp only
      rw [window.logged, window.leaves_eq hands commitPorts, List.append_assoc,
        List.append_assoc, ← List.append_assoc (xs.take _), List.take_append_drop] }

end Cycle

/-! ## Every run -/

theorem window_reset : Window [] (reset : State cfg) 0 [] where
  issued := .empty 0
  entries := .nil _ _
  valid k valid := by cases valid
  pointers notClear := by cases notClear
  fresh _ := ⟨rfl, fun _ => rfl⟩
  logged := rfl

theorem exists_window (issuePorts : cfg.nrIssuePorts ≤ 2)
    (commitPorts : cfg.nrCommitPorts ≤ cfg.nrSbEntries)
    {cycles : List (State cfg × Input cfg)} {s : State cfg}
    (run : ((windowMachine cfg).restrict fun _ s i => Paired s i).Run cycles s) :
    ∃ head xs, Window cycles s head xs := by
  refine run.invariant (fun cycles s => ∃ head xs, Window cycles s head xs)
    ⟨0, [], window_reset⟩ ?_
  rintro cycles s i _ ⟨head, xs, window⟩ ⟨hands, paired⟩
  cases flush : i.flush with
  | true => exact ⟨_, _, window.flushed paired flush⟩
  | false => exact ⟨_, _, window.cycle hands paired issuePorts commitPorts flush⟩

/-- In every run whose second halves find an issued entry in front of them: the issued
entries are a circular window, nothing issued is overwritten, and the instructions leave
in the order of their issue. -/
theorem scoreboard_window (issuePorts : cfg.nrIssuePorts = 1 ∨ cfg.nrIssuePorts = 2)
    (commitPorts : cfg.nrCommitPorts = 1 ∨ cfg.nrCommitPorts = 2) (bits : 0 < cfg.transIdBits)
    {cycles : List (State cfg × Input cfg)} {s : State cfg}
    (run : ((windowMachine cfg).restrict fun _ s i => Paired s i).Run cycles s) :
    ∃ head xs, Window cycles s head xs ∧ ∀ i, Handshakes s i →
      (∀ port, accepted s i port = true →
        (s.mem (issuePointer s port.val)).issued = false) ∧
      numCommit i ≤ xs.length ∧ leaves s i = xs.take (numCommit i) := by
  have issueFew : cfg.nrIssuePorts ≤ 2 := by omega
  have commitFew : cfg.nrCommitPorts ≤ cfg.nrSbEntries := by
    have two : 2 ^ 1 ≤ 2 ^ cfg.transIdBits := Nat.pow_le_pow_right (by omega) bits
    change cfg.nrCommitPorts ≤ 2 ^ cfg.transIdBits
    omega
  obtain ⟨head, xs, window⟩ := exists_window issueFew commitFew run
  refine ⟨head, xs, window, fun i hands => ⟨fun port takes => ?_,
    window.inside hands commitFew, window.leaves_eq hands commitFew⟩⟩
  have below := (accepted_iff hands port).mp takes
  have room := window.room hands issueFew
  exact (window.issued.dead_iff _).mpr ⟨port.val, by omega, rfl⟩

section Example

instance (s : State cfg) (i : Input cfg) : Decidable (Paired s i) :=
  inferInstanceAs (Decidable (∀ _, _))

instance (cycles : List (State cfg × Input cfg)) (s : State cfg) (i : Input cfg) :
    Decidable (((windowMachine cfg).restrict fun _ s i => Paired s i).allowed cycles s i) :=
  inferInstanceAs (Decidable (Handshakes s i ∧ Paired s i))

/-- Four entries, two issue and two commit ports. -/
def dualCfg : BackendCfg where
  xlen := 8
  vlen := 8
  transIdBits := 2
  nrIssuePorts := 2
  nrCommitPorts := 2
  nrWbPorts := 2
  fpPresent := false
  debugEn := false
  speculativeSb := true

/-- Two instructions are issued, written back together and committed together. -/
def issueCommit : List (Input dualCfg) :=
  [{ decodedInstr := fun port => { fu := .alu, rd := BitVec.ofNat 5 (port.val + 1) }
     decodedInstrValid := fun _ => true
     issueAck := fun _ => true },
    { wb := fun port => { wtValid := true, transId := Fin.ofNat 4 port.val } },
    { commitAck := fun _ => true }]

theorem scoreboard_window_issueCommit :
    let cycles := (windowMachine dualCfg).cyclesOf reset issueCommit
    let s := (windowMachine dualCfg).after reset issueCommit
    ∃ head xs, Window cycles s head xs ∧ ∀ i, Handshakes s i →
      (∀ port, accepted s i port = true →
        (s.mem (issuePointer s port.val)).issued = false) ∧
      numCommit i ≤ xs.length ∧ leaves s i = xs.take (numCommit i) :=
  scoreboard_window (.inr rfl) (.inr rfl) (by decide)
    (Clocked.Machine.run_of_accepts
      (m := (windowMachine dualCfg).restrict fun _ s i => Paired s i) issueCommit
      (by decide +kernel))

/-- After a flush both commit pointers are zero. -/
theorem commitPointer_not_successor :
    ¬ ∀ (cfg : BackendCfg) (cycles : List (State cfg × Input cfg)) (s : State cfg)
        (first second : Fin cfg.nrCommitPorts), cfg.nrIssuePorts = 2 → cfg.nrCommitPorts = 2 →
      0 < cfg.transIdBits → (windowMachine cfg).Run cycles s → first.val = 0 → second.val = 1 →
        s.commitPointer second = s.commitPointer first + 1 := by
  intro successor
  have run := Clocked.Machine.Run.reset (m := windowMachine dualCfg) |>.cycle
    (i := { flush := true }) (by unfold windowMachine Handshakes; decide +kernel)
  have equal := successor dualCfg _ _ (⟨0, by decide⟩ : Fin 2) (⟨1, by decide⟩ : Fin 2) rfl rfl
    (by decide) run rfl rfl
  exact absurd equal (by decide +kernel)

end Example

end Cva6.Scoreboard
