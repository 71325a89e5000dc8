import RiscvCores.Toooba.SplitLsq

/-!
# Wrong path loads

An entry can get a new load while the cache still owes the response of a load
that was squashed there.  Loads are told apart by how many of them took the entry
before; the ledger of an entry lists the loads that issued and are not answered,
whether their data come from the cache or were forwarded.  The run environment
answers each of them once, in any order and after any delay.
-/

set_option autoImplicit false

namespace Toooba.SplitLsq

open Toooba.ReorderBuffer (Data)

variable {c : LsqCfg}

/-! ## The ledger -/

/-- `loads` is also the number of the load that took the entry last. -/
structure SlotLedger where
  loads : Nat
  owed : List Nat
  squashed : Nat → Bool

namespace SlotLedger

def issue (g : SlotLedger) : SlotLedger := { g with owed := g.owed ++ [g.loads] }

def answer (load : Nat) (g : SlotLedger) : SlotLedger := { g with owed := g.owed.erase load }

def enq (g : SlotLedger) : SlotLedger := { g with loads := g.loads + 1 }

def squash (g : SlotLedger) : SlotLedger :=
  { g with squashed := fun load => load == g.loads || g.squashed load }

end SlotLedger

abbrev Ledger (c : LsqCfg) := c.LdQTag → SlotLedger

def Ledger.reset : Ledger c := fun _ => { loads := 0, owed := [], squashed := fun _ => false }

/-- The methods of a cycle, and which of the loads owed for the entry `respLd` answers. -/
structure Driven (c : LsqCfg) where
  input : Input c
  load : Nat := 0

section Ledger

variable (s : State c) (i : Driven c) (l : Ledger c)

def Ledger.issued : Ledger c :=
  match issueAnswer s i.input with
  | some (t, res) => if res.notStall then modify l t SlotLedger.issue else l
  | none => l

def Ledger.answered : Ledger c :=
  match i.input.respLd with
  | some (t, _) => modify (l.issued s i) t (SlotLedger.answer i.load)
  | none => l.issued s i

def Ledger.enqueued : Ledger c :=
  match i.input.enq with
  | some (.ld _) =>
    if (s.ld s.ldEnqP).valid then l.answered s i
    else modify (l.answered s i) s.ldEnqP SlotLedger.enq
  | _ => l.answered s i

def Ledger.next : Ledger c :=
  match i.input.incorrectSpec with
  | some x => fun t => if (s.ld t).valid && isLdNeedKill s x t then (l t).squash else l t
  | none => l.enqueued s i

end Ledger

/-- What the assertion of `updateAddr` demands of its callers. -/
structure Updatable (e : LdQEntry c) : Prop where
  valid : e.valid = true
  computed : e.computed = false
  executing : e.executing = false
  done : e.done = false
  killed : e.killed = none

/-- Only owed loads are answered, and addresses come once for each load. -/
structure Environment (s : State c) (l : Ledger c) (i : Driven c) : Prop where
  answers : ∀ t d, i.input.respLd = some (t, d) → i.load ∈ (l.issued s i t).owed
  updates : ∀ upd tag, i.input.updateAddr = some upd → upd.lsqTag = .ld tag →
    Updatable ((verifySt (dequeued s i.input)).ld tag)

def machine (powerUp : State c) : Clocked.Machine (State c × Ledger c) (Driven c) where
  reset := (reset powerUp, Ledger.reset)
  next now i := (next now.1 i.input, now.2.next now.1 i)
  allowed _ now i := i.input.incorrectSpec = none → Environment now.1 now.2 i

/-! ## What a slot waits for -/

/-- The waiting bit and the status bits of an entry against what is owed for it. -/
inductive Awaits (e : LdQEntry c) (g : SlotLedger) : Prop
  | nothing (quiet : e.waitWPResp = false)
      (idle : e.valid = true → e.executing = true → e.done = true) (owed : g.owed = [])
  | load (quiet : e.waitWPResp = false) (valid : e.valid = true)
      (executing : e.executing = true) (notDone : e.done = false) (owed : g.owed = [g.loads])
  | wrongPath (waits : e.waitWPResp = true) (stopped : e.valid = true → e.executing = false)
      (load : Nat) (squashed : g.squashed load = true) (owed : g.owed = [load])

structure SlotOk (e : LdQEntry c) (g : SlotLedger) : Prop where
  computed : e.valid = true → e.computed = true → e.fault = none
  executing : e.valid = true → e.executing = true →
    e.computed = true ∧ e.memFunc = .ld ∧ e.isMmio = false
  done : e.valid = true → e.done = true → e.executing = true
  alive : e.valid = true → g.squashed g.loads = false
  past : ∀ load, g.squashed load = true → load ≤ g.loads
  awaits : Awaits e g

/-- The fields the ledger is about are left alone. -/
structure Keeps (e e' : LdQEntry c) : Prop where
  valid : e'.valid = e.valid
  memFunc : e'.memFunc = e.memFunc
  isMmio : e'.isMmio = e.isMmio
  fault : e'.fault = e.fault
  computed : e'.computed = e.computed
  executing : e'.executing = e.executing
  done : e'.done = e.done
  waitWPResp : e'.waitWPResp = e.waitWPResp

theorem Keeps.refl (e : LdQEntry c) : Keeps e e := by constructor <;> rfl

theorem Keeps.trans {e e' e'' : LdQEntry c} (first : Keeps e e') (second : Keeps e' e'') :
    Keeps e e'' := by
  constructor
  · exact second.valid.trans first.valid
  · exact second.memFunc.trans first.memFunc
  · exact second.isMmio.trans first.isMmio
  · exact second.fault.trans first.fault
  · exact second.computed.trans first.computed
  · exact second.executing.trans first.executing
  · exact second.done.trans first.done
  · exact second.waitWPResp.trans first.waitWPResp

theorem Keeps.ite {e e' : LdQEntry c} (cond : Prop) [Decidable cond] (kept : Keeps e e') :
    Keeps e (if cond then e' else e) := by
  split
  · exact kept
  · exact .refl e

theorem Awaits.keeps {e e' : LdQEntry c} {g : SlotLedger} (kept : Keeps e e') (h : Awaits e g) :
    Awaits e' g := by
  cases h with
  | nothing quiet idle owed =>
      refine .nothing (kept.waitWPResp.trans quiet) ?_ owed
      rw [kept.valid, kept.executing, kept.done]
      exact idle
  | load quiet valid executing notDone owed =>
      exact .load (kept.waitWPResp.trans quiet) (kept.valid.trans valid)
        (kept.executing.trans executing) (kept.done.trans notDone) owed
  | wrongPath waits stopped load squashed owed =>
      refine .wrongPath (kept.waitWPResp.trans waits) ?_ load squashed owed
      rw [kept.valid, kept.executing]
      exact stopped

theorem SlotOk.keeps {e e' : LdQEntry c} {g : SlotLedger} (kept : Keeps e e') (ok : SlotOk e g) :
    SlotOk e' g := by
  constructor
  · rw [kept.valid, kept.computed, kept.fault]
    exact ok.computed
  · rw [kept.valid, kept.executing, kept.computed, kept.memFunc, kept.isMmio]
    exact ok.executing
  · rw [kept.valid, kept.done, kept.executing]
    exact ok.done
  · rw [kept.valid]
    exact ok.alive
  · exact ok.past
  · exact ok.awaits.keeps kept

/-! ## Methods that leave the ledger's fields alone -/

section Kept

variable (s : State c) (t : c.LdQTag)

theorem modify_self {size : Nat} {α : Type} (q : Fin size → α) (t : Fin size) (f : α → α) :
    modify q t f t = f (q t) := if_pos rfl

theorem modify_of_ne {size : Nat} {α : Type} (q : Fin size → α) {t i : Fin size} (f : α → α)
    (other : i ≠ t) : modify q t f i = q i := if_neg other

theorem modify_keeps (q : c.LdQTag → LdQEntry c) (tag : c.LdQTag) (f : LdQEntry c → LdQEntry c)
    (kept : ∀ e, Keeps e (f e)) : Keeps (q t) (modify q tag f t) :=
  .ite _ (kept _)

theorem verifySt_keeps : Keeps (s.ld t) ((verifySt s).ld t) := by
  unfold verifySt
  dsimp only
  split
  · apply Keeps.ite
    constructor <;> rfl
  · exact .refl _

theorem deqSt_keeps : Keeps (s.ld t) ((deqSt s).ld t) := by constructor <;> rfl

theorem wakeupLdStalledBySB_keeps (sbIdx : c.SBIndex) :
    Keeps (s.ld t) ((wakeupLdStalledBySB s sbIdx).ld t) := by
  apply Keeps.ite
  constructor <;> rfl

theorem setAtCommit_keeps (lsqTag : LdStQTag c) : Keeps (s.ld t) ((setAtCommit s lsqTag).ld t) := by
  cases lsqTag with
  | ld tag =>
      dsimp only [setAtCommit]
      apply modify_keeps
      intro e
      constructor <;> rfl
  | st tag => exact .refl _

theorem setAtCommits_keeps (i : Input c) : Keeps (s.ld t) ((setAtCommits i s).ld t) := by
  unfold setAtCommits
  induction List.finRange c.supSize generalizing s with
  | nil => exact .refl _
  | cons port ports ih =>
      rw [List.foldl_cons]
      cases called : i.setAtCommit port with
      | none => exact ih s
      | some lsqTag => exact (setAtCommit_keeps s t lsqTag).trans (ih _)

theorem dataUpdated_ld (i : Input c) : (dataUpdated i s).ld = s.ld := by
  unfold dataUpdated
  split <;> rfl

theorem correctSpeculation_keeps (mask : c.SpecBits) :
    Keeps (s.ld t) ((correctSpeculation s mask).ld t) := by constructor <;> rfl

theorem wokenBySB_keeps (i : Input c) : Keeps ((issued s i).ld t) ((wokenBySB s i).ld t) := by
  unfold wokenBySB
  split
  · exact wakeupLdStalledBySB_keeps _ t _
  · exact .refl _

theorem storesDequeued_keeps (i : Input c) :
    Keeps ((issued s i).ld t) ((storesDequeued s i).ld t) := by
  unfold storesDequeued
  split
  · exact (wokenBySB_keeps s t i).trans (deqSt_keeps _ t)
  · exact wokenBySB_keeps s t i

theorem beforeResp_keeps (i : Input c) : Keeps ((issued s i).ld t) ((beforeResp s i).ld t) :=
  (storesDequeued_keeps s t i).trans (setAtCommits_keeps _ t i)

/-- A new address writes its own entry; the younger load it kills keeps its status. -/
theorem updateAddr_keeps (upd : UpdateAddr c) :
    Keeps ((writeAddr s upd).ld t) ((updateAddr s upd).ld t) := by
  unfold updateAddr
  split
  · exact .refl _
  · dsimp only
    apply modify_keeps
    intro e
    constructor <;> rfl

theorem writeAddr_of_ne (upd : UpdateAddr c) (other : upd.lsqTag ≠ .ld t) :
    (writeAddr s upd).ld t = s.ld t := by
  unfold writeAddr
  split
  case h_1 tag lsqTag =>
      refine modify_of_ne _ _ ?_
      intro same
      exact other (by rw [lsqTag, same])
  case h_2 => rfl

end Kept

/-! ## What the other methods do to an entry -/

section Entry

variable {e : LdQEntry c} {g : SlotLedger}

theorem SlotOk.remove (ok : SlotOk e g)
    (answered : e.valid = true → e.executing = true → e.done = true) :
    SlotOk { e with valid := false } g where
  computed impossible := nomatch impossible
  executing impossible := nomatch impossible
  done impossible := nomatch impossible
  alive impossible := nomatch impossible
  past := ok.past
  awaits := by
    cases ok.awaits with
    | nothing quiet idle owed => exact .nothing quiet (fun impossible => nomatch impossible) owed
    | load quiet valid executing notDone owed =>
        have isDone := answered valid executing
        rw [notDone] at isDone
        contradiction
    | wrongPath waits stopped load squashed owed =>
        exact .wrongPath waits (fun impossible => nomatch impossible) load squashed owed

theorem SlotOk.writeAddr (ok : SlotOk e g) (updatable : Updatable e) (upd : UpdateAddr c) :
    SlotOk (writeAddrLd upd e) g where
  computed _ isComputed := Option.isNone_iff_eq_none.mp isComputed
  executing _ isExecuting := by
    rw [show (writeAddrLd upd e).executing = e.executing from rfl, updatable.executing]
      at isExecuting
    contradiction
  done _ isDone := by
    rw [show (writeAddrLd upd e).done = e.done from rfl, updatable.done] at isDone
    contradiction
  alive := ok.alive
  past := ok.past
  awaits := by
    cases ok.awaits with
    | nothing quiet idle owed => exact .nothing quiet idle owed
    | load quiet valid executing notDone owed =>
        rw [updatable.executing] at executing
        contradiction
    | wrongPath waits stopped load squashed owed =>
        exact .wrongPath waits stopped load squashed owed

/-- The conditions of `findIssue`, less the dependencies. -/
structure Issuable (e : LdQEntry c) : Prop where
  valid : e.valid = true
  memFunc : e.memFunc = .ld
  computed : e.computed = true
  executing : e.executing = false
  waitWPResp : e.waitWPResp = false
  isMmio : e.isMmio = false

theorem Issuable.keeps {e' : LdQEntry c} (kept : Keeps e e') (h : Issuable e) : Issuable e' where
  valid := kept.valid.trans h.valid
  memFunc := kept.memFunc.trans h.memFunc
  computed := kept.computed.trans h.computed
  executing := kept.executing.trans h.executing
  waitWPResp := kept.waitWPResp.trans h.waitWPResp
  isMmio := kept.isMmio.trans h.isMmio

theorem SlotOk.owed_of_issuable (ok : SlotOk e g) (issuable : Issuable e) : g.owed = [] := by
  cases ok.awaits with
  | nothing quiet idle owed => exact owed
  | load quiet valid executing notDone owed =>
      rw [issuable.executing] at executing
      contradiction
  | wrongPath waits stopped load squashed owed =>
      rw [issuable.waitWPResp] at waits
      contradiction

theorem SlotOk.issue (ok : SlotOk e g) (issuable : Issuable e) :
    SlotOk { e with executing := true } g.issue where
  computed := ok.computed
  executing _ _ := ⟨issuable.computed, issuable.memFunc, issuable.isMmio⟩
  done _ _ := rfl
  alive := ok.alive
  past := ok.past
  awaits := by
    have notDone : e.done = false := by
      by_contra isDone
      have executing := ok.done issuable.valid (by simpa using isDone)
      rw [issuable.executing] at executing
      contradiction
    have owed : g.issue.owed = [g.loads] := by
      rw [SlotLedger.issue, ok.owed_of_issuable issuable]
      rfl
    exact .load issuable.waitWPResp issuable.valid rfl notDone owed

/-- What a response finds: a squashed load, or the load in the entry. -/
theorem SlotOk.answers (ok : SlotOk e g) {load : Nat} (isOwed : load ∈ g.owed) :
    (e.waitWPResp = true ∧ g.squashed load = true ∧ g.owed = [load] ∧
        (e.valid = true → e.executing = false)) ∨
      (e.waitWPResp = false ∧ g.squashed load = false ∧ g.owed = [load] ∧ load = g.loads ∧
        e.valid = true ∧ e.executing = true ∧ e.done = false) := by
  cases ok.awaits with
  | nothing quiet idle owed =>
      rw [owed] at isOwed
      contradiction
  | load quiet valid executing notDone owed =>
      rw [owed] at isOwed
      obtain rfl := List.mem_singleton.mp isOwed
      exact .inr ⟨quiet, ok.alive valid, owed, rfl, valid, executing, notDone⟩
  | wrongPath waits stopped other squashed owed =>
      rw [owed] at isOwed
      obtain rfl := List.mem_singleton.mp isOwed
      exact .inl ⟨waits, squashed, owed, stopped⟩

/-- What `respLd` makes of the entry. -/
def respondedEntry (e : LdQEntry c) : LdQEntry c :=
  if e.waitWPResp then { e with waitWPResp := false } else { e with done := true }

theorem SlotOk.answer (ok : SlotOk e g) {load : Nat} (isOwed : load ∈ g.owed) :
    SlotOk (respondedEntry e) (g.answer load) := by
  have cleared : g.owed = [load] → (g.answer load).owed = [] := by
    intro owed
    rw [SlotLedger.answer, owed]
    simp
  unfold respondedEntry
  rcases ok.answers isOwed with ⟨waits, squashed, owed, stopped⟩ |
    ⟨quiet, squashed, owed, current, valid, executing, notDone⟩
  · rw [if_pos waits]
    refine ⟨ok.computed, ok.executing, ok.done, ok.alive, ok.past, ?_⟩
    refine .nothing rfl ?_ (cleared owed)
    intro valid executing
    rw [show e.executing = false from stopped valid] at executing
    contradiction
  · rw [if_neg (by rw [quiet]; exact Bool.false_ne_true)]
    refine ⟨ok.computed, ok.executing, fun _ _ => executing, ok.alive, ok.past, ?_⟩
    exact .nothing quiet (fun _ _ => rfl) (cleared owed)

/-- A new load in an entry that still waits starts with the waiting bit set. -/
theorem SlotOk.enq {e' : LdQEntry c} (ok : SlotOk e g) (free : e.valid = false)
    (waitWPResp : e'.waitWPResp = e.waitWPResp) (computed : e'.computed = false)
    (executing : e'.executing = false) (done : e'.done = false) : SlotOk e' g.enq where
  computed _ isComputed := by
    rw [computed] at isComputed
    contradiction
  executing _ isExecuting := by
    rw [executing] at isExecuting
    contradiction
  done _ isDone := by
    rw [done] at isDone
    contradiction
  alive _ := by
    by_contra isSquashed
    have squashed : g.squashed (g.loads + 1) = true := Bool.eq_true_of_not_eq_false isSquashed
    have bound := ok.past (g.loads + 1) squashed
    omega
  past load squashed := Nat.le_succ_of_le (ok.past load squashed)
  awaits := by
    cases ok.awaits with
    | nothing quiet idle owed =>
        refine .nothing (waitWPResp.trans quiet) ?_ owed
        intro _ isExecuting
        rw [executing] at isExecuting
        contradiction
    | load quiet valid _ notDone owed =>
        rw [free] at valid
        contradiction
    | wrongPath waits stopped load squashed owed =>
        exact .wrongPath (waitWPResp.trans waits) (fun _ => executing) load squashed owed

/-- The filter is set exactly for a load that issued and has no answer. -/
theorem SlotOk.squash (ok : SlotOk e g) (valid : e.valid = true) :
    SlotOk (killLd e) g.squash where
  computed impossible := nomatch impossible
  executing impossible := nomatch impossible
  done impossible := nomatch impossible
  alive impossible := nomatch impossible
  past load squashed := by
    rcases Bool.or_eq_true_iff.mp squashed with last | earlier
    · exact (beq_iff_eq.mp last).le
    · exact ok.past load earlier
  awaits := by
    cases ok.awaits with
    | nothing quiet idle owed =>
        refine .nothing ?_ (fun impossible => nomatch impossible) owed
        cases executing : e.executing with
        | false => simp [killLd, quiet, executing]
        | true => simp [killLd, quiet, executing, idle valid executing]
    | load quiet _ executing notDone owed =>
        refine .wrongPath ?_ (fun impossible => nomatch impossible) g.loads ?_ owed
        · simp [killLd, valid, executing, notDone]
        · simp [SlotLedger.squash]
    | wrongPath waits stopped load squashed owed =>
        refine .wrongPath ?_ (fun impossible => nomatch impossible) load ?_ owed
        · simp [killLd, waits]
        · simp [SlotLedger.squash, squashed]

theorem killLd_keeps (free : e.valid = false) : Keeps e (killLd e) := by
  constructor
  case valid => exact free.symm
  case waitWPResp => simp [killLd, free]
  all_goals rfl

end Entry

/-! ## The methods on the queue -/

section Queue

variable {s : State c} {l : Ledger c}

def QueueOk (s : State c) (l : Ledger c) : Prop := ∀ t, SlotOk (s.ld t) (l t)

theorem QueueOk.keeps {s' : State c} (kept : ∀ t, Keeps (s.ld t) (s'.ld t)) (ok : QueueOk s l) :
    QueueOk s' l := fun t => (ok t).keeps (kept t)

/-- A load leaves the queue with a fault or, if it ever issues, with its result. -/
theorem leaves_of_deqLdGuard (guard : deqLdGuard s = true) :
    (s.ld s.ldDeqP).valid = true ∧ ((s.ld s.ldDeqP).fault.isSome = true ∨
      ((s.ld s.ldDeqP).memFunc = .ld → (s.ld s.ldDeqP).isMmio = false →
        (s.ld s.ldDeqP).done = true)) := by
  simp only [deqLdGuard, Bool.and_eq_true, Bool.or_eq_true] at guard
  obtain ⟨valid, faulty | finished⟩ := guard
  · exact ⟨valid, .inl faulty⟩
  · refine ⟨valid, .inr ?_⟩
    intro memFunc isMmio
    rw [if_pos ⟨decide_eq_true memFunc, by rw [isMmio]; rfl⟩] at finished
    exact (Bool.and_eq_true_iff.mp finished).1

theorem answered_of_deqLdGuard (ok : QueueOk s l) (guard : deqLdGuard s = true)
    (executing : (s.ld s.ldDeqP).executing = true) : (s.ld s.ldDeqP).done = true := by
  obtain ⟨valid, faulty | finished⟩ := leaves_of_deqLdGuard guard
  · have fault := (ok s.ldDeqP).computed valid ((ok s.ldDeqP).executing valid executing).1
    rw [fault] at faulty
    contradiction
  · obtain ⟨-, memFunc, isMmio⟩ := (ok s.ldDeqP).executing valid executing
    exact finished memFunc isMmio

theorem deqLd_keeps (t : c.LdQTag) :
    Keeps (modify s.ld s.ldDeqP (fun e => { e with valid := false }) t) ((deqLd s).ld t) := by
  apply Keeps.ite
  constructor <;> rfl

theorem dequeued_ok (i : Input c) (ok : QueueOk s l) : QueueOk (dequeued s i) l := by
  intro t
  unfold dequeued
  split
  case isFalse => exact ok t
  case isTrue called =>
      obtain ⟨-, guard⟩ := Bool.and_eq_true_iff.mp called
      refine SlotOk.keeps (deqLd_keeps t) ?_
      rcases eq_or_ne t s.ldDeqP with rfl | other
      · rw [modify_self]
        exact (ok _).remove fun _ executing => answered_of_deqLdGuard ok guard executing
      · rw [modify_of_ne _ _ other]
        exact ok t

/-- The load found by the issue search is not the one that leaves the queue. -/
theorem dequeued_keeps (i : Input c) (ok : QueueOk s l) {t : c.LdQTag}
    (issuable : Issuable (s.ld t)) : Keeps (s.ld t) ((dequeued s i).ld t) := by
  unfold dequeued
  split
  case isFalse => exact .refl _
  case isTrue called =>
      obtain ⟨-, guard⟩ := Bool.and_eq_true_iff.mp called
      have other : t ≠ s.ldDeqP := by
        rintro rfl
        obtain ⟨valid, faulty | finished⟩ := leaves_of_deqLdGuard guard
        · rw [(ok _).computed valid issuable.computed] at faulty
          contradiction
        · have executing := (ok _).done valid (finished issuable.memFunc issuable.isMmio)
          rw [issuable.executing] at executing
          contradiction
      have kept := deqLd_keeps (s := s) t
      rwa [modify_of_ne _ _ other] at kept

theorem updateAddr_ok (upd : UpdateAddr c) (ok : QueueOk s l)
    (updatable : ∀ tag, upd.lsqTag = .ld tag → Updatable (s.ld tag)) :
    QueueOk (updateAddr s upd) l := by
  intro t
  refine SlotOk.keeps (updateAddr_keeps s t upd) ?_
  by_cases own : upd.lsqTag = .ld t
  · have written : (writeAddr s upd).ld t = writeAddrLd upd (s.ld t) := by
      simp only [writeAddr, own, modify_self]
    rw [written]
    exact (ok t).writeAddr (updatable t own) upd
  · rw [writeAddr_of_ne s t upd own]
    exact ok t

theorem updated_ok {i : Driven c} (ok : QueueOk s l) (environment : Environment s l i) :
    QueueOk (updated s i.input) l := by
  have verified : QueueOk (verifySt (dequeued s i.input)) l :=
    (dequeued_ok i.input ok).keeps fun t => verifySt_keeps _ t
  unfold updated
  split
  case h_1 upd called =>
      exact updateAddr_ok upd verified fun tag own => environment.updates upd tag called own
  case h_2 => exact verified

end Queue

/-! ## Issuing -/

section Issue

variable {s : State c} {l : Ledger c}

theorem findOldest_holds {size : Nat} {enqP t : Fin size} {pred : Fin size → Bool}
    (found : findOldest enqP pred = some t) : pred t = true :=
  (List.mem_filter.mp (List.argmin_mem found)).2

theorem issuable_of_findIssue {info : LSQIssueLdInfo c} (found : findIssue s = some info) :
    Issuable (s.ld info.tag) := by
  obtain ⟨tag, oldest, rfl⟩ := Option.map_eq_some_iff.mp found
  have can := findOldest_holds oldest
  simp only [canIssue, Bool.and_eq_true, Bool.not_eq_true', decide_eq_true_eq] at can
  obtain ⟨⟨⟨⟨⟨⟨⟨⟨⟨valid, memFunc⟩, computed⟩, executing⟩, -⟩, -⟩, -⟩, -⟩, waits⟩, isMmio⟩ := can
  exact ⟨valid, memFunc, computed, executing, waits, isMmio⟩

theorem updateAddr_keeps_issuable (upd : UpdateAddr c) {t : c.LdQTag}
    (issuable : Issuable (s.ld t))
    (updatable : ∀ tag, upd.lsqTag = .ld tag → Updatable (s.ld tag)) :
    Issuable ((updateAddr s upd).ld t) := by
  have other : upd.lsqTag ≠ .ld t := by
    intro own
    have computed := (updatable t own).computed
    rw [issuable.computed] at computed
    contradiction
  refine Issuable.keeps (updateAddr_keeps s t upd) ?_
  rw [writeAddr_of_ne s t upd other]
  exact issuable

/-- A load with a new address that `doFinishMem` hands on. -/
theorem issuable_of_update {earlier : State c} (upd : UpdateAddr c) {info : LSQIssueLdInfo c}
    (handed : issueFromUpdate earlier upd = some info)
    (kept : Keeps (earlier.ld info.tag) (s.ld info.tag))
    (updatable : ∀ tag, upd.lsqTag = .ld tag → Updatable (s.ld tag)) :
    Issuable ((updateAddr s upd).ld info.tag) := by
  unfold issueFromUpdate at handed
  split at handed
  case h_2 => contradiction
  case h_1 tag own =>
      split at handed
      case isFalse => contradiction
      case isTrue ready =>
          simp only [Bool.and_eq_true, Bool.not_eq_true', decide_eq_true_eq,
            Option.isNone_iff_eq_none] at ready
          obtain ⟨⟨⟨memFunc, isMmio⟩, fault⟩, waits⟩ := ready
          obtain rfl := Option.some.inj handed
          have written : (writeAddr s upd).ld tag = writeAddrLd upd (s.ld tag) := by
            simp only [writeAddr, own, modify_self]
          refine Issuable.keeps (updateAddr_keeps s tag upd) ?_
          rw [written]
          have fresh := updatable tag own
          refine ⟨fresh.valid, kept.memFunc.trans memFunc, ?_, fresh.executing,
            kept.waitWPResp.trans waits, isMmio⟩
          exact Option.isNone_iff_eq_none.mpr fault

theorem issuable_of_issueInfo {i : Driven c} {info : LSQIssueLdInfo c} {sbRes : SBSearchRes c}
    (ok : QueueOk s l) (environment : Environment s l i)
    (called : issueInfo s i.input = some (info, sbRes)) :
    Issuable ((updated s i.input).ld info.tag) := by
  have updatable := environment.updates
  unfold issueInfo at called
  split at called
  case h_1 res fromQ =>
      obtain ⟨found, isFound, same⟩ := Option.map_eq_some_iff.mp called
      obtain ⟨rfl, rfl⟩ := Prod.mk.inj same
      have issuable := issuable_of_findIssue isFound
      have verified : Issuable ((verifySt (dequeued s i.input)).ld found.tag) :=
        (issuable.keeps (dequeued_keeps i.input ok issuable)).keeps (verifySt_keeps _ _)
      unfold updated
      split
      case h_1 upd update =>
          exact updateAddr_keeps_issuable upd verified fun tag own => updatable upd tag update own
      case h_2 => exact verified
  case h_2 res fromUpdate =>
      obtain ⟨found, isFound, same⟩ := Option.map_eq_some_iff.mp called
      obtain ⟨rfl, rfl⟩ := Prod.mk.inj same
      obtain ⟨upd, update, handed⟩ := Option.bind_eq_some_iff.mp isFound
      simp only [updated, update]
      exact issuable_of_update upd handed (verifySt_keeps _ _)
        fun tag own => updatable upd tag update own
  case h_3 => contradiction

variable (s) (info : LSQIssueLdInfo c) (sbRes : SBSearchRes c) (e : LdQEntry c)

theorem issuedEntry_started (started : (issueResult s info sbRes).notStall = true) :
    Keeps { e with executing := true } (issuedEntry s info sbRes e) := by
  unfold issuedEntry
  split
  case h_1 stalled _ => rw [stalled] at started; contradiction
  case h_2 stalled _ => rw [stalled] at started; contradiction
  case h_3 stalled _ => rw [stalled] at started; contradiction
  all_goals constructor <;> rfl

theorem issuedEntry_stalled (stalled : (issueResult s info sbRes).notStall = false) :
    Keeps e (issuedEntry s info sbRes e) := by
  unfold issuedEntry
  cases result : issueResult s info sbRes with
  | toCache => rw [result] at stalled; contradiction
  | forward res => rw [result] at stalled; contradiction
  | stall cause =>
      cases issueMatch s info with
      | ldQ tag =>
          dsimp only
          split <;> constructor <;> rfl
      | stQ tag => constructor <;> rfl
      | nothing => constructor <;> rfl

/-- Waking the loads that waited for this issue changes nothing else. -/
theorem issueLd_keeps (t : c.LdQTag) :
    Keeps (modify s.ld info.tag (issuedEntry s info sbRes) t) ((issueLd s info sbRes).ld t) := by
  unfold issueLd
  dsimp only
  split
  · apply Keeps.ite
    constructor <;> rfl
  · exact .refl _

variable {s}

theorem issueLd_ok (ok : QueueOk s l) (issuable : Issuable (s.ld info.tag)) :
    QueueOk (issueLd s info sbRes)
      (if (issueResult s info sbRes).notStall then modify l info.tag SlotLedger.issue else l) := by
  intro t
  refine SlotOk.keeps (issueLd_keeps s info sbRes t) ?_
  rcases eq_or_ne t info.tag with rfl | other
  · rw [modify_self]
    cases started : (issueResult s info sbRes).notStall with
    | true =>
        rw [if_pos rfl, modify_self]
        exact ((ok _).issue issuable).keeps (issuedEntry_started s info sbRes _ started)
    | false => exact (ok _).keeps (issuedEntry_stalled s info sbRes _ started)
  · rw [modify_of_ne _ _ other]
    split
    · rw [modify_of_ne _ _ other]
      exact ok t
    · exact ok t

theorem issued_ok {i : Driven c} (ok : QueueOk s l) (environment : Environment s l i) :
    QueueOk (issued s i.input) (l.issued s i) := by
  unfold issued Ledger.issued issueAnswer
  cases called : issueInfo s i.input with
  | none => exact updated_ok ok environment
  | some call =>
      exact issueLd_ok call.1 call.2 (updated_ok ok environment)
        (issuable_of_issueInfo ok environment called)

end Issue

/-! ## A cycle -/

section Cycle

variable {s : State c} {l : Ledger c}

theorem beforeResp_ok {i : Driven c} (ok : QueueOk s l) (environment : Environment s l i) :
    QueueOk (beforeResp s i.input) (l.issued s i) :=
  (issued_ok ok environment).keeps fun t => beforeResp_keeps s t i.input

theorem responded_ok {i : Driven c} (ok : QueueOk s l) (environment : Environment s l i) :
    QueueOk (responded s i.input) (l.answered s i) := by
  have before := beforeResp_ok ok environment
  unfold responded Ledger.answered
  cases called : i.input.respLd with
  | none => exact before
  | some resp =>
      obtain ⟨t, data⟩ := resp
      intro other
      change SlotOk (modify (beforeResp s i.input).ld t respondedEntry other)
        (modify (l.issued s i) t (SlotLedger.answer i.load) other)
      rcases eq_or_ne other t with rfl | elsewhere
      · rw [modify_self, modify_self]
        exact (before _).answer (environment.answers _ data called)
      · rw [modify_of_ne _ _ elsewhere, modify_of_ne _ _ elsewhere]
        exact before other

/-- The methods before the enqueues put nothing into the queue. -/
structure Drains (s s' : State c) : Prop where
  ldEnqP : s'.ldEnqP = s.ldEnqP
  valid : ∀ t, (s.ld t).valid = false → (s'.ld t).valid = false

theorem Drains.refl (s : State c) : Drains s s := ⟨rfl, fun _ free => free⟩

theorem Drains.trans {s s' s'' : State c} (first : Drains s s') (second : Drains s' s'') :
    Drains s s'' :=
  ⟨second.ldEnqP.trans first.ldEnqP, fun t free => second.valid t (first.valid t free)⟩

theorem Drains.of_keeps {s s' : State c} (ldEnqP : s'.ldEnqP = s.ldEnqP)
    (kept : ∀ t, Keeps (s.ld t) (s'.ld t)) : Drains s s' :=
  ⟨ldEnqP, fun t free => (kept t).valid.trans free⟩

theorem modify_valid (q : c.LdQTag → LdQEntry c) (tag t : c.LdQTag)
    {f : LdQEntry c → LdQEntry c} (same : ∀ e, e.valid = false → (f e).valid = false)
    (free : (q t).valid = false) : (modify q tag f t).valid = false := by
  unfold modify
  split
  · exact same _ free
  · exact free

theorem dequeued_drains (s : State c) (i : Input c) : Drains s (dequeued s i) := by
  unfold dequeued
  split
  · refine ⟨rfl, ?_⟩
    intro t free
    rw [(deqLd_keeps t).valid]
    exact modify_valid s.ld s.ldDeqP t (fun _ _ => rfl) free
  · exact .refl s

theorem verifySt_drains (s : State c) : Drains s (verifySt s) := by
  refine .of_keeps ?_ (verifySt_keeps s)
  unfold verifySt
  dsimp only
  split <;> rfl

theorem updateAddr_drains (s : State c) (upd : UpdateAddr c) : Drains s (updateAddr s upd) := by
  have written : Drains s (writeAddr s upd) := by
    unfold writeAddr
    split
    · exact ⟨rfl, fun t free => modify_valid s.ld _ t (fun _ free => free) free⟩
    · exact ⟨rfl, fun _ free => free⟩
  refine written.trans (.of_keeps ?_ fun t => updateAddr_keeps s t upd)
  unfold updateAddr
  split <;> rfl

theorem updated_drains (s : State c) (i : Input c) : Drains s (updated s i) := by
  have verified := (dequeued_drains s i).trans (verifySt_drains _)
  unfold updated
  split
  · exact verified.trans (updateAddr_drains _ _)
  · exact verified

theorem issueLd_drains (s : State c) (info : LSQIssueLdInfo c) (sbRes : SBSearchRes c) :
    Drains s (issueLd s info sbRes) := by
  refine ⟨?_, ?_⟩
  · unfold issueLd
    dsimp only
    split <;> rfl
  · intro t free
    rw [(issueLd_keeps s info sbRes t).valid]
    refine modify_valid s.ld info.tag t ?_ free
    intro e idle
    cases started : (issueResult s info sbRes).notStall with
    | true => exact (issuedEntry_started s info sbRes e started).valid.trans idle
    | false => exact (issuedEntry_stalled s info sbRes e started).valid.trans idle

theorem setAtCommits_ldEnqP (s : State c) (i : Input c) :
    (setAtCommits i s).ldEnqP = s.ldEnqP := by
  unfold setAtCommits
  induction List.finRange c.supSize generalizing s with
  | nil => rfl
  | cons port ports ih =>
      rw [List.foldl_cons, ih]
      split
      · unfold setAtCommit
        split <;> rfl
      · rfl

theorem beforeResp_drains (s : State c) (i : Input c) : Drains s (beforeResp s i) := by
  have issuedDrains : Drains s (issued s i) := by
    unfold issued
    split
    · exact (updated_drains s i).trans (issueLd_drains _ _ _)
    · exact updated_drains s i
  refine issuedDrains.trans (.of_keeps ?_ fun t => beforeResp_keeps s t i)
  have woken : (wokenBySB s i).ldEnqP = (issued s i).ldEnqP := by
    unfold wokenBySB
    split <;> rfl
  rw [beforeResp, setAtCommits_ldEnqP, ← woken]
  unfold storesDequeued
  split <;> rfl

theorem responded_drains (s : State c) (i : Input c) : Drains s (responded s i) := by
  refine (beforeResp_drains s i).trans ?_
  unfold responded
  split
  · refine ⟨rfl, fun t free => modify_valid _ _ t ?_ free⟩
    intro e idle
    split <;> exact idle
  · exact .refl _

theorem enqueued_ok {i : Driven c} (ok : QueueOk s l) (environment : Environment s l i) :
    QueueOk (enqueued s i.input (dataUpdated i.input (responded s i.input)))
      (l.enqueued s i) := by
  have written : QueueOk (dataUpdated i.input (responded s i.input)) (l.answered s i) := by
    intro t
    rw [dataUpdated_ld]
    exact responded_ok ok environment t
  have drains := responded_drains s i.input
  have ldEnqP : (dataUpdated i.input (responded s i.input)).ldEnqP = s.ldEnqP := by
    rw [← drains.ldEnqP]
    unfold dataUpdated
    split <;> rfl
  unfold enqueued Ledger.enqueued
  cases called : i.input.enq with
  | none => exact written
  | some enq =>
      cases enq with
      | st req =>
          dsimp only
          split
          · exact written
          · exact written
      | ld req =>
          dsimp only
          cases free : (s.ld s.ldEnqP).valid with
          | true => exact written
          | false =>
              intro t
              rcases eq_or_ne t s.ldEnqP with rfl | other
              · have slot := written s.ldEnqP
                have empty := drains.valid _ free
                rw [← dataUpdated_ld _ i.input] at empty
                simp only [Bool.false_eq_true, if_false, enqLd, ldEnqP, modify_self]
                exact slot.enq empty rfl rfl rfl rfl
              · simp only [Bool.false_eq_true, if_false, enqLd, ldEnqP]
                rw [modify_of_ne _ _ other, modify_of_ne _ _ other]
                exact written t

theorem incorrectSpeculation_ok (x : IncorrectSpec c) (ok : QueueOk s l) :
    QueueOk (incorrectSpeculation s x) fun t =>
      if (s.ld t).valid && isLdNeedKill s x t then (l t).squash else l t := by
  intro t
  change SlotOk (if isLdNeedKill s x t then killLd (s.ld t) else s.ld t)
    (if (s.ld t).valid && isLdNeedKill s x t then (l t).squash else l t)
  cases kill : isLdNeedKill s x t with
  | false =>
      rw [Bool.and_false]
      exact ok t
  | true =>
      rw [Bool.and_true, if_pos rfl]
      cases valid : (s.ld t).valid with
      | true => exact (ok t).squash valid
      | false => exact (ok t).keeps (killLd_keeps valid)

theorem next_ok {i : Driven c} (ok : QueueOk s l)
    (environment : i.input.incorrectSpec = none → Environment s l i) :
    QueueOk (next s i.input) (l.next s i) := by
  have settled : QueueOk (match i.input.incorrectSpec with
      | some x => dataUpdated i.input (setAtCommits i.input (incorrectSpeculation s x))
      | none => enqueued s i.input (dataUpdated i.input (responded s i.input))) (l.next s i) := by
    unfold Ledger.next
    cases called : i.input.incorrectSpec with
    | none => exact enqueued_ok ok (environment called)
    | some x =>
        intro t
        rw [dataUpdated_ld]
        exact ((incorrectSpeculation_ok x ok).keeps fun t => setAtCommits_keeps _ t i.input) t
  unfold next
  dsimp only
  split
  · exact settled.keeps fun t => correctSpeculation_keeps _ t _
  · exact settled

theorem reset_ok (powerUp : State c) : QueueOk (reset powerUp) Ledger.reset := by
  intro t
  refine ⟨?_, ?_, ?_, ?_, ?_, .nothing rfl ?_ rfl⟩
  · intro impossible
    contradiction
  · intro impossible
    contradiction
  · intro impossible
    contradiction
  · intro impossible
    contradiction
  · intro load impossible
    contradiction
  · intro impossible
    contradiction

theorem queueOk_of_run {powerUp : State c} {cycles : List ((State c × Ledger c) × Driven c)}
    {now : State c × Ledger c} (run : (machine powerUp).Run cycles now) :
    QueueOk now.1 now.2 := by
  induction run with
  | reset => exact reset_ok powerUp
  | cycle run allowed ih => exact next_ok ih allowed

end Cycle

/-! ## Responses and wrong paths -/

section Runs

variable (s : State c) (l : Ledger c) (i : Driven c) (t : c.LdQTag) (d : Data)

/-- The response is that of a squashed load and only ends the wait for it. -/
structure Dropped : Prop where
  squashed : (l t).squashed i.load = true
  wrongPath : (respLdResult (beforeResp s i.input) t d).wrongPath = true
  dst : (respLdResult (beforeResp s i.input) t d).dst = none
  after : (responded s i.input).ld t = { (beforeResp s i.input).ld t with waitWPResp := false }

/-- The response is that of the load in the entry, which gets its result. -/
structure Delivered : Prop where
  squashed : (l t).squashed i.load = false
  current : i.load = (l t).loads
  valid : ((beforeResp s i.input).ld t).valid = true
  executing : ((beforeResp s i.input).ld t).executing = true
  notDone : ((beforeResp s i.input).ld t).done = false
  wrongPath : (respLdResult (beforeResp s i.input) t d).wrongPath = false
  dst : (respLdResult (beforeResp s i.input) t d).dst = ((beforeResp s i.input).ld t).dst
  after : (responded s i.input).ld t = { (beforeResp s i.input).ld t with done := true }

variable {s l i t d}

theorem issued_ledger (s : State c) (i : Driven c) (l : Ledger c) (t : c.LdQTag) :
    (l.issued s i t).loads = (l t).loads ∧ (l.issued s i t).squashed = (l t).squashed := by
  unfold Ledger.issued
  cases issueAnswer s i.input with
  | none => exact ⟨rfl, rfl⟩
  | some asked =>
      obtain ⟨tag, res⟩ := asked
      dsimp only
      split
      · rcases eq_or_ne t tag with rfl | other
        · rw [modify_self]
          exact ⟨rfl, rfl⟩
        · rw [modify_of_ne _ _ other]
          exact ⟨rfl, rfl⟩
      · exact ⟨rfl, rfl⟩

theorem responded_entry (called : i.input.respLd = some (t, d)) :
    (responded s i.input).ld t = respondedEntry ((beforeResp s i.input).ld t) := by
  simp only [responded, called, respLd, modify_self]
  rfl

theorem dropped_or_delivered (ok : QueueOk s l) (environment : Environment s l i)
    (called : i.input.respLd = some (t, d)) : Dropped s l i t d ∨ Delivered s l i t d := by
  have entry := responded_entry (s := s) called
  obtain ⟨loads, squashedSame⟩ := issued_ledger s i l t
  rcases (beforeResp_ok ok environment t).answers (environment.answers t d called) with
    ⟨waits, squashed, -, -⟩ | ⟨quiet, squashed, -, current, valid, executing, notDone⟩
  · refine .inl ⟨?_, ?_, ?_, ?_⟩
    · rw [← squashedSame]
      exact squashed
    · simp only [respLdResult, waits, if_true]
    · simp only [respLdResult, waits, if_true]
    · rw [entry, respondedEntry, if_pos waits]
  · refine .inr ⟨?_, ?_, valid, executing, notDone, ?_, ?_, ?_⟩
    · rw [← squashedSame]
      exact squashed
    · rw [← loads]
      exact current
    · simp only [respLdResult, quiet, Bool.false_eq_true, if_false]
    · simp only [respLdResult, quiet, Bool.false_eq_true, if_false]
    · rw [entry, respondedEntry, if_neg (by rw [quiet]; exact Bool.false_ne_true)]

/-- `issueLd` is not called for an entry that any response is owed for. -/
theorem nothing_owed_at_issue {res : LSQIssueLdResult c} (ok : QueueOk s l)
    (environment : Environment s l i) (asked : issueAnswer s i.input = some (t, res)) :
    (l t).owed = [] := by
  obtain ⟨⟨info, sbRes⟩, called, same⟩ := Option.map_eq_some_iff.mp asked
  obtain ⟨rfl, -⟩ := Prod.mk.inj same
  exact (updated_ok ok environment info.tag).owed_of_issuable
    (issuable_of_issueInfo ok environment called)

theorem noWrongPathLoads_iff (ok : QueueOk s l) :
    noWrongPathLoads s = true ↔ ∀ t, ∀ load ∈ (l t).owed, (l t).squashed load = false := by
  simp only [noWrongPathLoads, List.all_eq_true, List.mem_finRange, true_implies,
    Bool.not_eq_true']
  refine forall_congr' fun t => ?_
  cases (ok t).awaits with
  | nothing quiet idle owed => simp [quiet, owed]
  | load quiet valid executing notDone owed => simp [quiet, owed, (ok t).alive valid]
  | wrongPath waits stopped load squashed owed => simp [waits, owed, squashed]

/-- Responses carry the entry only, and still each one ends where it belongs. -/
theorem responses_find_their_loads {powerUp : State c}
    {cycles : List ((State c × Ledger c) × Driven c)} {now : State c × Ledger c}
    (run : (machine powerUp).Run cycles now) :
    (noWrongPathLoads now.1 = true ↔
        ∀ t, ∀ load ∈ (now.2 t).owed, (now.2 t).squashed load = false) ∧
      ∀ i, (machine powerUp).allowed cycles now i → i.input.incorrectSpec = none →
        (∀ t d, i.input.respLd = some (t, d) →
          Dropped now.1 now.2 i t d ∨ Delivered now.1 now.2 i t d) ∧
        ∀ t res, issueAnswer now.1 i.input = some (t, res) → (now.2 t).owed = [] := by
  have ok := queueOk_of_run run
  refine ⟨noWrongPathLoads_iff ok, ?_⟩
  intro i allowed quiet
  have environment : Environment now.1 now.2 i := allowed quiet
  refine ⟨fun t d called => dropped_or_delivered ok environment called, ?_⟩
  intro t res asked
  exact nothing_owed_at_issue ok environment asked

end Runs

section Example

instance (e : LdQEntry c) : Decidable (Updatable e) :=
  decidable_of_iff (e.valid = true ∧ e.computed = false ∧ e.executing = false ∧ e.done = false ∧
      e.killed = none)
    ⟨fun ⟨valid, computed, executing, done, killed⟩ => ⟨valid, computed, executing, done, killed⟩,
      fun ⟨valid, computed, executing, done, killed⟩ => ⟨valid, computed, executing, done, killed⟩⟩

-- Stated with `Option.all`, so that no search for an instance enumerates the data.
instance (s : State c) (l : Ledger c) (i : Driven c) : Decidable (Environment s l i) :=
  decidable_of_iff ((i.input.respLd.all fun r => decide (i.load ∈ (l.issued s i r.1).owed)) = true ∧
      (i.input.updateAddr.all fun upd => decide (∀ tag, upd.lsqTag = .ld tag →
        Updatable ((verifySt (dequeued s i.input)).ld tag))) = true) <| by
    simp only [Option.all_eq_true, decide_eq_true_eq]
    constructor
    · intro ⟨answers, updates⟩
      exact ⟨fun t d called => answers (t, d) called,
        fun upd tag called => updates upd called tag⟩
    · intro ⟨answers, updates⟩
      exact ⟨fun r called => answers r.1 r.2 called,
        fun upd called tag => updates upd tag called⟩

instance (powerUp : State c) (cycles : List ((State c × Ledger c) × Driven c))
    (now : State c × Ledger c) (i : Driven c) :
    Decidable ((machine powerUp).allowed cycles now i) :=
  inferInstanceAs (Decidable (i.input.incorrectSpec = none → Environment now.1 now.2 i))

/-- Two loads, one store and one speculation tag. -/
private def smallLsq : LsqCfg where
  ldQSize := 2
  stQSize := 1
  sbSize := 1
  numSpecTags := 1
  supSize := 1
  numPhyReg := 2
  multicore := false
  someLds := by decide
  someSts := by decide

private def emptyLsq : State smallLsq where
  ld _ :=
    { valid := false, memFunc := .ld, unsignedLd := false, byteEn := 0, acq := false, dst := none
      paddr := 0, isMmio := false, shiftedBE := 0, fault := none, computed := false
      executing := false, done := false, killed := none, olderSt := none
      olderStVerified := false, readFrom := none, depLdQDeq := none, depStQDeq := none
      depLdEx := none, depSBDeq := none, specBits := fun _ => false, atCommit := false
      waitWPResp := false }
  ldEnqP := (0 : Fin 2)
  ldDeqP := (0 : Fin 2)
  st _ :=
    { valid := false, memFunc := .st, acq := false, paddr := 0, isMmio := false, shiftedBE := 0
      stData := 0, fault := none, computed := false, verified := false
      specBits := fun _ => false, atCommit := false }
  stEnqP := (0 : Fin 1)
  stDeqP := (0 : Fin 1)
  stVerifyP := (0 : Fin 1)

private def enqWord (tagged : Bool) : Input smallLsq :=
  { enq := some (.ld
      { memFunc := .ld, byteEn := 0xFF, unsignedLd := false, aq := false
        dst := some ⟨1, false⟩, specBits := fun _ => tagged }) }

/-- The load in the first entry gets its address and issues if it may. -/
private def issueWord : Input smallLsq :=
  { updateAddr := some
      { lsqTag := .ld (0 : Fin 2), fault := none, paddr := 0x40, isMmio := false
        shiftedBE := 0xFF }
    issue := some (.fromUpdate, { matchIdx := none, forwardData := none }) }

/-- A load issues and is squashed, and the next load takes its entry. -/
private def squashRun : List (Driven smallLsq) :=
  [{ input := enqWord true }, { input := issueWord },
    { input := { incorrectSpec := some { killAll := false, specTag := (0 : Fin 1) } } },
    { input := enqWord false }]

/-- The second load gets its address when the first one's response arrives. -/
private def lateResponse : Driven smallLsq :=
  { input := { issueWord with respLd := some ((0 : Fin 2), 0) }, load := 1 }

theorem responses_find_their_loads_late :
    let m := machine emptyLsq
    let now := m.after m.reset squashRun
    Dropped now.1 now.2 lateResponse (0 : Fin 2) 0 ∨
      Delivered now.1 now.2 lateResponse (0 : Fin 2) 0 := by
  intro m now
  have run : m.Run (m.cyclesOf m.reset squashRun) now :=
    Clocked.Machine.run_of_accepts squashRun (by decide +kernel)
  have settled := responses_find_their_loads run
  exact (settled.2 lateResponse (by decide +kernel) rfl).1 (0 : Fin 2) 0 rfl

end Example

end Toooba.SplitLsq
