import RiscvCores.Cva6.LoadUnitAnswers

/-!
# Every load is answered once

The invariant ties the flags of the load buffer to the ledger.  A flag that a
flush sets is cleared again by a grant in the same cycle; the request is then
the last one and is killed in the next cycle.
-/

set_option autoImplicit false

namespace Cva6.LoadUnit

open Tickets

variable {cfg : LsuCfg}

/-! ## The load buffer -/

section Buffer

variable (s : State cfg) (i : Input cfg)

theorem ldbufW_eq : ldbufW s i = ((control s i).dataReq && i.dataGnt) := by
  unfold ldbufW drives
  split <;> rfl

theorem popLd_eq : (drives s i).popLd = (control s i).popLd := by
  unfold drives
  split <;> rfl

theorem killReq_eq : (drives s i).killReq = (control s i).killReq := by
  unfold drives
  split <;> rfl

theorem asked_of_ldbufW (written : ldbufW s i = true) :
    (control s i).dataReq = true ∧ i.dataGnt = true := by
  rw [ldbufW_eq] at written
  exact Bool.and_eq_true_iff.mp written

theorem exists_of_not_full (room : ldbufFull s = false) : ∃ r, s.ldbufValid r = false := by
  by_contra full
  have all : ldbufFull s = true := by
    simp only [ldbufFull, List.all_eq_true]
    intro r _
    by_contra free
    exact full ⟨r, Bool.eq_false_iff.mpr free⟩
  rw [all] at room
  contradiction

/-- The first free entry is free, if one is. -/
theorem ldbufFreeIndex_free {r : Fin cfg.nrLoadBufEntries} (free : s.ldbufValid r = false) :
    s.ldbufValid (ldbufFreeIndex s) = false := by
  unfold ldbufFreeIndex
  split
  case isTrue =>
      have same : Fin.ofNat cfg.nrLoadBufEntries r.val = r := Fin.ext (Nat.mod_eq_of_lt r.isLt)
      have found := (CommonCells.lzcCnt_of_set cfg.nrLoadBufEntries
        (fun k => !s.ldbufValid (Fin.ofNat cfg.nrLoadBufEntries k)) r.val r.isLt
        (by rw [same, free]; rfl)).2.1
      simpa using found
  case isFalse single =>
      have one : cfg.nrLoadBufEntries = 1 := by
        have some := cfg.someLoadBuf
        omega
      have first : r = 0 := by
        have bound := r.isLt
        apply Fin.ext
        rw [Fin.val_zero]
        omega
      rw [← first]
      exact free

theorem fallthrough_one (through : fallthrough cfg = true) (r r' : Fin cfg.nrLoadBufEntries) :
    r = r' := by
  have one : cfg.nrLoadBufEntries = 1 := by simpa [fallthrough] using through
  have bound := r.isLt
  have bound' := r'.isLt
  apply Fin.ext
  omega

end Buffer

/-! ## The invariant -/

structure Inv (g : Ledger cfg) (s : State cfg) : Prop where
  valid : ∀ r, s.ldbufValid r = (g.owed r).isSome
  entry : ∀ r q, g.owed r = some q → s.ldbuf r =
    { transId := q.ctrl.transId
      addressOffset := q.ctrl.vaddr.extractLsb' 0 _
      operation := q.ctrl.operation }
  calm : ∀ r q, g.owed r = some q → q.raised = false
  ticket : ∀ r, g.owed r = none → g.tickets.held r = none
  stays : ∀ r, (g.owed r).isSome = true → g.tickets.held r = none →
    g.fresh = some r ∧ (Aborting cfg s.control ∨ s.control = .waitFlush)
  fresh : ∀ r, g.fresh = some r → s.ldbufLastId = r ∧ (g.owed r).isSome = true ∧
    (s.control = .sendTag ∨ Aborting cfg s.control ∨ s.control = .waitFlush)
  tagged : s.control = .sendTag → ∃ r, g.fresh = some r
  aborting : Aborting cfg s.control → ∃ r, g.fresh = some r ∧ g.tickets.held r = none
  flag : ∀ r n, g.tickets.held r = some n → s.ldbufFlushed r = g.tickets.void n ∨
    (s.control = .waitFlush ∧ g.fresh = some r)
  flushed : s.control = .waitFlush → ∀ r n, g.tickets.held r = some n → g.tickets.void n = true
  room : KeepsRoom s.control → ∃ r, g.owed r = none
  exact : g.tickets.Exact

namespace Inv

variable {g : Ledger cfg} {s : State cfg} {i : Input cfg}

theorem reset : Inv .reset (LoadUnit.reset cfg) where
  valid _ := rfl
  entry _ _ impossible := nomatch impossible
  calm _ _ impossible := nomatch impossible
  ticket _ _ := rfl
  stays _ impossible := nomatch impossible
  fresh _ impossible := nomatch impossible
  tagged impossible := nomatch impossible
  aborting impossible := by
    rcases impossible with ⟨impossible, -⟩ | ⟨impossible, -⟩ <;> contradiction
  flag _ _ impossible := nomatch impossible
  flushed impossible := nomatch impossible
  room impossible := by
    rcases impossible with impossible | impossible | impossible | impossible <;> contradiction
  exact := .opened

/-- A kill follows a grant, except after a flush. -/
theorem killed_cases (inv : Inv g s) (kill : (drives s i).killReq = true) :
    (∃ r, g.fresh = some r) ∨ s.control = .waitFlush := by
  rw [killReq_eq] at kill
  rcases (moves s i).kills.mp kill with ⟨tag, -⟩ | flush | abort
  · exact .inl (inv.tagged tag)
  · exact .inr flush
  · obtain ⟨r, fresh, -⟩ := inv.aborting abort
    exact .inl ⟨r, fresh⟩

/-- A request that outlives the cycle of its tag was neither killed nor excepted. -/
theorem tag_of_fresh (inv : Inv g s) (prompt : KillAnswered g s i)
    {r : Fin cfg.nrLoadBufEntries} (fresh : g.fresh = some r)
    (open' : ¬ (i.dataRvalid = true ∧ ldbufRindex i = r)) :
    s.control = .sendTag ∧ i.exValid = false := by
  have quiet : (control s i).killReq ≠ true := by
    intro kill
    rw [← killReq_eq] at kill
    exact open' (prompt r fresh kill)
  have spared := fun cases' => quiet ((moves s i).kills.mpr cases')
  rcases (inv.fresh r fresh).2.2 with tag | abort | flush
  · refine ⟨tag, ?_⟩
    by_contra excepts
    exact spared (.inl ⟨tag, Bool.eq_true_of_not_eq_false excepts⟩)
  · exact absurd (.inr (.inr abort)) spared
  · exact absurd (.inr (.inl flush)) spared

theorem room_of_grant (inv : Inv g s) (written : ldbufW s i = true) :
    g.owed (ldbufWindex s i) = none ∨
      (i.dataRvalid = true ∧ ldbufRindex i = ldbufWindex s i) := by
  have free : (∃ r, s.ldbufValid r = false) ∨ (fallthrough cfg && i.dataRvalid) = true := by
    rcases (moves s i).asks (asked_of_ldbufW s i written).1 with wait | accept
    · obtain ⟨r, free⟩ := inv.room (.inl wait)
      exact .inl ⟨r, by rw [inv.valid, free]; rfl⟩
    · simp only [acceptReq, Bool.and_eq_true, Bool.or_eq_true, Bool.not_eq_true'] at accept
      rcases accept.2 with room | through
      · exact .inl (exists_of_not_full s room)
      · exact .inr (Bool.and_eq_true_iff.mpr through)
  cases through : fallthrough cfg && i.dataRvalid with
  | true =>
      refine .inr ⟨(Bool.and_eq_true_iff.mp through).2, ?_⟩
      rw [ldbufWindex, through, if_pos rfl]
  | false =>
      obtain ⟨r, empty⟩ | impossible := free
      · have unused := ldbufFreeIndex_free s empty
        rw [inv.valid] at unused
        refine .inl ?_
        rw [ldbufWindex, through, if_neg Bool.false_ne_true]
        exact Option.not_isSome_iff_eq_none.mp (by rw [unused]; exact Bool.false_ne_true)
      · rw [through] at impossible
        contradiction

end Inv

/-! ## The outputs of a cycle -/

section Outputs

variable {g : Ledger cfg} {s : State cfg} {i : Input cfg}

theorem translated_some {r : Fin cfg.nrLoadBufEntries} {q : Request cfg}
    (owed : g.owed r = some q) : g.translated i r =
      some (if g.isFresh r then { q with raised := i.exValid } else q) := by
  rw [Ledger.translated, owed]
  rfl

theorem responseDue_of_held {q : Request cfg} {n : Nat}
    (owed : g.owed (ldbufRindex i) = some q) (held : g.tickets.held (ldbufRindex i) = some n) :
    responseDue g i = if g.tickets.void n then none else some
      { load := n
        ctrl := q.ctrl
        exception := if g.isFresh (ldbufRindex i) then i.exValid else q.raised } := by
  have redeems : g.tickets.redeems (ldbufRindex i) = if g.tickets.void n then none else some n := by
    rw [Office.redeems, held, Option.filter_some]
    cases g.tickets.void n <;> rfl
  unfold responseDue
  rw [translated_some owed, redeems]
  cases g.tickets.void n with
  | true => rfl
  | false => cases g.isFresh (ldbufRindex i) <;> rfl

theorem responseDue_of_no_ticket (free : g.tickets.held (ldbufRindex i) = none) :
    responseDue g i = none := by
  have redeems : g.tickets.redeems (ldbufRindex i) = none := by
    rw [Office.redeems, free]
    rfl
  unfold responseDue
  rw [redeems]
  cases g.translated i (ldbufRindex i) <;> rfl

theorem responseDue_of_void (isVoid : ∀ n, g.tickets.held (ldbufRindex i) = some n →
    g.tickets.void n = true) : responseDue g i = none := by
  cases held : g.tickets.held (ldbufRindex i) with
  | none => exact responseDue_of_no_ticket held
  | some n =>
      have redeems : g.tickets.redeems (ldbufRindex i) = none := by
        rw [Office.redeems, held, Option.filter_some, isVoid n held]
        rfl
      unfold responseDue
      rw [redeems]
      cases g.translated i (ldbufRindex i) <;> rfl

/-- What `valid_o` and the exception say about a response. -/
structure Responds (g : Ledger cfg) (s : State cfg) (i : Input cfg) : Prop where
  valid : answersRequest s i = (responseDue g i).isSome
  exception : ∀ a, responseDue g i = some a →
    (!s.ldbufFlushed (ldbufRindex i) && (i.exValid && s.control == .sendTag)) = a.exception

theorem Responds.of_none (silent : answersRequest s i = false) (nothing : responseDue g i = none) :
    Responds g s i := by
  constructor
  · rw [silent, nothing]
    rfl
  · intro a impossible
    rw [nothing] at impossible
    contradiction

/-- The response is for the request of the last cycle. -/
theorem responds_fresh (inv : Inv g s) (answer : i.dataRvalid = true)
    (fresh : g.fresh = some (ldbufRindex i)) : Responds g s i := by
  obtain ⟨last, isOwed, control⟩ := inv.fresh _ fresh
  obtain ⟨q, owed⟩ := Option.isSome_iff_exists.mp isOwed
  have kills := (moves s i).kills
  rw [← killReq_eq] at kills
  by_cases tag : s.control = .sendTag
  · have held : g.tickets.held (ldbufRindex i) ≠ none := by
      intro free
      rcases (inv.stays _ isOwed free).2 with (⟨other, -⟩ | ⟨other, -⟩) | other
      all_goals
        rw [tag] at other
        contradiction
    obtain ⟨n, held⟩ := Option.ne_none_iff_exists'.mp held
    have flag : s.ldbufFlushed (ldbufRindex i) = g.tickets.void n := by
      rcases inv.flag _ n held with same | ⟨other, -⟩
      · exact same
      · rw [tag] at other
        contradiction
    have isFresh : g.isFresh (ldbufRindex i) = true := by simp [Ledger.isFresh, fresh]
    have due := responseDue_of_held owed held
    rw [isFresh, if_pos rfl] at due
    have kill : (drives s i).killReq = i.exValid := by
      cases excepts : i.exValid with
      | true => exact kills.mpr (.inl ⟨tag, excepts⟩)
      | false =>
          by_contra other
          rcases kills.mp (Bool.eq_true_of_not_eq_false other) with ⟨-, raised⟩ | flush |
            (⟨abort, -⟩ | ⟨abort, -⟩)
          · rw [excepts] at raised
            contradiction
          · rw [tag] at flush
            contradiction
          · rw [tag] at abort
            contradiction
          · rw [tag] at abort
            contradiction
    constructor
    · rw [due, answersRequest, answer, flag, kill, tag]
      cases g.tickets.void n <;> cases i.exValid <;> simp
    · intro a isDue
      rw [due] at isDue
      rw [flag, tag]
      cases isVoid : g.tickets.void n with
      | true =>
          rw [isVoid, if_pos rfl] at isDue
          contradiction
      | false =>
          rw [isVoid, if_neg Bool.false_ne_true] at isDue
          obtain rfl := Option.some.inj isDue
          simp
  · have kill : (drives s i).killReq = true := by
      rcases control with other | abort | flush
      · exact absurd other tag
      · exact kills.mpr (.inr (.inr abort))
      · exact kills.mpr (.inr (.inl flush))
    have silent : answersRequest s i = false := by
      have notTag : (s.control == .sendTag) = false := by simpa using tag
      simp [answersRequest, last, kill, notTag]
    refine .of_none silent ?_
    rcases control with other | abort | flush
    · exact absurd other tag
    · obtain ⟨r, isLast, free⟩ := inv.aborting abort
      rw [fresh] at isLast
      obtain rfl := Option.some.inj isLast
      exact responseDue_of_no_ticket free
    · exact responseDue_of_void (inv.flushed flush _)

/-- The response is for a request whose tag was sent before. -/
theorem responds_older (inv : Inv g s) (prompt : KillAnswered g s i)
    (answer : i.dataRvalid = true) (isOwed : (g.owed (ldbufRindex i)).isSome = true)
    (older : g.fresh ≠ some (ldbufRindex i)) : Responds g s i := by
  obtain ⟨q, owed⟩ := Option.isSome_iff_exists.mp isOwed
  have held : g.tickets.held (ldbufRindex i) ≠ none := fun free =>
    older (inv.stays _ isOwed free).1
  obtain ⟨n, held⟩ := Option.ne_none_iff_exists'.mp held
  have flag : s.ldbufFlushed (ldbufRindex i) = g.tickets.void n := by
    rcases inv.flag _ n held with same | ⟨-, fresh⟩
    · exact same
    · exact absurd fresh older
  by_cases kill : (drives s i).killReq = true
  · -- only the flush state kills without a request of the last cycle
    have flush : s.control = .waitFlush := by
      rcases inv.killed_cases kill with ⟨r, fresh⟩ | flush
      · have same := (prompt r fresh kill).2
        rw [← same] at fresh
        exact absurd fresh older
      · exact flush
    have isVoid := inv.flushed flush _ n held
    refine .of_none ?_ (responseDue_of_void (inv.flushed flush _))
    simp [answersRequest, flag, isVoid]
  · have quiet : (i.exValid && s.control == .sendTag) = false := by
      by_contra raised
      have both := Bool.eq_true_of_not_eq_false raised
      simp only [Bool.and_eq_true, beq_iff_eq] at both
      rw [killReq_eq] at kill
      exact kill ((moves s i).kills.mpr (.inl ⟨both.2, both.1⟩))
    have notFresh : g.isFresh (ldbufRindex i) = false := by simpa [Ledger.isFresh] using older
    have due := responseDue_of_held owed held
    rw [notFresh, if_neg Bool.false_ne_true, inv.calm _ q owed] at due
    constructor
    · rw [due, answersRequest, answer, flag, Bool.eq_false_iff.mpr kill]
      cases g.tickets.void n <;> simp
    · intro a isDue
      rw [quiet, Bool.and_false]
      rw [due] at isDue
      cases isVoid : g.tickets.void n with
      | true =>
          rw [isVoid, if_pos rfl] at isDue
          contradiction
      | false =>
          rw [isVoid, if_neg Bool.false_ne_true] at isDue
          obtain rfl := Option.some.inj isDue
          rfl

theorem responds (inv : Inv g s) (environment : Environment g s i) (prompt : KillAnswered g s i)
    (answer : i.dataRvalid = true) : Responds g s i := by
  by_cases fresh : g.fresh = some (ldbufRindex i)
  · exact responds_fresh inv answer fresh
  · exact responds_older inv prompt answer (environment.answers answer) fresh

/-- Without a response, `valid_o` is the exception of the load that leaves the bypass. -/
theorem retires_iff (environment : Environment g s i) (silent : i.dataRvalid = false) :
    retiresException s i = ((drives s i).popLd && !ldbufW s i) := by
  have m := moves s i
  rw [popLd_eq, ldbufW_eq, Bool.eq_iff_iff]
  simp only [retiresException, Bool.and_eq_true, beq_iff_eq, Bool.not_eq_true']
  constructor
  · rintro ⟨⟨⟨⟨present, wait⟩, -⟩, excepts⟩, -⟩
    obtain ⟨popped, quiet⟩ := m.excepts wait present excepts silent
    exact ⟨popped, by rw [quiet]; rfl⟩
  · rintro ⟨popped, ungranted⟩
    obtain ⟨wait, present, excepts, -⟩ := m.pops ungranted popped
    exact ⟨⟨⟨⟨present, wait⟩, silent⟩, excepts⟩, environment.held wait⟩

theorem ctrl_of_responseDue {a : Answer cfg} (isDue : responseDue g i = some a) :
    ∃ q, g.owed (ldbufRindex i) = some q ∧ q.ctrl = a.ctrl := by
  unfold responseDue at isDue
  split at isDue
  case h_2 => contradiction
  case h_1 q load isOwed redeems =>
      obtain rfl := Option.some.inj isDue
      obtain ⟨q', owed, same⟩ := Option.map_eq_some_iff.mp isOwed
      refine ⟨q', owed, ?_⟩
      rw [← same]
      split <;> rfl

theorem accounted (fpPresent : Bool) (inv : Inv g s) (environment : Environment g s i)
    (prompt : KillAnswered g s i) : Accounted g s i fpPresent := by
  cases answer : i.dataRvalid with
  | true =>
      have noRetire : retiresException s i = false := by simp [retiresException, answer]
      have isDue : due g s i = responseDue g i := by rw [due, answer, if_pos rfl]
      have outputs := responds inv environment prompt answer
      refine ⟨?_, ?_, ?_, ?_, inv.room_of_grant⟩
      · rw [validO, noRetire, Bool.or_false, isDue]
        exact outputs.valid
      · intro a found
        rw [isDue] at found
        obtain ⟨q, owed, same⟩ := ctrl_of_responseDue found
        rw [transIdO, noRetire, if_neg Bool.false_ne_true, inv.entry _ q owed, same]
      · intro a found
        rw [isDue] at found
        rw [exValidO, noRetire, Bool.or_false, answer, Bool.true_and]
        exact outputs.exception a found
      · intro a found _ rdata
        rw [isDue] at found
        obtain ⟨q, owed, same⟩ := ctrl_of_responseDue found
        simp only [resultO, inv.entry _ q owed, same]
  | false =>
      have silent : answersRequest s i = false := by simp [answersRequest, answer]
      have retires := retires_iff environment answer
      refine ⟨?_, ?_, ?_, ?_, inv.room_of_grant⟩
      · rw [validO, silent, Bool.false_or, retires, due, answer, if_neg Bool.false_ne_true]
        cases (drives s i).popLd && !ldbufW s i <;> rfl
      · intro a found
        rw [due, answer, if_neg Bool.false_ne_true, ← retires] at found
        cases retire : retiresException s i with
        | false =>
            rw [retire] at found
            contradiction
        | true =>
            rw [retire, if_pos rfl] at found
            obtain rfl := Option.some.inj found
            rw [transIdO, retire, if_pos rfl]
      · intro a found
        rw [due, answer, if_neg Bool.false_ne_true, ← retires] at found
        cases retire : retiresException s i with
        | false =>
            rw [retire] at found
            contradiction
        | true =>
            rw [retire, if_pos rfl] at found
            obtain rfl := Option.some.inj found
            rw [exValidO, retire, Bool.or_true]
      · intro a _ response
        rw [answer] at response
        contradiction

end Outputs

/-! ## The next cycle -/

section Next

variable {g : Ledger cfg} {s : State cfg} {i : Input cfg}

theorem answered_owed (r : Fin cfg.nrLoadBufEntries) : (g.answered i).owed r =
    if i.dataRvalid = true ∧ ldbufRindex i = r then none else g.translated i r := by
  unfold Ledger.answered
  cases i.dataRvalid with
  | false => simp
  | true =>
      simp only [if_true, true_and, Function.update_apply]
      exact if_congr eq_comm rfl rfl

theorem answered_held (r : Fin cfg.nrLoadBufEntries) : (g.answered i).tickets.held r =
    if i.dataRvalid = true ∧ ldbufRindex i = r then none else g.tickets.held r := by
  unfold Ledger.answered
  cases i.dataRvalid with
  | false => simp
  | true =>
      simp only [if_true, true_and, Office.returned, Function.update_apply]
      exact if_congr eq_comm rfl rfl

theorem answered_void : (g.answered i).tickets.void = g.tickets.void := by
  unfold Ledger.answered
  split <;> rfl

theorem answered_exact (exact : g.tickets.Exact) : (g.answered i).tickets.Exact := by
  unfold Ledger.answered
  split
  · exact exact.returned _
  · exact exact

/-- What is still owed after the answer is as it was before. -/
theorem answered_some (inv : Inv g s) (prompt : KillAnswered g s i)
    {r : Fin cfg.nrLoadBufEntries} {q : Request cfg} (owed : (g.answered i).owed r = some q) :
    ¬ (i.dataRvalid = true ∧ ldbufRindex i = r) ∧ g.owed r = some q := by
  rw [answered_owed] at owed
  split at owed
  · contradiction
  · rename_i open'
    refine ⟨open', ?_⟩
    obtain ⟨q', before, same⟩ := Option.map_eq_some_iff.mp owed
    rw [before, ← same]
    split
    · rename_i isFresh
      have fresh : g.fresh = some r := by simpa [Ledger.isFresh] using isFresh
      rw [(inv.tag_of_fresh prompt fresh open').2, ← inv.calm r q' before]
    · rfl

theorem answered_none (inv : Inv g s) {r : Fin cfg.nrLoadBufEntries}
    (free : (g.answered i).owed r = none) : (g.answered i).tickets.held r = none := by
  rw [answered_held]
  rw [answered_owed] at free
  split
  · rfl
  · rename_i open'
    rw [if_neg open'] at free
    exact inv.ticket r (Option.map_eq_none_iff.mp free)

/-- A request without a ticket was killed, so it is answered. -/
theorem answered_stays (inv : Inv g s) (prompt : KillAnswered g s i)
    {r : Fin cfg.nrLoadBufEntries} (isOwed : ((g.answered i).owed r).isSome = true) :
    (g.answered i).tickets.held r ≠ none := by
  obtain ⟨q, owed⟩ := Option.isSome_iff_exists.mp isOwed
  obtain ⟨open', before⟩ := answered_some inv prompt owed
  rw [answered_held, if_neg open']
  intro free
  obtain ⟨fresh, control⟩ := inv.stays r (by rw [before]; rfl) free
  have tag := (inv.tag_of_fresh prompt fresh open').1
  rcases control with (⟨other, -⟩ | ⟨other, -⟩) | other
  all_goals
    rw [tag] at other
    contradiction

/-- The entry that is written owes nothing any more. -/
theorem answered_windex (inv : Inv g s) (written : ldbufW s i = true) :
    (g.answered i).owed (ldbufWindex s i) = none := by
  rw [answered_owed]
  rcases inv.room_of_grant written with free | answer
  · split
    · rfl
    · rw [Ledger.translated, free]
      rfl
  · rw [if_pos answer]

theorem granted_owed (r : Fin cfg.nrLoadBufEntries) : (g.granted s i).owed r =
    if ldbufW s i = true ∧ r = ldbufWindex s i then some { ctrl := i.lsuCtrl, raised := false }
    else (g.answered i).owed r := by
  unfold Ledger.granted
  dsimp only
  cases ldbufW s i with
  | false => simp
  | true => simp only [if_true, true_and, Function.update_apply]

theorem granted_fresh : (g.granted s i).fresh =
    if ldbufW s i then some (ldbufWindex s i) else none := by
  unfold Ledger.granted
  dsimp only
  split <;> rfl

theorem granted_held (r : Fin cfg.nrLoadBufEntries) : (g.granted s i).tickets.held r =
    if ldbufW s i = true ∧ r = ldbufWindex s i ∧ (drives s i).popLd = true then
      some (g.answered i).tickets.issued
    else (g.answered i).tickets.held r := by
  unfold Ledger.granted
  dsimp only
  cases ldbufW s i with
  | false =>
      simp only [Bool.false_eq_true, if_false, false_and]
      split <;> rfl
  | true =>
      cases (drives s i).popLd with
      | false => simp
      | true => simp only [if_true, true_and, and_true, Office.hand, Function.update_apply]

theorem granted_void : (g.granted s i).tickets.void = g.tickets.void := by
  have same : (g.granted s i).tickets.void = (g.answered i).tickets.void := by
    unfold Ledger.granted
    dsimp only
    split
    · split <;> rfl
    · split <;> rfl
  rw [same, answered_void]

theorem granted_exact (inv : Inv g s) : (g.granted s i).tickets.Exact := by
  have exact := answered_exact (i := i) inv.exact
  unfold Ledger.granted
  dsimp only
  split
  · rename_i written
    split
    · exact exact.hand (answered_none inv (answered_windex inv written))
    · exact exact
  · split
    · exact exact.pass
    · exact exact

theorem next_owed : (g.next s i).owed = (g.granted s i).owed := by
  unfold Ledger.next
  dsimp only
  split <;> rfl

theorem next_fresh : (g.next s i).fresh = (g.granted s i).fresh := by
  unfold Ledger.next
  dsimp only
  split <;> rfl

theorem next_held : (g.next s i).tickets.held = (g.granted s i).tickets.held := by
  unfold Ledger.next
  dsimp only
  split <;> rfl

theorem next_exact (inv : Inv g s) : (g.next s i).tickets.Exact := by
  unfold Ledger.next
  dsimp only
  split
  · exact (granted_exact inv).voidHeld
  · exact granted_exact inv

end Next

/-! ## The invariant over runs -/

section Runs

variable {g : Ledger cfg} {s : State cfg} {i : Input cfg}

theorem ldbufValidD_apply (r : Fin cfg.nrLoadBufEntries) : ldbufValidD s i r =
    if ldbufW s i = true ∧ r = ldbufWindex s i then true
    else if i.dataRvalid = true ∧ ldbufRindex i = r then false
    else s.ldbufValid r := by
  unfold ldbufValidD
  cases written : ldbufW s i with
  | false =>
      cases i.dataRvalid with
      | false => simp
      | true =>
          simp only [Bool.not_false, Bool.or_true, Bool.and_true, if_true, Bool.false_eq_true,
            if_false, false_and, true_and, Function.update_apply]
          exact if_congr eq_comm rfl rfl
  | true =>
      simp only [if_true, true_and, Bool.not_true, Bool.or_false, Function.update_apply]
      refine if_ctx_congr Iff.rfl (fun _ => rfl) ?_
      intro other
      cases through : fallthrough cfg with
      | true => exact absurd (fallthrough_one through _ _) other
      | false =>
          cases i.dataRvalid with
          | false => simp
          | true =>
              simp only [Bool.not_false, Bool.and_true, if_true, true_and, Function.update_apply]
              exact if_congr eq_comm rfl rfl

theorem next_ldbuf (r : Fin cfg.nrLoadBufEntries) : (next s i).ldbuf r =
    if ldbufW s i = true ∧ r = ldbufWindex s i then ldbufWdata i else s.ldbuf r := by
  unfold next
  cases ldbufW s i with
  | false => simp
  | true => simp only [if_true, true_and, Function.update_apply]

theorem next_ldbufFlushed (r : Fin cfg.nrLoadBufEntries) : (next s i).ldbufFlushed r =
    if ldbufW s i = true ∧ r = ldbufWindex s i then false
    else i.flush || s.ldbufFlushed r := by
  change ldbufFlushedD s i r = _
  unfold ldbufFlushedD
  cases ldbufW s i with
  | false => cases i.flush <;> simp
  | true =>
      simp only [if_true, true_and, Function.update_apply]
      cases i.flush <;> simp

theorem next_control : (next s i).control =
    if i.flush then .waitFlush else (control s i).controlD := by
  change (drives s i).controlD = _
  unfold drives
  split <;> rfl

theorem waitFlush_of_next (flush : (next s i).control = .waitFlush) : i.flush = true := by
  rw [next_control] at flush
  by_contra noFlush
  rw [if_neg noFlush] at flush
  exact (moves s i).flushed flush

/-- Where the unit goes after a grant. -/
theorem next_of_written (written : ldbufW s i = true) :
    (next s i).control = .waitFlush ∨
      ((next s i).control = .sendTag ∧ (drives s i).popLd = true) ∨
      (Aborting cfg (next s i).control ∧ (drives s i).popLd = false) := by
  obtain ⟨asked, granted⟩ := asked_of_ldbufW s i written
  rw [next_control, popLd_eq]
  cases i.flush with
  | true => exact .inl rfl
  | false =>
      simp only [Bool.false_eq_true, if_false]
      cases popped : (control s i).popLd with
      | true => exact .inr (.inl ⟨(moves s i).taken asked granted popped, rfl⟩)
      | false => exact .inr (.inr ⟨(moves s i).aborted asked granted popped, rfl⟩)

/-- A tag or an abort follows a grant only. -/
theorem written_of_next (tagged : (next s i).control = .sendTag ∨
    (next s i).control = .abortTransaction ∨ (next s i).control = .abortTransactionNi) :
    ldbufW s i = true := by
  by_contra ungranted
  rw [ldbufW_eq] at ungranted
  obtain ⟨noTag, noAbort, noAbortNi⟩ := (moves s i).ungranted (Bool.eq_false_iff.mpr ungranted)
  rw [next_control] at tagged
  cases flush : i.flush with
  | true =>
      rw [if_pos flush] at tagged
      rcases tagged with tagged | tagged | tagged <;> contradiction
  | false =>
      rw [if_neg (by rw [flush]; exact Bool.false_ne_true)] at tagged
      rcases tagged with tagged | tagged | tagged
      · exact noTag tagged
      · exact noAbort tagged
      · exact noAbortNi tagged

theorem aborting_state {c : Control} (aborting : Aborting cfg c) :
    c = .abortTransaction ∨ c = .abortTransactionNi :=
  aborting.imp And.left And.left

/-- Something is free when the unit goes on without a new grant. -/
theorem next_room (inv : Inv g s) (prompt : KillAnswered g s i)
    (room : KeepsRoom (next s i).control) : ∃ r, (g.granted s i).owed r = none := by
  have quiet : ldbufW s i = false := by
    by_contra written
    have states := next_of_written (Bool.eq_true_of_not_eq_false written)
    rcases states with state | ⟨state, -⟩ | ⟨abort, -⟩
    · rw [state] at room
      rcases room with other | other | other | other <;> contradiction
    · rw [state] at room
      rcases room with other | other | other | other <;> contradiction
    · rcases aborting_state abort with state | state
      all_goals
        rw [state] at room
        rcases room with other | other | other | other <;> contradiction
  have free : ∀ r, (g.owed r = none ∨ (i.dataRvalid = true ∧ ldbufRindex i = r)) →
      (g.granted s i).owed r = none := by
    intro r cases'
    rw [granted_owed, quiet, answered_owed]
    simp only [Bool.false_eq_true, false_and, if_false]
    rcases cases' with free | answer
    · split
      · rfl
      · rw [Ledger.translated, free]
        rfl
    · rw [if_pos answer]
  have noFlush : i.flush = false := by
    by_contra flush
    rw [next_control, if_pos (Bool.eq_true_of_not_eq_false flush)] at room
    rcases room with other | other | other | other <;> contradiction
  rw [next_control, noFlush, if_neg Bool.false_ne_true] at room
  rw [ldbufW_eq] at quiet
  rcases (moves s i).room quiet room with before | accept | abort
  · obtain ⟨r, none'⟩ := inv.room before
    exact ⟨r, free r (.inl none')⟩
  · simp only [acceptReq, Bool.and_eq_true, Bool.or_eq_true, Bool.not_eq_true'] at accept
    rcases accept.2 with open' | ⟨-, answer⟩
    · obtain ⟨r, empty⟩ := exists_of_not_full s open'
      rw [inv.valid] at empty
      exact ⟨r, free r (.inl (Option.not_isSome_iff_eq_none.mp
        (by rw [empty]; exact Bool.false_ne_true)))⟩
    · exact ⟨ldbufRindex i, free _ (.inr ⟨answer, rfl⟩)⟩
  · obtain ⟨r, fresh, -⟩ := inv.aborting abort
    have kill : (drives s i).killReq = true := by
      rw [killReq_eq]
      exact (moves s i).kills.mpr (.inr (.inr abort))
    exact ⟨r, free r (.inr (prompt r fresh kill))⟩

theorem Inv.next (inv : Inv g s) (prompt : KillAnswered g s i) : Inv (g.next s i) (next s i) where
  valid r := by
    change ldbufValidD s i r = _
    rw [ldbufValidD_apply, next_owed, granted_owed, answered_owed, inv.valid]
    split
    · rfl
    · split
      · rfl
      · rw [Ledger.translated, Option.isSome_map]
  entry r q owed := by
    rw [next_owed, granted_owed] at owed
    rw [next_ldbuf]
    split at owed
    · rename_i here
      rw [if_pos here]
      obtain rfl := Option.some.inj owed
      rfl
    · rename_i elsewhere
      rw [if_neg elsewhere]
      exact inv.entry r q (answered_some inv prompt owed).2
  calm r q owed := by
    rw [next_owed, granted_owed] at owed
    split at owed
    · obtain rfl := Option.some.inj owed
      rfl
    · exact inv.calm r q (answered_some inv prompt owed).2
  ticket r free := by
    rw [next_owed, granted_owed] at free
    rw [next_held, granted_held]
    split at free
    · contradiction
    · rename_i elsewhere
      rw [if_neg fun here => elsewhere ⟨here.1, here.2.1⟩]
      exact answered_none inv free
  stays r isOwed free := by
    rw [next_owed, granted_owed] at isOwed
    rw [next_held, granted_held] at free
    split at isOwed
    · rename_i here
      obtain ⟨written, rfl⟩ := here
      have untaken : (drives s i).popLd = false := by
        by_contra popped
        rw [if_pos ⟨written, rfl, Bool.eq_true_of_not_eq_false popped⟩] at free
        contradiction
      refine ⟨by rw [next_fresh, granted_fresh, if_pos written], ?_⟩
      rcases next_of_written written with flush | ⟨-, popped⟩ | ⟨abort, -⟩
      · exact .inr flush
      · rw [untaken] at popped
        contradiction
      · exact .inl abort
    · rename_i elsewhere
      rw [if_neg fun here => elsewhere ⟨here.1, here.2.1⟩] at free
      exact absurd free (answered_stays inv prompt isOwed)
  fresh r isFresh := by
    rw [next_fresh, granted_fresh] at isFresh
    split at isFresh
    · rename_i written
      obtain rfl := Option.some.inj isFresh
      refine ⟨?_, ?_, ?_⟩
      · change (if ldbufW s i then ldbufWindex s i else s.ldbufLastId) = _
        rw [if_pos written]
      · rw [next_owed, granted_owed, if_pos ⟨written, rfl⟩]
        rfl
      · rcases next_of_written written with flush | ⟨tag, -⟩ | ⟨abort, -⟩
        · exact .inr (.inr flush)
        · exact .inl tag
        · exact .inr (.inl abort)
    · contradiction
  tagged tag := by
    have written := written_of_next (.inl tag)
    exact ⟨ldbufWindex s i, by rw [next_fresh, granted_fresh, if_pos written]⟩
  aborting abort := by
    have written := written_of_next (.inr (aborting_state abort))
    refine ⟨ldbufWindex s i, by rw [next_fresh, granted_fresh, if_pos written], ?_⟩
    rw [next_held, granted_held]
    have untaken : (drives s i).popLd = false := by
      rcases next_of_written written with flush | ⟨tag, -⟩ | ⟨-, untaken⟩
      · rcases aborting_state abort with state | state
        all_goals
          rw [flush] at state
          contradiction
      · rcases aborting_state abort with state | state
        all_goals
          rw [tag] at state
          contradiction
      · exact untaken
    rw [if_neg (by rw [untaken]; rintro ⟨-, -, impossible⟩; contradiction)]
    exact answered_none inv (answered_windex inv written)
  flag r n held := by
    rw [next_held] at held
    have isHeld := held
    rw [granted_held] at held
    rw [next_ldbufFlushed]
    cases flush : i.flush with
    | true =>
        have isVoid : (g.next s i).tickets.void n = true := by
          unfold Ledger.next
          dsimp only
          rw [if_pos flush]
          simp only [Office.voidHeld, Bool.or_eq_true, decide_eq_true_eq]
          exact .inr ⟨r, isHeld⟩
        by_cases here : ldbufW s i = true ∧ r = ldbufWindex s i
        · refine .inr ⟨by rw [next_control, if_pos flush], ?_⟩
          rw [next_fresh, granted_fresh, if_pos here.1, here.2]
        · rw [if_neg here, isVoid]
          exact .inl rfl
    | false =>
        have sameVoid : (g.next s i).tickets.void = g.tickets.void := by
          unfold Ledger.next
          dsimp only
          rw [if_neg (by rw [flush]; exact Bool.false_ne_true)]
          exact granted_void
        rw [sameVoid, Bool.false_or]
        refine .inl ?_
        split at held
        · rename_i here
          obtain rfl := Option.some.inj held
          rw [if_pos ⟨here.1, here.2.1⟩]
          by_contra isVoid
          have before := (answered_exact (i := i) inv.exact).void_lt _
            (by
              rw [answered_void]
              exact Bool.eq_true_of_not_eq_false fun other => isVoid other.symm)
          exact absurd before (Nat.lt_irrefl _)
        · rename_i elsewhere
          have notHere : ¬ (ldbufW s i = true ∧ r = ldbufWindex s i) := by
            rintro ⟨written, rfl⟩
            rw [answered_none inv (answered_windex inv written)] at held
            contradiction
          rw [if_neg notHere]
          rw [answered_held] at held
          split at held
          · contradiction
          · rename_i open'
            rcases inv.flag r n held with same | ⟨wait, fresh⟩
            · exact same
            · have tag := (inv.tag_of_fresh prompt fresh open').1
              rw [wait] at tag
              contradiction
  flushed wait r n held := by
    rw [next_held] at held
    unfold Ledger.next
    dsimp only
    rw [if_pos (waitFlush_of_next wait)]
    simp only [Office.voidHeld, Bool.or_eq_true, decide_eq_true_eq]
    exact .inr ⟨r, held⟩
  room isRoom := by
    rw [next_owed]
    exact next_room inv prompt isRoom
  exact := next_exact inv

/-- The ledger redeems the ticket of the load that an answer is due to. -/
theorem next_redeemed (environment : Environment g s i) :
    (g.next s i).tickets.redeemed =
      g.tickets.redeemed ++ ((due g s i).map (·.load)).toList := by
  have flushed : (g.next s i).tickets.redeemed = (g.granted s i).tickets.redeemed := by
    unfold Ledger.next
    dsimp only
    split <;> rfl
  rw [flushed]
  have granted : (g.granted s i).tickets.redeemed = (g.answered i).tickets.redeemed ++
      (if (drives s i).popLd && !ldbufW s i then [(g.answered i).tickets.issued] else []) := by
    unfold Ledger.granted
    dsimp only
    cases ldbufW s i <;> cases (drives s i).popLd <;> simp [Office.hand, Office.pass]
  rw [granted, due]
  unfold Ledger.answered
  cases answer : i.dataRvalid with
  | true =>
      have noPop : ((drives s i).popLd && !ldbufW s i) = false := by
        by_contra popped
        have both := Bool.eq_true_of_not_eq_false popped
        simp only [Bool.and_eq_true, Bool.not_eq_true'] at both
        rw [popLd_eq, ldbufW_eq] at both
        have silent := ((moves s i).pops both.2 both.1).2.2.2
        rw [answer] at silent
        contradiction
      obtain ⟨q, owed⟩ := Option.isSome_iff_exists.mp (environment.answers answer)
      simp only [if_true, noPop, Bool.false_eq_true, if_false, List.append_nil, Office.returned,
        responseDue, translated_some owed]
      cases g.tickets.redeems (ldbufRindex i) <;> rfl
  | false =>
      simp only [Bool.false_eq_true, if_false]
      cases (drives s i).popLd && !ldbufW s i <;> rfl

theorem inv_of_run {cycles : List ((Ledger cfg × State cfg) × Input cfg)}
    {now : Ledger cfg × State cfg} (run : (machine cfg true).Run cycles now) :
    Inv now.1 now.2 ∧ now.1.tickets.redeemed = validLoads cycles := by
  induction run with
  | reset => exact ⟨.reset, rfl⟩
  | cycle run allowed ih =>
      refine ⟨ih.1.next (allowed.2 rfl), ?_⟩
      rw [validLoads, List.filterMap_append, ← validLoads, ← ih.2]
      refine (next_redeemed allowed.1).trans ?_
      congr 1

/-- In every cycle the outputs are those due, and every load that left the bypass caused
`valid_o` once, unless it was flushed or its response is still owed. -/
theorem loads_accounted (fpPresent : Bool) {cycles : List ((Ledger cfg × State cfg) × Input cfg)}
    {now : Ledger cfg × State cfg} (run : (machine cfg true).Run cycles now) :
    (∀ c ∈ cycles, Accounted c.1.1 c.1.2 c.2 fpPresent) ∧
      ∀ load, (now.1.tickets.settled load → (validLoads cycles).count load = 1) ∧
        (¬ now.1.tickets.settled load → (validLoads cycles).count load = 0) := by
  constructor
  · intro c member
    obtain ⟨before, after, rfl⟩ := List.append_of_mem member
    obtain ⟨earlier, allowed⟩ := run.at_cycle
    exact accounted fpPresent (inv_of_run earlier).1 allowed.1 (allowed.2 rfl)
  · obtain ⟨inv, redeemed⟩ := inv_of_run run
    intro load
    rw [← redeemed]
    exact ⟨inv.exact.once load, inv.exact.never load⟩

end Runs

section Example

instance (g : Ledger cfg) (s : State cfg) (i : Input cfg) : Decidable (Environment g s i) :=
  decidable_of_iff ((i.dataRvalid = true → (g.owed (ldbufRindex i)).isSome = true) ∧
      (s.control = .waitTranslation → i.valid = true))
    ⟨fun ⟨answers, held⟩ => ⟨answers, held⟩, fun ⟨answers, held⟩ => ⟨answers, held⟩⟩

instance (g : Ledger cfg) (s : State cfg) (i : Input cfg) : Decidable (KillAnswered g s i) :=
  inferInstanceAs (Decidable (∀ r, g.fresh = some r → (drives s i).killReq = true →
    i.dataRvalid = true ∧ ldbufRindex i = r))

instance (prompt : Bool) (cycles : List ((Ledger cfg × State cfg) × Input cfg))
    (now : Ledger cfg × State cfg) (i : Input cfg) :
    Decidable ((machine cfg prompt).allowed cycles now i) :=
  inferInstanceAs (Decidable (_ ∧ _))

/-- Two buffer entries, 32-bit data and a translation. -/
private theorem page_inside : 12 ≤ 16 := by decide

private def twoLoads : LsuCfg where
  plen := 16
  xlen := 32
  dcacheIndexWidth := 12
  indexInside := page_inside
  vlen := 16
  ppnw := 4
  transIdBits := 2
  mmuPresent := true
  rva := false
  nonIdemPotenceEn := false
  nonIdempotent := fun _ => false
  nrLoadBufEntries := 2
  someLoadBuf := Nat.two_pos

/-- A word load that is granted; the cache may answer at the same time. -/
private def wordLoad (transId : BitVec 2) (dtlbHit : Bool) (answer : Option (Fin 2)) :
    Input twoLoads where
  flush := false
  valid := true
  lsuCtrl :=
    { LsuCtrl.zero twoLoads with
      valid := true, fu := .load, operation := .lw, vaddr := 0x1000, transId := transId }
  exValid := false
  dtlbHit := dtlbHit
  dtlbPpn := 0
  pageOffsetMatches := false
  storeBufferEmpty := true
  commitTranId := 0
  dcacheWbufferNotNi := true
  dataGnt := true
  dataRvalid := answer.isSome
  dataRid := answer.getD (0 : Fin 2)

/-- The second load misses the translation and is killed before the first one is answered. -/
private def killedBetween : List (Input twoLoads) :=
  [wordLoad 1 true none, wordLoad 2 false none, wordLoad 2 false (some (1 : Fin 2)),
    wordLoad 2 false (some (0 : Fin 2))]

theorem loads_accounted_killed :
    let m := machine twoLoads true
    (∀ c ∈ m.cyclesOf m.reset killedBetween, Accounted c.1.1 c.1.2 c.2 false) ∧
      ∀ load, ((m.after m.reset killedBetween).1.tickets.settled load →
          (validLoads (m.cyclesOf m.reset killedBetween)).count load = 1) ∧
        (¬ (m.after m.reset killedBetween).1.tickets.settled load →
          (validLoads (m.cyclesOf m.reset killedBetween)).count load = 0) := by
  intro m
  exact loads_accounted false (Clocked.Machine.run_of_accepts killedBetween (by decide +kernel))

/-- The answer to a killed request that comes one cycle after the kill is taken for a load. -/
theorem late_kill_answers : ¬ ∀ (cfg : LsuCfg) (fpPresent : Bool)
    (cycles : List ((Ledger cfg × State cfg) × Input cfg)) (now : Ledger cfg × State cfg),
    (machine cfg false).Run cycles now →
      ∀ c ∈ cycles, Accounted c.1.1 c.1.2 c.2 fpPresent := by
  intro always
  let inputs := [wordLoad 1 false none, wordLoad 1 false none, wordLoad 1 false (some (0 : Fin 2))]
  have run := Clocked.Machine.run_of_accepts (m := machine twoLoads false) inputs
    (by decide +kernel)
  have valid : ∀ c ∈ (machine twoLoads false).cyclesOf (machine twoLoads false).reset inputs,
      validO c.1.2 c.2 = (due c.1.1 c.1.2 c.2).isSome :=
    fun c member => (always twoLoads false _ _ run c member).valid
  revert valid
  decide +kernel

end Example

end Cva6.LoadUnit
