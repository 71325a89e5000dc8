import RiscvCores.Cva6.WtDcacheCtrl

/-!
# Runs of the read port controller

Each granted request is answered once, with its own id, however often it is replayed and
whenever it is killed.  A miss that the miss unit has accepted is waited for, also when its
request has been killed.
-/

set_option autoImplicit false

namespace Cva6.DcacheCtrl

open Clocked

variable {cfg : DcacheCtrlCfg}

/-- A granted request; its tag comes later. -/
structure Request (cfg : DcacheCtrlCfg) where
  id : BitVec cfg.idWidth
  idx : Idx cfg
  off : Off cfg
  size : BitVec 2
  deriving DecidableEq

/-- The controller with what has passed its ports: the granted request that is owed an
answer, the last granted request with the tag that followed it, and whether the miss unit
has accepted a transaction that has not returned. -/
structure Port (cfg : DcacheCtrlCfg) where
  ctrl : Regs cfg
  owed : Option (Request cfg)
  last : Option (Request cfg)
  tag : Option (Tag cfg)
  accepted : Bool

def requestOf (i : Input cfg) : Request cfg :=
  ⟨i.dataId, idxOf i.addressIndex, offOf i.addressIndex, i.dataSize⟩

/-- The request in the registers. -/
def requestIn (s : Regs cfg) : Request cfg :=
  ⟨s.id, s.addressIdx, s.addressOff, s.dataSize⟩

def portNext (s : Port cfg) (i : Input cfg) : Port cfg :=
  let d := drive s.ctrl i
  { ctrl := next s.ctrl i
    owed := if d.dataGnt then some (requestOf i) else if d.dataRvalid then none else s.owed
    last := if d.dataGnt then some (requestOf i) else s.last
    tag :=
      if d.dataGnt then none
      else if i.tagValid && s.tag.isNone then some i.addressTag else s.tag
    accepted :=
      if s.accepted then !i.missRtrnVld else d.missReq && i.missAck }

/-- The tag or a kill follows each grant, and the miss unit, which replays a miss instead of
asking the memory, does not accept it in the same cycle. -/
def Served (s : Port cfg) (i : Input cfg) : Prop :=
  (s.ctrl.state = .read → i.tagValid = true ∨ i.killReq = true) ∧
    ¬ (i.missAck = true ∧ i.missReplay = true)

instance (s : Port cfg) (i : Input cfg) : Decidable (Served s i) :=
  inferInstanceAs (Decidable (_ ∧ _))

def machine (cfg : DcacheCtrlCfg) : Machine (Port cfg) (Input cfg) where
  reset := { ctrl := reset, owed := none, last := none, tag := none, accepted := false }
  next := portNext
  allowed _ s i := Served s i

instance (cycles : List (Port cfg × Input cfg)) (s : Port cfg) (i : Input cfg) :
    Decidable ((machine cfg).allowed cycles s i) :=
  inferInstanceAs (Decidable (Served s i))

/-! ## States -/

/-- The granted request has not been answered. -/
def Fsm.owes : Fsm → Bool
  | .read | .missReq | .missWait | .replayReq | .replayRead => true
  | .idle | .killMiss | .killMissAck => false

/-- A transaction is in flight. -/
def Fsm.inFlight : Fsm → Bool
  | .missWait | .killMiss => true
  | _ => false

/-- The tag has been saved. -/
def Fsm.tagged : Fsm → Bool
  | .idle | .read => false
  | _ => true

/-! ## What a cycle does -/

/-- Where the state machine goes and what it drives on the way. -/
structure Moves (s : Regs cfg) (i : Input cfg) : Prop where
  owes : (drive s i).state.owes =
    ((drive s i).dataGnt || s.state.owes && !(drive s i).dataRvalid)
  answers : (drive s i).dataRvalid = true → s.state.owes = true
  flight : ¬ (i.missAck = true ∧ i.missReplay = true) → (drive s i).state.inFlight =
    if s.state.inFlight then !i.missRtrnVld else (drive s i).missReq && i.missAck
  grants : (drive s i).dataGnt = true →
    (drive s i).state = .read ∧ i.rdAck = true ∧ (drive s i).missReq = false ∧
      s.state.inFlight = false ∧ (s.state.owes = true → (drive s i).dataRvalid = true)
  leaves : s.state = .idle → (drive s i).state ≠ .idle → (drive s i).dataGnt = true
  reads : (drive s i).state = .read →
    (drive s i).dataGnt = true ∨
      s.state = .read ∧ i.tagValid = false ∧ i.killReq = false
  replays : (drive s i).state = .replayRead → i.rdAck = true
  tags : (drive s i).state.tagged = true →
    (drive s i).dataGnt = false ∧
      (s.state.tagged = true ∧ (drive s i).saveTag = false ∨
        s.state = .read ∧ (drive s i).saveTag = true ∧ i.tagValid = true)
  requests : (drive s i).missReq = true → s.state.tagged = true

theorem moves_idle {s : Regs cfg} (idle : s.state = .idle) (i : Input cfg) : Moves s i := by
  have driven : drive s i =
      if i.dataReq then
        { state := if i.rdAck then .read else .idle, rdReq := true, dataGnt := i.rdAck }
      else { state := .idle } := by
    simp only [drive, idle]
  cases asks : i.dataReq with
  | false =>
      rw [asks] at driven
      constructor
      all_goals simp [driven, idle, Fsm.owes, Fsm.inFlight, Fsm.tagged]
  | true =>
      cases acked : i.rdAck with
      | false =>
          rw [asks, acked] at driven
          constructor
          all_goals simp [driven, idle, Fsm.owes, Fsm.inFlight, Fsm.tagged]
      | true =>
          rw [asks, acked] at driven
          constructor
          all_goals simp [driven, idle, acked, Fsm.owes, Fsm.inFlight, Fsm.tagged]

theorem moves_lookUp {s : Regs cfg} (looking : s.state = .read ∨ s.state = .replayRead)
    (i : Input cfg) : Moves s i := by
  have driven : drive s i = lookUp s i := by
    rcases looking with state | state
    · simp only [drive, state]
    · simp only [drive, state]
  unfold lookUp at driven
  have shape : s.state.owes = true ∧ s.state.inFlight = false := by
    rcases looking with state | state
    · simp [state, Fsm.owes, Fsm.inFlight]
    · simp [state, Fsm.owes, Fsm.inFlight]
  constructor
  all_goals
    rw [driven]
    split_ifs
    all_goals grind [Fsm.owes, Fsm.inFlight, Fsm.tagged]

theorem moves_missReq {s : Regs cfg} (asking : s.state = .missReq) (i : Input cfg) :
    Moves s i := by
  have driven : drive s i = missReqState s i := by simp only [drive, asking]
  unfold missReqState at driven
  constructor
  all_goals
    rw [driven]
    split_ifs
    all_goals grind [Fsm.owes, Fsm.inFlight, Fsm.tagged]

theorem moves_missWait {s : Regs cfg} (waiting : s.state = .missWait) (i : Input cfg) :
    Moves s i := by
  have driven : drive s i = missWaitState s i := by simp only [drive, waiting]
  unfold missWaitState at driven
  constructor
  all_goals
    rw [driven]
    split_ifs
    all_goals grind [Fsm.owes, Fsm.inFlight, Fsm.tagged]

theorem moves_replayReq {s : Regs cfg} (replaying : s.state = .replayReq) (i : Input cfg) :
    Moves s i := by
  have driven : drive s i = replayReqState s i := by simp only [drive, replaying]
  unfold replayReqState at driven
  constructor
  all_goals
    rw [driven]
    split_ifs
    all_goals grind [Fsm.owes, Fsm.inFlight, Fsm.tagged]

theorem moves_killed {s : Regs cfg} (killed : s.state = .killMissAck ∨ s.state = .killMiss)
    (i : Input cfg) : Moves s i := by
  rcases killed with state | state
  · have driven : drive s i =
        { state :=
            if i.missReplay then .idle else if i.missAck then .killMiss else .killMissAck
          missReq := true } := by
      simp only [drive, state]
    constructor
    all_goals
      rw [driven]
      grind [Fsm.owes, Fsm.inFlight, Fsm.tagged]
  · have driven : drive s i = { state := if i.missRtrnVld then .idle else .killMiss } := by
      simp only [drive, state]
    constructor
    all_goals
      rw [driven]
      grind [Fsm.owes, Fsm.inFlight, Fsm.tagged]

theorem moves (s : Regs cfg) (i : Input cfg) : Moves s i := by
  cases state : s.state with
  | idle => exact moves_idle state i
  | read => exact moves_lookUp (.inl state) i
  | replayRead => exact moves_lookUp (.inr state) i
  | missReq => exact moves_missReq state i
  | missWait => exact moves_missWait state i
  | replayReq => exact moves_replayReq state i
  | killMissAck => exact moves_killed (.inl state) i
  | killMiss => exact moves_killed (.inr state) i

/-! ## Every cycle -/

structure Inv (s : Port cfg) : Prop where
  owed : s.owed = if s.ctrl.state.owes then some (requestIn s.ctrl) else none
  last : s.ctrl.state ≠ .idle → s.last = some (requestIn s.ctrl)
  untagged : s.ctrl.state = .read → s.tag = none
  tagged : s.ctrl.state.tagged = true → s.tag = some s.ctrl.addressTag
  accepted : s.accepted = s.ctrl.state.inFlight
  acked : s.ctrl.state = .read ∨ s.ctrl.state = .replayRead → s.ctrl.rdAck = true

variable {s : Port cfg} {i : Input cfg}

/-- The request in the registers changes with a grant only. -/
theorem requestIn_next (s : Regs cfg) (i : Input cfg) :
    requestIn (next s i) = if (drive s i).dataGnt then requestOf i else requestIn s := by
  unfold requestIn next requestOf
  cases (drive s i).dataGnt with
  | false => rfl
  | true => rfl

theorem state_next (s : Regs cfg) (i : Input cfg) : (next s i).state = (drive s i).state := rfl

theorem owes_not_idle {state : Fsm} (owes : state.owes = true) : state ≠ .idle := by
  rintro rfl
  cases owes

theorem Inv.next (inv : Inv s) (served : Served s i) : Inv (portNext s i) := by
  have moves := moves s.ctrl i
  have stays : (drive s.ctrl i).state = .read → (drive s.ctrl i).dataGnt = true := by
    intro reads
    rcases moves.reads reads with granted | ⟨reading, untagged, alive⟩
    · exact granted
    · rcases served.1 reading with tag | kill
      · rw [untagged] at tag
        cases tag
      · rw [alive] at kill
        cases kill
  have shape : (portNext s i).ctrl = DcacheCtrl.next s.ctrl i := rfl
  constructor
  · rw [shape, state_next, moves.owes, requestIn_next]
    simp only [portNext]
    cases granted : (drive s.ctrl i).dataGnt with
    | true => rfl
    | false =>
        rw [inv.owed]
        cases (drive s.ctrl i).dataRvalid with
        | false => simp
        | true => simp
  · rw [shape, state_next, requestIn_next]
    intro busy
    simp only [portNext]
    cases granted : (drive s.ctrl i).dataGnt with
    | true => rfl
    | false =>
        apply inv.last
        intro idle
        rw [moves.leaves idle busy] at granted
        cases granted
  · rw [shape, state_next]
    intro reads
    simp only [portNext, stays reads, if_true]
  · rw [shape, state_next]
    intro tagged
    obtain ⟨ungranted, kept | ⟨reading, saves, valid⟩⟩ := moves.tags tagged
    · simp [portNext, DcacheCtrl.next, ungranted, inv.tagged kept.1, kept.2]
    · simp [portNext, DcacheCtrl.next, ungranted, inv.untagged reading, saves, valid]
  · rw [shape, state_next, moves.flight served.2]
    simp only [portNext, inv.accepted]
  · rw [shape, state_next]
    rintro (reads | replays)
    · exact (moves.grants (stays reads)).2.1
    · exact moves.replays replays

theorem inv_of_run {cycles : List (Port cfg × Input cfg)} (run : (machine cfg).Run cycles s) :
    Inv s := by
  induction run with
  | reset =>
      constructor
      · rfl
      · intro busy
        exact absurd rfl busy
      · intro reads
        cases reads
      · intro tagged
        cases tagged
      · rfl
      · rintro (reads | replays)
        · cases reads
        · cases replays
  | cycle _ served ih => exact ih.next served

/-! ## An outstanding request is answered -/

/-- The ids of the answers in a cycle. -/
def answersOf (s : Port cfg) (i : Input cfg) : List (BitVec cfg.idWidth) :=
  if (drive s.ctrl i).dataRvalid then [dataRid s.ctrl] else []

/-- The ids of the requests granted in a cycle. -/
def grantsOf (s : Port cfg) (i : Input cfg) : List (BitVec cfg.idWidth) :=
  if (drive s.ctrl i).dataGnt then [i.dataId] else []

/-- Endless inputs under which reads are granted, misses are accepted and returned, and
replays end. -/
structure Fair (s : Port cfg) (feed : Nat → Input cfg) : Prop where
  served : ∀ t, Served ((machine cfg).trace s feed t) (feed t)
  reads : ∀ t, ∃ k, (feed (t + k)).rdAck = true
  accepts : ∀ t, ∃ k, (feed (t + k)).missAck = true
  returns : ∀ t, ∃ k, (feed (t + k)).missRtrnVld = true
  settles : ∃ settled, ∀ t, settled ≤ t →
    (feed t).missReplay = false ∧ (feed t).wrClVld = false

section Answering

variable {start : Port cfg} {feed : Nat → Input cfg} {id : BitVec cfg.idWidth}

/-- The request `id` is outstanding after `t` cycles without an answer. -/
structure Pending (start : Port cfg) (feed : Nat → Input cfg) (id : BitVec cfg.idWidth)
    (t : Nat) (s : Port cfg) : Prop where
  segment : (machine cfg).Segment answersOf feed 0 start [] t s
  owes : s.ctrl.state.owes = true
  here : s.ctrl.id = id
  inv : Inv s

/-- The request `id` is answered, with no other answer before. -/
def Answered (start : Port cfg) (feed : Nat → Input cfg) (id : BitVec cfg.idWidth) : Prop :=
  ∃ t s, (machine cfg).Segment answersOf feed 0 start [id] t s

theorem Pending.served {t : Nat} (pending : Pending start feed id t s) (fair : Fair start feed) :
    Served s (feed t) := by
  rw [← pending.segment.trace_log.1]
  exact fair.served t

theorem Pending.answered {t : Nat} (pending : Pending start feed id t s)
    (answers : (drive s.ctrl (feed t)).dataRvalid = true) : Answered start feed id := by
  have step := pending.segment.cycle
  have emits : answersOf s (feed t) = [id] := by
    rw [answersOf, if_pos answers, dataRid, pending.here]
  rw [emits] at step
  exact ⟨_, _, step⟩

/-- One more cycle. -/
theorem Pending.next {t : Nat} (pending : Pending start feed id t s)
    (fair : Fair start feed) :
    Answered start feed id ∨ Pending start feed id (t + 1) (portNext s (feed t)) := by
  cases answers : (drive s.ctrl (feed t)).dataRvalid with
  | true => exact .inl (pending.answered answers)
  | false =>
      right
      have moves := moves s.ctrl (feed t)
      have ungranted : (drive s.ctrl (feed t)).dataGnt = false := by
        apply Bool.eq_false_of_not_eq_true
        intro granted
        rw [(moves.grants granted).2.2.2.2 pending.owes] at answers
        cases answers
      have step := pending.segment.cycle
      have silent : answersOf s (feed t) = [] := by
        rw [answersOf, answers]
        rfl
      rw [silent] at step
      refine ⟨step, ?_, ?_, pending.inv.next (pending.served fair)⟩
      · change (drive s.ctrl (feed t)).state.owes = true
        rw [moves.owes, ungranted, pending.owes, answers]
        rfl
      · change (if (drive s.ctrl (feed t)).dataGnt then _ else s.ctrl.id) = id
        rw [ungranted]
        exact pending.here

/-- A state that lasts until `p` holds of the inputs. -/
theorem Pending.wait {t : Nat} (fair : Fair start feed) (state : Fsm) (p : Input cfg → Prop)
    (stays : ∀ (s : Regs cfg) i, s.state = state → ¬ p i → (drive s i).state = state)
    (eventually : ∃ k, p (feed (t + k))) (pending : Pending start feed id t s)
    (there : s.ctrl.state = state) :
    Answered start feed id ∨
      ∃ t' s', t ≤ t' ∧ Pending start feed id t' s' ∧ s'.ctrl.state = state ∧ p (feed t') := by
  obtain ⟨k, fires⟩ := eventually
  induction k generalizing t s with
  | zero => exact .inr ⟨t, s, le_rfl, pending, there, fires⟩
  | succ k ih =>
      by_cases fired : p (feed t)
      · exact .inr ⟨t, s, le_rfl, pending, there, fired⟩
      · rcases pending.next fair with answered | later
        · exact .inl answered
        · have fires' : p (feed (t + 1 + k)) := by
            rwa [Nat.add_assoc, Nat.add_comm 1 k]
          rcases ih later (stays _ _ there fired) fires' with answered | ⟨t', s', le, rest⟩
          · exact .inl answered
          · exact .inr ⟨t', s', (Nat.le_succ t).trans le, rest⟩

theorem Pending.missWait {t : Nat} (fair : Fair start feed)
    (pending : Pending start feed id t s) (there : s.ctrl.state = .missWait) :
    Answered start feed id := by
  have stays : ∀ (s : Regs cfg) i, s.state = .missWait →
      ¬ (i.missRtrnVld = true ∨ i.killReq = true) → (drive s i).state = .missWait := by
    intro s i waiting quiet
    simp only [not_or, Bool.not_eq_true] at quiet
    simp [drive, waiting, missWaitState, quiet]
  have eventually : ∃ k, (feed (t + k)).missRtrnVld = true ∨ (feed (t + k)).killReq = true := by
    obtain ⟨k, returns⟩ := fair.returns t
    exact ⟨k, .inl returns⟩
  rcases pending.wait fair .missWait _ stays eventually there with
    answered | ⟨t', s', -, later, waiting, fires⟩
  · exact answered
  · apply later.answered
    rcases fires with returns | kills
    · simp only [drive, waiting, missWaitState, returns, if_true]
      split
      · rfl
      · rfl
    · simp [drive, waiting, missWaitState, kills]

theorem Pending.missReq {t settled : Nat} (fair : Fair start feed)
    (quiet : ∀ t, settled ≤ t → (feed t).missReplay = false ∧ (feed t).wrClVld = false)
    (late : settled ≤ t) (pending : Pending start feed id t s)
    (there : s.ctrl.state = .missReq) : Answered start feed id := by
  have stays : ∀ (s : Regs cfg) i, s.state = .missReq →
      ¬ (i.missAck = true ∨ i.killReq = true ∨ i.missReplay = true) →
      (drive s i).state = .missReq := by
    intro s i asking quiet
    simp only [not_or, Bool.not_eq_true] at quiet
    simp [drive, asking, missReqState, quiet]
  have eventually : ∃ k, (feed (t + k)).missAck = true ∨ (feed (t + k)).killReq = true ∨
      (feed (t + k)).missReplay = true := by
    obtain ⟨k, accepts⟩ := fair.accepts t
    exact ⟨k, .inl accepts⟩
  rcases pending.wait fair .missReq _ stays eventually there with
    answered | ⟨t', s', le, later, asking, fires⟩
  · exact answered
  · have calm := (quiet t' (late.trans le)).1
    cases kills : (feed t').killReq with
    | true =>
        apply later.answered
        simp [drive, asking, missReqState, kills]
    | false =>
        have accepts : (feed t').missAck = true := by simpa [kills, calm] using fires
        rcases later.next fair with answered | waiting
        · exact answered
        · apply waiting.missWait fair
          change (drive s'.ctrl (feed t')).state = .missWait
          simp [drive, asking, missReqState, kills, calm, accepts]

/-- A look-up that is not disturbed. -/
theorem Pending.lookUp {t settled : Nat} (fair : Fair start feed)
    (quiet : ∀ t, settled ≤ t → (feed t).missReplay = false ∧ (feed t).wrClVld = false)
    (late : settled ≤ t) (pending : Pending start feed id t s)
    (there : s.ctrl.state = .read ∨ s.ctrl.state = .replayRead) : Answered start feed id := by
  have calm := (quiet t late).2
  have acked := pending.inv.acked there
  have served := pending.served fair
  have driven : drive s.ctrl (feed t) = DcacheCtrl.lookUp s.ctrl (feed t) := by
    rcases there with state | state
    · simp only [drive, state]
    · simp only [drive, state]
  cases kills : (feed t).killReq with
  | true =>
      apply pending.answered
      rw [driven]
      simp [DcacheCtrl.lookUp, kills]
  | false =>
      have known : ((feed t).tagValid || s.ctrl.state == .replayRead) = true := by
        rcases there with state | state
        · rcases served.1 state with tag | kill
          · simp [tag]
          · rw [kills] at kill
            cases kill
        · simp [state]
      cases hit : anyHit (feed t) && (feed t).cacheEn with
      | true =>
          apply pending.answered
          rw [driven]
          simp only [DcacheCtrl.lookUp, kills, known, calm, acked, hit, Bool.false_eq_true,
            if_false, if_true, Bool.not_true, Bool.or_self]
          split
          · rfl
          · rfl
      | false =>
          rcases pending.next fair with answered | asking
          · exact answered
          · apply asking.missReq fair quiet (late.trans (Nat.le_succ t))
            change (drive s.ctrl (feed t)).state = .missReq
            rw [driven]
            simp only [DcacheCtrl.lookUp, kills, known, calm, acked, hit, Bool.false_eq_true,
              if_false, if_true, Bool.not_true, Bool.or_self]

theorem Pending.replayReq {t settled : Nat} (fair : Fair start feed)
    (quiet : ∀ t, settled ≤ t → (feed t).missReplay = false ∧ (feed t).wrClVld = false)
    (late : settled ≤ t) (pending : Pending start feed id t s)
    (there : s.ctrl.state = .replayReq) : Answered start feed id := by
  have stays : ∀ (s : Regs cfg) i, s.state = .replayReq →
      ¬ (i.rdAck = true ∨ i.killReq = true) → (drive s i).state = .replayReq := by
    intro s i replaying quiet
    simp only [not_or, Bool.not_eq_true] at quiet
    simp [drive, replaying, replayReqState, quiet]
  have eventually : ∃ k, (feed (t + k)).rdAck = true ∨ (feed (t + k)).killReq = true := by
    obtain ⟨k, reads⟩ := fair.reads t
    exact ⟨k, .inl reads⟩
  rcases pending.wait fair .replayReq _ stays eventually there with
    answered | ⟨t', s', le, later, replaying, fires⟩
  · exact answered
  · cases kills : (feed t').killReq with
    | true =>
        apply later.answered
        simp [drive, replaying, replayReqState, kills]
    | false =>
        have reads : (feed t').rdAck = true := by simpa [kills] using fires
        rcases later.next fair with answered | reading
        · exact answered
        · apply reading.lookUp fair quiet ((late.trans le).trans (Nat.le_succ t'))
          right
          change (drive s'.ctrl (feed t')).state = .replayRead
          simp [drive, replaying, replayReqState, kills, reads]

/-- The request stays outstanding until the replays have ended. -/
theorem Pending.until {start : Port cfg} (pending : Pending start feed id 0 start)
    (fair : Fair start feed) (t : Nat) :
    Answered start feed id ∨ ∃ s, Pending start feed id t s := by
  induction t with
  | zero => exact .inr ⟨start, pending⟩
  | succ t ih =>
      rcases ih with answered | ⟨s, earlier⟩
      · exact .inl answered
      · rcases earlier.next fair with answered | later
        · exact .inl answered
        · exact .inr ⟨_, later⟩

theorem answered_of_fair (inv : Inv start) (fair : Fair start feed)
    (owes : start.ctrl.state.owes = true) : Answered start feed start.ctrl.id := by
  have pending : Pending start feed start.ctrl.id 0 start := ⟨.here, owes, rfl, inv⟩
  obtain ⟨settled, quiet⟩ := fair.settles
  rcases pending.until fair settled with answered | ⟨s, later⟩
  · exact answered
  · cases state : s.ctrl.state with
    | read => exact later.lookUp fair quiet le_rfl (.inl state)
    | replayRead => exact later.lookUp fair quiet le_rfl (.inr state)
    | missReq => exact later.missReq fair quiet le_rfl state
    | missWait => exact later.missWait fair state
    | replayReq => exact later.replayReq fair quiet le_rfl state
    | idle =>
        have none := later.owes
        rw [state] at none
        cases none
    | killMissAck =>
        have none := later.owes
        rw [state] at none
        cases none
    | killMiss =>
        have none := later.owes
        rw [state] at none
        cases none

end Answering

/-! ## One answer for each grant -/

/-- What has been granted has been answered, but for the outstanding request. -/
theorem ledger_of_run {cycles : List (Port cfg × Input cfg)} (run : (machine cfg).Run cycles s) :
    cycles.flatMap (fun c => grantsOf c.1 c.2) =
      cycles.flatMap (fun c => answersOf c.1 c.2) ++ (s.owed.map Request.id).toList := by
  induction run with
  | reset => rfl
  | @cycle cycles s i run served ih =>
      have inv := inv_of_run run
      have moves := moves s.ctrl i
      have owed : s.owed = if s.ctrl.state.owes then some (requestIn s.ctrl) else none := inv.owed
      have later : (portNext s i).owed =
          if (drive s.ctrl i).dataGnt then some (requestOf i)
          else if (drive s.ctrl i).dataRvalid then none else s.owed := rfl
      change _ = _ ++ ((portNext s i).owed.map Request.id).toList
      rw [List.flatMap_append, List.flatMap_append, ih, later]
      simp only [List.flatMap_cons, List.flatMap_nil, List.append_nil, grantsOf, answersOf]
      cases answers : (drive s.ctrl i).dataRvalid with
      | true =>
          rw [owed, if_pos (moves.answers answers)]
          cases (drive s.ctrl i).dataGnt with
          | true => simp [requestOf, requestIn, dataRid]
          | false => simp [requestIn, dataRid]
      | false =>
          cases granted : (drive s.ctrl i).dataGnt with
          | false => simp
          | true =>
              have free : s.ctrl.state.owes = false := by
                apply Bool.eq_false_of_not_eq_true
                intro owes
                rw [(moves.grants granted).2.2.2.2 owes] at answers
                cases answers
              simp [owed, free, requestOf]

/-- The answers after a run, in its next cycle and from there on. -/
structure AnswersOnce (cycles : List (Port cfg × Input cfg)) (s : Port cfg) : Prop where
  ledger : cycles.flatMap (fun c => grantsOf c.1 c.2) =
    cycles.flatMap (fun c => answersOf c.1 c.2) ++ (s.owed.map Request.id).toList
  answers : ∀ i, (drive s.ctrl i).dataRvalid = true →
    ∃ request, s.owed = some request ∧ dataRid s.ctrl = request.id
  /-- A grant waits for the answer before and for what the miss unit has accepted. -/
  grants : ∀ i, (drive s.ctrl i).dataGnt = true →
    (s.owed = none ∨ (drive s.ctrl i).dataRvalid = true) ∧ s.accepted = false ∧
      (drive s.ctrl i).missReq = false
  address : ∀ i, (drive s.ctrl i).missReq = true ∨ s.accepted = true →
    ∃ request tag, s.last = some request ∧ s.tag = some tag ∧
      missPaddr s.ctrl = tag ++ (request.idx ++ request.off) ∧
      missSize s.ctrl i = if missNc s.ctrl i then 0#1 ++ request.size else 7
  served : ∀ feed, Fair s feed → ∀ request, s.owed = some request → Answered s feed request.id

theorem answers_once {cycles : List (Port cfg × Input cfg)} (run : (machine cfg).Run cycles s) :
    AnswersOnce cycles s := by
  have inv := inv_of_run run
  exact
    { ledger := ledger_of_run run
      answers := by
        intro i answers
        have owes := (moves s.ctrl i).answers answers
        exact ⟨requestIn s.ctrl, by rw [inv.owed, if_pos owes], rfl⟩
      grants := by
        intro i granted
        obtain ⟨-, -, unasked, landed, answers⟩ := (moves s.ctrl i).grants granted
        refine ⟨?_, inv.accepted.trans landed, unasked⟩
        cases owes : s.ctrl.state.owes with
        | true => exact .inr (answers owes)
        | false =>
            left
            rw [inv.owed, owes]
            rfl
      address := by
        intro i outstanding
        have tagged : s.ctrl.state.tagged = true := by
          rcases outstanding with asks | accepted
          · exact (moves s.ctrl i).requests asks
          · rw [inv.accepted] at accepted
            cases state : s.ctrl.state with
            | missWait => rfl
            | killMiss => rfl
            | idle => simp [state, Fsm.inFlight] at accepted
            | read => simp [state, Fsm.inFlight] at accepted
            | missReq => rfl
            | killMissAck => rfl
            | replayReq => rfl
            | replayRead => rfl
        have busy : s.ctrl.state ≠ .idle := by
          intro idle
          rw [idle] at tagged
          cases tagged
        exact ⟨requestIn s.ctrl, s.ctrl.addressTag, inv.last busy, inv.tagged tagged, rfl, rfl⟩
      served := by
        intro feed fair request owed
        have owes : s.ctrl.state.owes = true := by
          by_contra free
          rw [inv.owed, if_neg free] at owed
          cases owed
        have held : requestIn s.ctrl = request := by
          rw [inv.owed, if_pos owes] at owed
          exact Option.some.inj owed
        rw [← held]
        exact answered_of_fair inv fair owes }

private def smallPort : DcacheCtrlCfg where
  xlen64 := true
  tagWidth := 4
  indexWidth := 6
  offsetWidth := 4
  setAssoc := 1
  memTidWidth := 1
  wbufDepth := 1
  fpgaEn := false
  dataUserEn := false
  nonIdemPotenceEn := false
  isInsideCacheableRegions := fun _ => true
  isInsideNonidempotentRegions := fun _ => false
  someEntries := Nat.one_pos
  wordInLine := by decide
  lineInIndex := by decide
  wordInTag := by decide
  idWidth := 2
  userWidth := 1
  rdTxId := 0

/-- A request for a word that misses. -/
private def missing (kill missAck : Bool) : Input smallPort where
  cacheEn := true
  dataReq := true
  addressIndex := 0x28
  addressTag := 5
  dataId := 2
  dataSize := 3
  tagValid := true
  killReq := kill
  missAck := missAck
  missReplay := false
  missRtrnVld := false
  wrClVld := false
  rdAck := true
  rdData := 0
  rdUser := 0
  rdVldBits := fun _ => false
  rdHitOh := fun _ => false

theorem answers_once_killed :
    let m : Machine (Port smallPort) (Input smallPort) := machine smallPort
    AnswersOnce
      (m.cyclesOf m.reset [missing false false, missing false false, missing true true])
      (m.after m.reset [missing false false, missing false false, missing true true]) := by
  intro m
  exact answers_once (Machine.run_of_accepts _ (by decide))

end Cva6.DcacheCtrl
