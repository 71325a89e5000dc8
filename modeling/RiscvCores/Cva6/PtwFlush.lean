import RiscvCores.Cva6.PtwPath

/-!
# Aborted walks

The walker with a data cache that grants and answers when it likes, while flushes abort
walks in any cycle.  A response is registered before it is looked at, so a flush may meet
a request that waits, one that is being granted, one that is owed its response and one
whose response lies in the register.
-/

set_option autoImplicit false

namespace Cva6.Ptw

open Clocked

/-- A granted request with the walk that made it. -/
structure Request (c : Scheme) where
  walk : Nat
  pptr : PAddr c
  deriving DecidableEq

structure Response (c : Scheme) where
  request : Request c
  data : Pte c
  deriving DecidableEq

/-- The walker and what has passed its port: the walks started, those a flush has met in
an earlier cycle, the requests that are owed a response, the response in `data_rdata_q`,
the last one that `PTE_LOOKUP` has examined and the request granted one cycle before. -/
structure Traffic (c : Scheme) where
  ptw : Regs c
  walk : Nat
  aborted : List Nat
  owed : List (Request c)
  answered : Option (Response c)
  examined : Option (Response c)
  granted : Option (Request c)

/-- `answers` is the request that a response belongs to. -/
structure TrafficInput (c : Scheme) (n : Nat) where
  pins : Input c n
  answers : Nat

section Traffic

variable {c : Scheme} {n : Nat}

/-- The request granted in this cycle. -/
def grantedNow (s : Traffic c) (i : TrafficInput c n) : Option (Request c) :=
  if (drive i.pins s.ptw).dataReq && i.pins.dataGnt then some ⟨s.walk, s.ptw.ptwPptr⟩
  else none

/-- The requests that can be answered in this cycle. -/
def openRequests (s : Traffic c) (i : TrafficInput c n) : List (Request c) :=
  s.owed ++ (grantedNow s i).toList

def walkNow (s : Traffic c) (i : TrafficInput c n) : Nat :=
  if (drive i.pins s.ptw).sharedTlbMiss then s.walk + 1 else s.walk

/-- The flush meets a walk. -/
def aborts (s : Traffic c) (i : TrafficInput c n) : Bool :=
  i.pins.flush && (ptwActive s.ptw || (drive i.pins s.ptw).sharedTlbMiss)

def trafficNext (s : Traffic c) (i : TrafficInput c n) : Traffic c where
  ptw := next s.ptw i.pins
  walk := walkNow s i
  aborted := if aborts s i then walkNow s i :: s.aborted else s.aborted
  owed :=
    if i.pins.dataRvalid then (openRequests s i).eraseIdx i.answers else openRequests s i
  answered :=
    if i.pins.dataRvalid then
      (openRequests s i)[i.answers]?.map fun request => ⟨request, i.pins.dataRdata⟩
    else none
  examined := if s.ptw.state == .pteLookup && s.ptw.dataRvalid then s.answered else s.examined
  granted := grantedNow s i

/-- The cache answers a granted request, and each one only once. -/
def traffic (c : Scheme) (n : Nat) : Machine (Traffic c) (TrafficInput c n) where
  reset :=
    { ptw := reset
      walk := 0
      aborted := []
      owed := []
      answered := none
      examined := none
      granted := none }
  next := trafficNext
  allowed _ s i := i.pins.dataRvalid = true → i.answers < (openRequests s i).length

instance (cycles : List (Traffic c × TrafficInput c n)) (s : Traffic c) (i : TrafficInput c n) :
    Decidable ((traffic c n).allowed cycles s i) :=
  inferInstanceAs (Decidable (_ → _))

/-! ## Where a cycle leads -/

/-- The states a look-up leaves for. -/
def Fsm.Resumed (state : Fsm) : Prop :=
  state = .waitGrant ∨ state = .latency ∨ state = .propagateError ∨
    state = .propagateAccessError

/-- A look-up that has ended. -/
def Lookup.Ended (d : Lookup c) : Prop :=
  d.regs.state.Resumed ∧ d.regs.tagValid = false

variable {p : AccessPins c n} {h : HypPins c} {s : Regs c}

theorem Lookup.Ended.fail {d : Lookup c} (ended : d.Ended) : (d.fail s).Ended :=
  ⟨.inr (.inr (.inl rfl)), ended.2⟩

theorem Lookup.Ended.leafStage {d : Lookup c} (ended : d.Ended) : (leafStage h s d).Ended := by
  unfold Ptw.leafStage
  cases s.ptwStage with
  | sStage =>
      dsimp only
      split
      · exact ⟨.inl rfl, ended.2⟩
      · exact ended
  | gIntermedStage => exact ⟨.inl rfl, ended.2⟩
  | gFinalStage => exact ended

theorem Lookup.Ended.leafFetch {d : Lookup c} (ended : d.Ended) : (leafFetch h s d).Ended := by
  unfold Ptw.leafFetch
  split
  · exact ended.fail
  · split
    · exact ended
    · exact ended

theorem Lookup.Ended.leafData {d : Lookup c} (ended : d.Ended) : (leafData p h s d).Ended := by
  have checked : (if readable p h s then
      if c.rvh && (s.ptwStage == .gFinalStage || !h.enLdStGTranslation) || !c.rvh then
        { d with sharedTlbUpdateValid := true }
      else d
    else d.fail s).Ended := by
    split
    · split
      · exact ended
      · exact ended
    · exact ended.fail
  unfold Ptw.leafData
  dsimp only
  split
  · exact checked.fail
  · exact checked

theorem Lookup.Ended.leafPte {d : Lookup c} (ended : d.Ended) : (leafPte p h s d).Ended := by
  have staged : (if c.rvh then Ptw.leafStage h s d else d).Ended := by
    split
    · exact ended.leafStage
    · exact ended
  have checked : (if s.isInstrPtw then
        Ptw.leafFetch h s (if c.rvh then Ptw.leafStage h s d else d)
      else Ptw.leafData p h s (if c.rvh then Ptw.leafStage h s d else d)).Ended := by
    split
    · exact staged.leafFetch
    · exact staged.leafData
  unfold Ptw.leafPte
  dsimp only
  split
  · refine ⟨.inr (.inr (.inl rfl)), ?_⟩
    split
    · exact checked.2
    · exact checked.2
  · split
    · exact checked.fail
    · exact checked

theorem nextTable_control (r : Regs c) :
    (nextTable h s r).state = r.state ∧ (nextTable h s r).tagValid = r.tagValid := by
  unfold nextTable
  dsimp only
  split
  · cases s.ptwStage with
    | sStage =>
        dsimp only
        split
        · exact ⟨rfl, rfl⟩
        · exact ⟨rfl, rfl⟩
    | gIntermedStage => exact ⟨rfl, rfl⟩
    | gFinalStage => exact ⟨rfl, rfl⟩
  · exact ⟨rfl, rfl⟩

theorem Lookup.Ended.pointerPte {d : Lookup c} (ended : d.Ended) :
    (pointerPte h s d).Ended := by
  have followed : ({ d with
      regs := nextTable h s
        { d.regs with ptwLvl := s.ptwLvl + 1, state := .waitGrant } } : Lookup c).Ended := by
    obtain ⟨state, tag⟩ :=
      nextTable_control (h := h) (s := s)
        { d.regs with ptwLvl := s.ptwLvl + 1, state := .waitGrant }
    exact ⟨.inl state, tag.trans ended.2⟩
  unfold Ptw.pointerPte
  dsimp only
  split
  · split
    · exact ended.fail.fail
    · split
      · exact followed.fail.fail
      · exact followed.fail
  · split
    · exact ended.fail
    · split
      · exact followed.fail
      · exact followed

theorem Lookup.ended_decode {d : Lookup c} (tag : d.regs.tagValid = false) :
    (if invalidPte (pte s) then
        { d with regs := { d.regs with state := .propagateError } }
      else if (pte s).r || (pte s).x then
        Ptw.leafPte p h s { d with regs := { d.regs with state := .latency } }
      else
        Ptw.pointerPte h s { d with regs := { d.regs with state := .latency } }).Ended := by
  split
  · exact ⟨.inr (.inr (.inl rfl)), tag⟩
  · have ended : ({ d with regs := { d.regs with state := .latency } } : Lookup c).Ended :=
      ⟨.inr (.inl rfl), tag⟩
    split
    · exact ended.leafPte
    · exact ended.pointerPte

variable (p h s) in
theorem checkPte_ended : (checkPte p h s).Ended := by
  unfold checkPte
  dsimp only
  split
  · refine ⟨.inr (.inr (.inr rfl)), ?_⟩
    apply (Lookup.ended_decode _).2
    split
    · rfl
    · rfl
  · apply Lookup.ended_decode
    split
    · rfl
    · rfl

/-! ## Three kinds of cycles -/

variable {i : Input c n}

/-- The request is at the port. -/
theorem next_asking (asking : s.state = .waitGrant) :
    (next s i).state =
        (if i.dataGnt then if i.flush then .waitRvalid else .pteLookup
        else if i.flush then .latency else .waitGrant) ∧
      (next s i).tagValid = i.dataGnt ∧ (next s i).ptwPptr = s.ptwPptr := by
  unfold next drive flushState dispatch
  simp only [asking, waitGrant]
  cases i.flush with
  | false =>
      cases i.dataGnt with
      | false => exact ⟨rfl, rfl, rfl⟩
      | true => exact ⟨rfl, rfl, rfl⟩
  | true =>
      cases i.dataGnt with
      | false => exact ⟨rfl, rfl, rfl⟩
      | true => exact ⟨rfl, rfl, rfl⟩

/-- Nothing has arrived in the register. -/
theorem next_awaiting (awaiting : s.state = .pteLookup ∨ s.state = .waitRvalid)
    (unanswered : s.dataRvalid = false) :
    (next s i).state = (if i.flush then .waitRvalid else s.state) ∧
      (next s i).tagValid = false ∧ (next s i).ptwPptr = s.ptwPptr := by
  unfold next drive flushState dispatch
  rcases awaiting with looking | flushed
  · simp only [looking, pteLookup, unanswered, hold]
    cases i.flush with
    | false => exact ⟨rfl, rfl, rfl⟩
    | true => exact ⟨rfl, rfl, rfl⟩
  · simp only [flushed, unanswered]
    cases i.flush with
    | false => exact ⟨rfl, rfl, rfl⟩
    | true => exact ⟨rfl, rfl, rfl⟩

/-- The states that a resting port goes to. -/
def Settles (s : Regs c) (miss : Bool) (state : Fsm) : Prop :=
  state = .idle ∨ state = .latency ∨ state = .waitGrant ∧ miss = true ∨
    state.Resumed ∧ s.state = .pteLookup

/-- A cycle that neither asks nor waits. -/
structure Rests (s : Regs c) (i : Input c n) : Prop where
  tag : (next s i).tagValid = false
  flushed : i.flush = true → (next s i).state = .latency
  state : Settles s (drive i s).sharedTlbMiss (next s i).state

theorem flushState_resting (resting : s.state ≠ .waitGrant)
    (arrived : s.state = .pteLookup ∨ s.state = .waitRvalid → s.dataRvalid = true) :
    flushState i s = .latency := by
  unfold flushState
  cases state : s.state with
  | waitGrant => exact absurd state resting
  | pteLookup => simp [arrived (.inl state)]
  | waitRvalid => simp [arrived (.inr state)]
  | idle => rfl
  | propagateError => rfl
  | propagateAccessError => rfl
  | latency => rfl

theorem next_unflushed (quiet : i.flush = false) :
    (next s i).state = (dispatch i s).regs.state := by
  rw [next, drive, quiet]
  rfl

theorem next_tagValid : (next s i).tagValid = (dispatch i s).regs.tagValid := by
  unfold next drive
  split
  · rfl
  · rfl

theorem drive_sharedTlbMiss : (drive i s).sharedTlbMiss = (dispatch i s).sharedTlbMiss := by
  unfold drive
  split
  · rfl
  · rfl

theorem startStage_tagValid (r : Regs c) : (startStage i r).tagValid = r.tagValid := by
  unfold startStage
  dsimp only
  split
  · rfl
  · split
    · rfl
    · rfl

theorem dispatch_resting (resting : s.state ≠ .waitGrant)
    (arrived : s.state = .pteLookup ∨ s.state = .waitRvalid → s.dataRvalid = true) :
    (dispatch i s).regs.tagValid = false ∧
      Settles s (dispatch i s).sharedTlbMiss (dispatch i s).regs.state := by
  unfold dispatch
  cases state : s.state with
  | waitGrant => exact absurd state resting
  | idle =>
      dsimp only
      unfold idle
      dsimp only
      split
      · exact ⟨startStage_tagValid _, .inr (.inr (.inl ⟨rfl, rfl⟩))⟩
      · exact ⟨rfl, .inl state⟩
  | pteLookup =>
      obtain ⟨resumed, tag⟩ := checkPte_ended i.access i.hyp s
      simp only [pteLookup, arrived (.inl state), if_true]
      exact ⟨tag, .inr (.inr (.inr ⟨resumed, state⟩))⟩
  | waitRvalid =>
      refine ⟨rfl, .inl ?_⟩
      simp only [arrived (.inr state), if_true]
  | propagateError => exact ⟨rfl, .inr (.inl rfl)⟩
  | propagateAccessError => exact ⟨rfl, .inr (.inl rfl)⟩
  | latency => exact ⟨rfl, .inl rfl⟩

theorem next_resting (resting : s.state ≠ .waitGrant)
    (arrived : s.state = .pteLookup ∨ s.state = .waitRvalid → s.dataRvalid = true) :
    Rests s i := by
  obtain ⟨tag, settles⟩ := dispatch_resting (i := i) resting arrived
  have onFlush : i.flush = true → (next s i).state = .latency := by
    intro flushed
    rw [next, drive, if_pos flushed]
    exact flushState_resting resting arrived
  refine ⟨next_tagValid.trans tag, onFlush, ?_⟩
  cases quiet : i.flush with
  | true => exact .inr (.inl (onFlush quiet))
  | false =>
      rw [next_unflushed quiet, drive_sharedTlbMiss]
      exact settles

/-! ## What the port and the walker agree on -/

/-- The walker has one request open: it is owed its response, or the response lies in the
register. -/
def Awaits (s : Traffic c) : Prop :=
  s.ptw.dataRvalid = false ∧ s.owed = [⟨s.walk, s.ptw.ptwPptr⟩] ∧ s.answered = none ∨
    s.ptw.dataRvalid = true ∧ s.owed = [] ∧
      s.answered = some ⟨⟨s.walk, s.ptw.ptwPptr⟩, s.ptw.dataRdata⟩

def Silent (s : Traffic c) : Prop :=
  s.ptw.dataRvalid = false ∧ s.owed = [] ∧ s.answered = none

/-- A walk is under way and has not been aborted. -/
def Fsm.Walking (state : Fsm) : Prop :=
  state = .waitGrant ∨ state = .pteLookup ∨ state = .propagateError ∨
    state = .propagateAccessError

structure Tracks (s : Traffic c) : Prop where
  started : ∀ walk ∈ s.aborted, walk ≤ s.walk
  tag : s.ptw.tagValid = true → s.granted = some ⟨s.walk, s.ptw.ptwPptr⟩
  awaits : s.ptw.state = .pteLookup ∨ s.ptw.state = .waitRvalid → Awaits s
  silent : s.ptw.state ≠ .pteLookup → s.ptw.state ≠ .waitRvalid → Silent s
  current : s.ptw.state.Walking → s.walk ∉ s.aborted
  flushed : s.ptw.state = .waitRvalid → s.walk ∈ s.aborted
  failed : s.ptw.state = .propagateError ∨ s.ptw.state = .propagateAccessError →
    ∃ response, s.examined = some response ∧ response.request.walk = s.walk

variable {t : Traffic c} {j : TrafficInput c n}

theorem grantedNow_of_not_asking (resting : t.ptw.state ≠ .waitGrant) : grantedNow t j = none := by
  have unasked : (drive j.pins t.ptw).dataReq = false := by
    apply Bool.eq_false_of_not_eq_true
    intro asks
    exact resting ((dataReq_iff _ _).mp asks)
  simp [grantedNow, unasked]

theorem grantedNow_of_asking (asking : t.ptw.state = .waitGrant) :
    grantedNow t j = if j.pins.dataGnt then some ⟨t.walk, t.ptw.ptwPptr⟩ else none := by
  rw [grantedNow, (dataReq_iff _ _).mpr asking, Bool.true_and]

theorem walkNow_of_not_idle (busy : t.ptw.state ≠ .idle) : walkNow t j = t.walk := by
  have begun : (drive j.pins t.ptw).sharedTlbMiss = false := by
    rw [drive_sharedTlbMiss]
    unfold dispatch
    cases state : t.ptw.state with
    | idle => exact absurd state busy
    | waitGrant => rfl
    | pteLookup =>
        simp only [pteLookup]
        split
        · rfl
        · rfl
    | waitRvalid => rfl
    | propagateError => rfl
    | propagateAccessError => rfl
    | latency => rfl
  simp [walkNow, begun]

theorem silent_next (unasked : openRequests t j = [])
    (allowed : j.pins.dataRvalid = true → j.answers < (openRequests t j).length) :
    Silent (trafficNext t j) := by
  have unanswered : j.pins.dataRvalid = false := by
    apply Bool.eq_false_of_not_eq_true
    intro answered
    simpa [unasked] using allowed answered
  refine ⟨unanswered, ?_, ?_⟩
  · simp only [trafficNext, unanswered, unasked, Bool.false_eq_true, if_false]
  · simp only [trafficNext, unanswered, Bool.false_eq_true, if_false]

theorem awaits_next (asked : openRequests t j = [⟨t.walk, t.ptw.ptwPptr⟩])
    (allowed : j.pins.dataRvalid = true → j.answers < (openRequests t j).length)
    (busy : t.ptw.state ≠ .idle) (kept : (next t.ptw j.pins).ptwPptr = t.ptw.ptwPptr) :
    Awaits (trafficNext t j) := by
  have walk := walkNow_of_not_idle (j := j) busy
  cases answered : j.pins.dataRvalid with
  | false =>
      left
      refine ⟨answered, ?_, ?_⟩
      · simp only [trafficNext, answered, asked, walk, kept, Bool.false_eq_true, if_false]
      · simp only [trafficNext, answered, Bool.false_eq_true, if_false]
  | true =>
      have only : j.answers = 0 := by simpa [asked] using allowed answered
      right
      refine ⟨answered, ?_, ?_⟩
      · simp only [trafficNext, answered, asked, only, if_true, List.eraseIdx_cons_zero]
      · simp only [trafficNext, answered, asked, only, walk, kept, if_true]
        rfl

theorem aborted_next (busy : t.ptw.state ≠ .idle) :
    (trafficNext t j).aborted =
      if j.pins.flush then t.walk :: t.aborted else t.aborted := by
  have active : ptwActive t.ptw = true := by
    rw [ptwActive, bne_iff_ne]
    exact busy
  simp only [trafficNext, aborts, active, walkNow_of_not_idle busy, Bool.true_or, Bool.and_true]

theorem started_next (started : ∀ walk ∈ t.aborted, walk ≤ t.walk) :
    ∀ walk ∈ (trafficNext t j).aborted, walk ≤ (trafficNext t j).walk := by
  have grows : t.walk ≤ walkNow t j := by
    unfold walkNow
    split
    · exact Nat.le_succ _
    · exact le_rfl
  intro walk member
  simp only [trafficNext] at member ⊢
  split at member
  · rcases List.mem_cons.mp member with rfl | earlier
    · exact le_rfl
    · exact (started walk earlier).trans grows
  · exact (started walk member).trans grows

theorem Tracks.next_asking (tracks : Tracks t) (asking : t.ptw.state = .waitGrant)
    (allowed : j.pins.dataRvalid = true → j.answers < (openRequests t j).length) :
    Tracks (trafficNext t j) := by
  have busy : t.ptw.state ≠ .idle := by simp [asking]
  have current : t.walk ∉ t.aborted := tracks.current (.inl asking)
  have walk : (trafficNext t j).walk = t.walk := walkNow_of_not_idle busy
  have aborted := aborted_next (j := j) busy
  have nothing : t.owed = [] := (tracks.silent (by simp [asking]) (by simp [asking])).2.1
  have granted := grantedNow_of_asking (j := j) asking
  obtain ⟨state, tag, pptr⟩ := Ptw.next_asking (i := j.pins) asking
  cases gnt : j.pins.dataGnt with
  | false =>
      have silent : Silent (trafficNext t j) := by
        apply silent_next _ allowed
        simp [openRequests, nothing, granted, gnt]
      rw [gnt] at tag state
      have goes : (trafficNext t j).ptw.state = if j.pins.flush then .latency else .waitGrant :=
        state
      exact
        { started := started_next tracks.started
          tag := fun asserted => absurd (tag.symm.trans asserted) (by decide)
          awaits := by
            intro awaits
            rw [goes] at awaits
            split at awaits
            · simp at awaits
            · simp at awaits
          silent := fun _ _ => silent
          current := by
            intro walking
            rw [goes] at walking
            rw [walk, aborted]
            cases flush : j.pins.flush with
            | false => exact current
            | true => simp [flush, Fsm.Walking] at walking
          flushed := by
            intro flushed
            rw [goes] at flushed
            split at flushed
            · cases flushed
            · cases flushed
          failed := by
            intro failed
            rw [goes] at failed
            split at failed
            · simp at failed
            · simp at failed }
  | true =>
      rw [gnt] at tag state
      have goes : (trafficNext t j).ptw.state =
          if j.pins.flush then .waitRvalid else .pteLookup := state
      have awaits : Awaits (trafficNext t j) := by
        apply awaits_next _ allowed busy pptr
        simp [openRequests, nothing, granted, gnt]
      exact
        { started := started_next tracks.started
          tag := by
            intro _
            have kept : (trafficNext t j).ptw.ptwPptr = t.ptw.ptwPptr := pptr
            rw [walk, kept]
            simp [trafficNext, granted, gnt]
          awaits := fun _ => awaits
          silent := by
            intro looks waits
            rw [goes] at looks waits
            cases flush : j.pins.flush with
            | false => simp [flush] at looks
            | true => simp [flush] at waits
          current := by
            intro walking
            rw [goes] at walking
            rw [walk, aborted]
            cases flush : j.pins.flush with
            | false => exact current
            | true => simp [flush, Fsm.Walking] at walking
          flushed := by
            intro flushed
            rw [goes] at flushed
            rw [walk, aborted]
            cases flush : j.pins.flush with
            | false => simp [flush] at flushed
            | true => exact List.mem_cons_self
          failed := by
            intro failed
            rw [goes] at failed
            split at failed
            · simp at failed
            · simp at failed }

theorem Tracks.next_awaiting (tracks : Tracks t)
    (awaiting : t.ptw.state = .pteLookup ∨ t.ptw.state = .waitRvalid)
    (unanswered : t.ptw.dataRvalid = false)
    (allowed : j.pins.dataRvalid = true → j.answers < (openRequests t j).length) :
    Tracks (trafficNext t j) := by
  have busy : t.ptw.state ≠ .idle := by
    rcases awaiting with state | state
    · simp [state]
    · simp [state]
  have resting : t.ptw.state ≠ .waitGrant := by
    rcases awaiting with state | state
    · simp [state]
    · simp [state]
  have walk : (trafficNext t j).walk = t.walk := walkNow_of_not_idle busy
  have aborted := aborted_next (j := j) busy
  have owed : t.owed = [⟨t.walk, t.ptw.ptwPptr⟩] := by
    rcases tracks.awaits awaiting with ⟨_, owed, _⟩ | ⟨arrived, _⟩
    · exact owed
    · rw [unanswered] at arrived
      cases arrived
  obtain ⟨state, tag, pptr⟩ := Ptw.next_awaiting (i := j.pins) awaiting unanswered
  have goes : (trafficNext t j).ptw.state =
      if j.pins.flush then .waitRvalid else t.ptw.state := state
  have awaits : Awaits (trafficNext t j) := by
    apply awaits_next _ allowed busy pptr
    simp [openRequests, owed, grantedNow_of_not_asking resting]
  have stays : (trafficNext t j).ptw.state = .pteLookup ∨
      (trafficNext t j).ptw.state = .waitRvalid := by
    rw [goes]
    split
    · exact .inr rfl
    · exact awaiting
  exact
    { started := started_next tracks.started
      tag := fun asserted => absurd (tag.symm.trans asserted) (by decide)
      awaits := fun _ => awaits
      silent := fun looks waits => absurd stays (not_or.mpr ⟨looks, waits⟩)
      current := by
        intro walking
        rw [goes] at walking
        rw [walk, aborted]
        cases flush : j.pins.flush with
        | false =>
            rw [flush] at walking
            exact tracks.current walking
        | true => simp [flush, Fsm.Walking] at walking
      flushed := by
        intro flushed
        rw [goes] at flushed
        rw [walk, aborted]
        cases flush : j.pins.flush with
        | false =>
            rw [flush] at flushed
            exact tracks.flushed flushed
        | true => exact List.mem_cons_self
      failed := by
        intro failed
        rcases stays with looking | waiting
        · simp [looking] at failed
        · simp [waiting] at failed }

theorem Tracks.next_resting (tracks : Tracks t) (resting : t.ptw.state ≠ .waitGrant)
    (arrived : t.ptw.state = .pteLookup ∨ t.ptw.state = .waitRvalid → t.ptw.dataRvalid = true)
    (allowed : j.pins.dataRvalid = true → j.answers < (openRequests t j).length) :
    Tracks (trafficNext t j) := by
  have rests := Ptw.next_resting (i := j.pins) resting arrived
  have nothing : t.owed = [] := by
    by_cases awaiting : t.ptw.state = .pteLookup ∨ t.ptw.state = .waitRvalid
    · rcases tracks.awaits awaiting with ⟨unanswered, _⟩ | ⟨_, owed, _⟩
      · rw [arrived awaiting] at unanswered
        cases unanswered
      · exact owed
    · obtain ⟨looks, waits⟩ := not_or.mp awaiting
      exact (tracks.silent looks waits).2.1
  have silent : Silent (trafficNext t j) := by
    apply silent_next _ allowed
    simp [openRequests, nothing, grantedNow_of_not_asking resting]
  have elsewhere : (trafficNext t j).ptw.state ≠ .pteLookup ∧
      (trafficNext t j).ptw.state ≠ .waitRvalid := by
    change (next t.ptw j.pins).state ≠ _ ∧ (next t.ptw j.pins).state ≠ _
    rcases rests.state with state | state | ⟨state, _⟩ | ⟨state | state | state | state, _⟩
    all_goals simp [state]
  exact
    { started := started_next tracks.started
      tag := fun asserted => absurd (rests.tag.symm.trans asserted) (by decide)
      awaits := fun awaits => absurd awaits (not_or.mpr elsewhere)
      silent := fun _ _ => silent
      current := by
        intro walking
        have quiet : j.pins.flush = false := by
          apply Bool.eq_false_of_not_eq_true
          intro flushed
          have state : (trafficNext t j).ptw.state = .latency := rests.flushed flushed
          simp [state, Fsm.Walking] at walking
        rcases rests.state with state | state | ⟨_, begins⟩ | ⟨_, looking⟩
        · have there : (trafficNext t j).ptw.state = .idle := state
          simp [there, Fsm.Walking] at walking
        · have there : (trafficNext t j).ptw.state = .latency := state
          simp [there, Fsm.Walking] at walking
        · simp only [trafficNext, aborts, quiet, Bool.false_and, Bool.false_eq_true, if_false,
            walkNow, begins, if_true]
          intro member
          exact absurd (tracks.started _ member) (Nat.not_succ_le_self _)
        · have busy : t.ptw.state ≠ .idle := by simp [looking]
          have walk : (trafficNext t j).walk = t.walk := walkNow_of_not_idle busy
          rw [aborted_next busy, walk, quiet]
          exact tracks.current (.inr (.inl looking))
      flushed := fun flushed => absurd flushed elsewhere.2
      failed := by
        intro failed
        have looking : t.ptw.state = .pteLookup := by
          rcases rests.state with state | state | ⟨state, _⟩ | ⟨_, looking⟩
          · have there : (trafficNext t j).ptw.state = .idle := state
            simp [there] at failed
          · have there : (trafficNext t j).ptw.state = .latency := state
            simp [there] at failed
          · have there : (trafficNext t j).ptw.state = .waitGrant := state
            simp [there] at failed
          · exact looking
        have busy : t.ptw.state ≠ .idle := by simp [looking]
        have walk : (trafficNext t j).walk = t.walk := walkNow_of_not_idle busy
        have registered := arrived (.inl looking)
        rcases tracks.awaits (.inl looking) with ⟨unanswered, _⟩ | ⟨_, _, answered⟩
        · rw [registered] at unanswered
          cases unanswered
        · refine ⟨⟨⟨t.walk, t.ptw.ptwPptr⟩, t.ptw.dataRdata⟩, ?_, walk.symm⟩
          simp only [trafficNext, looking, registered, answered, beq_self_eq_true, Bool.true_and,
            if_true] }

theorem Tracks.next (tracks : Tracks t)
    (allowed : j.pins.dataRvalid = true → j.answers < (openRequests t j).length) :
    Tracks (trafficNext t j) := by
  by_cases asking : t.ptw.state = .waitGrant
  · exact tracks.next_asking asking allowed
  · by_cases awaiting : (t.ptw.state = .pteLookup ∨ t.ptw.state = .waitRvalid) ∧
        t.ptw.dataRvalid = false
    · exact tracks.next_awaiting awaiting.1 awaiting.2 allowed
    · apply tracks.next_resting asking _ allowed
      intro looks
      by_contra unanswered
      exact awaiting ⟨looks, Bool.eq_false_of_not_eq_true unanswered⟩

theorem tracks_reset : Tracks (traffic c n).reset where
  started walk member := by cases member
  tag asserted := by cases asserted
  awaits awaits := by simp [traffic, reset] at awaits
  silent _ _ := ⟨rfl, rfl, rfl⟩
  current walking := by simp [traffic, reset, Fsm.Walking] at walking
  flushed flushed := by cases flushed
  failed failed := by simp [traffic, reset] at failed

theorem tracks_of_run {cycles : List (Traffic c × TrafficInput c n)}
    (run : (traffic c n).Run cycles t) : Tracks t := by
  induction run with
  | reset => exact tracks_reset
  | cycle _ allowed ih => exact ih.next allowed

/-! ## Responses and walks -/

theorem errors_state
    (errs : (drive i s).ptwError = true ∨ (drive i s).ptwAccessException = true) :
    s.state = .propagateError ∨ s.state = .propagateAccessError := by
  have kept : (dispatch i s).ptwError = true ∨ (dispatch i s).ptwAccessException = true := by
    unfold drive at errs
    split at errs
    · exact errs
    · exact errs
  unfold dispatch at kept
  cases state : s.state with
  | propagateError => exact .inl rfl
  | propagateAccessError => exact .inr rfl
  | idle =>
      simp only [state, idle] at kept
      split at kept
      · simp at kept
      · simp at kept
  | pteLookup =>
      simp only [state, pteLookup] at kept
      split at kept
      · simp at kept
      · simp [hold] at kept
  | waitGrant => simp [state, waitGrant] at kept
  | waitRvalid => simp [state] at kept
  | latency => simp [state] at kept

theorem updates_state (updates : (drive i s).sharedTlbUpdateValid = true) :
    s.state = .pteLookup ∧ s.dataRvalid = true := by
  have kept : (dispatch i s).sharedTlbUpdateValid = true := by
    unfold drive at updates
    split at updates
    · exact updates
    · exact updates
  obtain ⟨looking, arrived, _⟩ := PageWalk.updates_lookup kept
  exact ⟨looking, arrived⟩

/-- What the walker does with responses in a cycle. -/
structure Separates (s : Traffic c) (i : TrafficInput c n) : Prop where
  examines : s.ptw.state = .pteLookup → s.ptw.dataRvalid = true →
    s.answered = some ⟨⟨s.walk, s.ptw.ptwPptr⟩, pte s.ptw⟩ ∧ s.walk ∉ s.aborted
  /-- The tag follows the index of the same pointer. -/
  addresses : s.ptw.tagValid = true → s.granted = some ⟨s.walk, s.ptw.ptwPptr⟩
  /-- A response is taken in the cycle after it arrived. -/
  taken : ∀ response, s.answered = some response →
    (s.ptw.state = .pteLookup ∨ s.ptw.state = .waitRvalid) ∧ s.ptw.dataRvalid = true ∧
      (next s.ptw i.pins).state ≠ .pteLookup ∧ (next s.ptw i.pins).state ≠ .waitRvalid ∧
      (trafficNext s i).answered = none
  dropped : ∀ response, s.answered = some response → response.request.walk ∈ s.aborted →
    s.ptw.state = .waitRvalid ∧ (drive i.pins s.ptw).sharedTlbUpdateValid = false ∧
      (drive i.pins s.ptw).ptwError = false ∧ (drive i.pins s.ptw).ptwAccessException = false ∧
      ((next s.ptw i.pins).state = .idle ∨ (next s.ptw i.pins).state = .latency)
  updates : (drive i.pins s.ptw).sharedTlbUpdateValid = true →
    s.answered = some ⟨⟨s.walk, s.ptw.ptwPptr⟩, pte s.ptw⟩ ∧ s.walk ∉ s.aborted
  errors : (drive i.pins s.ptw).ptwError = true ∨
      (drive i.pins s.ptw).ptwAccessException = true →
    s.walk ∉ s.aborted ∧
      ∃ response, s.examined = some response ∧ response.request.walk = s.walk
  unowed : (drive i.pins s.ptw).dataReq = true → s.owed = [] ∧ s.answered = none

theorem Tracks.examines (tracks : Tracks t) (looking : t.ptw.state = .pteLookup)
    (arrived : t.ptw.dataRvalid = true) :
    t.answered = some ⟨⟨t.walk, t.ptw.ptwPptr⟩, pte t.ptw⟩ ∧ t.walk ∉ t.aborted := by
  refine ⟨?_, tracks.current (.inr (.inl looking))⟩
  rcases tracks.awaits (.inl looking) with ⟨unanswered, _⟩ | ⟨_, _, answered⟩
  · rw [arrived] at unanswered
    cases unanswered
  · exact answered

theorem Tracks.answered_iff (tracks : Tracks t) {response : Response c}
    (answered : t.answered = some response) :
    (t.ptw.state = .pteLookup ∨ t.ptw.state = .waitRvalid) ∧ t.ptw.dataRvalid = true ∧
      response.request.walk = t.walk := by
  by_cases awaiting : t.ptw.state = .pteLookup ∨ t.ptw.state = .waitRvalid
  · refine ⟨awaiting, ?_⟩
    rcases tracks.awaits awaiting with ⟨_, _, unanswered⟩ | ⟨arrived, _, held⟩
    · rw [answered] at unanswered
      cases unanswered
    · rw [answered] at held
      obtain rfl := Option.some.inj held
      exact ⟨arrived, rfl⟩
  · obtain ⟨looks, waits⟩ := not_or.mp awaiting
    have unanswered := (tracks.silent looks waits).2.2
    rw [answered] at unanswered
    cases unanswered

/-- In every cycle of every run, responses stay with the walk that asked for them. -/
theorem responses_separated {cycles : List (Traffic c × TrafficInput c n)}
    (run : (traffic c n).Run cycles t) (allowed : (traffic c n).allowed cycles t j) :
    Separates t j := by
  have tracks := tracks_of_run run
  have later := tracks.next allowed
  exact
    { examines := tracks.examines
      addresses := tracks.tag
      taken := by
        intro response answered
        obtain ⟨awaiting, arrived, _⟩ := tracks.answered_iff answered
        have resting : t.ptw.state ≠ .waitGrant := by
          rcases awaiting with state | state
          · simp [state]
          · simp [state]
        have rests := Ptw.next_resting (i := j.pins) resting fun _ => arrived
        have elsewhere : (next t.ptw j.pins).state ≠ .pteLookup ∧
            (next t.ptw j.pins).state ≠ .waitRvalid := by
          rcases rests.state with state | state | ⟨state, _⟩ | ⟨state | state | state | state, _⟩
          all_goals simp [state]
        exact ⟨awaiting, arrived, elsewhere.1, elsewhere.2,
          (later.silent elsewhere.1 elsewhere.2).2.2⟩
      dropped := by
        intro response answered dead
        obtain ⟨awaiting, arrived, walk⟩ := tracks.answered_iff answered
        rw [walk] at dead
        have waits : t.ptw.state = .waitRvalid := by
          rcases awaiting with looking | waits
          · exact absurd dead (tracks.current (.inr (.inl looking)))
          · exact waits
        refine ⟨waits, ?_, ?_, ?_, ?_⟩
        · apply Bool.eq_false_of_not_eq_true
          intro updates
          simpa [waits] using (updates_state updates).1
        · apply Bool.eq_false_of_not_eq_true
          intro errs
          simpa [waits] using errors_state (.inl errs)
        · apply Bool.eq_false_of_not_eq_true
          intro errs
          simpa [waits] using errors_state (.inr errs)
        · have rests := Ptw.next_resting (i := j.pins) (by simp [waits]) fun _ => arrived
          rcases rests.state with state | state | ⟨_, begins⟩ | ⟨_, looking⟩
          · exact .inl state
          · exact .inr state
          · rw [drive_sharedTlbMiss, dispatch, waits] at begins
            cases begins
          · simp [waits] at looking
      updates := by
        intro updates
        obtain ⟨looking, arrived⟩ := updates_state updates
        exact tracks.examines looking arrived
      errors := by
        intro errs
        have failing := errors_state errs
        exact ⟨tracks.current (.inr (.inr failing)), tracks.failed failing⟩
      unowed := by
        intro asks
        have asking := (dataReq_iff _ _).mp asks
        exact (tracks.silent (by simp [asking]) (by simp [asking])).2 }

/-- A load walk of an Sv39 table whose leaf may be read. -/
private def load (gnt answer flush : Bool) : TrafficInput .sv39 0 where
  answers := 0
  pins :=
    { access :=
        { lsuIsStore := false, mxr := false, hlvxInst := false
          pmpcfg := Fin.elim0, pmpaddr := Fin.elim0 }
      hyp :=
        { enableTranslation := false, enableGTranslation := false, enLdStTranslation := true
          enLdStGTranslation := false, v := false, ldStV := false, vmxr := false, hgatpPpn := 0 }
      flush := flush
      dataGnt := gnt
      dataRvalid := answer
      dataRdata := 0xCF
      asid := 0
      vsAsid := 0
      vmid := 0
      sharedTlbAccess := true
      sharedTlbHit := false
      sharedTlbVaddr := 0
      itlbReq := false
      satpPpn := 1
      vsatpPpn := 0 }

theorem responses_separated_aborted :
    let m : Machine (Traffic .sv39) (TrafficInput .sv39 0) := traffic .sv39 0
    Separates (m.after m.reset [load false false false, load true false true])
      (load false true false) := by
  intro m
  have run : m.Run (m.cyclesOf m.reset [load false false false, load true false true]) _ :=
    Machine.run_of_accepts _ (by decide)
  exact responses_separated run (by decide)

/-- A flush that meets a look-up does not hold the update of the walk back. -/
theorem flushed_lookup_updates :
    ¬ ∀ cycles (s : Traffic .sv39), (traffic .sv39 0).Run cycles s →
      ∀ (i : TrafficInput .sv39 0) response, s.answered = some response →
        response.request.walk ∈ (trafficNext s i).aborted →
        (drive i.pins s.ptw).sharedTlbUpdateValid = false := by
  intro masked
  have run := Machine.run_of_accepts (m := traffic .sv39 0)
    [load false false false, load true false false, load false true false] (by decide)
  have silent := masked _ _ run (load false false true) ⟨⟨1, 4096⟩, 0xCF⟩ (by decide +kernel)
    (by decide +kernel)
  revert silent
  decide +kernel

end Traffic

end Cva6.Ptw
