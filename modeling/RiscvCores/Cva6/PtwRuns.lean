import RiscvCores.Cva6.Ptw

/-!
# Walks through the data-cache port

The walker with the read port of the data cache in front of a memory.  The cache
takes the address index with the grant and the tag one cycle later, and answers
every granted request once, after any number of cycles.  A request is served, a
look-up takes one cycle, and an error takes two more cycles than a success.
-/

set_option autoImplicit false

namespace Cva6.Ptw

open Clocked

/-- The cache side of the port: `granted` has the index only, `reading` the address. -/
inductive Port (c : Scheme) where
  | free
  | granted (index : Nat)
  | reading (addr : PAddr c)
  deriving DecidableEq

structure System (c : Scheme) where
  ptw : Regs c
  port : Port c

/-- How a walk ends. -/
inductive Report (c : Scheme) where
  | update (content : Update c)
  | ptwError (atGSt atGIntSt : Bool) (badGpaddr : GPAddr c)
  | ptwAccessException (badPaddr : PAddr c)

inductive Event (c : Scheme) where
  | start (vaddr : VAddr c) (isInstr : Bool)
  | read (addr : PAddr c)
  | report (r : Report c)

section System

variable {c : Scheme} {n : Nat} (indexWidth : Nat) (memory : PAddr c → Pte c)

def addressIndex (s : Regs c) : Nat := s.ptwPptr.toNat % 2 ^ indexWidth

def addressTag (s : Regs c) : Nat := s.ptwPptr.toNat / 2 ^ indexWidth

/-- The request that the cache can answer in this cycle. -/
def answerable (sys : System c) : Option (PAddr c) :=
  match sys.port with
  | .free => none
  | .granted index =>
      if sys.ptw.tagValid then
        some (BitVec.ofNat _ (addressTag indexWidth sys.ptw * 2 ^ indexWidth + index))
      else none
  | .reading addr => some addr

/-- `req_port_i` in the inputs. -/
def answer (i : Input c n) (dataGnt dataRvalid : Bool) (dataRdata : Pte c) : Input c n :=
  { i with dataGnt := dataGnt, dataRvalid := dataRvalid, dataRdata := dataRdata }

/-- The inputs of the walker: `dataGnt` and `dataRvalid` of `i` say that the cache is
willing. -/
def wire (sys : System c) (i : Input c n) : Input c n :=
  answer i (sys.port = .free && (drive i sys.ptw).dataReq && i.dataGnt)
    ((answerable indexWidth sys).isSome && i.dataRvalid)
    (match answerable indexWidth sys with
    | some addr => if i.dataRvalid then memory addr else i.dataRdata
    | none => i.dataRdata)

def portNext (sys : System c) (i : Input c n) : Port c :=
  match sys.port with
  | .free =>
      if (wire indexWidth memory sys i).dataGnt then .granted (addressIndex indexWidth sys.ptw)
      else .free
  | busy =>
      match answerable indexWidth sys with
      | some addr => if i.dataRvalid then .free else .reading addr
      | none => busy

def systemNext (sys : System c) (i : Input c n) : System c where
  ptw := next sys.ptw (wire indexWidth memory sys i)
  port := portNext indexWidth memory sys i

/-- What a drive reports. -/
def reports (s : Regs c) (i : Input c n) : List (Event c) :=
  let d := drive i s
  (if d.sharedTlbUpdateValid then [.report (.update (sharedTlbUpdate i.hyp s))] else []) ++
    (if d.ptwError then
      [.report (.ptwError d.ptwErrorAtGSt d.ptwErrAtGIntSt (badGpaddr s i))] else []) ++
    (if d.ptwAccessException then [.report (.ptwAccessException (badPaddr s i))] else [])

def events (sys : System c) (i : Input c n) : List (Event c) :=
  let i := wire indexWidth memory sys i
  (if (drive i sys.ptw).sharedTlbMiss then [.start i.sharedTlbVaddr i.itlbReq] else []) ++
    (if i.dataGnt then [.read sys.ptw.ptwPptr] else []) ++ reports sys.ptw i

def machine : Machine (System c) (Input c n) where
  reset := { ptw := reset, port := .free }
  next := systemNext indexWidth memory
  allowed _ _ _ := True

/-- A walk under the endless inputs `feed`. -/
abbrev Walks (feed : Nat → Input c n) :=
  (machine indexWidth memory).Segment (events indexWidth memory) feed

end System

section Serving

variable {c : Scheme} {n : Nat} {indexWidth : Nat} {memory : PAddr c → Pte c}
  {feed : Nat → Input c n}

variable (indexWidth memory) in
theorem wire_free (s : Regs c) (i : Input c n) :
    wire indexWidth memory ⟨s, .free⟩ i =
      answer i ((drive i s).dataReq && i.dataGnt) false i.dataRdata := by
  simp [wire, answerable]

/-- `s` with other contents in the registers that follow the port. -/
def atPort (s : Regs c) (tagValid dataRvalid : Bool) (dataRdata : Pte c) : Regs c :=
  { s with tagValid := tagValid, dataRvalid := dataRvalid, dataRdata := dataRdata }

theorem address_assembled (s : Regs c) :
    BitVec.ofNat (c.pmpWidth + 2)
        (addressTag indexWidth s * 2 ^ indexWidth + addressIndex indexWidth s) =
      s.ptwPptr := by
  rw [addressTag, addressIndex, Nat.div_add_mod', BitVec.ofNat_toNat, BitVec.setWidth_eq]

/-- Nothing is flushed and the cache keeps granting and answering. -/
structure Served (feed : Nat → Input c n) : Prop where
  quiet : ∀ t, (feed t).flush = false
  grants : ∀ t, ∃ k, (feed (t + k)).dataGnt = true
  answers : ∀ t, ∃ k, (feed (t + k)).dataRvalid = true

theorem drive_of_quiet {i : Input c n} (quiet : i.flush = false) (s : Regs c) :
    drive i s = dispatch i s := by
  simp [drive, quiet]

/-! ## A request is served -/

theorem drive_waitGrant {s : Regs c} (waiting : s.state = .waitGrant) {i : Input c n}
    (quiet : i.flush = false) : drive i s = waitGrant i s := by
  rw [drive_of_quiet quiet, dispatch, waiting]

theorem next_waitGrant {s : Regs c} (waiting : s.state = .waitGrant) {i : Input c n}
    (quiet : i.flush = false) :
    next s i =
      atPort { s with state := if i.dataGnt then .pteLookup else .waitGrant }
        i.dataGnt i.dataRvalid i.dataRdata := by
  rw [next, drive_waitGrant waiting quiet, waitGrant]
  cases i.dataGnt with
  | false => rw [← waiting]; rfl
  | true => rfl

/-- The request of `s` is at the port. -/
def Waits (s : Regs c) (sys : System c) : Prop :=
  ∃ tagValid dataRvalid dataRdata, sys = ⟨atPort s tagValid dataRvalid dataRdata, .free⟩

theorem waits_stay {s : Regs c} (waiting : s.state = .waitGrant) {sys : System c}
    (waits : Waits s sys) {i : Input c n} (quiet : i.flush = false)
    (ungranted : i.dataGnt = false) :
    Waits s (systemNext indexWidth memory sys i) ∧ events indexWidth memory sys i = [] := by
  obtain ⟨tagValid, dataRvalid, dataRdata, rfl⟩ := waits
  have wired := wire_free indexWidth memory
    (atPort s tagValid dataRvalid dataRdata) i
  rw [ungranted, Bool.and_false] at wired
  constructor
  · refine ⟨false, false, i.dataRdata, ?_⟩
    have step := next_waitGrant (s := atPort s tagValid dataRvalid dataRdata) waiting
      (i := answer i false false i.dataRdata) quiet
    rw [systemNext, portNext, wired, step]
    simp only [answer, Bool.false_eq_true, if_false, ← waiting]
    rfl
  · have driven := drive_waitGrant (s := atPort s tagValid dataRvalid dataRdata) waiting
      (i := answer i false false i.dataRdata) quiet
    rw [events, wired, reports, driven]
    rfl

variable (indexWidth memory) in
theorem waits_granted {s : Regs c} (waiting : s.state = .waitGrant) {sys : System c}
    (waits : Waits s sys) {i : Input c n} (quiet : i.flush = false)
    (granted : i.dataGnt = true) :
    systemNext indexWidth memory sys i =
        ⟨atPort { s with state := .pteLookup } true false i.dataRdata,
          .granted (addressIndex indexWidth s)⟩ ∧
      events indexWidth memory sys i = [.read s.ptwPptr] := by
  obtain ⟨tagValid, dataRvalid, dataRdata, rfl⟩ := waits
  have wired := wire_free indexWidth memory
    (atPort s tagValid dataRvalid dataRdata) i
  have driven := drive_waitGrant (s := atPort s tagValid dataRvalid dataRdata) waiting quiet
  rw [driven, granted, waitGrant, Bool.and_true] at wired
  constructor
  · have step := next_waitGrant (s := atPort s tagValid dataRvalid dataRdata) waiting
      (i := answer i true false i.dataRdata) quiet
    rw [systemNext, portNext, wired, step]
    rfl
  · have driven' := drive_waitGrant (s := atPort s tagValid dataRvalid dataRdata) waiting
      (i := answer i true false i.dataRdata) quiet
    rw [events, wired, reports, driven']
    rfl

/-- The request of `s` is being served. -/
def Pending (indexWidth : Nat) (s : Regs c) (sys : System c) : Prop :=
  ∃ tagValid dataRdata,
    sys.ptw = atPort { s with state := .pteLookup } tagValid false dataRdata ∧
      answerable indexWidth sys = some s.ptwPptr

theorem pending_granted (s : Regs c) (dataRdata : Pte c) :
    Pending indexWidth s
      ⟨atPort { s with state := .pteLookup } true false dataRdata,
        .granted (addressIndex indexWidth s)⟩ :=
  ⟨true, dataRdata, rfl, congrArg some (address_assembled s)⟩

variable (memory) in
theorem wire_busy {sys : System c} {addr : PAddr c}
    (busy : answerable indexWidth sys = some addr) (i : Input c n) :
    wire indexWidth memory sys i =
      answer i false i.dataRvalid (if i.dataRvalid then memory addr else i.dataRdata) := by
  have taken : sys.port ≠ .free := by
    intro free
    simp [answerable, free] at busy
  simp [wire, busy, taken]

theorem next_unanswered {s : Regs c} (looking : s.state = .pteLookup)
    (unanswered : s.dataRvalid = false) {i : Input c n} (quiet : i.flush = false) :
    drive i s = hold s ∧ next s i = atPort s false i.dataRvalid i.dataRdata := by
  have driven : drive i s = hold s := by
    rw [drive_of_quiet quiet, dispatch, looking]
    simp only [pteLookup, unanswered, Bool.false_eq_true, if_false]
  exact ⟨driven, by rw [next, driven]; rfl⟩

theorem portNext_busy {sys : System c} {addr : PAddr c}
    (busy : answerable indexWidth sys = some addr) (i : Input c n) :
    portNext indexWidth memory sys i = if i.dataRvalid then .free else .reading addr := by
  obtain ⟨s, port⟩ := sys
  cases port with
  | free => simp [answerable] at busy
  | granted index => simp only [portNext, busy]
  | reading reads => simp only [portNext, busy]

variable (memory) in
/-- One cycle of a request that is being served. -/
theorem pending_next {s : Regs c} {sys : System c} (pending : Pending indexWidth s sys)
    {i : Input c n} (quiet : i.flush = false) :
    systemNext indexWidth memory sys i =
        (if i.dataRvalid then
          ⟨atPort { s with state := .pteLookup } false true (memory s.ptwPptr), .free⟩
        else
          ⟨atPort { s with state := .pteLookup } false false i.dataRdata,
            .reading s.ptwPptr⟩) ∧
      events indexWidth memory sys i = [] := by
  obtain ⟨tagValid, dataRdata, ptw, busy⟩ := pending
  have looking : sys.ptw.state = .pteLookup := by rw [ptw]; rfl
  have unanswered : sys.ptw.dataRvalid = false := by rw [ptw]; rfl
  have wired := wire_busy memory busy i
  obtain ⟨driven, step⟩ := next_unanswered looking unanswered
    (i := wire indexWidth memory sys i) (by rw [wired]; exact quiet)
  constructor
  · rw [systemNext, step, portNext_busy busy, wired, ptw]
    cases i.dataRvalid with
    | false => rfl
    | true => rfl
  · rw [events, reports, driven, wired]
    rfl

theorem pending_stay {s : Regs c} {sys : System c} (pending : Pending indexWidth s sys)
    {i : Input c n} (quiet : i.flush = false) (unanswered : i.dataRvalid = false) :
    Pending indexWidth s (systemNext indexWidth memory sys i) ∧
      events indexWidth memory sys i = [] := by
  obtain ⟨step, silent⟩ := pending_next memory pending quiet
  rw [unanswered] at step
  rw [step]
  exact ⟨⟨false, i.dataRdata, rfl, rfl⟩, silent⟩

variable (indexWidth memory) in
/-- A request is granted and answered with what the memory holds. -/
theorem served (serves : Served feed) {s : Regs c} (waiting : s.state = .waitGrant)
    {t : Nat} {sys : System c} (waits : Waits s sys) :
    ∃ t', Walks indexWidth memory feed t sys [.read s.ptwPptr] t'
      ⟨atPort { s with state := .pteLookup } false true (memory s.ptwPptr), .free⟩ := by
  obtain ⟨t₁, sys₁, idle, waits₁, granted⟩ :=
    Machine.Segment.wait (m := machine indexWidth memory) (events indexWidth memory)
      (Waits s) (fun i => i.dataGnt = true)
      (fun t sys waits ungranted =>
        waits_stay waiting waits (serves.quiet t) (Bool.eq_false_of_not_eq_true ungranted))
      waits (serves.grants t)
  obtain ⟨grant, reads⟩ := waits_granted indexWidth memory
    waiting waits₁ (serves.quiet t₁) granted
  obtain ⟨t₂, sys₂, busy, pending, answered⟩ :=
    Machine.Segment.wait (m := machine indexWidth memory) (events indexWidth memory)
      (Pending indexWidth s) (fun i => i.dataRvalid = true)
      (fun t sys pending unanswered =>
        pending_stay pending (serves.quiet t) (Bool.eq_false_of_not_eq_true unanswered))
      (pending_granted s (feed t₁).dataRdata) (serves.answers (t₁ + 1))
  obtain ⟨step, silent⟩ := pending_next memory pending (serves.quiet t₂)
  rw [if_pos answered] at step
  have first := Machine.Segment.one (m := machine indexWidth memory) reads grant
  have last := Machine.Segment.one (m := machine indexWidth memory) silent step
  exact ⟨t₂ + 1, by simpa using ((idle.trans first).trans busy).trans last⟩

/-! ## The cycles of a walk that ask for nothing -/

variable (indexWidth memory) in
/-- A cycle in which the port stays free. -/
theorem free_cycle {s : Regs c} {i : Input c n} {d : Drive c} {t : Nat} (here : feed t = i)
    (unasked : (drive i s).dataReq = false)
    (driven : drive (answer i false false i.dataRdata) s = d) :
    Walks indexWidth memory feed t ⟨s, .free⟩
      ((if d.sharedTlbMiss then [.start i.sharedTlbVaddr i.itlbReq] else []) ++
        reports s (answer i false false i.dataRdata))
      (t + 1) ⟨{ d.regs with dataRvalid := false, dataRdata := i.dataRdata }, .free⟩ := by
  have wired := wire_free indexWidth memory s i
  rw [unasked, Bool.false_and] at wired
  apply Machine.Segment.one
  · rw [here, events, wired, driven]
    simp only [answer, Bool.false_eq_true, if_false, List.append_nil]
  · change systemNext indexWidth memory _ (feed t) = _
    rw [here, systemNext, portNext, wired, next, driven]
    rfl

variable (indexWidth memory) in
theorem lookup_cycle (serves : Served feed) {s : Regs c} (looking : s.state = .pteLookup)
    (arrived : s.dataRvalid = true) (t : Nat) :
    let d := checkPte (feed t).access (feed t).hyp s
    Walks indexWidth memory feed t ⟨s, .free⟩
      (if d.sharedTlbUpdateValid then
        [.report (.update (sharedTlbUpdate (feed t).hyp s))] else [])
      (t + 1) ⟨{ d.regs with dataRvalid := false, dataRdata := (feed t).dataRdata }, .free⟩ := by
  intro d
  have driven (i : Input c n) (quiet : i.flush = false) (access : i.access = (feed t).access)
      (hyp : i.hyp = (feed t).hyp) :
      drive i s = { regs := d.regs, sharedTlbUpdateValid := d.sharedTlbUpdateValid } := by
    rw [drive_of_quiet quiet, dispatch, looking]
    simp only [pteLookup, arrived, if_true, access, hyp]
    rfl
  have here := driven (feed t) (serves.quiet t) rfl rfl
  have wired := driven (answer (feed t) false false (feed t).dataRdata) (serves.quiet t) rfl rfl
  have cycle := free_cycle indexWidth memory (t := t) rfl
    (congrArg Drive.dataReq here) wired
  rw [reports, wired] at cycle
  simpa [answer] using cycle

variable (indexWidth memory) in
theorem latency_cycle (serves : Served feed) {s : Regs c} (latency : s.state = .latency)
    (t : Nat) :
    ∃ s', Walks indexWidth memory feed t ⟨s, .free⟩ [] (t + 1) ⟨s', .free⟩ ∧
      s'.state = .idle := by
  have driven (i : Input c n) (quiet : i.flush = false) :
      drive i s = { regs := { s with tagValid := false, state := .idle } } := by
    rw [drive_of_quiet quiet, dispatch, latency]
  have wired := driven (answer (feed t) false false (feed t).dataRdata) (serves.quiet t)
  have cycle := free_cycle indexWidth memory (t := t) rfl
    (congrArg Drive.dataReq (driven (feed t) (serves.quiet t))) wired
  rw [reports, wired] at cycle
  exact ⟨_, cycle, rfl⟩

variable (indexWidth memory) in
/-- A page fault is reported in one cycle, with the stage and the guest address of the
registers. -/
theorem error_cycle (serves : Served feed) {s : Regs c} (failed : s.state = .propagateError)
    (t : Nat) :
    ∃ s', Walks indexWidth memory feed t ⟨s, .free⟩
        [.report (.ptwError (c.rvh && s.ptwStage != .sStage)
          (c.rvh && s.ptwStage == .gIntermedStage)
          (if c.rvh && s.ptwStage != .sStage then
            if s.ptwStage == .gIntermedStage then s.gptwPptr.setWidth c.gplen else s.gpaddr
          else 0))]
        (t + 1) ⟨s', .free⟩ ∧
      s'.state = .latency := by
  have driven (i : Input c n) (quiet : i.flush = false) : drive i s = propagateError s := by
    rw [drive_of_quiet quiet, dispatch, failed]
  have wired := driven (answer (feed t) false false (feed t).dataRdata) (serves.quiet t)
  have cycle := free_cycle indexWidth memory (t := t) rfl
    (congrArg Drive.dataReq (driven (feed t) (serves.quiet t))) wired
  rw [reports, badGpaddr, wired] at cycle
  exact ⟨_, cycle, rfl⟩

variable (indexWidth memory) in
theorem access_error_cycle (serves : Served feed) {s : Regs c}
    (failed : s.state = .propagateAccessError) (t : Nat) :
    ∃ s', Walks indexWidth memory feed t ⟨s, .free⟩
        [.report (.ptwAccessException s.ptwPptr)] (t + 1) ⟨s', .free⟩ ∧
      s'.state = .latency := by
  have driven (i : Input c n) (quiet : i.flush = false) :
      drive i s =
        { regs := { s with tagValid := false, state := .latency }
          ptwAccessException := true } := by
    rw [drive_of_quiet quiet, dispatch, failed]
  have wired := driven (answer (feed t) false false (feed t).dataRdata) (serves.quiet t)
  have cycle := free_cycle indexWidth memory (t := t) rfl
    (congrArg Drive.dataReq (driven (feed t) (serves.quiet t))) wired
  rw [reports, badPaddr, wired] at cycle
  exact ⟨_, cycle, rfl⟩

end Serving

/-! ## Reachable idle states -/

section Reachable

variable {c : Scheme} {n : Nat} {indexWidth : Nat} {memory : PAddr c → Pte c}

/-- While the port is taken the walker waits for its answer. -/
def Awaited (sys : System c) : Prop :=
  sys.port ≠ .free →
    (sys.ptw.state = .pteLookup ∨ sys.ptw.state = .waitRvalid) ∧ sys.ptw.dataRvalid = false

theorem dataReq_iff (s : Regs c) (i : Input c n) :
    (drive i s).dataReq = true ↔ s.state = .waitGrant := by
  have kept : (drive i s).dataReq = (dispatch i s).dataReq := by
    unfold drive
    split
    · rfl
    · rfl
  rw [kept, dispatch]
  cases state : s.state with
  | waitGrant => simp [waitGrant]
  | idle =>
      simp only [idle]
      split
      · simp
      · simp
  | pteLookup =>
      simp only [pteLookup]
      split
      · simp
      · simp [hold]
  | waitRvalid => simp
  | propagateError => simp [propagateError]
  | propagateAccessError => simp
  | latency => simp

theorem state_granted {s : Regs c} {i : Input c n} (waiting : s.state = .waitGrant)
    (granted : i.dataGnt = true) :
    (next s i).state = .pteLookup ∨ (next s i).state = .waitRvalid := by
  cases flushed : i.flush with
  | false =>
      left
      rw [next_waitGrant waiting flushed, granted]
      rfl
  | true =>
      right
      simp [next, drive, flushed, flushState, waiting, granted]

theorem state_unanswered {s : Regs c} {i : Input c n}
    (looking : s.state = .pteLookup ∨ s.state = .waitRvalid)
    (unanswered : s.dataRvalid = false) :
    (next s i).state = .pteLookup ∨ (next s i).state = .waitRvalid := by
  cases flushed : i.flush with
  | true =>
      right
      rcases looking with looking | looking
      · simp [next, drive, flushed, flushState, looking, unanswered]
      · simp [next, drive, flushed, flushState, looking, unanswered]
  | false =>
      rcases looking with looking | looking
      · left
        simp [next, drive, flushed, dispatch, pteLookup, looking, unanswered, hold]
      · right
        simp [next, drive, flushed, dispatch, looking, unanswered]

theorem awaited_next {sys : System c} (awaited : Awaited sys) (i : Input c n) :
    Awaited (systemNext indexWidth memory sys i) := by
  intro taken
  obtain ⟨s, port⟩ := sys
  by_cases free : port = .free
  · subst free
    have wired := wire_free indexWidth memory s i
    have granted : ((drive i s).dataReq && i.dataGnt) = true := by
      by_contra ungranted
      apply taken
      simp [systemNext, portNext, wired, answer, Bool.eq_false_of_not_eq_true ungranted]
    have waiting := (dataReq_iff s i).mp (Bool.and_eq_true_iff.mp granted).1
    rw [systemNext, wired, granted]
    exact ⟨state_granted waiting rfl, rfl⟩
  · obtain ⟨looking, unanswered⟩ := awaited free
    refine ⟨state_unanswered looking unanswered, ?_⟩
    change ((answerable indexWidth ⟨s, port⟩).isSome && i.dataRvalid) = false
    cases busy : answerable indexWidth ⟨s, port⟩ with
    | none => rfl
    | some addr =>
        by_contra answered
        have valid : i.dataRvalid = true := by simpa using answered
        apply taken
        change portNext indexWidth memory ⟨s, port⟩ i = .free
        rw [portNext_busy busy, valid]
        rfl

/-- An idle walker has nothing outstanding, whatever was flushed before. -/
theorem idle_port_free {cycles : List (System c × Input c n)} {sys : System c}
    (run : (machine indexWidth memory).Run cycles sys) (idle : sys.ptw.state = .idle) :
    sys.port = .free := by
  have awaited : Awaited sys := by
    apply run.invariant (fun _ sys => Awaited sys)
    · exact fun taken => absurd rfl taken
    · intro _ sys i _ awaited _
      exact awaited_next awaited i
  by_contra taken
  rcases (awaited taken).1 with looking | looking
  · rw [idle] at looking
    cases looking
  · rw [idle] at looking
    cases looking

end Reachable

end Cva6.Ptw
