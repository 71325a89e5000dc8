import RiscvCores.Cva6.AxiAdapter

/-!
# The writes of the AXI adapter

A write sends its address and its beats independently.  The state and the count say how much
of the write under way is sent; a cycle sends more of it, and the last bit of it is granted.
-/

set_option autoImplicit false

namespace Cva6.LineAdapter

variable {cfg : Cfg} {s : Regs cfg} {i : Input cfg} {r : Request cfg}

/-! ## What a request sends -/

/-- The beats of a write, in order. -/
def Request.beats (r : Request cfg) : List (W cfg) :=
  match r.type with
  | .singleReq => [{ data := word r.wdata 0, strb := word r.be 0, last := true }]
  | .cacheLineReq =>
      (List.range cfg.words).map fun k =>
        { data := word r.wdata k, strb := word r.be k, last := k + 1 == cfg.words }

/-- The address of a write, for the number of its beats. -/
def Request.aw (r : Request cfg) : Aw cfg where
  addr := r.addr
  len := BitVec.ofNat 8 (r.beats.length - 1)
  size := r.size
  id := r.id
  atop := atopFromAmo r.amo

theorem beats_single (single : r.type = .singleReq) :
    r.beats = [{ data := word r.wdata 0, strb := word r.be 0, last := true }] := by
  simp [Request.beats, single]

theorem length_beats (r : Request cfg) :
    r.beats.length = if r.type = .singleReq then 1 else cfg.words := by
  unfold Request.beats
  cases r.type <;> simp

theorem length_beats_pos (r : Request cfg) : 0 < r.beats.length := by
  have positive := cfg.words_pos
  rw [length_beats]
  split <;> omega

theorem cacheLine_of_not_single (line : ¬ r.type = .singleReq) : r.type = .cacheLineReq := by
  cases type : r.type with
  | singleReq => exact absurd type line
  | cacheLineReq => rfl

theorem aw_single (single : r.type = .singleReq) :
    r.aw = { addr := r.addr, len := 0, size := r.size, id := r.id, atop := atopFromAmo r.amo } := by
  simp [Request.aw, length_beats, single]

theorem aw_line (line : r.type = .cacheLineReq) :
    r.aw = { addr := r.addr, len := cfg.burstLen, size := r.size, id := r.id
             atop := atopFromAmo r.amo } := by
  simp [Request.aw, length_beats, line, Cfg.burstLen, Cfg.burstSize]

theorem words_le_pow : cfg.words ≤ 2 ^ cfg.addrIndex := by
  have enough : cfg.words ≤ 2 ^ Nat.clog 2 cfg.words := Nat.le_pow_clog (by omega) _
  refine Nat.le_trans enough (Nat.pow_le_pow_right (by omega) ?_)
  unfold Cfg.addrIndex
  split <;> omega

theorem toNat_burst : cfg.burst.toNat = cfg.words - 1 := by
  have bound : cfg.words ≤ 2 ^ cfg.addrIndex := words_le_pow
  have positive := cfg.words_pos
  rw [Cfg.burst, BitVec.toNat_ofNat, Cfg.burstSize, Nat.mod_eq_of_lt (by omega)]

/-- The words of a line still to come are counted down. -/
theorem toNat_index (within : s.cnt.toNat < cfg.words) :
    (cfg.burst - s.cnt).toNat = cfg.words - 1 - s.cnt.toNat := by
  rw [BitVec.toNat_sub_of_le (by rw [BitVec.le_def, toNat_burst]; omega), toNat_burst]

theorem getElem_beats_line (line : r.type = .cacheLineReq) (within : s.cnt.toNat < cfg.words) :
    r.beats[cfg.words - 1 - s.cnt.toNat]? = some (lineBeat s r (s.cnt == 0)) := by
  have last : (s.cnt == 0) = (cfg.words - 1 - s.cnt.toNat + 1 == cfg.words) := by
    rw [Bool.eq_iff_iff, beq_iff_eq, beq_iff_eq, ← BitVec.toNat_inj]
    simp
    omega
  rw [lineBeat, toNat_index within, last, Request.beats, line]
  simp only [List.getElem?_map]
  rw [List.getElem?_range (by omega)]
  rfl

/-! ## How much is sent -/

/-- The states in which a write is under way and not yet granted. -/
def State.writes : State → Bool
  | .waitAwReady | .waitLastWReady | .waitLastWReadyAwReady | .waitAwReadyBurst => true
  | _ => false

/-- The address of the write under way, if it was sent. -/
def sentAw (s : Regs cfg) (r : Request cfg) : List (Aw cfg) :=
  if s.state = .waitLastWReady then [r.aw] else []

/-- The beats that were sent. -/
def sentBeats (s : Regs cfg) (r : Request cfg) : List (W cfg) :=
  match s.state with
  | .waitAwReady | .waitAwReadyBurst => r.beats
  | .waitLastWReady | .waitLastWReadyAwReady => r.beats.take (r.beats.length - 1 - s.cnt.toNat)
  | _ => []

/-- State and count fit the write under way. -/
def Writing (s : Regs cfg) (r : Request cfg) : Prop :=
  match s.state with
  | .waitAwReady => r.type = .singleReq
  | .waitLastWReady => s.cnt.toNat < r.beats.length
  | .waitLastWReadyAwReady => r.type = .cacheLineReq ∧ s.cnt.toNat + 1 < cfg.words
  | .waitAwReadyBurst => r.type = .cacheLineReq
  | _ => False

theorem Writing.writes (writing : Writing s r) : s.state.writes = true := by
  unfold Writing at writing
  unfold State.writes
  split at writing <;> simp_all

/-- The address handshake of a cycle. -/
def awOf (c : Step cfg) (i : Input cfg) : List (Aw cfg) :=
  if c.out.awValid && i.awReady then [c.out.aw] else []

def wOf (c : Step cfg) (i : Input cfg) : List (W cfg) :=
  if c.out.wValid && i.wReady then [c.out.w] else []

/-- The states that offer an address, whatever the requester does. -/
def State.offersAw : State → Bool
  | .waitAwReady | .waitLastWReadyAwReady | .waitAwReadyBurst => true
  | _ => false

/-- The states that offer a beat. -/
def State.offersW : State → Bool
  | .waitLastWReady | .waitLastWReadyAwReady => true
  | _ => false

/-- A cycle that works on the write `r`. -/
structure Advance (s : Regs cfg) (i : Input cfg) (r : Request cfg) (c : Step cfg) : Prop where
  aw : sentAw s r ++ awOf c i = if c.out.gnt then [r.aw] else sentAw c.next r
  w : sentBeats s r ++ wOf c i = if c.out.gnt then r.beats else sentBeats c.next r
  granted : c.out.gnt = true → c.next.state = .waitBValid
  waits : c.out.gnt = false → Writing c.next r ∨ s.state = .idle ∧ c.next.state = .idle
  awStays : c.out.awValid = true → i.awReady = false →
    c.next.state.offersAw = true ∨ s.state = .idle ∧ c.next.state = .idle
  wStays : c.out.wValid = true → i.wReady = false →
    c.next.state.offersW = true ∨ s.state = .idle ∧ c.next.state = .idle
  silent : c.out.arValid = false ∧ c.out.rReady = false ∧ c.out.bReady = false ∧
    c.out.valid = false
  amo : c.next.amo =
    if c.out.awValid && i.awReady && r.type == .singleReq then r.amo else s.amo
  idle : c.next.state = .idle → c.next.id = s.id
  outstanding : c.next.outstandingAwCnt = s.outstandingAwCnt

theorem take_append_of_getElem? {α : Type} {xs : List α} {k : Nat} {x : α}
    (there : xs[k]? = some x) : xs.take k ++ [x] = xs.take (k + 1) := by
  rw [List.take_add_one, there]
  rfl

theorem advance_waitAwReady (state : s.state = .waitAwReady) (writing : Writing s r)
    (same : i.request = r) : Advance s i r (waitAwReady s i) := by
  have single : r.type = .singleReq := by simpa [Writing, state] using writing
  subst same
  cases ready : i.awReady <;>
    constructor <;>
    simp [waitAwReady, defaults, ready, state, sentAw, sentBeats, awOf, wOf, Writing, single,
      aw_single, State.offersAw]

theorem advance_waitAwReadyBurst (state : s.state = .waitAwReadyBurst) (writing : Writing s r)
    (same : i.request = r) : Advance s i r (waitAwReadyBurst s i) := by
  have line : r.type = .cacheLineReq := by simpa [Writing, state] using writing
  subst same
  cases ready : i.awReady <;>
    constructor <;>
    simp [waitAwReadyBurst, defaults, ready, state, sentAw, sentBeats, awOf, wOf, Writing, line,
      aw_line, State.offersAw]

theorem toNat_cnt_pred (some : s.cnt ≠ 0#(cfg.addrIndex)) :
    (s.cnt - 1#(cfg.addrIndex)).toNat + 1 = s.cnt.toNat := by
  have positive : s.cnt.toNat ≠ 0 := by
    intro none
    exact some (BitVec.eq_of_toNat_eq none)
  have wide : 1 < 2 ^ cfg.addrIndex := by
    apply Nat.one_lt_two_pow
    unfold Cfg.addrIndex
    split <;> omega
  have one : (1#(cfg.addrIndex)).toNat = 1 :=
    (BitVec.toNat_ofNat 1 _).trans (Nat.mod_eq_of_lt wide)
  have least : (1#(cfg.addrIndex)) ≤ s.cnt := by
    rw [BitVec.le_def, one]
    exact Nat.one_le_iff_ne_zero.mpr positive
  rw [BitVec.toNat_sub_of_le least, one, Nat.sub_add_cancel (Nat.one_le_iff_ne_zero.mpr positive)]

/-- The beat that a state with a count offers. -/
theorem beats_at_cnt (within : s.cnt.toNat < r.beats.length) :
    r.beats[r.beats.length - 1 - s.cnt.toNat]? =
      some (if r.type = .singleReq then
          { data := word r.wdata 0, strb := word r.be 0, last := s.cnt == 0 }
        else lineBeat s r (s.cnt == 0)) := by
  by_cases single : r.type = .singleReq
  · rw [length_beats, if_pos single] at within
    have zero : s.cnt = 0#(cfg.addrIndex) := BitVec.eq_of_toNat_eq (by simp; omega)
    simp [beats_single single, single, zero]
  · rw [length_beats, if_neg single] at within
    rw [length_beats, if_neg single, if_neg single]
    exact getElem_beats_line (cacheLine_of_not_single single) within

/-- One beat more is sent. -/
theorem take_beats_succ (within : s.cnt.toNat < r.beats.length) (more : s.cnt ≠ 0#(cfg.addrIndex)) :
    r.beats.take (r.beats.length - 1 - s.cnt.toNat) ++
        [if r.type = .singleReq then
            { data := word r.wdata 0, strb := word r.be 0, last := s.cnt == 0 }
          else lineBeat s r (s.cnt == 0)] =
      r.beats.take (r.beats.length - 1 - (s.cnt - 1#(cfg.addrIndex)).toNat) := by
  have fewer := toNat_cnt_pred more
  rw [take_append_of_getElem? (beats_at_cnt within)]
  congr 1
  omega

/-- The last beat completes the burst. -/
theorem take_beats_last (zero : s.cnt = 0#(cfg.addrIndex)) :
    r.beats.take (r.beats.length - 1 - s.cnt.toNat) ++
        [if r.type = .singleReq then
            { data := word r.wdata 0, strb := word r.be 0, last := s.cnt == 0 }
          else lineBeat s r (s.cnt == 0)] = r.beats := by
  have positive := length_beats_pos r
  have none : s.cnt.toNat = 0 := by simp [zero]
  rw [take_append_of_getElem? (beats_at_cnt (by omega)), none]
  exact List.take_of_length_le (by omega)

theorem advance_waitLastWReady (state : s.state = .waitLastWReady) (writing : Writing s r)
    (same : i.request = r) : Advance s i r (waitLastWReady s i) := by
  have within : s.cnt.toNat < r.beats.length := by simpa [Writing, state] using writing
  subst same
  cases ready : i.wReady with
  | false =>
      constructor <;>
        simp [waitLastWReady, defaults, ready, state, sentAw, sentBeats, awOf, wOf, Writing,
          within, State.offersW]
  | true =>
      by_cases last : s.cnt = 0#(cfg.addrIndex)
      · have whole := take_beats_last (r := i.request) last
        constructor <;>
          simp [waitLastWReady, defaults, ready, state, sentAw, sentBeats, awOf, wOf, last]
        simpa [last] using whole
      · have more := take_beats_succ within last
        have fewer := toNat_cnt_pred last
        constructor <;>
          simp [waitLastWReady, defaults, ready, state, sentAw, sentBeats, awOf, wOf, last,
            Writing, -BitVec.toNat_sub]
        · simpa [last, -BitVec.toNat_sub] using more
        · omega

theorem advance_waitLastWReadyAwReady (state : s.state = .waitLastWReadyAwReady)
    (writing : Writing s r) (same : i.request = r) :
    Advance s i r (waitLastWReadyAwReady s i) := by
  obtain ⟨line, within⟩ : r.type = .cacheLineReq ∧ s.cnt.toNat + 1 < cfg.words := by
    simpa [Writing, state] using writing
  have length : r.beats.length = cfg.words := by simp [length_beats, line]
  subst same
  cases address : i.awReady <;> cases data : i.wReady
  case false.false =>
    constructor <;>
      simp [waitLastWReadyAwReady, defaults, address, data, state, sentAw, sentBeats, awOf, wOf,
        Writing, line, within, State.offersAw, State.offersW]
  case true.false =>
    constructor <;>
      simp [waitLastWReadyAwReady, defaults, address, data, state, sentAw, sentBeats, awOf, wOf,
        Writing, line, aw_line, State.offersW]
    omega
  all_goals
    by_cases last : s.cnt = 0#(cfg.addrIndex)
    · have whole := take_beats_last (r := i.request) last
      constructor <;>
        simp [waitLastWReadyAwReady, defaults, address, data, state, sentAw, sentBeats, awOf, wOf,
          Writing, line, aw_line, last, State.offersAw]
      simpa [last, line] using whole
    · have more := take_beats_succ (r := i.request) (by omega) last
      have fewer := toNat_cnt_pred last
      constructor <;>
        simp [waitLastWReadyAwReady, defaults, address, data, state, sentAw, sentBeats, awOf, wOf,
          Writing, line, aw_line, last, State.offersAw, -BitVec.toNat_sub]
      · simpa [last, line, -BitVec.toNat_sub] using more
      · omega

/-- The first beat of a line, which goes out with the address. -/
theorem beats_first (line : r.type = .cacheLineReq) (many : 1 < cfg.words) :
    r.beats.take 1 = [{ data := word r.wdata 0, strb := word r.be 0, last := false }] := by
  have several : (1 == cfg.words) = false := by
    rw [beq_eq_false_iff_ne]
    omega
  rw [Request.beats, line]
  simp only [← List.map_take]
  rw [List.take_range, Nat.min_eq_left (by omega)]
  simp [List.range_succ, several]

theorem advance_idleWrite (state : s.state = .idle)
    (many : r.type = .cacheLineReq → 1 < cfg.words ∨ i.wReady = false) (same : i.request = r) :
    Advance s i r (idleWrite s i) := by
  subst same
  cases type : i.request.type with
  | singleReq =>
      cases address : i.awReady <;> cases data : i.wReady <;>
        constructor <;>
        simp [idleWrite, defaults, address, data, type, state, sentAw, sentBeats, awOf, wOf,
          Writing, aw_single, beats_single, State.offersAw, State.offersW]
  | cacheLineReq =>
      have length : i.request.beats.length = cfg.words := by simp [length_beats, type]
      have positive := cfg.words_pos
      cases data : i.wReady with
      | false =>
          cases address : i.awReady <;>
            constructor <;>
            simp [idleWrite, defaults, address, data, type, state, sentAw, sentBeats, awOf, wOf,
              Writing, aw_line, State.offersW, length, toNat_burst]
          omega
      | true =>
          have more : 1 < cfg.words := by simpa [data] using many type
          have first := beats_first type more
          have some : cfg.burst ≠ 0#(cfg.addrIndex) := by
            intro none
            have count : cfg.burst.toNat = cfg.words - 1 := toNat_burst
            rw [none] at count
            simp at count
            omega
          have fewer : (cfg.burst - 1#(cfg.addrIndex)).toNat + 1 = cfg.words - 1 := by
            rw [← toNat_burst]
            exact toNat_cnt_pred (s := { s with cnt := cfg.burst }) some
          have one : cfg.words - 1 - (cfg.burst - 1#(cfg.addrIndex)).toNat = 1 := by omega
          cases address : i.awReady <;>
            constructor <;>
            simp [idleWrite, defaults, address, data, type, state, sentAw, sentBeats, awOf, wOf,
              Writing, aw_line, State.offersAw, length, one, first, -BitVec.toNat_sub]
          all_goals omega

/-! ## From the request to its grant -/

/-- The write is under way, or it may be sent. -/
def Pending (s : Regs cfg) (r : Request cfg) : Prop :=
  Writing s r ∨ s.state = .idle ∧ mayWrite s r = true

/-- The requester drives the write `r`. -/
structure Holds (i : Input cfg) (r : Request cfg) : Prop where
  req : i.req = true
  same : i.request = r
  write : r.we = true

/-- The first beat of a line is taken at once only if there are more. -/
def SeveralBeats (s : Regs cfg) (i : Input cfg) (r : Request cfg) : Prop :=
  s.state = .idle → r.type = .cacheLineReq → 1 < cfg.words ∨ i.wReady = false

theorem advance_fsm (pending : Pending s r) (held : Holds i r) (several : SeveralBeats s i r) :
    Advance s i r (fsm s i) := by
  rcases pending with writing | ⟨state, may⟩
  · cases state : s.state with
    | waitAwReady => simpa [fsm, state] using advance_waitAwReady state writing held.same
    | waitLastWReady => simpa [fsm, state] using advance_waitLastWReady state writing held.same
    | waitLastWReadyAwReady =>
        simpa [fsm, state] using advance_waitLastWReadyAwReady state writing held.same
    | waitAwReadyBurst =>
        simpa [fsm, state] using advance_waitAwReadyBurst state writing held.same
    | _ => simp [Writing, state] at writing
  · have starts : fsm s i = idleWrite s i := by
      simp [fsm, state, idle, held.req, held.same, held.write, may]
    rw [starts]
    exact advance_idleWrite state (several state) held.same

/-! The responses to earlier writes change only their count. -/

theorem gnt_step : (step s i).out.gnt = (fsm s i).out.gnt := by
  rw [step]
  split <;> rfl

theorem awOf_step : awOf (step s i) i = awOf (fsm s i) i := by
  rw [step]
  split <;> rfl

theorem wOf_step : wOf (step s i) i = wOf (fsm s i) i := by
  rw [step]
  split <;> rfl

theorem sentAw_step : sentAw (step s i).next r = sentAw (fsm s i).next r := by
  rw [step]
  split <;> rfl

theorem sentBeats_step : sentBeats (step s i).next r = sentBeats (fsm s i).next r := by
  rw [step]
  split <;> rfl

theorem state_step : (step s i).next.state = (fsm s i).next.state := by
  rw [step]
  split <;> rfl

theorem writing_step : Writing (step s i).next r = Writing (fsm s i).next r := by
  rw [step]
  split <;> rfl

/-- What may be written may still be written when responses arrive. -/
theorem mayWrite_step (may : mayWrite s r = true) (id : (fsm s i).next.id = s.id)
    (count : (fsm s i).next.outstandingAwCnt = s.outstandingAwCnt) :
    mayWrite (step s i).next r = true := by
  by_cases none : s.outstandingAwCnt = 0
  · have kept : step s i = fsm s i := by simp [step, takesB, none]
    rw [kept, mayWrite, count, none]
    rfl
  · have ordered : (r.id == s.id && r.amo == .none) = true := by simpa [mayWrite, none] using may
    have sameId : (step s i).next.id = s.id := by
      rw [step]
      split <;> exact id
    rw [mayWrite, sameId, ordered, Bool.or_true]

theorem pending_step (pending : Pending s r) (held : Holds i r) (several : SeveralBeats s i r)
    (waits : (step s i).out.gnt = false) : Pending (step s i).next r := by
  have advance := advance_fsm pending held several
  rw [gnt_step] at waits
  rcases advance.waits waits with writing | ⟨idle, stays⟩
  · exact .inl (writing_step ▸ writing)
  · refine .inr ⟨state_step.trans stays, ?_⟩
    have may : mayWrite s r = true := by
      rcases pending with writing | ⟨-, may⟩
      · simp [Writing, idle] at writing
      · exact may
    exact mayWrite_step may (advance.idle stays) advance.outstanding

/-- The registers behind the cycles. -/
def after (s : Regs cfg) (is : List (Input cfg)) : Regs cfg :=
  is.foldl (fun s i => (step s i).next) s

/-- The address handshakes of the cycles. -/
def awsOf (s : Regs cfg) : List (Input cfg) → List (Aw cfg)
  | [] => []
  | i :: is => awOf (step s i) i ++ awsOf (step s i).next is

def wsOf (s : Regs cfg) : List (Input cfg) → List (W cfg)
  | [] => []
  | i :: is => wOf (step s i) i ++ wsOf (step s i).next is

def Ungranted (s : Regs cfg) : List (Input cfg) → Prop
  | [] => True
  | i :: is => (step s i).out.gnt = false ∧ Ungranted (step s i).next is

theorem awsOf_append (s : Regs cfg) (is : List (Input cfg)) (i : Input cfg) :
    awsOf s (is ++ [i]) = awsOf s is ++ awOf (step (after s is) i) i := by
  induction is generalizing s with
  | nil => simp [awsOf, after]
  | cons now rest ih =>
      rw [List.cons_append, awsOf, ih, awsOf, List.append_assoc]
      rfl

theorem wsOf_append (s : Regs cfg) (is : List (Input cfg)) (i : Input cfg) :
    wsOf s (is ++ [i]) = wsOf s is ++ wOf (step (after s is) i) i := by
  induction is generalizing s with
  | nil => simp [wsOf, after]
  | cons now rest ih =>
      rw [List.cons_append, wsOf, ih, wsOf, List.append_assoc]
      rfl

/-- Before the grant the state tells what is sent. -/
theorem sent_before_grant {is : List (Input cfg)} (pending : Pending s r)
    (many : r.type = .cacheLineReq → 1 < cfg.words) (held : ∀ i ∈ is, Holds i r)
    (ungranted : Ungranted s is) :
    Pending (after s is) r ∧
      sentAw s r ++ awsOf s is = sentAw (after s is) r ∧
      sentBeats s r ++ wsOf s is = sentBeats (after s is) r := by
  induction is generalizing s with
  | nil => simpa [after, awsOf, wsOf] using pending
  | cons i rest ih =>
      obtain ⟨waits, later⟩ := ungranted
      have now : Holds i r := held i List.mem_cons_self
      have several : SeveralBeats s i r := fun _ line => .inl (many line)
      have advance := advance_fsm pending now several
      have silent : (fsm s i).out.gnt = false := gnt_step ▸ waits
      have rest := ih (pending_step pending now several waits)
        (fun j member => held j (List.mem_cons_of_mem i member)) later
      have aw : sentAw s r ++ awOf (step s i) i = sentAw (step s i).next r := by
        rw [awOf_step, advance.aw, silent, sentAw_step]
        rfl
      have w : sentBeats s r ++ wOf (step s i) i = sentBeats (step s i).next r := by
        rw [wOf_step, advance.w, silent, sentBeats_step]
        rfl
      refine ⟨rest.1, ?_, ?_⟩
      · rw [awsOf, ← List.append_assoc, aw]
        exact rest.2.1
      · rw [wsOf, ← List.append_assoc, w]
        exact rest.2.2

/-- From the idle state to its grant a write sends its address once and its beats once, in
order, whenever the two channels are ready. -/
theorem sends_write {is : List (Input cfg)} (idle : s.state = .idle) (may : mayWrite s r = true)
    (many : r.type = .cacheLineReq → 1 < cfg.words)
    (held : ∀ j ∈ is, Holds j r) (last : Holds i r) (ungranted : Ungranted s is)
    (granted : (step (after s is) i).out.gnt = true) :
    awsOf s (is ++ [i]) = [r.aw] ∧ wsOf s (is ++ [i]) = r.beats := by
  obtain ⟨pending, aw, w⟩ := sent_before_grant (.inr ⟨idle, may⟩) many held ungranted
  have advance := advance_fsm pending last fun _ line => .inl (many line)
  have now : (fsm (after s is) i).out.gnt = true := gnt_step ▸ granted
  have noAw : sentAw s r = [] := by simp [sentAw, idle]
  have noW : sentBeats s r = [] := by simp [sentBeats, idle]
  rw [noAw, List.nil_append] at aw
  rw [noW, List.nil_append] at w
  refine ⟨?_, ?_⟩
  · rw [awsOf_append, aw, awOf_step, advance.aw, if_pos now]
  · rw [wsOf_append, w, wOf_step, advance.w, if_pos now]

/-! ## Offers are kept -/

theorem awValid_of_offersAw (offers : s.state.offersAw = true) : (fsm s i).out.awValid = true := by
  cases state : s.state <;> simp_all [State.offersAw, fsm, waitAwReady, waitLastWReadyAwReady,
    waitAwReadyBurst]

theorem wValid_of_offersW (offers : s.state.offersW = true) : (fsm s i).out.wValid = true := by
  cases state : s.state <;> simp_all [State.offersW, fsm, waitLastWReady, waitLastWReadyAwReady]

/-- In the idle state a write that may be sent is offered on both channels. -/
theorem offers_idle (idle : s.state = .idle) (pending : Pending s r) (held : Holds i r) :
    (fsm s i).out.awValid = true ∧ (fsm s i).out.wValid = true := by
  have may : mayWrite s r = true := by
    rcases pending with writing | ⟨-, may⟩
    · simp [Writing, idle] at writing
    · exact may
  have starts : fsm s i = idleWrite s i := by
    simp [fsm, idle, LineAdapter.idle, held.req, held.same, held.write, may]
  rw [starts, idleWrite]
  cases i.request.type <;> exact ⟨rfl, rfl⟩

/-- An address that is offered stays offered until it is taken, and so does a beat. -/
theorem offers_kept {j : Input cfg} (pending : Pending s r) (held : Holds i r)
    (several : SeveralBeats s i r) (next : Holds j r) (waits : (step s i).out.gnt = false) :
    ((step s i).out.awValid = true → i.awReady = false →
        (step (step s i).next j).out.awValid = true) ∧
      ((step s i).out.wValid = true → i.wReady = false →
        (step (step s i).next j).out.wValid = true) := by
  have advance := advance_fsm pending held several
  have later := pending_step pending held several waits
  have valid (s : Regs cfg) (i : Input cfg) :
      (step s i).out.awValid = (fsm s i).out.awValid ∧
        (step s i).out.wValid = (fsm s i).out.wValid := by
    rw [step]
    split <;> exact ⟨rfl, rfl⟩
  rw [(valid s i).1, (valid s i).2, (valid _ j).1, (valid _ j).2]
  refine ⟨fun offered busy => ?_, fun offered busy => ?_⟩
  · rcases advance.awStays offered busy with offers | ⟨-, idle⟩
    · exact awValid_of_offersAw (state_step.symm ▸ offers)
    · exact (offers_idle (state_step.trans idle) later next).1
  · rcases advance.wStays offered busy with offers | ⟨-, idle⟩
    · exact wValid_of_offersW (state_step.symm ▸ offers)
    · exact (offers_idle (state_step.trans idle) later next).2

end Cva6.LineAdapter
