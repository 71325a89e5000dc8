import Mathlib.Data.List.FinRange
import RiscvCores.Lib.BoundedCount
import RiscvCores.Lib.Clocked

/-!
# The arbiter of the bypass ports

`axi_adapter_arbiter` of the miss handler, over any number of ports.  A request is granted
to its port before the slave takes it, and one selection register remembers whose requests
are under way.  The payload of a request is left open, as it is in the source.
-/

set_option autoImplicit false

namespace Cva6.BypassArbiter

variable {n : Nat} {α β : Type}

/-- `req_t`: the request bit, and the other fields as one payload. -/
structure Req (α : Type) where
  req : Bool
  body : α

/-- `rsp_t`. -/
structure Rsp (β : Type) where
  gnt : Bool
  valid : Bool
  rdata : β

inductive State
  | idle
  | serving
  deriving DecidableEq, Repr

/-- Registers; the counter is of the width of `MAX_OUTSTANDING_CNT_WIDTH`. -/
structure Regs (n : Nat) (α : Type) where
  state : State
  sel : Fin n
  req : Req α
  outstandingCnt : Nat

/-- Inputs of one cycle: `req_i` and `rsp_i`. -/
structure Input (n : Nat) (α β : Type) where
  req : Fin n → Req α
  rsp : Rsp β

/-- The outputs of one cycle and the next registers. -/
structure Comb (n : Nat) (α β : Type) where
  next : Regs n α
  reqO : Req α
  rspO : Fin n → Rsp β

def anyUnselectedPortValid (s : Regs n α) (i : Input n α β) : Bool :=
  (List.finRange n).any fun p => (i.req p).req && p != s.sel

/-- The request that is left over when the slave did or did not take it. -/
def Req.unlessTaken (r : Req α) (gnt : Bool) : Req α :=
  if r.req && gnt then { r with req := false } else r

section Arbiter

variable (maxOutstanding : Nat) (zero : β) (s : Regs n α) (i : Input n α β)

/-- State `IDLE`: the first port that requests is selected and granted. -/
def idle : Comb n α β :=
  let first := (List.finRange n).find? fun p => (i.req p).req
  let sel := first.getD s.sel
  let reqO := i.req sel
  { next :=
      { state := if first.isSome then .serving else .idle
        sel := sel
        req := reqO.unlessTaken i.rsp.gnt
        outstandingCnt :=
          if reqO.req && i.rsp.gnt then BoundedCount.incr maxOutstanding s.outstandingCnt
          else s.outstandingCnt }
    reqO := reqO
    rspO := fun p =>
      { gnt := p == sel && (i.req sel).req
        valid := false
        rdata := if p = s.sel then i.rsp.rdata else zero } }

/-- In `SERVING` another request of the selected port is accepted. -/
def takes : Bool :=
  !s.req.req && !anyUnselectedPortValid s i && s.outstandingCnt != maxOutstanding - 1 &&
    (i.req s.sel).req

/-- State `SERVING`. -/
def serving : Comb n α β :=
  let reqO := if takes maxOutstanding s i then i.req s.sel else s.req
  let cnt :=
    if reqO.req && i.rsp.gnt then BoundedCount.incr maxOutstanding s.outstandingCnt
    else s.outstandingCnt
  let cnt := if i.rsp.valid then BoundedCount.decr maxOutstanding cnt else cnt
  { next :=
      { state :=
          if i.rsp.valid && cnt == 0 && (!reqO.req || i.rsp.gnt) then .idle else .serving
        sel := s.sel
        req := reqO.unlessTaken i.rsp.gnt
        outstandingCnt := cnt }
    reqO := reqO
    rspO := fun p =>
      { gnt := p == s.sel && takes maxOutstanding s i
        valid := p == s.sel && i.rsp.valid
        rdata := if p = s.sel then i.rsp.rdata else zero } }

/-- The `always_comb` block. -/
def comb : Comb n α β :=
  match s.state with
  | .idle => idle maxOutstanding zero s i
  | .serving => serving maxOutstanding zero s i

end Arbiter

/-- The request that was granted to its port and not yet taken by the slave. -/
def Req.pending (r : Req α) : List α := if r.req then [r.body] else []

/-! ## What goes in and out -/

section Ledger

variable (maxOutstanding : Nat) (zero : β) (now : Regs n α × Input n α β)

/-- The requests granted to their ports in one cycle. -/
def acceptedNow : List (Fin n × α) :=
  (List.finRange n).filterMap fun p =>
    if ((comb maxOutstanding zero now.1 now.2).rspO p).gnt then
      some (p, (now.2.req p).body)
    else none

/-- The request the slave takes in one cycle. -/
def forwardedNow : List α :=
  let reqO := (comb maxOutstanding zero now.1 now.2).reqO
  if reqO.req && now.2.rsp.gnt then [reqO.body] else []

/-- The answer of the slave in one cycle. -/
def answersNow : List β := if now.2.rsp.valid then [now.2.rsp.rdata] else []

/-- The responses the ports see in one cycle. -/
def deliveredNow : List (Fin n × β) :=
  (List.finRange n).filterMap fun p =>
    let rsp := (comb maxOutstanding zero now.1 now.2).rspO p
    if rsp.valid then some (p, rsp.rdata) else none

variable (cycles : List (Regs n α × Input n α β))

def accepted : List (Fin n × α) := cycles.flatMap (acceptedNow maxOutstanding zero)

def forwarded : List α := cycles.flatMap (forwardedNow maxOutstanding zero)

def answers : List β := cycles.flatMap answersNow

def delivered : List (Fin n × β) := cycles.flatMap (deliveredNow maxOutstanding zero)

end Ledger

/-- The arbiter over a slave that answers what it took, in a later cycle, as the assertion
on `rsp_i.gnt` and `rsp_i.valid` has it. -/
def machine (n maxOutstanding : Nat) [NeZero n] (zeroBody : α) (zero : β) :
    Clocked.Machine (Regs n α) (Input n α β) where
  reset := { state := .idle, sel := 0, req := ⟨false, zeroBody⟩, outstandingCnt := 0 }
  next s i := (comb maxOutstanding zero s i).next
  allowed cycles _ i :=
    i.rsp.valid = true →
      (answers cycles).length < (forwarded maxOutstanding zero cycles).length

instance [NeZero n] (maxOutstanding : Nat) (zeroBody : α) (zero : β)
    (cycles : List (Regs n α × Input n α β)) (s : Regs n α) (i : Input n α β) :
    Decidable ((machine n maxOutstanding zeroBody zero).allowed cycles s i) :=
  inferInstanceAs (Decidable (_ → _))

variable {maxOutstanding : Nat} {zero : β} {s : Regs n α} {i : Input n α β}
  {now : Regs n α × Input n α β} {cycles : List (Regs n α × Input n α β)}

@[simp] theorem accepted_concat : accepted maxOutstanding zero (cycles ++ [now]) =
    accepted maxOutstanding zero cycles ++ acceptedNow maxOutstanding zero now := by
  simp [accepted]

@[simp] theorem forwarded_concat : forwarded maxOutstanding zero (cycles ++ [now]) =
    forwarded maxOutstanding zero cycles ++ forwardedNow maxOutstanding zero now := by
  simp [forwarded]

@[simp] theorem answers_concat : answers (cycles ++ [now]) =
    answers cycles ++ answersNow now := by
  simp [answers]

@[simp] theorem delivered_concat : delivered maxOutstanding zero (cycles ++ [now]) =
    delivered maxOutstanding zero cycles ++ deliveredNow maxOutstanding zero now := by
  simp [delivered]

/-! ## One cycle -/

theorem filterMap_of_single {γ δ : Type} {xs : List γ} (nodup : xs.Nodup) {x : γ}
    (member : x ∈ xs) (f : γ → Option δ) (others : ∀ y ∈ xs, y ≠ x → f y = none) :
    xs.filterMap f = (f x).toList := by
  obtain ⟨before, after, rfl⟩ := List.append_of_mem member
  have apart : x ∉ before ∧ x ∉ after := by
    simp only [List.nodup_append, List.nodup_cons, List.mem_cons] at nodup
    exact ⟨fun inside => nodup.2.2 x inside x (Or.inl rfl) rfl, nodup.2.1.1⟩
  have left : before.filterMap f = [] := by
    apply List.filterMap_eq_nil_iff.mpr
    intro y inside
    exact others y (by simp [inside]) (fun same => apart.1 (same ▸ inside))
  have right : after.filterMap f = [] := by
    apply List.filterMap_eq_nil_iff.mpr
    intro y inside
    exact others y (by simp [inside]) (fun same => apart.2 (same ▸ inside))
  cases found : f x <;> simp [left, right, found]

/-- A port is granted in this cycle. -/
def grants (maxOutstanding : Nat) (s : Regs n α) (i : Input n α β) : Bool :=
  match s.state with
  | .idle => (List.finRange n).any fun p => (i.req p).req
  | .serving => takes maxOutstanding s i

theorem find_some_of_any {p : Fin n → Bool} (found : (List.finRange n).any p = true) (d : Fin n) :
    p (((List.finRange n).find? p).getD d) = true := by
  cases first : (List.finRange n).find? p with
  | none =>
      obtain ⟨x, member, holds⟩ := List.any_eq_true.mp found
      exact absurd holds (List.find?_eq_none.mp first x member)
  | some x => exact List.find?_some first

/-- Only the port selected next is granted, and its request goes to the slave. -/
theorem comb_granted (zero : β) (granted : grants maxOutstanding s i = true) :
    let c := comb maxOutstanding zero s i
    c.reqO = i.req c.next.sel ∧ c.reqO.req = true ∧
      ∀ p, (c.rspO p).gnt = (p == c.next.sel) := by
  unfold grants at granted
  cases state : s.state with
  | idle =>
      simp only [state] at granted
      have requests := find_some_of_any granted s.sel
      simp only [comb, state, idle]
      exact ⟨trivial, requests, fun p => by rw [requests, Bool.and_true]⟩
  | serving =>
      simp only [state] at granted
      have requests : (i.req s.sel).req = true := by
        simp only [takes, Bool.and_eq_true] at granted
        exact granted.2
      simp [comb, state, serving, granted, requests]

/-- Without a grant the pending request stays on offer. -/
theorem comb_not_granted (zero : β) (granted : grants maxOutstanding s i = false)
    (empty : s.state = .idle → s.req.pending = []) :
    let c := comb maxOutstanding zero s i
    c.reqO.pending = s.req.pending ∧ ∀ p, (c.rspO p).gnt = false := by
  unfold grants at granted
  cases state : s.state with
  | idle =>
      simp only [state] at granted
      have silent : ∀ p, (i.req p).req = false := by
        intro p
        simpa using List.any_eq_false.mp granted p (List.mem_finRange p)
      simp [comb, state, idle, silent, Req.pending]
      simpa [Req.pending] using empty state
  | serving =>
      simp only [state] at granted
      simp [comb, state, serving, granted]

/-- What is on offer is taken or stays pending. -/
theorem forwardedNow_append_pending (maxOutstanding : Nat) (zero : β)
    (now : Regs n α × Input n α β) :
    forwardedNow maxOutstanding zero now ++
        (comb maxOutstanding zero now.1 now.2).next.req.pending =
      (comb maxOutstanding zero now.1 now.2).reqO.pending := by
  have kept : ∀ r : Req α,
      (if r.req && now.2.rsp.gnt then [r.body] else []) ++ (r.unlessTaken now.2.rsp.gnt).pending =
        r.pending := by
    intro r
    cases requests : r.req <;> cases gnt : now.2.rsp.gnt <;>
      simp [Req.unlessTaken, Req.pending, requests]
  unfold forwardedNow comb
  cases now.1.state with
  | idle => exact kept _
  | serving => exact kept _

theorem acceptedNow_of_granted (granted : grants maxOutstanding now.1 now.2 = true) :
    acceptedNow maxOutstanding zero now =
      [((comb maxOutstanding zero now.1 now.2).next.sel,
        (comb maxOutstanding zero now.1 now.2).reqO.body)] := by
  obtain ⟨offered, -, gnt⟩ := comb_granted zero granted
  unfold acceptedNow
  simp only [gnt, beq_iff_eq]
  rw [filterMap_of_single (List.nodup_finRange n) (List.mem_finRange _) _
    (fun p _ other => if_neg other)]
  simp [offered]

theorem acceptedNow_of_not_granted (granted : grants maxOutstanding now.1 now.2 = false)
    (empty : now.1.state = .idle → now.1.req.pending = []) :
    acceptedNow maxOutstanding zero now = [] := by
  have silent := (comb_not_granted zero granted empty).2
  simp [acceptedNow, silent]

/-- A response is seen by the selected port alone, in the state that serves it. -/
theorem deliveredNow_eq : deliveredNow maxOutstanding zero now =
    if now.2.rsp.valid = true ∧ now.1.state = .serving then
      [(now.1.sel, now.2.rsp.rdata)] else [] := by
  unfold deliveredNow
  cases state : now.1.state with
  | idle => simp [comb, state, idle]
  | serving =>
      simp only [comb, state, serving, and_true]
      cases valid : now.2.rsp.valid with
      | false => simp
      | true =>
          rw [filterMap_of_single (List.nodup_finRange n) (List.mem_finRange now.1.sel)]
          · simp
          · intro p _ other
            simp [other]

/-- The request on offer is the pending one or the one accepted in this cycle. -/
theorem pending_append_acceptedNow (zero : β) (now : Regs n α × Input n α β)
    (empty : now.1.state = .idle → now.1.req.pending = []) :
    now.1.req.pending ++ (acceptedNow maxOutstanding zero now).map Prod.snd =
      (comb maxOutstanding zero now.1 now.2).reqO.pending := by
  cases granted : grants maxOutstanding now.1 now.2 with
  | false =>
      rw [acceptedNow_of_not_granted granted empty, List.map_nil, List.append_nil]
      exact (comb_not_granted zero granted empty).1.symm
  | true =>
      have nothing : now.1.req.pending = [] := by
        cases state : now.1.state with
        | idle => exact empty state
        | serving =>
            simp only [grants, state, takes, Bool.and_eq_true, Bool.not_eq_true'] at granted
            simp [Req.pending, granted.1.1.1]
      rw [acceptedNow_of_granted granted, nothing]
      simp [Req.pending, (comb_granted zero granted).2.1]

theorem cnt_up {cnt : Nat} {r : Req α} (gnt : Bool)
    (room : cnt + r.pending.length < maxOutstanding) :
    (if r.req && gnt then BoundedCount.incr maxOutstanding cnt else cnt) =
      cnt + (if r.req && gnt then [r.body] else []).length := by
  cases requests : r.req with
  | false => simp
  | true =>
      cases gnt with
      | false => simp
      | true =>
          simp only [Req.pending, requests, if_true, List.length_singleton] at room
          simpa using BoundedCount.incr_eq (by omega)

/-- The counter counts what the slave takes and what it answers. -/
theorem comb_cnt (room : now.1.outstandingCnt +
      (comb maxOutstanding zero now.1 now.2).reqO.pending.length < maxOutstanding)
    (valid : now.2.rsp.valid = true → now.1.state = .serving ∧ 0 < now.1.outstandingCnt) :
    (comb maxOutstanding zero now.1 now.2).next.outstandingCnt + (answersNow now).length =
      now.1.outstandingCnt + (forwardedNow maxOutstanding zero now).length := by
  have up := cnt_up now.2.rsp.gnt room
  have fewer : (forwardedNow maxOutstanding zero now).length ≤
      (comb maxOutstanding zero now.1 now.2).reqO.pending.length := by
    rw [← forwardedNow_append_pending maxOutstanding zero now, List.length_append]
    omega
  cases answered : now.2.rsp.valid with
  | false =>
      simp only [answersNow, answered, Bool.false_eq_true, if_false, List.length_nil, Nat.add_zero]
      refine Eq.trans ?_ up
      cases state : now.1.state <;> simp [comb, state, idle, serving, answered]
  | true =>
      obtain ⟨state, some⟩ := valid answered
      have next : (comb maxOutstanding zero now.1 now.2).next.outstandingCnt =
          BoundedCount.decr maxOutstanding (now.1.outstandingCnt +
            (forwardedNow maxOutstanding zero now).length) := by
        refine Eq.trans ?_ (congrArg _ up)
        simp [comb, state, serving, answered]
      obtain ⟨rest, count⟩ : ∃ rest, now.1.outstandingCnt +
          (forwardedNow maxOutstanding zero now).length = rest + 1 :=
        ⟨_, (Nat.sub_add_cancel (by omega)).symm⟩
      rw [next, count, BoundedCount.decr_succ (by omega)]
      simp [answersNow, answered]

theorem eq_true_of_idle {leaves : Bool}
    (next : (if leaves then State.idle else .serving) = .idle) : leaves = true := by
  cases leaves with
  | false => cases next
  | true => rfl

theorem pending_unlessTaken_of_free {r : Req α} {gnt : Bool} (free : (!r.req || gnt) = true) :
    (r.unlessTaken gnt).pending = [] := by
  cases requests : r.req <;> cases gnt <;> simp_all [Req.unlessTaken, Req.pending]

/-- `IDLE` is entered with nothing pending and nothing unanswered. -/
theorem comb_idle (empty : now.1.state = .idle →
      now.1.outstandingCnt = 0 ∧ now.1.req.pending = [])
    (next : (comb maxOutstanding zero now.1 now.2).next.state = .idle) :
    (comb maxOutstanding zero now.1 now.2).next.outstandingCnt = 0 ∧
      (comb maxOutstanding zero now.1 now.2).next.req.pending = [] := by
  cases state : now.1.state with
  | idle =>
      simp only [comb, state, idle] at next ⊢
      have none : (List.finRange n).find? (fun p => (now.2.req p).req) = none := by
        by_contra some
        rw [if_pos (Option.isSome_iff_ne_none.mpr some)] at next
        cases next
      have silent : (now.2.req now.1.sel).req = false := by
        simpa using List.find?_eq_none.mp none now.1.sel (List.mem_finRange _)
      simp [none, silent, Req.unlessTaken, Req.pending, (empty state).1]
  | serving =>
      simp only [comb, state, serving] at next ⊢
      obtain ⟨done, free⟩ := Bool.and_eq_true_iff.mp (eq_true_of_idle next)
      exact ⟨eq_of_beq (Bool.and_eq_true_iff.mp done).2, pending_unlessTaken_of_free free⟩

/-- The selection changes in `IDLE` only. -/
theorem comb_sel (state : now.1.state = .serving) :
    (comb maxOutstanding zero now.1 now.2).next.sel = now.1.sel := by
  simp [comb, state, serving]

/-! ## Runs -/

/-- What holds in every reachable state. -/
structure Inv (maxOutstanding : Nat) (zero : β) (cycles : List (Regs n α × Input n α β))
    (s : Regs n α) : Prop where
  passed : (accepted maxOutstanding zero cycles).map Prod.snd =
    forwarded maxOutstanding zero cycles ++ s.req.pending
  counted : s.outstandingCnt + (answers cycles).length =
    (forwarded maxOutstanding zero cycles).length
  room : s.outstandingCnt + s.req.pending.length < maxOutstanding
  idle : s.state = .idle → s.outstandingCnt = 0 ∧ s.req.pending = []
  owned : ∀ r ∈ (accepted maxOutstanding zero cycles).drop (answers cycles).length, r.1 = s.sel
  delivered : delivered maxOutstanding zero cycles =
    ((accepted maxOutstanding zero cycles).map Prod.fst).zip (answers cycles)

/-- One more request leaves room for itself. -/
theorem Inv.room_offered (inv : Inv maxOutstanding zero cycles now.1) (two : 2 ≤ maxOutstanding) :
    now.1.outstandingCnt + (comb maxOutstanding zero now.1 now.2).reqO.pending.length <
      maxOutstanding := by
  have empty := fun idle => (inv.idle idle).2
  have room := inv.room
  rw [← pending_append_acceptedNow zero now empty, List.length_append, List.length_map]
  cases granted : grants maxOutstanding now.1 now.2 with
  | false => simpa [acceptedNow_of_not_granted granted empty] using room
  | true =>
      rw [acceptedNow_of_granted granted, List.length_singleton]
      cases state : now.1.state with
      | idle => simp [inv.idle state]; omega
      | serving =>
          simp only [grants, state, takes, Bool.and_eq_true, Bool.not_eq_true',
            bne_iff_ne] at granted
          have free : now.1.req.pending = [] := by simp [Req.pending, granted.1.1.1]
          have few := granted.1.2
          simp only [free, List.length_nil] at room ⊢
          omega

theorem Inv.answered_lt (inv : Inv maxOutstanding zero cycles now.1)
    (earlier : (answers cycles).length < (forwarded maxOutstanding zero cycles).length) :
    now.1.state = .serving ∧ 0 < now.1.outstandingCnt := by
  have some : 0 < now.1.outstandingCnt := by
    have counted := inv.counted
    omega
  refine ⟨?_, some⟩
  cases state : now.1.state with
  | idle =>
      have none := (inv.idle state).1
      omega
  | serving => rfl

/-- Later requests do not change who is answered. -/
theorem zip_append_of_length_le {γ : Type} (owners new : List γ) (old : List β)
    (enough : old.length ≤ owners.length) : (owners ++ new).zip old = owners.zip old := by
  induction old generalizing owners with
  | nil => simp
  | cons answer rest ih =>
      cases owners with
      | nil => simp at enough
      | cons owner owners => simp [ih owners (by simpa using enough)]

/-- Further answers go to the oldest requests without one. -/
theorem zip_append_answers {γ : Type} (owners : List γ) (old now : List β)
    (enough : old.length ≤ owners.length) :
    owners.zip (old ++ now) = owners.zip old ++ (owners.drop old.length).zip now := by
  have count : (owners.take old.length).length = old.length := by simp [enough]
  calc owners.zip (old ++ now)
      = (owners.take old.length ++ owners.drop old.length).zip (old ++ now) := by
        rw [List.take_append_drop]
    _ = (owners.take old.length).zip old ++ (owners.drop old.length).zip now :=
        List.zip_append count
    _ = owners.zip old ++ (owners.drop old.length).zip now := by
        rw [← zip_append_of_length_le _ (owners.drop old.length) old count.ge,
          List.take_append_drop]

theorem Inv.delivered_next (inv : Inv maxOutstanding zero cycles now.1)
    (slave : now.2.rsp.valid = true →
      (answers cycles).length < (forwarded maxOutstanding zero cycles).length) :
    BypassArbiter.delivered maxOutstanding zero (cycles ++ [now]) =
      ((accepted maxOutstanding zero (cycles ++ [now])).map Prod.fst).zip
        (answers (cycles ++ [now])) := by
  have total := congrArg List.length inv.passed
  have counted := inv.counted
  simp only [List.length_map, List.length_append] at total
  rw [delivered_concat, accepted_concat, answers_concat, List.map_append, deliveredNow_eq,
    inv.delivered]
  cases valid : now.2.rsp.valid with
  | false =>
      have enough : (answers cycles).length ≤
          ((accepted maxOutstanding zero cycles).map Prod.fst).length := by
        rw [List.length_map]
        omega
      simp [answersNow, valid, zip_append_of_length_le _ _ _ enough]
  | true =>
      have fewer := slave valid
      obtain ⟨state, -⟩ := inv.answered_lt fewer
      rw [zip_append_of_length_le _ _ _ (by simp [answersNow, valid]; omega),
        zip_append_answers _ _ _ (by simp; omega)]
      obtain ⟨oldest, rest, open'⟩ : ∃ oldest rest,
          (accepted maxOutstanding zero cycles).drop (answers cycles).length = oldest :: rest := by
        apply List.exists_cons_of_ne_nil
        rw [ne_eq, List.drop_eq_nil_iff]
        omega
      have owner : oldest.1 = now.1.sel := inv.owned oldest (by simp [open'])
      simp [state, answersNow, valid, ← List.map_drop, open', owner]

theorem Inv.owned_next (inv : Inv maxOutstanding zero cycles now.1) :
    ∀ r ∈ (accepted maxOutstanding zero (cycles ++ [now])).drop
        (answers (cycles ++ [now])).length,
      r.1 = (comb maxOutstanding zero now.1 now.2).next.sel := by
  have empty := fun idle => (inv.idle idle).2
  intro r member
  have older : r ∈ (accepted maxOutstanding zero cycles).drop (answers cycles).length ∨
      r ∈ acceptedNow maxOutstanding zero now := by
    rw [answers_concat, List.length_append, ← List.drop_drop, accepted_concat,
      List.drop_append] at member
    rcases List.mem_append.mp (List.mem_of_mem_drop member) with old | new
    · exact Or.inl old
    · exact Or.inr (List.mem_of_mem_drop new)
  rcases older with old | new
  · cases state : now.1.state with
    | idle =>
        have total := congrArg List.length inv.passed
        have counted := inv.counted
        obtain ⟨none, nothing⟩ := inv.idle state
        rw [List.length_map, nothing, List.append_nil] at total
        rw [List.drop_of_length_le (by omega)] at old
        cases old
    | serving =>
        rw [comb_sel state]
        exact inv.owned r old
  · cases granted : grants maxOutstanding now.1 now.2 with
    | false => simp [acceptedNow_of_not_granted granted empty] at new
    | true =>
        rw [acceptedNow_of_granted granted, List.mem_singleton] at new
        rw [new]

theorem Inv.next (now : Regs n α × Input n α β)
    (inv : Inv maxOutstanding zero cycles now.1) (two : 2 ≤ maxOutstanding)
    (slave : now.2.rsp.valid = true →
      (answers cycles).length < (forwarded maxOutstanding zero cycles).length) :
    Inv maxOutstanding zero (cycles ++ [now]) (comb maxOutstanding zero now.1 now.2).next := by
  have empty := fun idle => (inv.idle idle).2
  have offered := inv.room_offered two
  have counts := comb_cnt offered fun valid => inv.answered_lt (slave valid)
  have taken := forwardedNow_append_pending maxOutstanding zero now
  exact
    { passed := by
        rw [accepted_concat, forwarded_concat, List.map_append, inv.passed, List.append_assoc,
          List.append_assoc, pending_append_acceptedNow zero now empty, taken]
      counted := by
        have counted := inv.counted
        rw [answers_concat, forwarded_concat, List.length_append, List.length_append]
        omega
      room := by
        rw [← taken, List.length_append] at offered
        omega
      idle := comb_idle inv.idle
      owned := inv.owned_next
      delivered := inv.delivered_next slave }

theorem inv_of_run [NeZero n] {zeroBody : α} (two : 2 ≤ maxOutstanding)
    (run : (machine n maxOutstanding zeroBody zero).Run cycles s) :
    Inv maxOutstanding zero cycles s := by
  apply run.invariant (Inv maxOutstanding zero)
  · exact
      { passed := rfl, counted := rfl, room := by simp [machine, Req.pending]; omega,
        idle := fun _ => ⟨rfl, rfl⟩, owned := by simp [accepted], delivered := rfl }
  · intro cycles s i _ inv slave
    exact Inv.next (s, i) inv two slave

/-- The answered requests, each with the port it came from and its answer: the slave
answers in the order of the requests. -/
def exchanges (maxOutstanding : Nat) (zero : β) (cycles : List (Regs n α × Input n α β)) :
    List ((Fin n × α) × β) :=
  (accepted maxOutstanding zero cycles).zip (answers cycles)

/-- What the arbiter did with the requests and the answers up to a state. -/
structure Delivers (maxOutstanding : Nat) (zero : β) (cycles : List (Regs n α × Input n α β))
    (s : Regs n α) : Prop where
  /-- Accepted requests are forwarded once each, with their payload; one may still wait. -/
  forwardedOnce : (accepted maxOutstanding zero cycles).map Prod.snd =
    forwarded maxOutstanding zero cycles ++ s.req.pending
  /-- The waiting request, or else the one accepted now, is offered to the slave. -/
  onOffer : ∀ i, (comb maxOutstanding zero s i).reqO.pending =
    s.req.pending ++ (acceptedNow maxOutstanding zero (s, i)).map Prod.snd
  /-- A grant answers a request of that port. -/
  requested : ∀ i p, ((comb maxOutstanding zero s i).rspO p).gnt = true → (i.req p).req = true
  delivered : delivered maxOutstanding zero cycles =
    (exchanges maxOutstanding zero cycles).map fun x => (x.1.1, x.2)
  /-- The answered requests of a port are the first ones it made. -/
  inOrder : ∀ p : Fin n,
    ((exchanges maxOutstanding zero cycles).filter (·.1.1 = p)).map Prod.fst <+:
      (accepted maxOutstanding zero cycles).filter (·.1 = p)
  counted : s.outstandingCnt + (answers cycles).length =
    (forwarded maxOutstanding zero cycles).length
  idle : s.state = .idle → s.outstandingCnt = 0

theorem map_fst_exchanges_prefix (maxOutstanding : Nat) (zero : β)
    (cycles : List (Regs n α × Input n α β)) :
    (exchanges maxOutstanding zero cycles).map Prod.fst <+:
      accepted maxOutstanding zero cycles := by
  unfold exchanges
  rw [List.zip_eq_zip_take_min, List.map_fst_zip (by simp)]
  exact List.take_prefix _ _

theorem requested_of_gnt {p : Fin n} (gnt : ((comb maxOutstanding zero s i).rspO p).gnt = true)
    (empty : s.state = .idle → s.req.pending = []) : (i.req p).req = true := by
  cases granted : grants maxOutstanding s i with
  | false =>
      rw [(comb_not_granted zero granted empty).2 p] at gnt
      cases gnt
  | true =>
      obtain ⟨offered, requests, only⟩ := comb_granted zero granted
      have chosen : p = (comb maxOutstanding zero s i).next.sel := by
        simpa [only p] using gnt
      rw [chosen, ← offered]
      exact requests

theorem delivers_to_requester [NeZero n] {zeroBody : α} (two : 2 ≤ maxOutstanding)
    (run : (machine n maxOutstanding zeroBody zero).Run cycles s) :
    Delivers maxOutstanding zero cycles s := by
  have inv := inv_of_run two run
  have empty := fun idle => (inv.idle idle).2
  exact
    { forwardedOnce := inv.passed
      onOffer := fun i => (pending_append_acceptedNow zero (s, i) empty).symm
      requested := fun i p gnt => requested_of_gnt gnt empty
      delivered := by
        rw [inv.delivered, exchanges, List.zip_map_left]
        rfl
      inOrder := by
        intro p
        have answered := map_fst_exchanges_prefix maxOutstanding zero cycles
        simpa [List.filter_map, Function.comp_def] using answered.filter (·.1 = p)
      counted := inv.counted
      idle := fun idle => (inv.idle idle).1 }

/-- Requests of the two ports, the grant of the slave and its answer. -/
private def traffic (first second : Option Nat) (gnt : Bool) (answer : Option Nat) :
    Input 2 Nat Nat where
  req p := if p = 0 then ⟨first.isSome, first.getD 0⟩ else ⟨second.isSome, second.getD 0⟩
  rsp := ⟨gnt, answer.isSome, answer.getD 0⟩

/-- The second port waits for the first one and then has two requests under way. -/
private def bothPorts : List (Input 2 Nat Nat) :=
  [traffic (some 10) (some 20) false none, traffic none (some 20) true none,
    traffic none (some 20) false (some 5), traffic none (some 20) true none,
    traffic none (some 21) true none, traffic none none false (some 6),
    traffic none none false (some 7)]

theorem delivers_to_requester_bothPorts :
    let m : Clocked.Machine (Regs 2 Nat) (Input 2 Nat Nat) := machine 2 3 0 0
    Delivers 3 0 (m.cyclesOf m.reset bothPorts) (m.after m.reset bothPorts) ∧
      delivered 3 0 (m.cyclesOf m.reset bothPorts) = [(0, 5), (1, 6), (1, 7)] := by
  intro m
  refine ⟨delivers_to_requester (by decide) (Clocked.Machine.run_of_accepts _ ?_), by decide⟩
  decide

end Cva6.BypassArbiter
