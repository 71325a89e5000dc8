import Mathlib.Algebra.BigOperators.Fin
import RiscvCores.Toooba.DTlbSlots

/-!
# The data TLB answers each request for itself

The array holds what the parent answered since it was last emptied.  In every state that a run
reaches, a request that was not killed leaves with the answer for its own address and access by
the tables since then, and whatever is in the slots leaves in the end.
-/

set_option autoImplicit false

namespace Toooba.DTlb

open Tlb SharedReads

variable {instT : Type} {p : Params instT} {s s' : State p}
  {cycles : List (State p × Rule p)}

/-! ## Since the last flush -/

/-- The steps since the array was last emptied. -/
def sinceFlush (cycles : List (State p × Rule p)) : List (State p × Rule p) :=
  cycles.foldl (fun since c => match c.2 with
    | .doStartFlush => []
    | _ => since ++ [c]) []

/-- A walk of the tables as they were at some time since the array was last emptied. -/
def Lately (cycles : List (State p × Rule p)) (s : State p) (walk : Vpn → Option TlbEntry) :
    Prop :=
  walk = s.walkOf ∨ ∃ c ∈ sinceFlush cycles, walk = c.1.walkOf

theorem sinceFlush_concat (cycles : List (State p × Rule p)) (s : State p) {rule : Rule p}
    (goes : rule ≠ .doStartFlush) :
    sinceFlush (cycles ++ [(s, rule)]) = sinceFlush cycles ++ [(s, rule)] := by
  unfold sinceFlush
  rw [List.foldl_append]
  cases rule with
  | doStartFlush => exact absurd rfl goes
  | _ => rfl

theorem sinceFlush_start (cycles : List (State p × Rule p)) (s : State p) :
    sinceFlush (cycles ++ [(s, .doStartFlush)]) = [] := by
  unfold sinceFlush
  rw [List.foldl_append]
  rfl

theorem lately_now : Lately cycles s s.walkOf := .inl rfl

theorem areWalks_lately : AreWalks (Lately cycles s) := by
  rintro walk (rfl | ⟨c, -, rfl⟩)
  · exact ⟨_, _, _, rfl⟩
  · exact ⟨_, _, _, rfl⟩

theorem Lately.next {walk : Vpn → Option TlbEntry} (lately : Lately cycles s walk)
    {rule : Rule p} (goes : rule ≠ .doStartFlush) (s' : State p) :
    Lately (cycles ++ [(s, rule)]) s' walk := by
  right
  rw [sinceFlush_concat cycles s goes]
  rcases lately with rfl | ⟨c, member, rfl⟩
  · exact ⟨(s, rule), by simp, rfl⟩
  · exact ⟨c, List.mem_append_left _ member, rfl⟩

/-! ## Runs -/

structure Inv (cycles : List (State p × Rule p)) (s : State p) : Prop where
  slots : Slots s
  tables : Tables (Lately cycles s) s
  requests : outstanding cycles = s.request
  flushes : ∀ c ∈ sinceFlush cycles, c.2 = .flush → s.needFlush = true ∧ s.waitFlushP = false

theorem Inv.idle_of_none (inv : Inv cycles s) (none : ∀ i, s.pendValid i = false) :
    s.ldTransRsFromPQ = [] := by
  obtain ⟨t, consistent, follows⟩ := inv.tables.reads
  cases answers : s.ldTransRsFromPQ with
  | nil => rfl
  | cons pRs rest =>
      have head : s.ldTransRsFromPQ.head? = some pRs := by rw [answers, List.head?_cons]
      obtain ⟨waits, -⟩ := inv.tables.served head
      exact absurd (inv.slots.idle _ (none _)) waits

/-- Once the array is emptied nothing is known, and nothing that is left needs it. -/
theorem Tables.restart {known known' : (Vpn → Option TlbEntry) → Prop} (tables : Tables known s)
    (none : ∀ i, s.pendValid i = false) (empty : s.ldTransRsFromPQ = []) :
    Tables known' { s with tlb := fun _ => .none, flushRqToPQ := true, waitFlushP := true } := by
  obtain ⟨t, consistent, follows⟩ := tables.reads
  refine ⟨⟨t, consistent, follows.wait, follows.asked, ?_, follows.serving, follows.addr⟩,
    ReadCache.Holds.empty, tables.missed, ?_⟩
  · have pairs := follows.answers
    rw [empty] at pairs
    change List.Forall₂ _ t.answers s.ldTransRsFromPQ
    rw [List.forall₂_nil_right_iff.mp pairs, empty]
    exact .nil
  · intro i present
    exact nomatch (none i).symm.trans present

/-- Rules other than those of a flush. -/
def Rule.flushing : Rule p → Bool
  | .flush | .doStartFlush | .doFinishFlush => true
  | _ => false

theorem flags_same {rule : Rule p} (other : rule.flushing = false)
    (fires : fire s rule = some s') :
    s'.needFlush = s.needFlush ∧ s'.waitFlushP = s.waitFlushP := by
  cases rule with
  | doPRs victim =>
      obtain ⟨pRs, -, refilled⟩ := doPRs_refilled fires
      exact ⟨refilled.needFlush, refilled.waitFlushP⟩
  | doInitFreeQ =>
      obtain ⟨-, inside, rfl⟩ := doInitFreeQ_some fires
      exact ⟨rfl, rfl⟩
  | doPoisonedProcResp =>
      obtain ⟨-, idx, -, release⟩ := doPoisonedProcResp_some fires
      obtain rfl := release_some release
      exact ⟨rfl, rfl⟩
  | deqProcResp =>
      obtain ⟨-, idx, -, release⟩ := deqProcResp_some fires
      obtain rfl := release_some release
      exact ⟨rfl, rfl⟩
  | procReq req =>
      obtain ⟨-, idx, -, ⟨resp, -, rfl⟩ | ⟨-, -, rfl⟩⟩ := procReq_some fires
      · exact ⟨rfl, rfl⟩
      · unfold State.miss
        split <;> exact ⟨rfl, rfl⟩
  | updateVMInfo vm =>
      obtain rfl := Option.some.inj fires
      exact ⟨rfl, rfl⟩
  | incorrectSpeculation kill_all x =>
      obtain rfl := Option.some.inj fires
      exact ⟨rfl, rfl⟩
  | correctSpeculation mask =>
      obtain rfl := Option.some.inj fires
      exact ⟨rfl, rfl⟩
  | rqToP =>
      obtain ⟨r, -, rfl⟩ := Option.map_eq_some_iff.mp fires
      exact ⟨rfl, rfl⟩
  | ldTransRsFromP k =>
      simp only [fire, Option.ite_none_right_eq_some] at fires
      obtain ⟨r, -, rfl⟩ := Option.map_eq_some_iff.mp fires.2
      exact ⟨rfl, rfl⟩
  | flushRequest =>
      simp only [fire, Option.ite_none_right_eq_some] at fires
      obtain rfl := Option.some.inj fires.2
      exact ⟨rfl, rfl⟩
  | flushResponse =>
      simp only [fire, Option.ite_none_left_eq_some] at fires
      obtain rfl := Option.some.inj fires.2
      exact ⟨rfl, rfl⟩
  | writeTables mem =>
      obtain rfl := Option.some.inj fires
      exact ⟨rfl, rfl⟩
  | _ => cases other

/-- A `flush` since the array was emptied has yet to empty it. -/
theorem flushes_next
    (flushes : ∀ c ∈ sinceFlush cycles, c.2 = .flush → s.needFlush = true ∧ s.waitFlushP = false)
    {rule : Rule p} (fires : fire s rule = some s') :
    ∀ c ∈ sinceFlush (cycles ++ [(s, rule)]), c.2 = .flush →
      s'.needFlush = true ∧ s'.waitFlushP = false := by
  intro c member called
  cases kind : rule.flushing with
  | false =>
      obtain ⟨need, wait⟩ := flags_same kind fires
      rw [need, wait]
      rw [sinceFlush_concat cycles s (by rintro rfl; cases kind)] at member
      rcases List.mem_append.mp member with before | last
      · exact flushes c before called
      · rw [List.mem_singleton.mp last] at called
        obtain rfl : rule = .flush := called
        cases kind
  | true =>
      cases rule with
      | flush =>
          simp only [fire, State.flush, Option.ite_none_left_eq_some] at fires
          obtain rfl := Option.some.inj fires.2
          exact ⟨rfl, rfl⟩
      | doStartFlush =>
          rw [sinceFlush_start] at member
          cases member
      | doFinishFlush =>
          simp only [fire, State.doFinishFlush, Option.ite_none_right_eq_some,
            Bool.and_eq_true] at fires
          have waiting : s.waitFlushP = true := fires.1.1.2
          have goes : (.doFinishFlush : Rule p) ≠ .doStartFlush := by rintro ⟨⟩
          rw [sinceFlush_concat cycles s goes] at member
          rcases List.mem_append.mp member with before | last
          · cases waiting.symm.trans (flushes c before called).2
          · rw [List.mem_singleton.mp last] at called
            cases called
      | _ => cases kind

theorem Inv.next (inv : Inv cycles s) {rule : Rule p} (contract : Contract s rule)
    (fires : fire s rule = some s') : Inv (cycles ++ [(s, rule)]) s' := by
  refine ⟨inv.slots.next fires, ?_, ?_, flushes_next inv.flushes fires⟩
  · by_cases starts : rule = .doStartFlush
    · subst starts
      obtain ⟨-, -, none, rfl⟩ := doStartFlush_some fires
      exact inv.tables.restart none (inv.idle_of_none none)
    · have tables := inv.tables.next areWalks_lately lately_now inv.slots.idle inv.slots.free
        contract fires
      exact tables.mono fun walk lately => lately.next starts s'
  · rw [outstanding_concat, inv.requests]
    exact (request_next fires).symm

theorem inv_reset (u : PowerUp p) : Inv [] (reset u) where
  slots := ⟨List.nodup_nil, nofun, nofun, fun _ => ⟨fun _ => rfl, fun i =>
    iff_of_false List.not_mem_nil (Nat.not_lt_zero i.val)⟩, fun _ _ => rfl⟩
  tables :=
    { reads := ⟨⟨fun _ => .none, fun _ => 0, [], [], none⟩,
        { nodup := List.nodup_nil
          mem_reading := fun _ => iff_of_false List.not_mem_nil nofun
          asked := nofun
          fresh := nofun
          peer := nofun
          serving := nofun },
        rfl, rfl, .nil, rfl, fun _ waits => absurd rfl waits⟩
      cached := ReadCache.Holds.empty
      missed := fun _ waits => absurd rfl waits
      ready := nofun }
  requests := rfl
  flushes := fun _ member => nomatch member

theorem inv_of_run {u : PowerUp p} (run : (machine u).Run cycles s) : Inv cycles s := by
  induction run with
  | reset => exact inv_reset u
  | @cycle cycles s rule _ allowed ih =>
      obtain ⟨s', fires⟩ := Option.isSome_iff_exists.mp allowed.1
      have next : (machine u).next s rule = s' := by simp only [machine, fires, Option.getD_some]
      rw [next]
      exact ih.next allowed.2 fires

/-! ## Work left -/

/-- What a request still has before it. -/
def State.slotWeight (s : State p) (i : DTlbReqIdx p) : Nat :=
  if s.pendValid i then if s.pendWait i = .none then 1 else 2 else 0

/-- The steps that are left to what is pending. -/
def State.weight (s : State p) : Nat :=
  ∑ i, s.slotWeight i + 2 * s.rqToPQ.length + s.asked.length

/-- The steps that what is pending is waiting for. -/
def Rule.serves : Rule p → Bool
  | .doPRs _ | .doPoisonedProcResp | .deqProcResp | .rqToP | .ldTransRsFromP _ => true
  | _ => false

def Rule.accepts : Rule p → Bool
  | .procReq _ => true
  | _ => false

/-- The sum over the slots when only one of them changes. -/
theorem slotWeights (s s' : State p) (idx : DTlbReqIdx p)
    (others : ∀ i, i ≠ idx → s'.slotWeight i = s.slotWeight i) :
    ∑ i, s'.slotWeight i + s.slotWeight idx = ∑ i, s.slotWeight i + s'.slotWeight idx := by
  have before := Finset.add_sum_erase Finset.univ s.slotWeight (Finset.mem_univ idx)
  have after := Finset.add_sum_erase Finset.univ s'.slotWeight (Finset.mem_univ idx)
  have same : ∑ i ∈ Finset.univ.erase idx, s'.slotWeight i =
      ∑ i ∈ Finset.univ.erase idx, s.slotWeight i :=
    Finset.sum_congr rfl fun i member => others i (Finset.ne_of_mem_erase member)
  omega

theorem slotWeight_eq {i : DTlbReqIdx p} (valid : s'.pendValid i = s.pendValid i)
    (wait : s'.pendWait i = s.pendWait i) : s'.slotWeight i = s.slotWeight i := by
  unfold State.slotWeight
  rw [valid, wait]

theorem weight_same (valid : s'.pendValid = s.pendValid) (wait : s'.pendWait = s.pendWait)
    (rqToPQ : s'.rqToPQ = s.rqToPQ) (asked : s'.asked = s.asked) : s'.weight = s.weight := by
  unfold State.weight
  rw [rqToPQ, asked, Finset.sum_congr rfl fun i _ =>
    slotWeight_eq (congrFun valid i) (congrFun wait i)]

theorem release_weight {idx : DTlbReqIdx p} (valid : s.pendValid idx = true)
    (fires : s.release idx = some s') : s'.weight < s.weight := by
  obtain rfl := release_some fires
  have slots := slotWeights s
    { s with pendValid := Function.update s.pendValid idx false, freeQ := s.freeQ ++ [idx] } idx
    fun i other => slotWeight_eq (Function.update_of_ne other ..) rfl
  have before : 0 < s.slotWeight idx := by
    unfold State.slotWeight
    rw [if_pos valid]
    split <;> omega
  have after : State.slotWeight
      { s with pendValid := Function.update s.pendValid idx false
               freeQ := s.freeQ ++ [idx] } idx = 0 := by
    simp [State.slotWeight]
  rw [after] at slots
  unfold State.weight
  dsimp only
  omega

theorem Inv.doPRs_weight (inv : Inv cycles s) {victim : Option (Fin p.dTlbSize)}
    (fires : s.doPRs victim = some s') : s'.weight < s.weight := by
  obtain ⟨pRs, head, refilled⟩ := doPRs_refilled fires
  obtain ⟨waits, -⟩ := inv.tables.served head
  generalize s.respForOtherReq.getD pRs.id = idx at refilled waits
  have valid : s.pendValid idx = true := by
    rw [← Bool.not_eq_false]
    exact fun absent => waits (inv.slots.idle idx absent)
  have slots := slotWeights s s' idx fun i other => slotWeight_eq (by rw [refilled.pendValid])
    (by rw [refilled.pendWait, Function.update_of_ne other])
  have before : s.slotWeight idx = 2 := by
    unfold State.slotWeight
    rw [if_pos valid, if_neg waits]
  have after : s'.slotWeight idx = 1 := by
    unfold State.slotWeight
    rw [refilled.pendValid, refilled.pendWait, Function.update_self, if_pos valid, if_pos rfl]
  unfold State.weight
  rw [refilled.rqToPQ, refilled.asked]
  omega

/-- Every step that serves leaves less to do, and only a new request adds to it. -/
theorem Inv.weight_next (inv : Inv cycles s) {rule : Rule p} (fires : fire s rule = some s') :
    (rule.serves = true → s'.weight < s.weight) ∧
      (rule.accepts = false → s'.weight ≤ s.weight) := by
  have lighter : s'.weight < s.weight → (rule.serves = true → s'.weight < s.weight) ∧
      (rule.accepts = false → s'.weight ≤ s.weight) :=
    fun less => ⟨fun _ => less, fun _ => Nat.le_of_lt less⟩
  have equal : rule.serves = false → s'.weight = s.weight →
      (rule.serves = true → s'.weight < s.weight) ∧
        (rule.accepts = false → s'.weight ≤ s.weight) :=
    fun other same => ⟨fun serves => (nomatch other.symm.trans serves),
      fun _ => Nat.le_of_eq same⟩
  cases rule with
  | procReq req => exact ⟨nofun, nofun⟩
  | doPRs victim => exact lighter (inv.doPRs_weight fires)
  | doPoisonedProcResp =>
      obtain ⟨-, idx, found, release⟩ := doPoisonedProcResp_some fires
      exact lighter (release_weight (poisonedProcRespIdx_some found).1 release)
  | deqProcResp =>
      obtain ⟨-, idx, found, release⟩ := deqProcResp_some fires
      exact lighter (release_weight (validProcRespIdx_some found).1 release)
  | rqToP =>
      obtain ⟨r, head, rfl⟩ := Option.map_eq_some_iff.mp fires
      obtain ⟨rest, queue⟩ := List.head?_eq_some_iff.mp head
      apply lighter
      change ∑ i, s.slotWeight i + 2 * s.rqToPQ.tail.length + (s.asked ++ [r]).length < s.weight
      unfold State.weight
      rw [queue, List.tail_cons, List.length_cons, List.length_append, List.length_singleton]
      omega
  | ldTransRsFromP k =>
      simp only [fire, Option.ite_none_right_eq_some] at fires
      obtain ⟨r, taken, rfl⟩ := Option.map_eq_some_iff.mp fires.2
      obtain ⟨bound, -⟩ := List.getElem?_eq_some_iff.mp taken
      apply lighter
      change ∑ i, s.slotWeight i + 2 * s.rqToPQ.length + (s.asked.eraseIdx k).length < s.weight
      unfold State.weight
      rw [List.length_eraseIdx_of_lt bound]
      omega
  | incorrectSpeculation kill_all x =>
      obtain rfl := Option.some.inj fires
      exact equal rfl (weight_same rfl rfl rfl rfl)
  | correctSpeculation mask =>
      obtain rfl := Option.some.inj fires
      exact equal rfl (weight_same rfl rfl rfl rfl)
  | doInitFreeQ =>
      obtain ⟨-, inside, rfl⟩ := doInitFreeQ_some fires
      exact equal rfl (weight_same rfl rfl rfl rfl)
  | doStartFlush =>
      obtain ⟨-, -, -, rfl⟩ := doStartFlush_some fires
      exact equal rfl (weight_same rfl rfl rfl rfl)
  | doFinishFlush =>
      simp only [fire, State.doFinishFlush, Option.ite_none_right_eq_some] at fires
      obtain rfl := Option.some.inj fires.2
      exact equal rfl (weight_same rfl rfl rfl rfl)
  | flush =>
      simp only [fire, State.flush, Option.ite_none_left_eq_some] at fires
      obtain rfl := Option.some.inj fires.2
      exact equal rfl (weight_same rfl rfl rfl rfl)
  | updateVMInfo vm =>
      obtain rfl := Option.some.inj fires
      exact equal rfl (weight_same rfl rfl rfl rfl)
  | flushRequest =>
      simp only [fire, Option.ite_none_right_eq_some] at fires
      obtain rfl := Option.some.inj fires.2
      exact equal rfl (weight_same rfl rfl rfl rfl)
  | flushResponse =>
      simp only [fire, Option.ite_none_left_eq_some] at fires
      obtain rfl := Option.some.inj fires.2
      exact equal rfl (weight_same rfl rfl rfl rfl)
  | writeTables mem =>
      obtain rfl := Option.some.inj fires
      exact equal rfl (weight_same rfl rfl rfl rfl)

/-- A response that is still to come is asked for, or has come. -/
theorem Inv.ready_of_quiet (inv : Inv cycles s) (noAnswer : s.ldTransRsFromPQ = [])
    (noneAsked : s.asked = []) (noRequest : s.rqToPQ = []) (i : DTlbReqIdx p) :
    s.pendWait i = .none := by
  obtain ⟨t, consistent, follows⟩ := inv.tables.reads
  have asked : t.asked = [] := by rw [follows.asked, noneAsked, noRequest]; rfl
  have answers : t.answers = [] := by
    have pairs := follows.answers
    rw [noAnswer] at pairs
    exact List.forall₂_nil_right_iff.mp pairs
  have noRead : ∀ j, s.pendWait j ≠ .waitMem := by
    intro j reads
    rw [← follows.wait] at reads
    have member := (consistent.mem_reading j).mpr reads
    unfold Table.reading Table.fresh at member
    rw [asked, answers] at member
    split at member <;> exact nomatch member
  cases waits : s.pendWait i with
  | none => rfl
  | waitMem => exact absurd waits (noRead i)
  | waitPeer j =>
      rw [← follows.wait] at waits
      rcases (consistent.peer i j waits).2 with ⟨first, served, -⟩ | ⟨-, reads, -⟩
      · rw [Consistent.served_none answers] at served
        exact nomatch served
      · rw [follows.wait] at reads
        exact absurd reads (noRead j)

theorem Slots.release_isSome (slots : Slots s) {i : DTlbReqIdx p} (valid : s.pendValid i = true) :
    (s.release i).isSome = true := by
  have taken : i ∉ s.freeQ := by
    intro member
    exact nomatch valid.symm.trans (slots.free i member)
  have room : (i :: s.freeQ).length ≤ Fintype.card (Fin p.dTlbReqNum) :=
    (List.nodup_cons.mpr ⟨taken, slots.nodup⟩).length_le_card
  rw [List.length_cons, Fintype.card_fin] at room
  unfold State.release
  rw [if_pos (Nat.lt_of_succ_le room)]
  rfl

/-- While a request is in a slot, there is a step that serves. -/
theorem Inv.canServe (inv : Inv cycles s) {i : DTlbReqIdx p} (valid : s.pendValid i = true) :
    ∃ rule : Rule p, rule.serves = true ∧ (fire s rule).isSome = true := by
  cases answers : s.ldTransRsFromPQ with
  | cons pRs rest =>
      refine ⟨.doPRs none, rfl, ?_⟩
      simp only [fire, State.doPRs, answers, List.head?_cons, Option.map_some, Option.isSome_some]
  | nil =>
      cases asked : s.asked with
      | cons r rest =>
          refine ⟨.ldTransRsFromP 0, rfl, ?_⟩
          simp only [fire, answers, asked, List.length_nil, Nat.zero_lt_two, if_true,
            List.getElem?_cons_zero, Option.map_some, Option.isSome_some]
      | nil =>
          cases requests : s.rqToPQ with
          | cons r rest =>
              refine ⟨.rqToP, rfl, ?_⟩
              simp only [fire, requests, List.head?_cons, Option.map_some, Option.isSome_some]
          | nil =>
              have ready := inv.ready_of_quiet answers asked requests i
              have inited : s.freeQInited = true := by
                rw [← Bool.not_eq_false]
                intro filling
                cases valid.symm.trans ((inv.slots.filling filling).1 i)
              cases alive : s.pendPoisoned i with
              | false =>
                  refine ⟨.deqProcResp, rfl, ?_⟩
                  have some : s.validProcRespIdx.isSome = true := by
                    unfold State.validProcRespIdx
                    rw [List.find?_isSome]
                    exact ⟨i, List.mem_finRange i, by simp [valid, ready, alive]⟩
                  obtain ⟨idx, found⟩ := Option.isSome_iff_exists.mp some
                  simp only [fire, State.deqProcResp, inited, if_true, found, Option.bind_some]
                  exact inv.slots.release_isSome (validProcRespIdx_some found).1
              | true =>
                  refine ⟨.doPoisonedProcResp, rfl, ?_⟩
                  have some : s.poisonedProcRespIdx.isSome = true := by
                    unfold State.poisonedProcRespIdx
                    rw [List.find?_isSome]
                    exact ⟨i, List.mem_finRange i, by simp [valid, ready, alive]⟩
                  obtain ⟨idx, found⟩ := Option.isSome_iff_exists.mp some
                  simp only [fire, State.doPoisonedProcResp, inited, if_true, found,
                    Option.bind_some]
                  exact inv.slots.release_isSome (poisonedProcRespIdx_some found).1

/-! ## The data TLB over its runs -/

/-- The response of the parent to the request in slot `i` is asked for, on its way, or there. -/
def State.ResponseDue (s : State p) (i : DTlbReqIdx p) : Prop :=
  i ∈ s.rqToPQ.map DTlbRqToP.id ∨ i ∈ s.asked.map DTlbRqToP.id ∨
    i ∈ s.ldTransRsFromPQ.map DTlbTransRsFromP.id

/-- What holds in a state that a run reaches. -/
structure AnswersEach (cycles : List (State p × Rule p)) (s : State p) : Prop where
  free_nodup : s.freeQ.Nodup
  free_or_valid : s.freeQInited = true → ∀ i, i ∈ s.freeQ ↔ s.pendValid i = false
  filling : s.freeQInited = false → ∀ i, s.pendValid i = false
  waits_valid : ∀ i, s.pendWait i ≠ .none → s.pendValid i = true
  peer : ∀ j i, s.pendWait j = .waitPeer i → s.ResponseDue i
  valid : ∀ i, s.pendValid i = true ↔ (outstanding cycles i).isSome = true
  /-- A response is for a request that was not killed, and is due by the tables since the
  last flush. -/
  responds : ∀ resp, s.procResp = some resp → ∃ i r walk, s.validProcRespIdx = some i ∧
    outstanding cycles i = some r ∧ r.killed = false ∧ resp.inst = r.inst ∧
    resp.specBits = r.specBits ∧ Lately cycles s walk ∧
    resp.resp = dataAnswer s.vm_info walk (p.getTlbReq r.inst)
  drops : ∀ i, s.poisonedProcRespIdx = some i →
    ∃ r, outstanding cycles i = some r ∧ r.killed = true
  enters : ∀ req, (fire s (.procReq req)).isSome = true →
    ∃ i, s.freeQ.head? = some i ∧ outstanding cycles i = none
  /-- When no flush is under way, none was called for since the array was last emptied. -/
  flushed : s.needFlush = false → ∀ c ∈ sinceFlush cycles, c.2 ≠ .flush
  flush_waits : (fire s .doStartFlush).isSome = true → ∀ i, outstanding cycles i = none
  serves : ∀ i, (outstanding cycles i).isSome = true →
    ∃ rule : Rule p, rule.serves = true ∧ (fire s rule).isSome = true
  lighter : ∀ (rule : Rule p) s', fire s rule = some s' →
    (rule.serves = true → s'.weight < s.weight) ∧ (rule.accepts = false → s'.weight ≤ s.weight)

theorem Inv.peer (inv : Inv cycles s) {j i : DTlbReqIdx p}
    (waits : s.pendWait j = .waitPeer i) : s.ResponseDue i := by
  obtain ⟨t, consistent, follows⟩ := inv.tables.reads
  have ids : t.answers.map Prod.snd = s.ldTransRsFromPQ.map DTlbTransRsFromP.id := by
    rw [← List.forall₂_eq_eq_eq, List.forall₂_map_left_iff, List.forall₂_map_right_iff]
    exact follows.answers.imp fun a rs h => h.1
  have answered : ∀ a ∈ t.answers, a.2 ∈ s.ldTransRsFromPQ.map DTlbTransRsFromP.id := by
    intro a member
    rw [← ids]
    exact List.mem_map_of_mem member
  rw [← follows.wait] at waits
  rcases (consistent.peer j i waits).2 with ⟨first, served, rfl, -⟩ | ⟨-, reads, -⟩
  · unfold Table.served at served
    split at served
    · exact .inr (.inr (answered first (List.mem_of_head? served)))
    · exact nomatch served
  · rcases List.mem_append.mp ((consistent.mem_reading i).mpr reads) with asked | fresh
    · rw [follows.asked, List.map_map, List.map_append, List.mem_append] at asked
      exact asked.elim (fun h => .inr (.inl h)) .inl
    · obtain ⟨a, member, rfl⟩ := List.mem_map.mp fresh
      unfold Table.fresh at member
      split at member
      · exact .inr (.inr (answered a (List.mem_of_mem_tail member)))
      · exact .inr (.inr (answered a member))

theorem request_of_valid {i : DTlbReqIdx p} (valid : s.pendValid i = true) :
    s.request i = some ⟨s.pendInst i, s.pendSpecBits i, s.pendPoisoned i⟩ :=
  if_pos valid

theorem Inv.responds (inv : Inv cycles s) {resp : DTlbResp p} (there : s.procResp = some resp) :
    ∃ i r walk, s.validProcRespIdx = some i ∧ outstanding cycles i = some r ∧
      r.killed = false ∧ resp.inst = r.inst ∧ resp.specBits = r.specBits ∧
      Lately cycles s walk ∧ resp.resp = dataAnswer s.vm_info walk (p.getTlbReq r.inst) := by
  unfold State.procResp at there
  split at there
  next =>
    obtain ⟨i, found, rfl⟩ := Option.map_eq_some_iff.mp there
    obtain ⟨valid, idle, alive⟩ := validProcRespIdx_some found
    obtain ⟨walk, lately, answered⟩ := inv.tables.ready i valid idle alive
    refine ⟨i, ⟨s.pendInst i, s.pendSpecBits i, s.pendPoisoned i⟩, walk, found, ?_, alive, rfl,
      rfl, lately, answered⟩
    rw [inv.requests]
    exact request_of_valid valid
  next => exact nomatch there

/-- Each request is answered for itself, whatever shares its walk and whatever is killed. -/
theorem requests_answered {u : PowerUp p} (run : (machine u).Run cycles s) :
    AnswersEach cycles s := by
  have inv := inv_of_run run
  have held : ∀ i, s.pendValid i = true ↔ (outstanding cycles i).isSome = true := by
    intro i
    rw [inv.requests]
    unfold State.request
    cases s.pendValid i <;> simp
  constructor
  · exact inv.slots.nodup
  · exact fun inited i => ⟨inv.slots.free i, inv.slots.filled inited i⟩
  · exact fun filling => (inv.slots.filling filling).1
  · intro i waits
    rw [← Bool.not_eq_false]
    exact fun absent => waits (inv.slots.idle i absent)
  · exact fun j i => inv.peer
  · exact held
  · exact fun resp => inv.responds
  · intro i found
    obtain ⟨valid, -, dead⟩ := poisonedProcRespIdx_some found
    rw [inv.requests]
    exact ⟨_, request_of_valid valid, dead⟩
  · intro req can
    obtain ⟨s', fires⟩ := Option.isSome_iff_exists.mp can
    obtain ⟨-, idx, head, -⟩ := procReq_some fires
    refine ⟨idx, head, ?_⟩
    rw [inv.requests, request_eq_none]
    exact inv.slots.free idx (List.mem_of_head? head)
  · intro done c member called
    exact nomatch done.symm.trans (inv.flushes c member called).1
  · intro can i
    obtain ⟨s', fires⟩ := Option.isSome_iff_exists.mp can
    obtain ⟨-, -, none, -⟩ := doStartFlush_some fires
    rw [inv.requests, request_eq_none]
    exact none i
  · intro i there
    exact inv.canServe ((held i).mpr there)
  · exact fun rule s' => inv.weight_next

instance (s : State p) (rule : Rule p) : Decidable (Contract s rule) :=
  match rule with
  | .updateVMInfo _ => inferInstanceAs (Decidable (∀ i, s.pendValid i = false))
  | .doStartFlush | .doFinishFlush | .doPRs _ | .doInitFreeQ | .doPoisonedProcResp | .flush
  | .procReq _ | .deqProcResp | .incorrectSpeculation _ _ | .correctSpeculation _ | .rqToP
  | .ldTransRsFromP _ | .flushRequest | .flushResponse | .writeTables _ => .isTrue trivial

private def twoRequests : Params TlbReq where
  dTlbReqNum := 2
  dTlbSize := 1
  numSpecTags := 1
  getTlbReq := id

/-- All page-table entries are the same: a page that a user may read but not write. -/
private def readOnly : PowerUp twoRequests where
  pendPoisoned _ := false
  pendInst _ := ⟨0, false⟩
  pendResp _ := .ok 0
  pendSpecBits _ := 0
  mem _ := 0x53

private def dataTlb : Clocked.Machine (State twoRequests) (Rule twoRequests) := machine readOnly

private instance (cycles : List (State twoRequests × Rule twoRequests)) (s : State twoRequests)
    (rule : Rule twoRequests) : Decidable (dataTlb.allowed cycles s rule) :=
  inferInstanceAs (Decidable ((fire s rule).isSome = true ∧ Contract s rule))

/-- A store joins the walk of a load of the same page; the load has left. -/
private def loadThenStore : List (Rule twoRequests) :=
  [.doInitFreeQ, .doInitFreeQ,
    .updateVMInfo { L1VMInfo.defaultValue with prv := CsrFile.prvU, sv39 := true },
    .procReq ⟨⟨0x1234, false⟩, 0⟩, .procReq ⟨⟨0x1678, true⟩, 0⟩, .rqToP, .ldTransRsFromP 0,
    .doPRs none, .doPRs none, .deqProcResp]

theorem requests_answered_loadThenStore :
    let s := dataTlb.after dataTlb.reset loadThenStore
    let cycles := dataTlb.cyclesOf dataTlb.reset loadThenStore
    ∃ resp, s.procResp = some resp ∧ resp.inst = ⟨0x1678, true⟩ ∧
      resp.resp = .error .storePageFault ∧ ∃ walk, Lately cycles s walk ∧
        resp.resp = dataAnswer s.vm_info walk ⟨0x1678, true⟩ := by
  intro s cycles
  have run : dataTlb.Run cycles s := Clocked.Machine.run_of_accepts loadThenStore (by
    decide +kernel)
  have there : s.procResp.isSome = true := by decide +kernel
  obtain ⟨resp, responds⟩ := Option.isSome_iff_exists.mp there
  obtain ⟨i, r, walk, -, held, -, inst, -, lately, answered⟩ :=
    (requests_answered run).responds resp responds
  have own : ∀ resp' ∈ s.procResp, resp'.inst = ⟨0x1678, true⟩ ∧
      resp'.resp = .error .storePageFault := by
    decide +kernel
  obtain ⟨same, faults⟩ := own resp responds
  have request : twoRequests.getTlbReq r.inst = ⟨0x1678, true⟩ := inst.symm.trans same
  rw [request] at answered
  exact ⟨resp, responds, same, faults, walk, lately, answered⟩

end Toooba.DTlb
