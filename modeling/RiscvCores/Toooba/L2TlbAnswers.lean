import Mathlib.Algebra.BigOperators.Fin
import RiscvCores.Toooba.L2TlbRuns

/-!
# The answers of the second-level TLB

Every request is owed one answer, the one its walk gives.  A step hands an answer on, moves a
request from one place to the next or takes a new one in; what is owed is never lost and never
doubled.  Without new requests every step makes what is left less, and as long as an answer is
owed some step is possible.
-/

set_option autoImplicit false

namespace Toooba.L2Tlb

open Tlb SharedReads

variable {p : Params} {s s' : State p}

/-! ## Slots as a list -/

section Slots

variable {n : Nat} {α : Type}

/-- A slot can be looked at before the others. -/
theorem filterMap_slots (f : Fin n → Option α) (idx : Fin n) :
    ((List.finRange n).filterMap f).Perm
      ((f idx).toList ++ (List.finRange n).filterMap (Function.update f idx none)) := by
  have order := List.perm_cons_erase (List.mem_finRange idx)
  have others : ∀ g : Fin n → Option α, (∀ i, i ≠ idx → g i = f i) →
      ((List.finRange n).erase idx).filterMap g = ((List.finRange n).erase idx).filterMap f := by
    intro g same
    apply List.filterMap_congr
    intro i member
    exact same i fun here => (List.nodup_finRange n).not_mem_erase (here ▸ member)
  have whole := order.filterMap f
  have rest := order.filterMap (Function.update f idx none)
  rw [List.filterMap_cons_none (Function.update_self ..),
    others _ fun i other => Function.update_of_ne other ..] at rest
  refine whole.trans (List.Perm.trans ?_ (rest.symm.append_left _))
  cases here : f idx with
  | none => rw [List.filterMap_cons_none here]; exact List.Perm.refl _
  | some a => rw [List.filterMap_cons_some here]; exact List.Perm.refl _

end Slots

/-! ## What a step does to the answers owed -/

/-- The answer a request is owed, in the step that makes it. -/
def dueOf (s : State p) : Rule p → Option L2TlbRsToC
  | .rqFromC r => some (s.walkAnswer r)
  | _ => none

/-- The answer a child takes in a step. -/
def takenOf (s : State p) : Rule p → Option L2TlbRsToC
  | .rsToC => s.rsToCQ
  | _ => none

theorem due_concat (cycles : List (State p × Rule p)) (s : State p) (rule : Rule p) :
    due (cycles ++ [(s, rule)]) = due cycles ++ (dueOf s rule).toList := by
  rw [due, List.filterMap_append]
  congr 1

theorem answers_concat (cycles : List (State p × Rule p)) (s : State p) (rule : Rule p) :
    answers (cycles ++ [(s, rule)]) = answers cycles ++ (takenOf s rule).toList := by
  rw [answers, List.filterMap_append]
  congr 1

theorem pending_freed {idx : L2TlbReqIdx p}
    (valid : s'.pendValid = Function.update s.pendValid idx false)
    (req : s'.pendReq = s.pendReq) : s'.pending = Function.update s.pending idx none := by
  funext i
  by_cases here : i = idx
  · subst here
    simp [State.pending, valid]
  · simp [State.pending, valid, req, here]

/-- The answer of a slot goes on its way to the child. -/
theorem outstanding_answered {idx : L2TlbReqIdx p} (empty : s.rsToCQ = none)
    (valid : s.pendValid idx = true)
    (sent : s'.rsToCQ = some (s.walkAnswer (s.pendReq idx)))
    (asked : s'.rqFromCQ = s.rqFromCQ)
    (freed : s'.pending = Function.update s.pending idx none)
    (same : s'.walkAnswer = s.walkAnswer) : s.outstanding.Perm s'.outstanding := by
  have slot : s.pending idx = some (s.pendReq idx) := by simp [State.pending, valid]
  have order := (filterMap_slots s.pending idx).map s.walkAnswer
  rw [slot, ← freed] at order
  simp only [State.outstanding, State.unanswered, empty, sent, asked, same, List.map_append,
    Option.toList_none, Option.toList_some, List.nil_append, List.singleton_append,
    List.map_cons] at order ⊢
  exact (order.append_left _).trans List.perm_middle

/-- The answer made is the one owed. -/
theorem answer_eq {child : TlbChild} {answer : Option TlbEntry} {r : L2TlbRqFromC}
    (owner : child = r.child) (entry : (s.walkAnswer r).entry = answer) :
    ({ child := child, entry := answer } : L2TlbRsToC) = s.walkAnswer r := by
  subst owner entry
  rfl

theorem Inv.hit_answer (inv : Inv s) {idx : L2TlbReqIdx p} {hit answer : Option TlbEntry}
    (here : s.tlbReqQ = some idx) (answered : s.tlb4KB.resp = some hit)
    (found : (s.vmInfo (s.pendReq idx).child).sv39 = false ∧ answer = none ∨
      (s.vmInfo (s.pendReq idx).child).sv39 = true ∧ ∃ entry, answer = some entry ∧
        (FullAssoc.translate s.tlbMG (s.pendReq idx).vpn
            (s.vmInfo (s.pendReq idx).child).asid = some entry ∨ hit = some entry)) :
    (s.walkAnswer (s.pendReq idx)).entry = answer := by
  have vm := inv.same.vmInfo (s.pendReq idx).child
  unfold State.walkAnswer
  rcases found with ⟨bare, rfl⟩ | ⟨sv39, entry, rfl, found⟩
  · simp [bare]
  · obtain ⟨-, -, -, asid, row, translate⟩ := inv.stages.tlb idx here
    simp only [sv39, if_true, vm.1, vm.2]
    exact inv.cached.hit translate answered found

theorem doTlbReq_outstanding (fires : s.doTlbReq = some s') :
    s.outstanding.Perm s'.outstanding := by
  obtain ⟨-, -, -, idx, r, tlb4KB, free, asked, -, rfl⟩ := doTlbReq_some fires
  generalize after : ({ s with
    rqFromCQ := none
    tlb4KB := tlb4KB
    tlbReqQ := some idx
    pendValid := Function.update s.pendValid idx true
    pendReq := Function.update s.pendReq idx r } : State p) = s'
  have taken : s'.pending idx = some r := by simp [← after, State.pending]
  have others : Function.update s'.pending idx none = s.pending := by
    funext i
    by_cases here : i = idx
    · subst here
      simp [State.pending, free]
    · simp [← after, State.pending, here]
  have order := filterMap_slots s'.pending idx
  rw [taken, others, Option.toList_some, List.singleton_append] at order
  have moved : s.unanswered.Perm s'.unanswered := by
    rw [State.unanswered, State.unanswered, asked, ← after]
    rw [← after] at order
    exact order.symm
  have same : s'.walkAnswer = s.walkAnswer := by rw [← after]; rfl
  have sent : s'.rsToCQ = s.rsToCQ := by rw [← after]
  rw [State.outstanding, State.outstanding, same, sent]
  exact (moved.map _).append_left _

theorem Inv.doTlbResp_outstanding (inv : Inv s) (fires : s.doTlbResp = some s') :
    s.outstanding.Perm s'.outstanding := by
  obtain ⟨idx, hit, here, answered, ⟨answer, empty, found, rfl⟩ | ⟨-, transCache, -, rfl⟩⟩ :=
    doTlbResp_some fires
  · have entry := inv.hit_answer here answered found
    exact outstanding_answered empty (inv.stages.tlb idx here).1
      (congrArg some (answer_eq rfl entry)) rfl (pending_freed rfl rfl) rfl
  · exact List.Perm.refl _

theorem Inv.doPageWalk_outstanding (inv : Inv s) {victimMG : Option (Fin p.hugeSize)}
    {victimTC : Option (Fin p.transCacheSize)}
    (fires : s.doPageWalk victimMG victimTC = some s') : s.outstanding.Perm s'.outstanding := by
  obtain ⟨-, -, first, head, used⟩ := doPageWalk_some fires
  have answered := fun answer => @inv.verdict _ _ _ head answer
  have waits := inv.walks.turn_waits head
  generalize s.respForOtherReq.getD first.id = idx at used answered waits
  have verdict := verdict_nextResp s first.id idx idx (PTESv39.unpack first.data)
  obtain ⟨other, rest, next, -, -⟩ := nextResp_frame s first.id idx
  cases ends : s.verdict idx (PTESv39.unpack first.data) with
  | some answer =>
      obtain ⟨tlbMG, tlb4KB, empty, -, rfl⟩ := usePTE_ends (verdict.trans ends) used
      rw [next] at empty ⊢
      exact outstanding_answered empty (inv.valid waits)
        (congrArg some (answer_eq rfl (answered answer ends).1)) rfl (pending_freed rfl rfl) rfl
  | none =>
      obtain ⟨s₁, transCache, walked, -, rfl⟩ := usePTE_goes (verdict.trans ends) used
      obtain ⟨wait, memReqQ, -, rfl⟩ := walkOn_frame walked
      rw [next]
      exact List.Perm.refl _

/-- Without pending requests only the answer on its way is owed, whatever the tables are. -/
theorem outstanding_change (pending : s.NonePending) (vmI vmD : VMInfo) (mem : Addr → Data) :
    { s with vm_info_I := vmI, vm_info_D := vmD, mem := mem }.outstanding = s.outstanding := by
  have none_pending : s.unanswered = [] := by
    rw [State.unanswered, pending.1, Option.toList_none, List.nil_append,
      List.filterMap_eq_nil_iff]
    intro i _
    simp [State.pending, pending.2 i]
  have none_pending' :
      { s with vm_info_I := vmI, vm_info_D := vmD, mem := mem }.unanswered = [] := none_pending
  simp only [State.outstanding, none_pending, none_pending', List.map_nil]

/-- What was owed and what becomes owed is what is taken and what is owed then. -/
theorem Inv.accounts (inv : Inv s) {rule : Rule p} (contract : Contract s rule)
    (fires : fire s rule = some s') :
    (s.outstanding ++ (dueOf s rule).toList).Perm
      ((takenOf s rule).toList ++ s'.outstanding) := by
  have silent : dueOf s rule = none → takenOf s rule = none → s.outstanding.Perm s'.outstanding →
      (s.outstanding ++ (dueOf s rule).toList).Perm
        ((takenOf s rule).toList ++ s'.outstanding) := by
    intro due taken same
    rw [due, taken, Option.toList_none, List.append_nil, List.nil_append]
    exact same
  cases rule with
  | doStartFlush =>
      simp only [fire, State.doStartFlush, Option.ite_none_right_eq_some] at fires
      obtain ⟨tlb4KB, -, rfl⟩ := Option.map_eq_some_iff.mp fires.2
      exact silent rfl rfl (List.Perm.refl _)
  | doWaitFlush =>
      simp only [fire, State.doWaitFlush, Option.ite_none_right_eq_some, Option.some_inj] at fires
      obtain ⟨-, rfl⟩ := fires
      exact silent rfl rfl (List.Perm.refl _)
  | doFlush =>
      obtain ⟨tlb4KB, -, rfl⟩ := Option.map_eq_some_iff.mp fires
      exact silent rfl rfl (List.Perm.refl _)
  | doAddEntry way =>
      obtain ⟨tlb4KB, -, rfl⟩ := Option.map_eq_some_iff.mp fires
      exact silent rfl rfl (List.Perm.refl _)
  | doTlbReq => exact silent rfl rfl (doTlbReq_outstanding fires)
  | doTlbResp => exact silent rfl rfl (inv.doTlbResp_outstanding fires)
  | doTranslationCacheResp =>
      obtain ⟨idx, resp, -, -, walked⟩ := doTranslationCacheResp_some fires
      obtain ⟨wait, memReqQ, -, rfl⟩ := walkOn_frame walked
      exact silent rfl rfl (List.Perm.refl _)
  | doPageWalk victimMG victimTC => exact silent rfl rfl (inv.doPageWalk_outstanding fires)
  | memReq =>
      obtain ⟨r, -, rfl⟩ := Option.map_eq_some_iff.mp fires
      exact silent rfl rfl (List.Perm.refl _)
  | respLd k =>
      simp only [fire, Option.ite_none_right_eq_some] at fires
      obtain ⟨r, -, rfl⟩ := Option.map_eq_some_iff.mp fires.2
      exact silent rfl rfl (List.Perm.refl _)
  | updateVMInfo vmI vmD =>
      obtain rfl := Option.some_inj.mp fires
      refine silent rfl rfl (List.Perm.of_eq ?_)
      exact (outstanding_change contract.1 vmI vmD s.mem).symm
  | writeTables mem =>
      obtain rfl := Option.some_inj.mp fires
      refine silent rfl rfl (List.Perm.of_eq ?_)
      exact (outstanding_change contract.1 s.vm_info_I s.vm_info_D mem).symm
  | iTlbReqFlush =>
      simp only [fire, Option.ite_none_left_eq_some, Option.some_inj] at fires
      obtain ⟨-, rfl⟩ := fires
      exact silent rfl rfl (List.Perm.refl _)
  | dTlbReqFlush =>
      simp only [fire, Option.ite_none_left_eq_some, Option.some_inj] at fires
      obtain ⟨-, rfl⟩ := fires
      exact silent rfl rfl (List.Perm.refl _)
  | flushDone =>
      simp only [fire, Option.ite_none_right_eq_some, Option.some_inj] at fires
      obtain ⟨-, rfl⟩ := fires
      exact silent rfl rfl (List.Perm.refl _)
  | rqFromC r =>
      simp only [fire, Option.ite_none_left_eq_some, Option.some_inj, Option.not_isSome_iff_eq_none]
        at fires
      obtain ⟨empty, rfl⟩ := fires
      have before : s.outstanding = s.rsToCQ.toList ++
          ((List.finRange p.l2TlbReqNum).filterMap s.pending).map s.walkAnswer := by
        rw [State.outstanding, State.unanswered, empty]
        rfl
      rw [before]
      simp only [dueOf, takenOf, Option.toList_none, Option.toList_some, List.nil_append,
        List.append_assoc]
      exact (List.perm_append_singleton _ _).append_left _
  | rsToC =>
      simp only [fire, Option.ite_none_right_eq_some, Option.some_inj] at fires
      obtain ⟨-, rfl⟩ := fires
      simp only [dueOf, Option.toList_none, List.append_nil]
      exact List.Perm.refl _

end Toooba.L2Tlb
