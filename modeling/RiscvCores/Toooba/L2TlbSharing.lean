import RiscvCores.Toooba.L2TlbProgress

/-!
# Shared reads of the second-level TLB

In runs in which no walk joins the slot whose response is being handed out, every request is
answered once, as the tables say.  With at most two slots no run does otherwise.  With three
slots a run does, and a request is answered from the entry of another level.
-/

set_option autoImplicit false

namespace Toooba.L2Tlb

open Tlb SharedReads

variable {p : Params} {s s' : State p}

/-- What the second-level TLB is to do along a run that has come to `s`. -/
structure Answered (cycles : List (State p × Rule p)) (s : State p) : Prop where
  /-- The answers owed are those taken, the one on its way and one for each request left. -/
  exactly : (due cycles).Perm (answers cycles ++ s.outstanding)
  /-- A response is used for a slot whose own walk reads that entry at that level. -/
  entries : ∀ first ∈ s.respLdQ.head?,
    let idx := s.respForOtherReq.getD first.id
    ∃ base, s.Uses (s.pendReq idx).vpn (s.pendWalkLevel idx) base ∧
      PTESv39.unpack first.data =
        walkPTE s.mem (s.pendReq idx).vpn (s.pendWalkLevel idx) base
  /-- Without new requests, what is under way gets less with every step. -/
  shrinks : ∀ rule s', ¬ rule.Starts → fire s rule = some s' → s'.weight < s.weight
  /-- As long as an answer is owed, a step can be made. -/
  goesOn : s.outstanding ≠ [] → s.CanStep

theorem outstanding_reset (u : PowerUp p) : (reset u).outstanding = [] := by
  have slots : (List.finRange p.l2TlbReqNum).filterMap (reset u).pending = [] := by
    rw [List.filterMap_eq_nil_iff]
    exact fun _ _ => rfl
  rw [State.outstanding, State.unanswered, slots]
  rfl

theorem outcomes_of_run {u : PowerUp p} {cycles : List (State p × Rule p)}
    (run : (machine u).Run cycles s) (respects : Respects cycles) :
    (due cycles).Perm (answers cycles ++ s.outstanding) := by
  induction run with
  | reset =>
      have nothing : (machine u).reset.outstanding = [] := outstanding_reset u
      rw [nothing]
      exact List.Perm.refl _
  | @cycle cycles s rule run allowed ih =>
      have earlier : Respects cycles := fun c member => respects c (List.mem_append_left _ member)
      have before := ih earlier
      have step := (inv_of_run run earlier).accounts allowed.2 (allowed_fires allowed)
      rw [due_concat, answers_concat, List.append_assoc]
      have grown := before.append_right (dueOf s rule).toList
      rw [List.append_assoc] at grown
      exact grown.trans (step.append_left _)

/-- Along runs in which no walk joins the slot whose response is being handed out, every request
is answered once and as its walk says. -/
theorem answered_of_run {u : PowerUp p} {cycles : List (State p × Rule p)}
    (run : (machine u).Run cycles s) (respects : Respects cycles) : Answered cycles s := by
  have inv := inv_of_run run respects
  exact
    { exactly := outcomes_of_run run respects
      entries := fun first head => inv.walks.data head
      shrinks := fun rule s' own fires => inv.weight_lt own fires
      goesOn := inv.canStep }

/-! ## Two slots -/

/-- Of two slots, a third one is one of them. -/
theorem eq_of_two_slots (two : p.l2TlbReqNum ≤ 2) {i j k : L2TlbReqIdx p} (first : i ≠ j)
    (second : k ≠ j) : i = k := by
  have := i.isLt
  have := j.isLt
  have := k.isLt
  rw [Ne, Fin.ext_iff] at first second
  rw [Fin.ext_iff]
  omega

/-- With two slots, whoever is served is either the slot that asked or the only one that
waits for it. -/
theorem Inv.apart_of_two_slots (inv : Inv s) (two : p.l2TlbReqNum ≤ 2) (rule : Rule p) :
    Apart s rule := by
  cases rule with
  | doTranslationCacheResp =>
      intro idx here resp _ serving first head joined
      obtain ⟨k, other⟩ := Option.isSome_iff_exists.mp serving
      obtain ⟨-, idle, -⟩ := inv.stages.trans idx here
      obtain ⟨answer, head', waits⟩ := inv.walks.reads.serving k other
      have same : answer.2 = first.id := by
        have answers : s.table.answers.head? = some (first.data, first.id) := by
          rw [State.table, List.head?_map, head]
          rfl
        rw [Option.some_inj.mp (head'.symm.trans answers)]
      have apart : k ≠ idx := by
        rintro rfl
        cases idle.symm.trans waits
      have third := eq_of_two_slots two apart (otherReqSamePTE_some joined).1
      exact (inv.walks.reads.peer k answer.2 waits).1 (same.trans third.symm)
  | doPageWalk victimMG victimTC =>
      intro first head idx pte _ waiting joined
      obtain ⟨i, found⟩ := Option.isSome_iff_exists.mp waiting
      have waits : s.pendWait i = .waitPeer first.id ∧
          i ≠ s.respForOtherReq.getD first.id := by
        simpa using List.find?_some found
      have third := eq_of_two_slots two waits.2 (otherReqSamePTE_some joined).1
      exact (inv.walks.reads.peer i first.id waits.1).1 third.symm
  | _ => trivial

theorem respects_of_two_slots (two : p.l2TlbReqNum ≤ 2) {u : PowerUp p}
    {cycles : List (State p × Rule p)} (run : (machine u).Run cycles s) : Respects cycles := by
  induction run with
  | reset =>
      intro c member
      cases member
  | @cycle cycles s rule run allowed ih =>
      intro c member
      rcases List.mem_append.mp member with earlier | here
      · exact ih c earlier
      · obtain rfl := List.mem_singleton.mp here
        exact (inv_of_run run ih).apart_of_two_slots two rule

/-- The shipped number of requests is two. -/
theorem answered_with_two_slots (two : p.l2TlbReqNum ≤ 2) {u : PowerUp p}
    {cycles : List (State p × Rule p)} (run : (machine u).Run cycles s) : Answered cycles s :=
  answered_of_run run (respects_of_two_slots two run)

/-! ## Three slots -/

section Three

/-- A decision over all bit vectors goes through the numbers below `2 ^ n`. -/
instance decidableForallBitVec {n : Nat} (P : BitVec n → Prop) [∀ x, Decidable (P x)] :
    Decidable (∀ x, P x) :=
  decidable_of_iff (∀ i : Fin (2 ^ n), P (BitVec.ofFin i))
    ⟨fun all x => all x.toFin, fun all i => all (BitVec.ofFin i)⟩

instance (s : State p) : Decidable s.NonePending :=
  inferInstanceAs (Decidable (_ ∧ _))

instance (s : State p) : Decidable s.NoneCached := by
  unfold State.NoneCached
  infer_instance

instance (s : State p) (rule : Rule p) : Decidable (Contract s rule) :=
  match rule with
  | .updateVMInfo _ _ => inferInstanceAs (Decidable (_ ∧ _ ∧ _ ∧ _))
  | .writeTables _ => inferInstanceAs (Decidable (_ ∧ _))
  | .doStartFlush | .doWaitFlush | .doFlush | .doAddEntry _ | .doTlbReq | .doTlbResp
  | .doTranslationCacheResp | .doPageWalk _ _ | .rqFromC _ | .rsToC | .iTlbReqFlush
  | .dTlbReqFlush | .flushDone | .memReq | .respLd _ => inferInstanceAs (Decidable True)

instance (u : PowerUp p) (cycles : List (State p × Rule p)) (s : State p) (rule : Rule p) :
    Decidable ((machine u).allowed cycles s rule) :=
  inferInstanceAs (Decidable (_ ∧ _))

instance (s : State p) (rule : Rule p) : Decidable (Apart s rule) :=
  match rule with
  | .doTranslationCacheResp => by unfold Apart State.JoinsApart; infer_instance
  | .doPageWalk _ _ => by unfold Apart; infer_instance
  | .updateVMInfo _ _ | .writeTables _
  | .doStartFlush | .doWaitFlush | .doFlush | .doAddEntry _ | .doTlbReq | .doTlbResp
  | .rqFromC _ | .rsToC | .iTlbReqFlush
  | .dTlbReqFlush | .flushDone | .memReq | .respLd _ => inferInstanceAs (Decidable True)

instance (cycles : List (State p × Rule p)) : Decidable (Respects cycles) :=
  inferInstanceAs (Decidable (∀ _ ∈ _, _))

def threeSlots : Params where
  l2TlbReqNum := 3
  hugeSize := 1
  lgSetNum := 0
  wayNum := 1
  transCacheSize := 1
  someReq := by decide
  someWay := Nat.one_pos

/-- The root at page 1, below it the tables at pages 2 and 3; the leaf is page 9, readable. -/
def smallTables (addr : Addr) : Data :=
  if addr = 0x1000 then 0x801
  else if addr = 0x2008 then 0xC01
  else if addr = 0x3010 then 0x2403
  else 0

def smallVpn : Vpn := 0x202

def smallVM : VMInfo where
  asid := 0
  sv39 := true
  basePPN := 1

def powerUp : PowerUp threeSlots where
  tlbRam _ _ := none
  pendReq _ := { child := .I, vpn := 0 }
  pendWalkLevel _ := 0
  pendWalkAddr _ := 0
  mem := smallTables

/-- A request that misses everywhere and starts its walk. -/
def startWalk (idx : Nat) : List (Rule threeSlots) :=
  [.rqFromC { child := .D idx, vpn := smallVpn }, .doTlbReq, .doTlbResp, .doTranslationCacheResp]

/-- Three requests for one page.  The first two responses are handed out three times each; in
between, the second request joins the first one's next read and is served with the entry of
the root again. -/
def threePeers : List (Rule threeSlots) :=
  [.doFlush, .updateVMInfo smallVM smallVM] ++ startWalk 0 ++ startWalk 1 ++ startWalk 2 ++
    [.memReq, .respLd 0, .doPageWalk none none, .doPageWalk none none, .doPageWalk none none,
      .doPageWalk none none, .doPageWalk none none, .memReq, .memReq, .respLd 1,
      .doPageWalk none none, .rsToC]

/-- Two requests for one page share its three reads. -/
def twoPeers : List (Rule threeSlots) :=
  [.doFlush, .updateVMInfo smallVM smallVM] ++ startWalk 0 ++ startWalk 1 ++
    [.memReq, .respLd 0, .doPageWalk none none, .doPageWalk none none,
      .memReq, .respLd 0, .doPageWalk none none, .doPageWalk none none,
      .memReq, .respLd 0, .doPageWalk none none, .rsToC, .doAddEntry ⟨0, by decide⟩,
      .doPageWalk none none, .rsToC]

/-- Two peers that share every read are both given the leaf. -/
theorem twoPeers_answered :
    Answered ((machine powerUp).cyclesOf (machine powerUp).reset twoPeers)
        ((machine powerUp).after (machine powerUp).reset twoPeers) ∧
      (answers ((machine powerUp).cyclesOf (machine powerUp).reset twoPeers)).map
        (fun a => a.entry.map TlbEntry.ppn) = [some 9, some 9] :=
  ⟨answered_of_run (Clocked.Machine.run_of_accepts twoPeers (by decide +kernel))
    (by decide +kernel), by decide +kernel⟩

/-- The second of three peers is told that its page is invalid, though all three walks end with
the same leaf. -/
theorem second_peer_misled :
    ∃ (cycles : List (State threeSlots × Rule threeSlots)) (s : State threeSlots),
      (machine powerUp).Run cycles s ∧ answers cycles = [{ child := .D 1, entry := none }] ∧
        (∀ a ∈ due cycles, a.entry ≠ none) ∧
        ¬ (due cycles).Perm (answers cycles ++ s.outstanding) := by
  have accepts : (machine powerUp).Accepts [] (machine powerUp).reset threePeers := by
    decide +kernel
  have taken : answers ((machine powerUp).cyclesOf (machine powerUp).reset threePeers) =
      [{ child := .D 1, entry := none }] := by
    decide +kernel
  have leaves : ∀ a ∈ due ((machine powerUp).cyclesOf (machine powerUp).reset threePeers),
      a.entry ≠ none := by
    decide +kernel
  refine ⟨_, _, Clocked.Machine.run_of_accepts threePeers accepts, taken, leaves, fun same => ?_⟩
  have wrong : ({ child := .D 1, entry := none } : L2TlbRsToC) ∈
      due ((machine powerUp).cyclesOf (machine powerUp).reset threePeers) := by
    rw [same.mem_iff, taken]
    exact List.mem_append_left _ (List.mem_singleton_self _)
  exact leaves _ wrong rfl

end Three

end Toooba.L2Tlb
