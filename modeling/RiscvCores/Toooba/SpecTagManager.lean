import RiscvCores.Lib.Clocked

/-!
# `mkSpecTagManager`

The speculation tags in use form a stack in the order of their claims.  Tag `i`
keeps in `dependentCheckpoints i` what was claimed since; bits of tags that were
resolved in between stay there, and a tag that is claimed again starts anew.
-/

set_option autoImplicit false

namespace Toooba.SpecTagManager

open Clocked

/-- `numSpecTags` is a parameter of the design. -/
abbrev SpecTag (n : Nat) : Type := Fin n

abbrev SpecBits (n : Nat) : Type := BitVec n

variable {n : Nat}

/-- The bit of a tag. -/
def Has (bits : SpecBits n) (t : SpecTag n) : Prop := bits.getLsbD t.val = true

instance (bits : SpecBits n) (t : SpecTag n) : Decidable (Has bits t) :=
  inferInstanceAs (Decidable (_ = _))

def bit (t : SpecTag n) : SpecBits n := 1#n <<< t.val

@[simp] theorem has_zero (t : SpecTag n) : ¬Has (0#n) t := by simp [Has]

@[simp] theorem has_and (a b : SpecBits n) (t : SpecTag n) :
    Has (a &&& b) t ↔ Has a t ∧ Has b t := by simp [Has]

@[simp] theorem has_or (a b : SpecBits n) (t : SpecTag n) :
    Has (a ||| b) t ↔ Has a t ∨ Has b t := by simp [Has]

@[simp] theorem has_not (a : SpecBits n) (t : SpecTag n) : Has (~~~a) t ↔ ¬Has a t := by
  simp [Has]

@[simp] theorem has_bit (t u : SpecTag n) : Has (bit t) u ↔ u = t := by
  rw [Fin.ext_iff]
  simp [Has, bit]
  omega

/-! ## The module -/

structure State (n : Nat) where
  currentSpecBits : SpecBits n
  dependentCheckpoints : SpecTag n → SpecBits n

def State.reset : State n := ⟨0#n, fun _ => 0#n⟩

/-- The lowest tag that is not in use. -/
def nextSpecTag (s : State n) : Option (SpecTag n) :=
  (List.finRange n).find? fun t => !decide (Has s.currentSpecBits t)

def canClaim (s : State n) : Bool := (nextSpecTag s).isSome

structure IncorrectSpeculation (n : Nat) where
  killAll : Bool
  tag : SpecTag n

/-- The methods that are called in a cycle. -/
structure Input (n : Nat) where
  claimSpecTag : Bool := false
  incorrectSpeculation : Option (IncorrectSpeculation n) := none
  correctSpeculation : Option (SpecBits n) := none

def State.claim (s : State n) (t : SpecTag n) : State n where
  currentSpecBits := s.currentSpecBits ||| bit t
  dependentCheckpoints i :=
    if i = t then bit t
    else if Has s.currentSpecBits i then s.dependentCheckpoints i ||| bit t
    else s.dependentCheckpoints i

def State.incorrect (s : State n) (k : IncorrectSpeculation n) : State n :=
  { s with
    currentSpecBits :=
      if k.killAll then 0#n else s.currentSpecBits &&& ~~~s.dependentCheckpoints k.tag }

/-- Port 0 of the bits. -/
def State.port0 (s : State n) (i : Input n) : State n :=
  let s := if i.claimSpecTag then (nextSpecTag s).elim s s.claim else s
  i.incorrectSpeculation.elim s s.incorrect

/-- The mask of a cycle without `correctSpeculation` keeps all bits. -/
def Input.mask (i : Input n) : SpecBits n := i.correctSpeculation.getD (BitVec.allOnes n)

def State.next (s : State n) (i : Input n) : State n :=
  { s.port0 i with currentSpecBits := (s.port0 i).currentSpecBits &&& i.mask }

/-! ## The stack of unresolved tags -/

/-- What a cycle makes of the claimed and unresolved tags, the oldest first. -/
def resolve (unresolved : List (SpecTag n)) (c : State n × Input n) : List (SpecTag n) :=
  let kept := match c.2.incorrectSpeculation with
    | some ⟨true, _⟩ => []
    | some ⟨false, t⟩ => unresolved.takeWhile (· ≠ t)
    | none => unresolved
  let claimed := if c.2.claimSpecTag then (nextSpecTag c.1).toList else []
  (kept ++ claimed).filter fun t => Has c.2.mask t

def unresolved (cycles : List (State n × Input n)) : List (SpecTag n) :=
  cycles.foldl resolve []

/-- A claim needs a free tag and conflicts with a kill; what turns out wrong is unresolved. -/
structure Allowed (cycles : List (State n × Input n)) (s : State n) (i : Input n) : Prop where
  free : i.claimSpecTag = true → canClaim s = true
  conflict : i.claimSpecTag = true → i.incorrectSpeculation = none
  kill : ∀ t, i.incorrectSpeculation = some ⟨false, t⟩ → t ∈ unresolved cycles

theorem Allowed.noClaim {cycles : List (State n × Input n)} {s : State n} {i : Input n}
    (allowed : Allowed cycles s i) {k : IncorrectSpeculation n}
    (kill : i.incorrectSpeculation = some k) : i.claimSpecTag = false := by
  rw [Bool.eq_false_iff]
  intro claim
  rw [allowed.conflict claim] at kill
  cases kill

def machine (n : Nat) : Machine (State n) (Input n) where
  reset := .reset
  next := State.next
  allowed := Allowed

/-- The bits of an instruction after a cycle, if it survives. -/
def survive (bits : SpecBits n) (c : State n × Input n) : Option (SpecBits n) :=
  match c.2.incorrectSpeculation with
  | some ⟨true, _⟩ => none
  | some ⟨false, t⟩ => if Has bits t then none else some (bits &&& c.2.mask)
  | none => some (bits &&& c.2.mask)

/-- The bits of an instruction that was renamed in the first of the cycles. -/
def surviveAll (bits : SpecBits n) (cycles : List (State n × Input n)) : Option (SpecBits n) :=
  cycles.foldlM survive bits

/-! ## The invariant -/

/-- Each tag depends on what was claimed since, not on what was claimed before. -/
structure Inv (stack : List (SpecTag n)) (s : State n) : Prop where
  nodup : stack.Nodup
  current : ∀ t, Has s.currentSpecBits t ↔ t ∈ stack
  self : ∀ t ∈ stack, Has (s.dependentCheckpoints t) t
  order : stack.Pairwise fun t u =>
    Has (s.dependentCheckpoints t) u ∧ ¬Has (s.dependentCheckpoints u) t

theorem Inv.reset : Inv [] (State.reset : State n) where
  nodup := List.nodup_nil
  current t := by simp [State.reset]
  self t inside := by cases inside
  order := List.Pairwise.nil

/-- Tags leave the stack without a change of what depends on what. -/
theorem Inv.sublist {stack less : List (SpecTag n)} {s : State n} (inv : Inv stack s)
    (sub : less.Sublist stack) {bits : SpecBits n} (current : ∀ t, Has bits t ↔ t ∈ less) :
    Inv less { s with currentSpecBits := bits } where
  nodup := inv.nodup.sublist sub
  current := current
  self t inside := inv.self t (sub.subset inside)
  order := inv.order.sublist sub

theorem nextSpecTag_free {s : State n} {t : SpecTag n} (next : nextSpecTag s = some t) :
    ¬Has s.currentSpecBits t := by
  have free := List.find?_some next
  simpa using free

theorem Inv.claim {stack : List (SpecTag n)} {s : State n} (inv : Inv stack s)
    {t : SpecTag n} (next : nextSpecTag s = some t) : Inv (stack ++ [t]) (s.claim t) := by
  have fresh : t ∉ stack := fun inside =>
    nextSpecTag_free next ((inv.current t).mpr inside)
  have older : ∀ u ∈ stack,
      (s.claim t).dependentCheckpoints u = s.dependentCheckpoints u ||| bit t := by
    intro u inside
    have other : u ≠ t := fun same => fresh (same ▸ inside)
    rw [State.claim]
    simp only [if_neg other, if_pos ((inv.current u).mpr inside)]
  have itself : (s.claim t).dependentCheckpoints t = bit t := if_pos rfl
  refine ⟨?_, ?_, ?_, ?_⟩
  · rw [List.nodup_append]
    refine ⟨inv.nodup, by simp, ?_⟩
    intro u inside v last
    rw [List.mem_singleton.mp last]
    exact fun same => fresh (same ▸ inside)
  · intro u
    simp only [State.claim, has_or, has_bit, inv.current u, List.mem_append, List.mem_singleton]
  · intro u inside
    rcases List.mem_append.mp inside with old | last
    · rw [older u old, has_or]
      exact .inl (inv.self u old)
    · rw [List.mem_singleton.mp last, itself, has_bit]
  · rw [List.pairwise_append]
    refine ⟨?_, List.pairwise_singleton _ _, ?_⟩
    · refine inv.order.imp_of_mem ?_
      intro u v insideU insideV order
      have other : u ≠ t := fun same => fresh (same ▸ insideU)
      rw [older u insideU, older v insideV]
      simp only [has_or, has_bit]
      exact ⟨.inl order.1, not_or.mpr ⟨order.2, other⟩⟩
    · intro u inside v last
      have other : u ≠ t := fun same => fresh (same ▸ inside)
      rw [List.mem_singleton.mp last, older u inside, itself]
      simp only [has_or, has_bit]
      exact ⟨.inr trivial, other⟩

/-- In a stack with this order, what does not depend on `t` was claimed before it. -/
theorem mem_takeWhile_iff {stack : List (SpecTag n)} {dep : SpecTag n → SpecBits n}
    {t : SpecTag n} (inside : t ∈ stack) (self : Has (dep t) t)
    (order : stack.Pairwise fun u v => Has (dep u) v ∧ ¬Has (dep v) u) (u : SpecTag n) :
    u ∈ stack.takeWhile (· ≠ t) ↔ u ∈ stack ∧ ¬Has (dep t) u := by
  induction stack with
  | nil => cases inside
  | cons first rest ih =>
      obtain ⟨orderFirst, orderRest⟩ := List.pairwise_cons.mp order
      by_cases same : first = t
      · subst same
        rw [List.takeWhile_cons_of_neg (by simp)]
        refine iff_of_false List.not_mem_nil ?_
        rintro ⟨member, independent⟩
        rcases List.mem_cons.mp member with rfl | later
        · exact independent self
        · exact independent (orderFirst u later).1
      · have later : t ∈ rest := (List.mem_cons.mp inside).resolve_left (Ne.symm same)
        rw [List.takeWhile_cons_of_pos (by simpa using same), List.mem_cons, List.mem_cons,
          ih later orderRest]
        constructor
        · rintro (rfl | ⟨member, independent⟩)
          · exact ⟨.inl rfl, (orderFirst t later).2⟩
          · exact ⟨.inr member, independent⟩
        · rintro ⟨rfl | member, independent⟩
          · exact .inl rfl
          · exact .inr ⟨member, independent⟩

theorem Inv.incorrect {stack : List (SpecTag n)} {s : State n} (inv : Inv stack s)
    {t : SpecTag n} (inside : t ∈ stack) :
    Inv (stack.takeWhile (· ≠ t)) (s.incorrect ⟨false, t⟩) := by
  refine inv.sublist (List.takeWhile_sublist _) fun u => ?_
  rw [mem_takeWhile_iff inside (inv.self t inside) inv.order u]
  simp [inv.current u]

theorem Inv.incorrectAll {stack : List (SpecTag n)} {s : State n} (inv : Inv stack s)
    (t : SpecTag n) : Inv [] (s.incorrect ⟨true, t⟩) := by
  refine inv.sublist (List.nil_sublist _) fun u => ?_
  simp

/-- A mask acts behind the claim and the kill. -/
theorem Inv.correct {stack : List (SpecTag n)} {s : State n} (inv : Inv stack s)
    (mask : SpecBits n) :
    Inv (stack.filter fun t => Has mask t)
      { s with currentSpecBits := s.currentSpecBits &&& mask } := by
  refine inv.sublist List.filter_sublist fun u => ?_
  simp [inv.current u]

section Cycle

variable {cycles : List (State n × Input n)} {s : State n} {i : Input n}

theorem unresolved_concat (cycles : List (State n × Input n)) (c : State n × Input n) :
    unresolved (cycles ++ [c]) = resolve (unresolved cycles) c := by
  simp [unresolved]

theorem Inv.next (inv : Inv (unresolved cycles) s) (allowed : Allowed cycles s i) :
    Inv (unresolved (cycles ++ [(s, i)])) (s.next i) := by
  rw [unresolved_concat]
  refine Inv.correct ?_ i.mask
  cases kill : i.incorrectSpeculation with
  | none =>
      cases claim : i.claimSpecTag with
      | false => simpa [State.port0, claim, kill] using inv
      | true =>
          obtain ⟨t, next⟩ := Option.isSome_iff_exists.mp (allowed.free claim)
          simpa [State.port0, claim, kill, next] using inv.claim next
  | some k =>
      have noClaim := allowed.noClaim kill
      obtain ⟨killAll, t⟩ := k
      cases killAll with
      | true => simpa [State.port0, noClaim, kill] using inv.incorrectAll t
      | false =>
          simpa [State.port0, noClaim, kill] using inv.incorrect (allowed.kill t kill)

end Cycle

theorem inv_of_run {cycles : List (State n × Input n)} {s : State n}
    (run : (machine n).Run cycles s) : Inv (unresolved cycles) s := by
  have start : Inv (unresolved []) (machine n).reset := Inv.reset
  exact run.invariant (fun cycles s => Inv (unresolved cycles) s) start
    fun _ _ _ _ inv allowed => inv.next allowed

/-! ## Instructions in flight -/

/-- An instruction that depends on a tag depends on all older ones. -/
structure Carried (stack : List (SpecTag n)) (bits : SpecBits n) : Prop where
  inside : ∀ t, Has bits t → t ∈ stack
  closed : stack.Pairwise fun t u => Has bits u → Has bits t

theorem Inv.carried {stack : List (SpecTag n)} {s : State n} (inv : Inv stack s) :
    Carried stack s.currentSpecBits where
  inside t has := (inv.current t).mp has
  closed := inv.order.imp_of_mem fun insideT _ _ _ => (inv.current _).mpr insideT

theorem Carried.mask {stack : List (SpecTag n)} {bits : SpecBits n} (carried : Carried stack bits)
    (mask : SpecBits n) : Carried (stack.filter fun t => Has mask t) (bits &&& mask) where
  inside t has := by
    rw [has_and] at has
    simp [carried.inside t has.1, has.2]
  closed := by
    refine (carried.closed.sublist List.filter_sublist).imp_of_mem ?_
    intro t u insideT insideU closed has
    rw [has_and] at has ⊢
    exact ⟨closed has.1, by simpa using (List.mem_filter.mp insideT).2⟩

theorem Carried.claim {stack : List (SpecTag n)} {bits : SpecBits n}
    (carried : Carried stack bits) {t : SpecTag n} (fresh : t ∉ stack) :
    Carried (stack ++ [t]) bits where
  inside u has := List.mem_append_left _ (carried.inside u has)
  closed := by
    rw [List.pairwise_append]
    refine ⟨carried.closed, List.pairwise_singleton _ _, ?_⟩
    intro u _ v last has
    rw [List.mem_singleton.mp last] at has
    exact absurd (carried.inside t has) fresh

theorem Carried.kill {stack : List (SpecTag n)} {bits : SpecBits n}
    (carried : Carried stack bits) {t : SpecTag n} (claimed : t ∈ stack)
    (survives : ¬Has bits t) : Carried (stack.takeWhile (· ≠ t)) bits where
  inside u has := by
    have member := carried.inside u has
    have closed := carried.closed
    clear carried
    induction stack with
    | nil => cases member
    | cons first rest ih =>
        obtain ⟨closedFirst, closedRest⟩ := List.pairwise_cons.mp closed
        have other : u ≠ t := fun same => survives (same ▸ has)
        by_cases same : first = t
        · subst same
          have later : u ∈ rest := (List.mem_cons.mp member).resolve_left other
          exact absurd (closedFirst u later has) survives
        · rw [List.takeWhile_cons_of_pos (by simpa using same)]
          rcases List.mem_cons.mp member with rfl | later
          · exact List.mem_cons_self
          · have claimedLater := (List.mem_cons.mp claimed).resolve_left (Ne.symm same)
            exact List.mem_cons_of_mem _ (ih claimedLater later closedRest)
  closed := carried.closed.sublist (List.takeWhile_sublist _)

theorem Carried.next {cycles : List (State n × Input n)} {s : State n} {i : Input n}
    {bits after : SpecBits n} (carried : Carried (unresolved cycles) bits)
    (inv : Inv (unresolved cycles) s) (allowed : Allowed cycles s i)
    (survives : survive bits (s, i) = some after) :
    Carried (unresolved (cycles ++ [(s, i)])) after := by
  rw [unresolved_concat]
  cases kill : i.incorrectSpeculation with
  | none =>
      simp only [survive, kill, Option.some.injEq] at survives
      subst survives
      refine Carried.mask ?_ i.mask
      cases claim : i.claimSpecTag with
      | false => simpa [kill, claim] using carried
      | true =>
          obtain ⟨t, next⟩ := Option.isSome_iff_exists.mp (allowed.free claim)
          have fresh : t ∉ unresolved cycles := fun inside =>
            nextSpecTag_free next ((inv.current t).mpr inside)
          simpa [kill, claim, next] using carried.claim fresh
  | some k =>
      have noClaim := allowed.noClaim kill
      obtain ⟨killAll, t⟩ := k
      cases killAll with
      | true => simp [survive, kill] at survives
      | false =>
          simp only [survive, kill] at survives
          obtain ⟨spared, rfl⟩ : ¬Has bits t ∧ bits &&& i.mask = after := by
            simpa using survives
          have kept := (carried.kill (allowed.kill t kill) spared).mask i.mask
          simpa [resolve, kill, noClaim] using kept

theorem surviveAll_concat (bits : SpecBits n) (cycles : List (State n × Input n))
    (c : State n × Input n) :
    surviveAll bits (cycles ++ [c]) = (surviveAll bits cycles).bind fun b => survive b c := by
  simp [surviveAll, List.foldlM_append]

/-- An instruction renamed in a cycle carries unresolved tags only for as long as it lives. -/
theorem carried_of_run {before after : List (State n × Input n)} {now : State n × Input n}
    {s : State n} {bits : SpecBits n} (run : (machine n).Run (before ++ now :: after) s)
    (lives : surviveAll now.1.currentSpecBits (now :: after) = some bits) :
    Carried (unresolved (before ++ now :: after)) bits := by
  induction after using List.reverseRecOn generalizing s bits with
  | nil =>
      obtain ⟨earlier, allowed, -⟩ := run.of_append_singleton
      have inv := inv_of_run earlier
      have survives : survive now.1.currentSpecBits now = some bits := by
        simpa [surviveAll] using lives
      exact inv.carried.next inv allowed survives
  | append_singleton rest last ih =>
      have split : before ++ now :: (rest ++ [last]) = (before ++ now :: rest) ++ [last] := by
        simp
      rw [split] at run ⊢
      obtain ⟨earlier, allowed, -⟩ := run.of_append_singleton
      rw [← List.cons_append, surviveAll_concat] at lives
      obtain ⟨old, livesBefore, survives⟩ := Option.bind_eq_some_iff.mp lives
      exact (ih earlier livesBefore).next (inv_of_run earlier) allowed survives

/-! ## Main result -/

/-- The tags that a run of the manager has in use. -/
structure Tracked (cycles : List (State n × Input n)) (s : State n) : Prop where
  nodup : (unresolved cycles).Nodup
  current : ∀ t, Has s.currentSpecBits t ↔ t ∈ unresolved cycles
  next : ∀ t, nextSpecTag s = some t → t ∉ unresolved cycles
  full : nextSpecTag s = none → ∀ t, t ∈ unresolved cycles
  killed : ∀ i t, Allowed cycles s i → i.incorrectSpeculation = some ⟨false, t⟩ →
    ∃ older younger, unresolved cycles = older ++ t :: younger ∧
      ∀ u, Has (s.next i).currentSpecBits u ↔ u ∈ older ∧ Has i.mask u
  reuse : ∀ before now after bits, cycles = before ++ now :: after →
    surviveAll now.1.currentSpecBits (now :: after) = some bits →
    ∀ t, nextSpecTag s = some t → ¬Has bits t

theorem takeWhile_ne_append {α : Type} [DecidableEq α] {xs : List α} {x : α} (inside : x ∈ xs) :
    ∃ rest, xs = xs.takeWhile (· ≠ x) ++ x :: rest := by
  induction xs with
  | nil => cases inside
  | cons first rest ih =>
      by_cases same : first = x
      · subst same
        exact ⟨rest, by rw [List.takeWhile_cons_of_neg (by simp), List.nil_append]⟩
      · obtain ⟨behind, split⟩ := ih ((List.mem_cons.mp inside).resolve_left (Ne.symm same))
        refine ⟨behind, ?_⟩
        rw [List.takeWhile_cons_of_pos (by simpa using same), List.cons_append, ← split]

theorem tags_tracked {cycles : List (State n × Input n)} {s : State n}
    (run : (machine n).Run cycles s) : Tracked cycles s := by
  have inv := inv_of_run run
  have free : ∀ t, nextSpecTag s = some t → t ∉ unresolved cycles := fun t next inside =>
    nextSpecTag_free next ((inv.current t).mpr inside)
  refine ⟨inv.nodup, inv.current, free, ?_, ?_, ?_⟩
  · intro none_ t
    have used := List.find?_eq_none.mp none_ t (List.mem_finRange t)
    exact (inv.current t).mp (by simpa using used)
  · intro i t allowed kill
    obtain ⟨younger, split⟩ := takeWhile_ne_append (allowed.kill t kill)
    refine ⟨_, younger, split, fun u => ?_⟩
    have noClaim := allowed.noClaim kill
    rw [(inv.next allowed).current u, unresolved_concat]
    simp [resolve, kill, noClaim]
  · intro before now after bits split lives t next has
    subst split
    exact free t next ((carried_of_run run lives).inside t has)

instance (cycles : List (State n × Input n)) (s : State n) (i : Input n) :
    Decidable (Allowed cycles s i) :=
  decidable_of_iff
    ((i.claimSpecTag = true → canClaim s = true) ∧
      (i.claimSpecTag = true → i.incorrectSpeculation.isNone = true) ∧
      i.incorrectSpeculation.all fun k => k.killAll || decide (k.tag ∈ unresolved cycles)) (by
    constructor
    · rintro ⟨free, conflict, kill⟩
      refine ⟨free, fun claim => Option.isNone_iff_eq_none.mp (conflict claim), ?_⟩
      intro t same
      simpa [same] using kill
    · rintro ⟨free, conflict, kill⟩
      refine ⟨free, fun claim => Option.isNone_iff_eq_none.mpr (conflict claim), ?_⟩
      rcases same : i.incorrectSpeculation with - | ⟨- | -, t⟩
      · rfl
      · simpa using kill t same
      · rfl)

instance (cycles : List (State n × Input n)) (s : State n) (i : Input n) :
    Decidable ((machine n).allowed cycles s i) :=
  inferInstanceAs (Decidable (Allowed cycles s i))

/-- Tag 0 is claimed again behind tag 1 and goes with it. -/
private def claimsAndKill : List (Input 3) :=
  [{ claimSpecTag := true }, { claimSpecTag := true },
    { correctSpeculation := some 0b110#3 }, { claimSpecTag := true },
    { incorrectSpeculation := some ⟨false, 1⟩ }]

theorem tags_tracked_reused :
    Tracked ((machine 3).cyclesOf (machine 3).reset claimsAndKill)
      ((machine 3).after (machine 3).reset claimsAndKill) :=
  tags_tracked (Machine.run_of_accepts (m := machine 3) _ (by decide +kernel))

end Toooba.SpecTagManager
