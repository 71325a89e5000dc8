import RiscvCores.Lib.HalfwordParse
import RiscvCores.Toooba.CsrFile

/-!
# `mkFetchStage`: from fetched half-words to instructions

`doFetch2` puts the half-words of a fetch into `f2d`, `doDecode` picks up to `SupSize`
instructions a cycle from the front of it.  The picks are the instructions that lie one behind
the other in `f2d`.
-/

set_option autoImplicit false

namespace Toooba.FetchStage

open Toooba.CsrFile (Exception)
open HalfwordParse

/-- Ways, widths and the expansion of 16-bit instructions. -/
structure FetchCfg where
  supSize : Nat
  someWay : 0 < supSize
  pcIdxSz : Nat
  epochSz : Nat
  fv_decode_C : BitVec 16 → BitVec 32

def FetchCfg.supSizeX2 (c : FetchCfg) : Nat := 2 * c.supSize

structure PcCompressed (c : FetchCfg) where
  lsb : BitVec 12
  idx : BitVec c.pcIdxSz

structure Fetch1ToFetch2 (c : FetchCfg) where
  pc : PcCompressed c
  inst_frags_fetched : Nat
  pred_next_pc : Option (PcCompressed c)
  cause : Option Exception
  access_mmio : Bool
  decode_epoch : Bool
  main_epoch : BitVec c.epochSz

structure Fetch2ToDecode (c : FetchCfg) where
  pc : PcCompressed c
  ppc : Option (PcCompressed c)
  cause : Option Exception
  inst_frag : BitVec 16
  decode_epoch : Bool
  main_epoch : BitVec c.epochSz

inductive Inst_Kind
  | inst_16b | inst_32b
  deriving DecidableEq

structure InstrFromFetch2 (c : FetchCfg) where
  pc : PcCompressed c
  ppc : PcCompressed c
  pred_jump : Bool
  decode_epoch : Bool
  main_epoch : BitVec c.epochSz
  inst : BitVec 32
  orig_inst : BitVec 32
  inst_kind : Inst_Kind
  cause : Option Exception
  cause_second_half : Bool
  mispred_first_half : Bool

def is_16b_inst (inst : BitVec 16) : Bool := inst.extractLsb' 0 2 != 3#2

variable {c : FetchCfg}

/-! ## `doFetch2` -/

/-- The bits of an invalid half-word are not defined: `undef` stands for them. -/
def validValue (undef : BitVec 16) (inst : Option (BitVec 16)) : BitVec 16 := inst.getD undef

/-- The half-words that come with a fetch; there is no response to one with an exception. -/
def instData (fetch2In : Fetch1ToFetch2 c) (bootRomResp memResp : Nat → Option (BitVec 16)) :
    Nat → Option (BitVec 16) :=
  if fetch2In.cause.isNone then
    if fetch2In.access_mmio then bootRomResp else memResp
  else fun _ => some 0

/-- The fragment of one lane. -/
def fragment (fetch2In : Fetch1ToFetch2 c) (inst_frag : BitVec 16) (i : Nat) :
    Fetch2ToDecode c where
  pc := { fetch2In.pc with lsb := fetch2In.pc.lsb + 2 * BitVec.ofNat 12 i }
  ppc := if i = fetch2In.inst_frags_fetched then fetch2In.pred_next_pc else none
  inst_frag := inst_frag
  cause := fetch2In.cause
  decode_epoch := fetch2In.decode_epoch
  main_epoch := fetch2In.main_epoch

/-- What is put into `f2d`; the epochs are not looked at. -/
def doFetch2 (undef : Nat → BitVec 16) (fetch2In : Fetch1ToFetch2 c)
    (inst_d : Nat → Option (BitVec 16)) : List (Fetch2ToDecode c) :=
  (List.range (min c.supSizeX2 (fetch2In.inst_frags_fetched + 1))).map fun i =>
    fragment fetch2In (validValue (undef i) (inst_d i)) i

/-! ## Picking in `doDecode` -/

def fetch2_2_instC (frag : Fetch2ToDecode c) (inst orig_inst : BitVec 32) :
    InstrFromFetch2 c where
  pc := frag.pc
  ppc := frag.ppc.getD
    { lsb := frag.pc.lsb + 2
      idx := frag.pc.idx + if frag.pc.lsb = -2 then 1 else 0 }
  pred_jump := frag.ppc.isSome
  decode_epoch := frag.decode_epoch
  main_epoch := frag.main_epoch
  inst := inst
  orig_inst := orig_inst
  inst_kind := .inst_16b
  cause := frag.cause
  cause_second_half := false
  mispred_first_half := false

def fetch2s_2_inst (inHi inLo : Fetch2ToDecode c) : InstrFromFetch2 c :=
  let inst : BitVec 32 := inHi.inst_frag ++ inLo.inst_frag
  let ret := fetch2_2_instC inHi inst inst
  let ret :=
    if inLo.cause.isSome then { ret with cause := inLo.cause }
    else if inHi.cause.isSome then { ret with cause_second_half := true }
    else ret
  { ret with
    inst_kind := .inst_32b
    pc := inLo.pc
    mispred_first_half := inLo.ppc.isSome }

/-- The pick of a fragment that is an instruction. -/
def pick16 (frag : Fetch2ToDecode c) : InstrFromFetch2 c :=
  fetch2_2_instC frag (c.fv_decode_C frag.inst_frag) (frag.inst_frag.setWidth 32)

/-- The variables of the loop. -/
structure Picking (c : FetchCfg) where
  decodeIn : Nat → Option (InstrFromFetch2 c)
  m_used_frag_count : Option Nat
  pick_count : Nat
  prev_frag_available : Bool

def Picking.start : Picking c where
  decodeIn _ := none
  m_used_frag_count := none
  pick_count := 0
  prev_frag_available := false

/-- What a lane gives with the fragment before it. -/
def newPick (frags : Nat → Option (Fetch2ToDecode c)) (prev_frag_available : Bool) (i : Nat) :
    Option (InstrFromFetch2 c) :=
  match frags i with
  | none => none
  | some frag =>
      match (if prev_frag_available then frags (i - 1) else none) with
      | some prev_frag =>
          if !is_16b_inst prev_frag.inst_frag then some (fetch2s_2_inst frag prev_frag)
          else if is_16b_inst frag.inst_frag || frag.cause.isSome then some (pick16 frag)
          else none
      | none =>
          if is_16b_inst frag.inst_frag || frag.cause.isSome then some (pick16 frag) else none

/-- One turn of the loop, which ends when all ways have an instruction. -/
def pickLane (frags : Nat → Option (Fetch2ToDecode c)) (p : Picking c) (i : Nat) : Picking c :=
  if (p.decodeIn (c.supSize - 1)).isSome then p
  else
    let new_pick := newPick frags p.prev_frag_available i
    let decodeIn := Function.update p.decodeIn p.pick_count new_pick
    if new_pick.isSome then
      { decodeIn := decodeIn
        m_used_frag_count := some i
        pick_count := p.pick_count + 1
        prev_frag_available := false }
    else { p with decodeIn := decodeIn, prev_frag_available := (frags i).isSome }

def picking (f2d : List (Fetch2ToDecode c)) : Picking c :=
  (List.range c.supSizeX2).foldl (pickLane fun i => f2d[i]?) Picking.start

/-- The picks of a cycle and what is left in `f2d`. -/
def doDecode (f2d : List (Fetch2ToDecode c)) :
    List (InstrFromFetch2 c) × List (Fetch2ToDecode c) :=
  let p := picking f2d
  ((List.range c.supSize).filterMap p.decodeIn,
    match p.m_used_frag_count with
    | some used_frag_count => f2d.drop (used_frag_count + 1)
    | none => f2d)

/-- The picks of several cycles in which nothing is put into `f2d`. -/
def picked : Nat → List (Fetch2ToDecode c) → List (InstrFromFetch2 c)
  | 0, _ => []
  | cycles + 1, f2d => (doDecode f2d).1 ++ picked cycles (doDecode f2d).2

/-! ## Picks lie one behind the other -/

/-- A fragment that is picked by itself. -/
def Whole (frag : Fetch2ToDecode c) : Bool := is_16b_inst frag.inst_frag || frag.cause.isSome

/-- The fragments of some instructions. -/
inductive Parsed : List (Fetch2ToDecode c) → List (InstrFromFetch2 c) → Prop
  | nil : Parsed [] []
  | short {frags : List (Fetch2ToDecode c)} {insts : List (InstrFromFetch2 c)}
      {frag : Fetch2ToDecode c} (before : Parsed frags insts) (whole : Whole frag = true) :
      Parsed (frags ++ [frag]) (insts ++ [pick16 frag])
  | long {frags : List (Fetch2ToDecode c)} {insts : List (InstrFromFetch2 c)}
      {inLo inHi : Fetch2ToDecode c} (before : Parsed frags insts) (half : Whole inLo = false) :
      Parsed (frags ++ [inLo, inHi]) (insts ++ [fetch2s_2_inst inHi inLo])

/-- Fragments that are not an instruction yet. -/
def Stuck (f2d : List (Fetch2ToDecode c)) : Prop :=
  f2d = [] ∨ ∃ inLo, f2d = [inLo] ∧ Whole inLo = false

theorem Parsed.append {frags frags' : List (Fetch2ToDecode c)}
    {insts insts' : List (InstrFromFetch2 c)} (first : Parsed frags insts)
    (second : Parsed frags' insts') : Parsed (frags ++ frags') (insts ++ insts') := by
  induction second with
  | nil =>
      rw [List.append_nil, List.append_nil]
      exact first
  | short _ whole ih =>
      rw [← List.append_assoc, ← List.append_assoc]
      exact ih.short whole
  | long _ half ih =>
      rw [← List.append_assoc, ← List.append_assoc]
      exact ih.long half

theorem Parsed.eq_nil {frags : List (Fetch2ToDecode c)} (parsed : Parsed frags []) :
    frags = [] := by
  generalize whole : ([] : List (InstrFromFetch2 c)) = insts at parsed
  cases parsed with
  | nil => rfl
  | short _ _ =>
      exact absurd whole.symm (List.append_ne_nil_of_right_ne_nil _ (List.cons_ne_nil _ _))
  | long _ _ =>
      exact absurd whole.symm (List.append_ne_nil_of_right_ne_nil _ (List.cons_ne_nil _ _))

theorem Parsed.stuck {frags : List (Fetch2ToDecode c)} {insts : List (InstrFromFetch2 c)}
    (parsed : Parsed frags insts) (stuck : Stuck frags) : insts = [] := by
  cases parsed with
  | nil => rfl
  | @short frags insts frag before whole =>
      rcases stuck with none | ⟨inLo, one, half⟩
      · exact absurd none (List.append_ne_nil_of_right_ne_nil _ (List.cons_ne_nil _ _))
      · obtain ⟨-, same⟩ := List.append_inj' (one.trans (List.nil_append _).symm) rfl
        obtain rfl := List.singleton_inj.mp same
        rw [whole] at half
        exact nomatch half
  | @long frags insts inLo inHi before half =>
      rcases stuck with none | ⟨one, same, -⟩
      · exact absurd (List.append_eq_nil_iff.mp none).2 nofun
      · have lengths := congrArg List.length same
        simp only [List.length_append, List.length_cons, List.length_nil] at lengths
        omega

/-- Where the loop stands before lane `i`. -/
inductive Lane (f2d : List (Fetch2ToDecode c)) (i u : Nat) (insts : List (InstrFromFetch2 c)) :
    Bool → Prop
  | full {prev : Bool} (all : insts.length = c.supSize) : Lane f2d i u insts prev
  | whole (room : insts.length < c.supSize) (here : u = i) (inside : i ≤ f2d.length) :
      Lane f2d i u insts false
  | half {inLo : Fetch2ToDecode c} (room : insts.length < c.supSize) (here : u + 1 = i)
      (there : f2d[u]? = some inLo) (half : Whole inLo = false) : Lane f2d i u insts true
  | past (room : insts.length < c.supSize) (outside : f2d.length ≤ i)
      (stuck : Stuck (f2d.drop u)) : Lane f2d i u insts false

/-- What the loop has picked before lane `i`. -/
structure Picks (f2d : List (Fetch2ToDecode c)) (i : Nat) (p : Picking c) (u : Nat)
    (insts : List (InstrFromFetch2 c)) : Prop where
  parsed : Parsed (f2d.take u) insts
  inside : u ≤ f2d.length
  decodeIn : p.decodeIn = fun j => insts[j]?
  used : p.m_used_frag_count = if u = 0 then none else some (u - 1)
  pick_count : p.pick_count = insts.length
  lane : Lane f2d i u insts p.prev_frag_available

theorem newPick_first (frags : Nat → Option (Fetch2ToDecode c)) (i : Nat) :
    newPick frags false i =
      (frags i).bind fun frag => if Whole frag then some (pick16 frag) else none := by
  unfold newPick Whole
  cases frags i with
  | none => rfl
  | some frag => rfl

theorem newPick_second (frags : Nat → Option (Fetch2ToDecode c)) {u : Nat}
    {inLo : Fetch2ToDecode c} (there : frags u = some inLo) (half : Whole inLo = false) :
    newPick frags true (u + 1) = (frags (u + 1)).map fun frag => fetch2s_2_inst frag inLo := by
  unfold Whole at half
  rw [Bool.or_eq_false_iff] at half
  unfold newPick
  cases frags (u + 1) with
  | none => rfl
  | some frag =>
      rw [if_pos rfl, Nat.add_sub_cancel, there]
      simp [half.1]

/-- A new pick fills the next way. -/
theorem update_picked (insts : List (InstrFromFetch2 c)) (inst : InstrFromFetch2 c) :
    Function.update (fun j => insts[j]?) insts.length (some inst) =
      fun j => (insts ++ [inst])[j]? := by
  funext j
  by_cases same : j = insts.length
  · rw [same, Function.update_self, List.getElem?_concat_length]
  · rw [Function.update_of_ne same]
    rcases Nat.lt_or_ge j insts.length with below | above
    · rw [List.getElem?_append_left below]
    · rw [List.getElem?_eq_none above, List.getElem?_eq_none]
      rw [List.length_append, List.length_singleton]
      omega

theorem update_not_picked (insts : List (InstrFromFetch2 c)) :
    Function.update (fun j => insts[j]?) insts.length none = fun j => insts[j]? := by
  rw [Function.update_eq_self_iff]
  exact (List.getElem?_eq_none (Nat.le_refl _)).symm

section Loop

variable {f2d : List (Fetch2ToDecode c)} {i u : Nat} {p : Picking c}
  {insts : List (InstrFromFetch2 c)}

theorem Picks.start (c : FetchCfg) (f2d : List (Fetch2ToDecode c)) :
    Picks f2d 0 Picking.start 0 [] where
  parsed := .nil
  inside := Nat.zero_le _
  decodeIn := rfl
  used := rfl
  pick_count := rfl
  lane := .whole c.someWay rfl (Nat.zero_le _)

/-- All ways have an instruction. -/
theorem Picks.full_iff (picks : Picks f2d i p u insts) (atMost : insts.length ≤ c.supSize) :
    (p.decodeIn (c.supSize - 1)).isSome = true ↔ insts.length = c.supSize := by
  have some := c.someWay
  rw [picks.decodeIn]
  simp only [isSome_getElem?]
  omega

theorem Lane.atMost {prev : Bool} (lane : Lane f2d i u insts prev) :
    insts.length ≤ c.supSize := by
  cases lane with
  | full all => exact Nat.le_of_eq all
  | whole room _ _ => exact Nat.le_of_lt room
  | half room _ _ _ => exact Nat.le_of_lt room
  | past room _ _ => exact Nat.le_of_lt room

/-- A lane that picks. -/
theorem Picks.pick (picks : Picks f2d i p u insts) (room : insts.length < c.supSize)
    {inst : InstrFromFetch2 c}
    (new : newPick (fun j => f2d[j]?) p.prev_frag_available i = some inst)
    (parsed : Parsed (f2d.take (i + 1)) (insts ++ [inst])) (inside : i < f2d.length) :
    Picks f2d (i + 1) (pickLane (fun j => f2d[j]?) p i) (i + 1) (insts ++ [inst]) := by
  have going : ¬ (p.decodeIn (c.supSize - 1)).isSome = true := by
    rw [picks.full_iff (Nat.le_of_lt room)]
    exact Nat.ne_of_lt room
  unfold pickLane
  rw [if_neg going, new, picks.decodeIn, picks.pick_count]
  dsimp only
  rw [if_pos Option.isSome_some]
  refine ⟨parsed, inside, update_picked insts inst, rfl, ?_, ?_⟩
  · rw [List.length_append, List.length_singleton]
  · rcases Nat.lt_or_ge (insts.length + 1) c.supSize with more | full
    · refine .whole ?_ rfl inside
      rw [List.length_append, List.length_singleton]
      exact more
    · refine .full ?_
      rw [List.length_append, List.length_singleton]
      omega

/-- A lane that does not. -/
theorem Picks.pass (picks : Picks f2d i p u insts) (room : insts.length < c.supSize)
    (new : newPick (fun j => f2d[j]?) p.prev_frag_available i = none)
    (lane : Lane f2d (i + 1) u insts (f2d[i]?).isSome) :
    Picks f2d (i + 1) (pickLane (fun j => f2d[j]?) p i) u insts := by
  have going : ¬ (p.decodeIn (c.supSize - 1)).isSome = true := by
    rw [picks.full_iff (Nat.le_of_lt room)]
    exact Nat.ne_of_lt room
  unfold pickLane
  rw [if_neg going, new, picks.decodeIn, picks.pick_count]
  dsimp only
  rw [update_not_picked]
  exact ⟨picks.parsed, picks.inside, rfl, picks.used, rfl, lane⟩

theorem Picks.next (picks : Picks f2d i p u insts) :
    ∃ u' insts', Picks f2d (i + 1) (pickLane (fun j => f2d[j]?) p i) u' insts' := by
  have lane := picks.lane
  generalize prev : p.prev_frag_available = available at lane
  cases lane with
  | full all =>
      refine ⟨u, insts, ?_⟩
      unfold pickLane
      rw [if_pos ((picks.full_iff (Nat.le_of_eq all)).mpr all)]
      exact ⟨picks.parsed, picks.inside, picks.decodeIn, picks.used, picks.pick_count, .full all⟩
  | whole room here inside =>
      subst here
      have new := newPick_first (fun j => f2d[j]?) u
      rw [← prev] at new
      cases there : f2d[u]? with
      | none =>
          have outside := List.getElem?_eq_none_iff.mp there
          rw [there] at new
          refine ⟨u, insts, picks.pass room new ?_⟩
          rw [there]
          exact .past room (Nat.le_succ_of_le outside) (.inl (List.drop_eq_nil_of_le outside))
      | some frag =>
          obtain ⟨below, at_u⟩ := List.getElem?_eq_some_iff.mp there
          rw [there, Option.bind_some] at new
          cases whole : Whole frag with
          | true =>
              rw [whole, if_pos rfl] at new
              refine ⟨u + 1, _, picks.pick room new ?_ below⟩
              rw [← List.take_append_getElem below, at_u]
              exact picks.parsed.short whole
          | false =>
              rw [whole, if_neg Bool.false_ne_true] at new
              refine ⟨u, insts, picks.pass room new ?_⟩
              rw [there]
              exact .half room rfl there whole
  | @half inLo room here there half =>
      subst here
      have new := newPick_second (fun j => f2d[j]?) there half
      rw [← prev] at new
      obtain ⟨below, at_u⟩ := List.getElem?_eq_some_iff.mp there
      cases second : f2d[u + 1]? with
      | none =>
          have outside := List.getElem?_eq_none_iff.mp second
          rw [second] at new
          refine ⟨u, insts, picks.pass room new ?_⟩
          rw [second]
          refine .past room (Nat.le_succ_of_le outside) (.inr ⟨inLo, ?_, half⟩)
          rw [List.drop_eq_getElem_cons below, at_u, List.drop_eq_nil_of_le outside]
      | some inHi =>
          obtain ⟨below', at_second⟩ := List.getElem?_eq_some_iff.mp second
          rw [second] at new
          refine ⟨u + 1 + 1, _, picks.pick room new ?_ below'⟩
          rw [← List.take_append_getElem below', ← List.take_append_getElem below, at_u,
            at_second, List.append_assoc]
          exact picks.parsed.long half
  | past room outside stuck =>
      have none : f2d[i]? = none := List.getElem?_eq_none outside
      have new := newPick_first (fun j => f2d[j]?) i
      rw [← prev, none] at new
      refine ⟨u, insts, picks.pass room new ?_⟩
      rw [none]
      exact .past room (Nat.le_succ_of_le outside) stuck

theorem Picks.lanes (f2d : List (Fetch2ToDecode c)) (lanes : Nat) :
    ∃ u insts, Picks f2d lanes
      ((List.range lanes).foldl (pickLane fun j => f2d[j]?) Picking.start) u insts := by
  induction lanes with
  | zero => exact ⟨0, [], Picks.start c f2d⟩
  | succ lanes ih =>
      obtain ⟨u, insts, picks⟩ := ih
      rw [List.range_succ, List.foldl_append]
      exact picks.next

/-- The lanes are enough for an instruction, if there is one. -/
theorem Picks.nothing (picks : Picks f2d i p u []) (lanes : 2 ≤ i) : Stuck f2d := by
  have none : u = 0 ∨ f2d = [] := List.take_eq_nil_iff.mp picks.parsed.eq_nil
  have lane := picks.lane
  generalize p.prev_frag_available = available at lane
  cases lane with
  | full all => exact absurd all.symm (Nat.ne_of_gt c.someWay)
  | whole room here inside =>
      refine .inl (none.resolve_left ?_)
      omega
  | half room here there half =>
      refine .inl (none.resolve_left ?_)
      omega
  | past room outside stuck =>
      rcases none with rfl | rfl
      · exact stuck
      · exact .inl rfl

end Loop

theorem filterMap_getElem? {α : Type} (xs : List α) {n : Nat} (enough : xs.length ≤ n) :
    (List.range n).filterMap (fun j => xs[j]?) = xs := by
  induction n generalizing xs with
  | zero => exact (List.eq_nil_of_length_eq_zero (Nat.le_zero.mp enough)).symm
  | succ n ih =>
      rw [List.range_succ_eq_map, List.filterMap_cons, List.filterMap_map]
      cases xs with
      | nil =>
          have rest := ih [] (Nat.zero_le n)
          exact rest
      | cons x xs =>
          have rest := ih xs (Nat.le_of_succ_le_succ enough)
          exact congrArg (x :: ·) rest

/-- The picks of a cycle are instructions from the front of `f2d` on. -/
theorem doDecode_spec (f2d : List (Fetch2ToDecode c)) :
    ∃ u ≤ f2d.length, Parsed (f2d.take u) (doDecode f2d).1 ∧ (doDecode f2d).2 = f2d.drop u ∧
      ((doDecode f2d).1 = [] → Stuck f2d) := by
  obtain ⟨u, insts, picks⟩ := Picks.lanes f2d c.supSizeX2
  have ways : (doDecode f2d).1 = insts := by
    change (List.range c.supSize).filterMap (picking f2d).decodeIn = insts
    have decodeIn : (picking f2d).decodeIn = fun j => insts[j]? := picks.decodeIn
    rw [decodeIn]
    exact filterMap_getElem? insts picks.lane.atMost
  have rest : (doDecode f2d).2 = f2d.drop u := by
    change (match (picking f2d).m_used_frag_count with
      | some used_frag_count => f2d.drop (used_frag_count + 1)
      | none => f2d) = f2d.drop u
    have used : (picking f2d).m_used_frag_count = if u = 0 then none else some (u - 1) :=
      picks.used
    rw [used]
    by_cases zero : u = 0
    · rw [if_pos zero, zero]
      rfl
    · rw [if_neg zero]
      dsimp only
      rw [Nat.sub_add_cancel (Nat.pos_of_ne_zero zero)]
  refine ⟨u, picks.inside, ?_, rest, ?_⟩
  · rw [ways]
    exact picks.parsed
  · intro nothing
    rw [ways] at nothing
    subst nothing
    have some := c.someWay
    apply picks.nothing
    unfold FetchCfg.supSizeX2
    omega

theorem doDecode_stuck {f2d : List (Fetch2ToDecode c)} (stuck : Stuck f2d) :
    doDecode f2d = ([], f2d) := by
  obtain ⟨u, inside, parsed, rest, -⟩ := doDecode_spec f2d
  have short : Stuck (f2d.take u) := by
    rcases stuck with rfl | ⟨inLo, rfl, half⟩
    · exact .inl List.take_nil
    · cases u with
      | zero => exact .inl rfl
      | succ u => exact .inr ⟨inLo, List.take_of_length_le (Nat.le_add_left 1 u), half⟩
  have nothing := parsed.stuck short
  rw [nothing] at parsed
  rcases List.take_eq_nil_iff.mp parsed.eq_nil with rfl | rfl
  · exact Prod.ext nothing rest
  · rw [List.drop_nil] at rest
    exact Prod.ext nothing rest

theorem picked_stuck {f2d : List (Fetch2ToDecode c)} (stuck : Stuck f2d) (cycles : Nat) :
    picked cycles f2d = [] := by
  induction cycles with
  | zero => rfl
  | succ cycles ih =>
      unfold picked
      rw [doDecode_stuck stuck, ih]
      rfl

/-- After enough cycles everything is picked that can be. -/
theorem picked_spec (cycles : Nat) (f2d : List (Fetch2ToDecode c))
    (enough : f2d.length ≤ cycles) :
    ∃ u ≤ f2d.length, Parsed (f2d.take u) (picked cycles f2d) ∧ Stuck (f2d.drop u) := by
  induction cycles generalizing f2d with
  | zero =>
      obtain rfl := List.eq_nil_of_length_eq_zero (Nat.le_zero.mp enough)
      exact ⟨0, Nat.le_refl 0, .nil, .inl rfl⟩
  | succ cycles ih =>
      obtain ⟨u, inside, parsed, rest, nothing⟩ := doDecode_spec f2d
      by_cases empty : (doDecode f2d).1 = []
      · have stuck := nothing empty
        refine ⟨0, Nat.zero_le _, ?_, stuck⟩
        rw [picked_stuck stuck]
        exact .nil
      · have moved : 0 < u := by
          apply Nat.pos_of_ne_zero
          rintro rfl
          exact empty (parsed.stuck (.inl rfl))
        have shorter : (f2d.drop u).length ≤ cycles := by
          rw [List.length_drop]
          omega
        obtain ⟨v, inside', parsed', stuck⟩ := ih (f2d.drop u) shorter
        rw [List.length_drop] at inside'
        refine ⟨u + v, by omega, ?_, ?_⟩
        · unfold picked
          rw [rest, List.take_add]
          exact parsed.append parsed'
        · rw [List.drop_drop] at stuck
          exact stuck

/-! ## The fragments of one fetch -/

section Fetch

variable (fetch2In : Fetch1ToFetch2 c) (half : Nat → BitVec 16)

/-- The half-words that start an instruction of two. -/
def starts32 (p : Nat) : Bool := !is_16b_inst (half p)

/-- The instruction that starts at a half-word. -/
def instAt (p : Nat) : InstrFromFetch2 c :=
  if starts32 half p then
    fetch2s_2_inst (fragment fetch2In (half (p + 1)) (p + 1)) (fragment fetch2In (half p) p)
  else pick16 (fragment fetch2In (half p) p)

def fragments (n : Nat) : List (Fetch2ToDecode c) :=
  (List.range n).map fun i => fragment fetch2In (half i) i

variable {fetch2In half}

theorem whole_fragment (quiet : fetch2In.cause = none) (p : Nat) :
    Whole (fragment fetch2In (half p) p) = !starts32 half p := by
  unfold Whole fragment starts32
  rw [quiet, Bool.not_not]
  exact Bool.or_false _

theorem fragments_succ (n : Nat) :
    fragments fetch2In half (n + 1) =
      fragments fetch2In half n ++ [fragment fetch2In (half n) n] := by
  unfold fragments
  rw [List.range_succ, List.map_append]
  rfl

theorem length_fragments (fetch2In : Fetch1ToFetch2 c) (half : Nat → BitVec 16) (n : Nat) :
    (fragments fetch2In half n).length = n := by
  unfold fragments
  rw [List.length_map, List.length_range]

/-- Where the parse has stopped, the next item is parsed. -/
theorem starts_stopped {long : Nat → Bool} {m : Nat} (stopped : stop long m 0 = m) (k : Nat) :
    starts long (m + k) 0 = starts long m 0 ++ starts long k m ∧
      stop long (m + k) 0 = stop long k m := by
  have more : starts long (m + k) 0 = _ := starts_add m k 0
  have last : stop long (m + k) 0 = _ := stop_add m k 0
  rw [stopped, Nat.zero_add, Nat.add_sub_cancel_left] at more last
  exact ⟨more, last⟩

/-- Picks from the first fragments are the instructions that lie in them. -/
theorem Parsed.fragments (quiet : fetch2In.cause = none) {frags : List (Fetch2ToDecode c)}
    {insts : List (InstrFromFetch2 c)} (parsed : Parsed frags insts) {n : Nat}
    (fetched : frags = fragments fetch2In half n) :
    insts = (starts (starts32 half) n 0).map (instAt fetch2In half) ∧
      stop (starts32 half) n 0 = n := by
  have lengths := congrArg List.length fetched
  rw [length_fragments] at lengths
  induction parsed generalizing n with
  | nil =>
      obtain rfl : 0 = n := lengths
      exact ⟨rfl, rfl⟩
  | @short frags insts frag before whole ih =>
      rw [List.length_append, List.length_singleton] at lengths
      subst lengths
      rw [fragments_succ] at fetched
      obtain ⟨same, last⟩ := List.append_inj' fetched rfl
      obtain rfl := List.singleton_inj.mp last
      obtain ⟨earlier, stopped⟩ := ih same rfl
      rw [whole_fragment quiet, Bool.not_eq_true'] at whole
      obtain ⟨more, last⟩ := starts_stopped stopped 1
      rw [more, last, earlier, List.map_append]
      simp [starts, stop, instAt, whole]
  | @long frags insts inLo inHi before short ih =>
      rw [List.length_append] at lengths
      obtain rfl : frags.length + 2 = n := lengths
      have split : FetchStage.fragments fetch2In half (frags.length + 2) =
          FetchStage.fragments fetch2In half frags.length ++
            [fragment fetch2In (half frags.length) frags.length,
              fragment fetch2In (half (frags.length + 1)) (frags.length + 1)] := by
        change FetchStage.fragments fetch2In half (frags.length + 1 + 1) = _
        rw [fragments_succ, fragments_succ, List.append_assoc]
        rfl
      rw [split] at fetched
      obtain ⟨same, last⟩ := List.append_inj' fetched rfl
      rw [List.cons.injEq, List.singleton_inj] at last
      obtain ⟨rfl, rfl⟩ := last
      obtain ⟨earlier, stopped⟩ := ih same rfl
      rw [whole_fragment quiet, Bool.not_eq_false'] at short
      obtain ⟨more, last⟩ := starts_stopped stopped 2
      rw [more, last, earlier, List.map_append]
      simp [starts, stop, instAt, short]

/-- What is picked of a fetch without an exception. -/
theorem picked_fragments (quiet : fetch2In.cause = none) {n cycles : Nat} (enough : n ≤ cycles) :
    picked cycles (fragments fetch2In half n) =
      (starts (starts32 half) n 0).map (instAt fetch2In half) := by
  have length := length_fragments fetch2In half n
  obtain ⟨u, inside, parsed, stuck⟩ := picked_spec cycles (fragments fetch2In half n)
    (by rwa [length])
  rw [length] at inside
  obtain ⟨k, rfl⟩ := Nat.exists_eq_add_of_le inside
  have front : (fragments fetch2In half (u + k)).take u = fragments fetch2In half u := by
    unfold fragments
    rw [← List.map_take, List.take_range, Nat.min_eq_left (Nat.le_add_right u k)]
  obtain ⟨insts, stopped⟩ := parsed.fragments quiet front
  rw [insts, (starts_stopped stopped k).1]
  have left : starts (starts32 half) k u = [] := by
    have count : ((fragments fetch2In half (u + k)).drop u).length = k := by
      rw [List.length_drop, length, Nat.add_sub_cancel_left]
    rcases stuck with none | ⟨inLo, one, short⟩
    · rw [none] at count
      obtain rfl : 0 = k := count
      rfl
    · rw [one] at count
      obtain rfl : 1 = k := count
      have last : (fragments fetch2In half (u + 1)).drop u = [fragment fetch2In (half u) u] := by
        rw [fragments_succ]
        exact List.drop_left' (length_fragments fetch2In half u)
      rw [last, List.singleton_inj] at one
      rw [← one, whole_fragment quiet, Bool.not_eq_false'] at short
      simp [starts, short]
  rw [left, List.append_nil]

/-- Fragments without an exception are picked without one. -/
theorem Parsed.quiet {frags : List (Fetch2ToDecode c)} {insts : List (InstrFromFetch2 c)}
    (parsed : Parsed frags insts) (quiet : ∀ frag ∈ frags, frag.cause = none) :
    ∀ inst ∈ insts, inst.cause = none := by
  induction parsed with
  | nil => exact nofun
  | @short frags insts frag before whole ih =>
      intro inst member
      rcases List.mem_append.mp member with earlier | last
      · exact ih (fun f there => quiet f (List.mem_append_left _ there)) inst earlier
      · obtain rfl := List.mem_singleton.mp last
        exact quiet frag (by simp)
  | @long frags insts inLo inHi before half ih =>
      intro inst member
      rcases List.mem_append.mp member with earlier | last
      · exact ih (fun f there => quiet f (List.mem_append_left _ there)) inst earlier
      · obtain rfl := List.mem_singleton.mp last
        have low := quiet inLo (by simp)
        have high := quiet inHi (by simp)
        unfold fetch2s_2_inst
        rw [low, high]
        exact high

end Fetch

end Toooba.FetchStage
