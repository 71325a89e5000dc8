import Mathlib.Data.Fin.Basic
import RiscvCores.CommonCells.Lzc

/-!
# The arbiter `rr_arb_tree` with its own priority (`ExtPrio` 0, `FairArb` 1)

A node with two requests follows a bit of the priority register.  With `LockIn` the
requests of the first cycle are kept until the grant.
-/

set_option autoImplicit false

namespace CommonCells

/-- `req_nodes` and `index_nodes` of a node. -/
structure RrNode where
  req : Bool
  index : Nat

/-- The `l`-th node of the level that is fed by the inputs. -/
def rrLeaf (numIn : Nat) (reqD : Nat → Bool) (rr l : Nat) : RrNode :=
  if l * 2 < numIn - 1 then
    ⟨reqD (l * 2) || reqD (l * 2 + 1),
      (!reqD (l * 2) || reqD (l * 2 + 1) && rr.testBit 0).toNat⟩
  else if l * 2 = numIn - 1 then ⟨reqD (l * 2), 0⟩
  else ⟨false, 0⟩

/-- The `l`-th node of the level `d` below it. -/
def rrNode (numIn : Nat) (reqD : Nat → Bool) (rr : Nat) : Nat → Nat → RrNode
  | 0, l => rrLeaf numIn reqD rr l
  | d + 1, l =>
      let left := rrNode numIn reqD rr d (2 * l)
      let right := rrNode numIn reqD rr d (2 * l + 1)
      let sel := !left.req || right.req && rr.testBit (d + 1)
      ⟨left.req || right.req, if sel then 2 ^ (d + 1) + right.index else left.index⟩

/-- `rr_q`, `lock_q` and `req_q`. -/
structure RrState (numIn : Nat) where
  rr : Nat := 0
  lock : Bool := false
  req : Fin numIn → Bool := fun _ => false

namespace RrState

variable {numIn : Nat}

/-- A vector by its index. -/
def bits (reqI : Fin numIn → Bool) (k : Nat) : Bool :=
  if inside : k < numIn then reqI ⟨k, inside⟩ else false

variable (s : RrState numIn) (lockIn : Bool) (reqI : Fin numIn → Bool)

/-- `req_d`; a single request passes through. -/
def reqD : Fin numIn → Bool :=
  if lockIn && s.lock && numIn != 1 then s.req else reqI

/-- The root of the tree. -/
def root : RrNode :=
  if numIn = 1 then ⟨bits (s.reqD lockIn reqI) 0, 0⟩
  else rrNode numIn (bits (s.reqD lockIn reqI)) s.rr (lzcNumLevels numIn - 1) 0

/-- `req_o` -/
def reqO : Bool := (s.root lockIn reqI).req

/-- `idx_o` -/
def idxO [NeZero numIn] : Fin numIn := Fin.ofNat numIn (s.root lockIn reqI).index

/-- `next_idx` -/
def nextIdx : Nat :=
  let upperMask k := decide (s.rr < k) && bits (s.reqD lockIn reqI) k
  let lowerMask k := decide (k ≤ s.rr) && bits (s.reqD lockIn reqI) k
  if lzcEmpty numIn upperMask then lzcCnt numIn lowerMask else lzcCnt numIn upperMask

/-- The registers after a cycle with the grant `gntI`. -/
def next (gntI : Bool) : RrState numIn where
  rr := if gntI && s.reqO lockIn reqI then s.nextIdx lockIn reqI else s.rr
  lock := s.reqO lockIn reqI && !gntI
  req := s.reqD lockIn reqI

end RrState

/-! ## The tree selects a request -/

/-- A node over the inputs from `o` on selects one of their requests. -/
structure RrNode.Selects (node : RrNode) (numIn : Nat) (reqD : Nat → Bool) (o len : Nat) :
    Prop where
  none : node.req = false → ∀ j, o ≤ j → j < o + len → j < numIn → reqD j = false
  some : node.req = true →
    node.index < len ∧ o + node.index < numIn ∧ reqD (o + node.index) = true

section Selects

variable {numIn : Nat} (reqD : Nat → Bool) (rr : Nat)

theorem rrLeaf_selects (wide : 0 < numIn) (l : Nat) :
    (rrLeaf numIn reqD rr l).Selects numIn reqD (l * 2) 2 := by
  unfold rrLeaf
  by_cases inner : l * 2 < numIn - 1
  · rw [if_pos inner]
    cases first : reqD (l * 2) with
    | false =>
        refine ⟨fun none j low high _ => ?_, fun isSet => ?_⟩
        · rcases (by omega : j = l * 2 ∨ j = l * 2 + 1) with same | same
          · rw [same]
            exact first
          · rw [same]
            exact none
        · exact ⟨Nat.one_lt_two, by simp; omega, isSet⟩
    | true =>
        refine ⟨fun none => (by cases none), fun _ => ?_⟩
        cases second : reqD (l * 2 + 1) && rr.testBit 0 with
        | false => exact ⟨Nat.two_pos, by simp; omega, first⟩
        | true => exact ⟨Nat.one_lt_two, by simp; omega, (Bool.and_eq_true_iff.mp second).1⟩
  · rw [if_neg inner]
    by_cases last : l * 2 = numIn - 1
    · rw [if_pos last]
      refine ⟨fun none j low high inside => ?_, fun isSet => ⟨Nat.two_pos, by simp; omega, isSet⟩⟩
      obtain rfl : j = l * 2 := by omega
      exact none
    · rw [if_neg last]
      refine ⟨fun _ j low _ inside => ?_, fun isSet => by cases isSet⟩
      omega

theorem rrNode_selects (wide : 0 < numIn) (d l : Nat) :
    (rrNode numIn reqD rr d l).Selects numIn reqD (l * 2 ^ (d + 1)) (2 ^ (d + 1)) := by
  induction d generalizing l with
  | zero => exact rrLeaf_selects reqD rr wide l
  | succ d ih =>
      have left := ih (2 * l)
      have right := ih (2 * l + 1)
      have double : 2 ^ (d + 1 + 1) = 2 ^ (d + 1) + 2 ^ (d + 1) := by
        rw [Nat.pow_succ]
        omega
      have start : l * 2 ^ (d + 1 + 1) = 2 * l * 2 ^ (d + 1) := by
        rw [Nat.pow_succ, Nat.mul_comm 2 l, Nat.mul_assoc, Nat.mul_comm 2]
      have middle : (2 * l + 1) * 2 ^ (d + 1) = 2 * l * 2 ^ (d + 1) + 2 ^ (d + 1) := by
        rw [Nat.add_mul, Nat.one_mul]
      rw [start, double, rrNode]
      rw [middle] at right
      refine ⟨fun none j low high inside => ?_, fun isSet => ?_⟩
      · obtain ⟨leftNone, rightNone⟩ := Bool.or_eq_false_iff.mp none
        rcases Nat.lt_or_ge j (2 * l * 2 ^ (d + 1) + 2 ^ (d + 1)) with lower | upper
        · exact left.none leftNone j low lower inside
        · exact right.none rightNone j upper (by omega) inside
      · dsimp only at isSet ⊢
        split
        · rename_i takesRight
          have set : (rrNode numIn reqD rr d (2 * l + 1)).req = true := by
            cases leftReq : (rrNode numIn reqD rr d (2 * l)).req with
            | false => rwa [leftReq, Bool.false_or] at isSet
            | true =>
                rw [leftReq] at takesRight
                exact (Bool.and_eq_true_iff.mp takesRight).1
          obtain ⟨small, inside, requests⟩ := right.some set
          rw [← Nat.add_assoc]
          exact ⟨by omega, inside, requests⟩
        · rename_i takesLeft
          rw [Bool.not_eq_true, Bool.or_eq_false_iff] at takesLeft
          obtain ⟨small, inside, requests⟩ :=
            left.some (by rw [← Bool.not_eq_false']; exact takesLeft.1)
          exact ⟨by omega, inside, requests⟩

end Selects

namespace RrState

variable {numIn : Nat} {s : RrState numIn} {lockIn : Bool} {reqI : Fin numIn → Bool}

theorem bits_fin (reqI : Fin numIn → Bool) (k : Fin numIn) : bits reqI k.val = reqI k :=
  dif_pos k.isLt

theorem root_selects (s : RrState numIn) (lockIn : Bool) (reqI : Fin numIn → Bool)
    (wide : 0 < numIn) :
    (s.root lockIn reqI).Selects numIn (bits (s.reqD lockIn reqI)) 0 numIn := by
  unfold root
  split
  · refine ⟨fun none j _ inside _ => ?_, fun isSet => ⟨wide, by simpa using wide, isSet⟩⟩
    obtain rfl : j = 0 := by omega
    exact none
  · have covered := width_le_levels numIn (by omega)
    have node := rrNode_selects (bits (s.reqD lockIn reqI)) s.rr wide (lzcNumLevels numIn - 1) 0
    rw [Nat.zero_mul] at node
    refine ⟨fun none j low inside inside' => node.none none j low (by omega) inside',
      fun isSet => ?_⟩
    obtain ⟨_, inside, requests⟩ := node.some isSet
    exact ⟨by omega, inside, requests⟩

/-- `req_o` shows whether there is a request, and `idx_o` is one. -/
theorem reqO_iff (wide : 0 < numIn) :
    s.reqO lockIn reqI = true ↔ ∃ k, s.reqD lockIn reqI k = true := by
  have selects := root_selects s lockIn reqI wide
  constructor
  · intro isSet
    obtain ⟨_, inside, requests⟩ := selects.some isSet
    rw [Nat.zero_add] at inside requests
    exact ⟨⟨_, inside⟩, (bits_fin _ ⟨_, inside⟩).symm.trans requests⟩
  · rintro ⟨k, requests⟩
    by_contra none
    rw [Bool.not_eq_true] at none
    have clear := selects.none none k.val (Nat.zero_le _) (by omega) k.isLt
    rw [bits_fin, requests] at clear
    cases clear

theorem idxO_requests [NeZero numIn] (requests : ∃ k, s.reqD lockIn reqI k = true) :
    s.reqD lockIn reqI (s.idxO lockIn reqI) = true := by
  have wide : 0 < numIn := Nat.pos_of_neZero numIn
  have selects := root_selects s lockIn reqI wide
  obtain ⟨_, inside, requests⟩ := selects.some ((reqO_iff wide).mpr requests)
  rw [Nat.zero_add] at inside requests
  have same : s.idxO lockIn reqI = ⟨_, inside⟩ := Fin.ext (Nat.mod_eq_of_lt inside)
  rw [same]
  exact (bits_fin _ ⟨_, inside⟩).symm.trans requests

/-! ## Locked requests -/

/-- What is locked is still requested. -/
def Locked (s : RrState numIn) (reqI : Fin numIn → Bool) : Prop :=
  s.lock = true → (∃ k, s.req k = true) ∧ ∀ k, s.req k = true → reqI k = true

theorem Locked.reqD_le (locked : s.Locked reqI) {k : Fin numIn}
    (requests : s.reqD lockIn reqI k = true) : reqI k = true := by
  unfold reqD at requests
  split at requests
  · rename_i isLocked
    have lock : s.lock = true := by
      simp only [Bool.and_eq_true] at isLocked
      exact isLocked.1.2
    exact (locked lock).2 k requests
  · exact requests

theorem Locked.reqD_some (locked : s.Locked reqI) (requests : ∃ k, reqI k = true) :
    ∃ k, s.reqD lockIn reqI k = true := by
  unfold reqD
  split
  · rename_i isLocked
    have lock : s.lock = true := by
      simp only [Bool.and_eq_true] at isLocked
      exact isLocked.1.2
    exact (locked lock).1
  · exact requests

/-- The selected input requests. -/
theorem Locked.idxO [NeZero numIn] (locked : s.Locked reqI) (requests : ∃ k, reqI k = true) :
    reqI (s.idxO lockIn reqI) = true :=
  locked.reqD_le (idxO_requests (locked.reqD_some requests))

/-- Requests that stay until they are granted stay locked. -/
theorem Locked.next (locked : s.Locked reqI) {reqI' : Fin numIn → Bool} {gntI : Bool}
    (stay : gntI = false → ∀ k, reqI k = true → reqI' k = true) :
    (s.next lockIn reqI gntI).Locked reqI' := by
  intro lock
  obtain ⟨requests, ungranted⟩ := Bool.and_eq_true_iff.mp lock
  rw [Bool.not_eq_true'] at ungranted
  have wide : 0 < numIn := by
    by_contra empty
    obtain rfl : numIn = 0 := by omega
    simp [reqO, root, rrNode, rrLeaf, bits, lzcNumLevels] at requests
  exact ⟨(reqO_iff wide).mp requests,
    fun k requested => stay ungranted k (locked.reqD_le requested)⟩

/-- While nothing is granted the selection stays. -/
theorem idxO_next [NeZero numIn] (several : numIn ≠ 1) (requests : s.reqO true reqI = true)
    (reqI' : Fin numIn → Bool) :
    (s.next true reqI false).idxO true reqI' = s.idxO true reqI := by
  have kept : (s.next true reqI false).reqD true reqI' = s.reqD true reqI := by
    simp [reqD, next, requests, several]
  simp only [idxO, root, kept]
  rfl

theorem locked_reset (reqI : Fin numIn → Bool) : (({} : RrState numIn)).Locked reqI := by
  intro lock
  cases lock

end RrState

end CommonCells
