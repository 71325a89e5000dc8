import Mathlib.Tactic.Ring
import RiscvCores.CommonCells.Lzc

/-!
# The arbiter `rr_arb_tree` with a fixed priority (ExtPrio, `rr_i = '0`)

A node selects its right half exactly if the left half has no request, so the tree
grants the lowest request.
-/

set_option autoImplicit false

namespace CommonCells

variable {α : Type}

/-- `req_nodes`, `index_nodes` and `data_nodes` of a node. -/
structure ArbNode (α : Type) where
  req : Bool
  index : Nat
  data : α

/-- The `l`-th node of the level that is fed by the inputs. -/
def arbLeaf (numIn : Nat) (reqD : Nat → Bool) (dataI : Nat → α) (zero : α) (l : Nat) :
    ArbNode α :=
  if l * 2 < numIn - 1 then
    { req := reqD (l * 2) || reqD (l * 2 + 1)
      index := if reqD (l * 2) then l * 2 else l * 2 + 1
      data := if reqD (l * 2) then dataI (l * 2) else dataI (l * 2 + 1) }
  else if l * 2 = numIn - 1 then ⟨reqD (l * 2), l * 2, dataI (l * 2)⟩
  else ⟨false, l * 2, zero⟩

/-- The `l`-th node of the level `d` below it. -/
def arbNode (numIn : Nat) (reqD : Nat → Bool) (dataI : Nat → α) (zero : α) :
    Nat → Nat → ArbNode α
  | 0, l => arbLeaf numIn reqD dataI zero l
  | d + 1, l =>
      let left := arbNode numIn reqD dataI zero d (2 * l)
      let right := arbNode numIn reqD dataI zero d (2 * l + 1)
      { req := left.req || right.req
        index := if left.req then left.index else right.index
        data := if left.req then left.data else right.data }

/-- `req_o`, `idx_o` and `data_o`. -/
def rrArbTree (numIn : Nat) (reqI : Nat → Bool) (dataI : Nat → α) (zero : α) : ArbNode α :=
  if numIn = 1 then ⟨reqI 0, 0, dataI 0⟩
  else arbNode numIn reqI dataI zero (lzcNumLevels numIn - 1) 0

section Grants

variable {numIn : Nat} {reqI : Nat → Bool} {dataI : Nat → α} {zero : α}

/-- A node over the inputs from `o` to before `e` shows the lowest request there. -/
structure ArbNode.Grants (node : ArbNode α) (numIn : Nat) (reqI : Nat → Bool)
    (dataI : Nat → α) (o e : Nat) : Prop where
  none : node.req = false → ∀ j, o ≤ j → j < e → j < numIn → reqI j = false
  some : node.req = true → o ≤ node.index ∧ node.index < e ∧ node.index < numIn ∧
    reqI node.index = true ∧ node.data = dataI node.index ∧
    ∀ j, o ≤ j → j < node.index → reqI j = false

variable (reqI dataI zero) in
theorem arbLeaf_grants (wide : 0 < numIn) (l : Nat) :
    (arbLeaf numIn reqI dataI zero l).Grants numIn reqI dataI (l * 2) (l * 2 + 2) := by
  unfold arbLeaf
  split_ifs with inner first last
  · refine ⟨fun none => ?_, fun _ => ?_⟩
    · rw [first, Bool.true_or] at none
      cases none
    · exact ⟨Nat.le_refl _, by simp, by simp only; omega, first, rfl, fun j low high => by
        simp only at high
        omega⟩
  · rw [Bool.not_eq_true] at first
    refine ⟨fun none j low high _ => ?_, fun isSet => ?_⟩
    · simp only [first, Bool.false_or] at none
      rcases (by omega : j = l * 2 ∨ j = l * 2 + 1) with rfl | rfl
      · exact first
      · exact none
    · simp only [first, Bool.false_or] at isSet
      refine ⟨Nat.le_succ _, Nat.lt_succ_self _, by simp only; omega, isSet, rfl,
        fun j low high => ?_⟩
      have same : j = l * 2 := by
        simp only at high
        omega
      rw [same]
      exact first
  · refine ⟨fun none j low high within => ?_, fun isSet => ?_⟩
    · have same : j = l * 2 := by omega
      rw [same]
      exact none
    · exact ⟨Nat.le_refl _, by simp, by simp only; omega, isSet, rfl, fun j low high => by
        simp only at high
        omega⟩
  · refine ⟨fun _ j low _ within => ?_, fun isSet => ?_⟩
    · omega
    · cases isSet

variable (reqI dataI zero) in
theorem arbNode_grants (wide : 0 < numIn) (d l : Nat) :
    (arbNode numIn reqI dataI zero d l).Grants numIn reqI dataI (l * 2 ^ (d + 1))
      ((l + 1) * 2 ^ (d + 1)) := by
  induction d generalizing l with
  | zero =>
      have leaf := arbLeaf_grants reqI dataI zero wide l
      rw [show l * 2 + 2 = (l + 1) * 2 by omega] at leaf
      exact leaf
  | succ d ih =>
      have left := ih (2 * l)
      have right := ih (2 * l + 1)
      have low : l * 2 ^ (d + 1 + 1) = 2 * l * 2 ^ (d + 1) := by ring
      have middle : (2 * l + 1) * 2 ^ (d + 1) = 2 * l * 2 ^ (d + 1) + 2 ^ (d + 1) := by ring
      have high : (l + 1) * 2 ^ (d + 1 + 1) = (2 * l + 1 + 1) * 2 ^ (d + 1) := by ring
      have above : (2 * l + 1 + 1) * 2 ^ (d + 1) =
          2 * l * 2 ^ (d + 1) + 2 ^ (d + 1) + 2 ^ (d + 1) := by ring
      rw [low, high]
      rw [middle] at left right
      rw [above] at right ⊢
      rw [arbNode]
      cases leftReq : (arbNode numIn reqI dataI zero d (2 * l)).req with
      | true =>
          obtain ⟨from', below, within, isSet, data, least⟩ := left.some leftReq
          refine ⟨fun none => ?_, fun _ => ?_⟩
          · cases none
          · exact ⟨from', Nat.lt_of_lt_of_le below (Nat.le_add_right _ _), within, isSet, data,
              least⟩
      | false =>
          have clear := left.none leftReq
          refine ⟨fun none j from' below within => ?_, fun isSet => ?_⟩
          · rcases Nat.lt_or_ge j (2 * l * 2 ^ (d + 1) + 2 ^ (d + 1)) with lower | upper
            · exact clear j from' lower within
            · exact right.none none j upper below within
          · obtain ⟨from', below, within, isSet', data, least⟩ := right.some isSet
            refine ⟨Nat.le_trans (Nat.le_add_right _ _) from', below, within, isSet', data,
              fun j start stop => ?_⟩
            rcases Nat.lt_or_ge j (2 * l * 2 ^ (d + 1) + 2 ^ (d + 1)) with lower | upper
            · exact clear j start lower (Nat.lt_trans stop within)
            · exact least j upper stop

/-- The tree grants the lowest request. -/
theorem rrArbTree_grants (wide : 0 < numIn) :
    (rrArbTree numIn reqI dataI zero).Grants numIn reqI dataI 0 numIn := by
  unfold rrArbTree
  split_ifs with one
  · subst one
    refine ⟨fun none j _ below _ => ?_, fun isSet => ?_⟩
    · rw [Nat.lt_one_iff.mp below]
      exact none
    · exact ⟨Nat.le_refl _, Nat.one_pos, Nat.one_pos, isSet, rfl, fun j _ below =>
        absurd below (Nat.not_lt_zero j)⟩
  · have cover := width_le_levels numIn (by omega)
    have root := arbNode_grants reqI dataI zero wide
      (lzcNumLevels numIn - 1) 0
    rw [Nat.zero_mul, Nat.zero_add, Nat.one_mul] at root
    refine ⟨fun none j low _ within => ?_, fun isSet => ?_⟩
    · exact root.none none j low (Nat.lt_of_lt_of_le within cover) within
    · obtain ⟨low, _, within, granted, data, least⟩ := root.some isSet
      exact ⟨low, within, within, granted, data, least⟩

/-- A request that is set is enough for a grant. -/
theorem rrArbTree_req (wide : 0 < numIn) {k : Nat} (inside : k < numIn)
    (isSet : reqI k = true) : (rrArbTree numIn reqI dataI zero).req = true := by
  by_contra none
  rw [Bool.not_eq_true] at none
  have clear := (rrArbTree_grants wide).none none k (Nat.zero_le k) inside inside
  rw [isSet] at clear
  cases clear

end Grants

end CommonCells
