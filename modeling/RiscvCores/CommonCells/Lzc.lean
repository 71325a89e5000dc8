import Mathlib.Algebra.Order.Ring.Nat
import Mathlib.Tactic.Common
import Mathlib.Data.Nat.Log

/-!
# The trailing-zero counter `lzc` (MODE 0)

`lzc` reduces its input by a binary tree.  A node of the last level looks at two
successive inputs, a node above prefers its left half.  The tree is modelled
node by node, so that the count produced on an empty input is the source's own.
-/

set_option autoImplicit false

namespace CommonCells

/-- `sel_nodes` and `index_nodes` of one tree node. -/
structure LzcNode where
  sel : Bool
  index : Nat

/-- The node of the last level whose left input is `o`. -/
def lzcLeaf (width : Nat) (inI : Nat → Bool) (o : Nat) : LzcNode :=
  if o < width - 1 then
    ⟨inI o || inI (o + 1), if inI o then o else o + 1⟩
  else if o = width - 1 then ⟨inI o, o⟩
  else ⟨false, 0⟩

/-- The node `d` levels above the last one, over the inputs from `o` on. -/
def lzcNode (width : Nat) (inI : Nat → Bool) : Nat → Nat → LzcNode
  | 0, o => lzcLeaf width inI o
  | d + 1, o =>
      let left := lzcNode width inI d o
      let right := lzcNode width inI d (o + 2 ^ (d + 1))
      ⟨left.sel || right.sel, if left.sel then left.index else right.index⟩

/-- `NumLevels = $clog2(WIDTH)`. -/
def lzcNumLevels (width : Nat) : Nat := Nat.clog 2 width

/-- `cnt_o`. -/
def lzcCnt (width : Nat) (inI : Nat → Bool) : Nat :=
  if width = 1 then (if inI 0 then 0 else 1)
  else (lzcNode width inI (lzcNumLevels width - 1) 0).index

/-- `empty_o`. -/
def lzcEmpty (width : Nat) (inI : Nat → Bool) : Bool :=
  if width = 1 then !inI 0
  else !(lzcNode width inI (lzcNumLevels width - 1) 0).sel

/-! ## The tree finds the lowest set input -/

/-- A node that covers `[o, o + len)` reports the lowest set input there. -/
def LzcNode.Finds (width : Nat) (inI : Nat → Bool) (o len : Nat)
    (node : LzcNode) : Prop :=
  (node.sel = false → ∀ j, o ≤ j → j < o + len → j < width → inI j = false) ∧
    (node.sel = true → o ≤ node.index ∧ node.index < o + len ∧
      node.index < width ∧ inI node.index = true ∧
      ∀ j, o ≤ j → j < node.index → inI j = false)

theorem lzcLeaf_finds (width : Nat) (inI : Nat → Bool) (o : Nat)
    (wide : 0 < width) :
    (lzcLeaf width inI o).Finds width inI o 2 := by
  unfold lzcLeaf LzcNode.Finds
  by_cases inner : o < width - 1
  · simp only [inner, if_true]
    cases first : inI o with
    | false =>
        refine ⟨?_, ?_⟩
        · intro unset j low high _
          rcases (by omega : j = o ∨ j = o + 1) with rfl | rfl
          · exact first
          · simpa using unset
        · intro isSet
          refine ⟨by simp, by simp, by simp; omega, by simpa using isSet, ?_⟩
          intro j low high
          have same : j = o := by simp at high; omega
          simpa [same] using first
    | true =>
        refine ⟨by simp, ?_⟩
        intro _
        refine ⟨le_refl _, by simp, by simp; omega, by simpa using first, ?_⟩
        intro j low high
        simp at high
        omega
  · by_cases last : o = width - 1
    · rw [if_neg inner, if_pos last]
      refine ⟨?_, ?_⟩
      · intro unset j low high within
        have same : j = o := by omega
        simpa [same] using unset
      · intro isSet
        refine ⟨le_refl _, by simp, ?_, isSet, by intro j low high; simp at high; omega⟩
        have inside : o < width := by omega
        exact inside
    · rw [if_neg inner, if_neg last]
      refine ⟨?_, by simp⟩
      intro _ j low _ within
      omega

theorem lzcNode_finds (width : Nat) (inI : Nat → Bool) (d o : Nat)
    (wide : 0 < width) :
    (lzcNode width inI d o).Finds width inI o (2 ^ (d + 1)) := by
  induction d generalizing o with
  | zero => exact lzcLeaf_finds width inI o wide
  | succ d ih =>
      obtain ⟨leftNone, leftSome⟩ := ih o
      obtain ⟨rightNone, rightSome⟩ := ih (o + 2 ^ (d + 1))
      have double : 2 ^ (d + 1 + 1) = 2 ^ (d + 1) + 2 ^ (d + 1) := by
        rw [pow_succ 2 (d + 1)]; omega
      rw [lzcNode, double]
      cases leftSel : (lzcNode width inI d o).sel with
      | true =>
          obtain ⟨low, high, within, set, least⟩ := leftSome leftSel
          refine ⟨by simp, fun _ => ?_⟩
          simp only [if_true]
          exact ⟨low, by omega, within, set, least⟩
      | false =>
          have clear := leftNone leftSel
          simp only [Bool.false_or, Bool.false_eq_true, if_false]
          refine ⟨?_, ?_⟩
          · intro rightSel j low high within
            by_cases side : j < o + 2 ^ (d + 1)
            · exact clear j low side within
            · exact rightNone rightSel j (by omega) (by omega) within
          · intro rightSel
            obtain ⟨low, high, within, set, least⟩ := rightSome rightSel
            refine ⟨?_, ?_, within, set, ?_⟩
            · exact le_trans (Nat.le_add_right _ _) low
            · exact lt_of_lt_of_eq high (by omega)
            intro j lowJ highJ
            by_cases side : j < o + 2 ^ (d + 1)
            · exact clear j lowJ side (by omega)
            · exact least j (by omega) highJ

theorem width_le_levels (width : Nat) (wide : 2 ≤ width) :
    width ≤ 2 ^ (lzcNumLevels width - 1 + 1) := by
  have positive : 0 < lzcNumLevels width := Nat.clog_pos (by omega) wide
  have same : lzcNumLevels width - 1 + 1 = lzcNumLevels width := by omega
  rw [same]
  exact Nat.le_pow_clog (by omega) width

/-- The lowest set input is counted. -/
theorem lzcCnt_of_set (width : Nat) (inI : Nat → Bool) (k : Nat)
    (within : k < width) (set : inI k = true) :
    lzcCnt width inI < width ∧ inI (lzcCnt width inI) = true ∧
      ∀ j, j < lzcCnt width inI → inI j = false := by
  unfold lzcCnt
  by_cases one : width = 1
  · have zero : k = 0 := by omega
    subst zero
    simp [one, set]
  · rw [if_neg one]
    have cover := width_le_levels width (by omega)
    obtain ⟨ifClear, ifSet⟩ := lzcNode_finds width inI (lzcNumLevels width - 1) 0 (by omega)
    cases sel : (lzcNode width inI (lzcNumLevels width - 1) 0).sel with
    | false =>
        have clear := ifClear sel k (by omega) (by omega) within
        simp [set] at clear
    | true =>
        obtain ⟨_, _, inside, isSet, least⟩ := ifSet sel
        exact ⟨inside, isSet, fun j high => least j (by omega) high⟩

theorem lzcNode_clear {width : Nat} {inI : Nat → Bool} (clear : ∀ j, inI j = false)
    (d o : Nat) (inside : o + 2 ^ (d + 1) ≤ width) :
    lzcNode width inI d o = ⟨false, o + 2 ^ (d + 1) - 1⟩ := by
  induction d generalizing o with
  | zero =>
      have inner : o < width - 1 := by omega
      simp [lzcNode, lzcLeaf, inner, clear]
  | succ d ih =>
      have double : 2 ^ (d + 1 + 1) = 2 ^ (d + 1) + 2 ^ (d + 1) := by
        rw [pow_succ 2 (d + 1)]
        omega
      have positive := Nat.two_pow_pos (d + 1)
      rw [double] at inside
      rw [lzcNode, ih o (by omega), ih (o + 2 ^ (d + 1)) (by omega), double, Nat.add_assoc]
      rfl

/-- On an empty input of a power of two, the last input is counted. -/
theorem lzcCnt_of_clear {l : Nat} {inI : Nat → Bool} (clear : ∀ j, inI j = false)
    (several : 0 < l) : lzcCnt (2 ^ l) inI = 2 ^ l - 1 := by
  have notOne : 2 ^ l ≠ 1 := (Nat.one_lt_two_pow (Nat.ne_of_gt several)).ne'
  have levels : lzcNumLevels (2 ^ l) = l := Nat.clog_pow 2 l (by omega)
  have same : l - 1 + 1 = l := by omega
  rw [lzcCnt, if_neg notOne, levels,
    lzcNode_clear clear (l - 1) 0 (by rw [same, Nat.zero_add]), same, Nat.zero_add]

theorem lzcEmpty_iff (width : Nat) (inI : Nat → Bool) (wide : 0 < width) :
    lzcEmpty width inI = true ↔ ∀ j, j < width → inI j = false := by
  unfold lzcEmpty
  by_cases one : width = 1
  · subst one
    simp
  · rw [if_neg one]
    have cover := width_le_levels width (by omega)
    obtain ⟨ifClear, ifSet⟩ := lzcNode_finds width inI (lzcNumLevels width - 1) 0 (by omega)
    cases sel : (lzcNode width inI (lzcNumLevels width - 1) 0).sel with
    | false =>
        simp only [Bool.not_false, true_iff]
        exact fun j within => ifClear sel j (by omega) (by omega) within
    | true =>
        obtain ⟨_, _, inside, isSet, _⟩ := ifSet sel
        simp only [Bool.not_true, Bool.false_eq_true, false_iff]
        intro clear
        simp [clear _ inside] at isSet

end CommonCells
