import Mathlib.Algebra.Order.Ring.Nat
import Mathlib.Tactic.Common

/-!
# Complete binary trees of decisions

A complete tree of `levels` levels is kept in a bit vector: the root is node 0 and the
children of node `k` are nodes `2 * k + 1` and `2 * k + 2`.  A node that is set points to
its right child.  The leaves are numbered from the left.
-/

set_option autoImplicit false

namespace DecisionTree

/-- Bit `k` of a leaf's number. -/
def bit (leaf k : Nat) : Bool := leaf >>> k % 2 == 1

/-- The node on the path to a leaf at a level. -/
def node (levels leaf level : Nat) : Nat := 2 ^ level - 1 + leaf >>> (levels - level)

variable {levels leaf : Nat} {tree : Nat → Bool}

end DecisionTree
