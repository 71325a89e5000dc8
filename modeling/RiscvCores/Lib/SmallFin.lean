import Mathlib.Algebra.GroupWithZero.Nat

/-!
# Literals of small finite types

The sizes at which literals of `Fin` occur, each with its `NeZero` instance as a constant.
-/

set_option autoImplicit false

instance Fin.neZero_one : NeZero 1 := ⟨by decide⟩

instance Fin.neZero_two : NeZero 2 := ⟨by decide⟩

instance Fin.neZero_three : NeZero 3 := ⟨by decide⟩

instance Fin.neZero_four : NeZero 4 := ⟨by decide⟩

instance Fin.neZero_eight : NeZero 8 := ⟨by decide⟩
