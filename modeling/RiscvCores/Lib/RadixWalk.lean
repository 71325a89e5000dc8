import Mathlib.Tactic.Common

/-!
# Walks of a radix tree in memory

A radix tree is searched from a root pointer, one level at a time.  A probe is a
computation that reads memory and may fault; its reads are kept in order, also
those before a fault.
-/

set_option autoImplicit false

namespace RadixWalk

universe u

/-- The reads made and what came of them. -/
structure Probe (Addr : Type u) (Fault : Type u) (α : Type u) where
  reads : List Addr
  outcome : Except Fault α

variable {Addr Phys Ptr Word Leaf Fault α β γ : Type u}

namespace Probe

def pure (a : α) : Probe Addr Fault α := ⟨[], .ok a⟩

def fault (f : Fault) : Probe Addr Fault α := ⟨[], .error f⟩

/-- `p`, and on its result `f`; a fault of `p` ends both. -/
def andThen (p : Probe Addr Fault α) (f : α → Probe Addr Fault β) : Probe Addr Fault β :=
  match p.outcome with
  | .ok a => ⟨p.reads ++ (f a).reads, (f a).outcome⟩
  | .error e => ⟨p.reads, .error e⟩

theorem andThen_ok {p : Probe Addr Fault α} {a : α} (ok : p.outcome = .ok a)
    (f : α → Probe Addr Fault β) :
    p.andThen f = ⟨p.reads ++ (f a).reads, (f a).outcome⟩ := by
  simp only [andThen, ok]

theorem andThen_error {p : Probe Addr Fault α} {e : Fault} (error : p.outcome = .error e)
    (f : α → Probe Addr Fault β) : p.andThen f = ⟨p.reads, .error e⟩ := by
  simp only [andThen, error]

end Probe

/-- What an entry of a table says. -/
inductive Entry (Ptr Leaf Fault : Type u) where
  | fault (f : Fault)
  | leaf (l : Leaf)
  | pointer (p : Ptr)

/-- The shape of a radix tree: where level `i` of the walk looks and how it reads the
entry.  Level `0` is the last. -/
structure Radix (Addr Ptr Word Leaf Fault : Type u) where
  slot : Nat → Ptr → Addr
  decode : Nat → Ptr → Word → Entry Ptr Leaf Fault
  missing : Fault

variable (tree : Radix Addr Ptr Word Leaf Fault) (read : Addr → Probe Phys Fault Word)

/-- `next` follows a pointer. -/
def follow (next : Ptr → Probe Phys Fault Leaf) :
    Entry Ptr Leaf Fault → Probe Phys Fault Leaf
  | .fault f => .fault f
  | .leaf l => .pure l
  | .pointer q => next q

/-- The walk from level `i` on. -/
def walk : Nat → Ptr → Probe Phys Fault Leaf
  | 0, p =>
      (read (tree.slot 0 p)).andThen fun word =>
        follow (fun _ => .fault tree.missing) (tree.decode 0 p word)
  | i + 1, p =>
      (read (tree.slot (i + 1) p)).andThen fun word =>
        follow (walk i) (tree.decode (i + 1) p word)

section Step

variable {read} {i : Nat} {p : Ptr} {word : Word}

theorem walk_read_fault {f : Fault} (error : (read (tree.slot i p)).outcome = .error f) :
    walk tree read i p = ⟨(read (tree.slot i p)).reads, .error f⟩ := by
  cases i with
  | zero => rw [walk, Probe.andThen_error error]
  | succ i => rw [walk, Probe.andThen_error error]

theorem walk_fault {f : Fault} (ok : (read (tree.slot i p)).outcome = .ok word)
    (entry : tree.decode i p word = .fault f) :
    walk tree read i p = ⟨(read (tree.slot i p)).reads, .error f⟩ := by
  cases i with
  | zero => rw [walk, Probe.andThen_ok ok, entry, follow, Probe.fault, List.append_nil]
  | succ i => rw [walk, Probe.andThen_ok ok, entry, follow, Probe.fault, List.append_nil]

theorem walk_leaf {l : Leaf} (ok : (read (tree.slot i p)).outcome = .ok word)
    (entry : tree.decode i p word = .leaf l) :
    walk tree read i p = ⟨(read (tree.slot i p)).reads, .ok l⟩ := by
  cases i with
  | zero => rw [walk, Probe.andThen_ok ok, entry, follow, Probe.pure, List.append_nil]
  | succ i => rw [walk, Probe.andThen_ok ok, entry, follow, Probe.pure, List.append_nil]

theorem walk_missing {q : Ptr} (ok : (read (tree.slot 0 p)).outcome = .ok word)
    (entry : tree.decode 0 p word = .pointer q) :
    walk tree read 0 p = ⟨(read (tree.slot 0 p)).reads, .error tree.missing⟩ := by
  rw [walk, Probe.andThen_ok ok, entry, follow, Probe.fault, List.append_nil]

theorem walk_pointer {q : Ptr} (ok : (read (tree.slot (i + 1) p)).outcome = .ok word)
    (entry : tree.decode (i + 1) p word = .pointer q) :
    walk tree read (i + 1) p =
      ⟨(read (tree.slot (i + 1) p)).reads ++ (walk tree read i q).reads,
        (walk tree read i q).outcome⟩ := by
  rw [walk, Probe.andThen_ok ok, entry, follow]

end Step

/-! ## Where a walk passes -/

/-- The walk from level `i` at `p` comes to level `j` at `q`. -/
inductive Reaches (i : Nat) (p : Ptr) : Nat → Ptr → Prop
  | start : Reaches i p i p
  | pointer {j : Nat} {q r : Ptr} {word : Word} (before : Reaches i p (j + 1) q)
      (ok : (read (tree.slot (j + 1) q)).outcome = .ok word)
      (entry : tree.decode (j + 1) q word = .pointer r) : Reaches i p j r

section Passing

variable {tree read} {i j : Nat} {p q : Ptr}

theorem Reaches.le (reaches : Reaches tree read i p j q) : j ≤ i := by
  induction reaches with
  | start => exact Nat.le_refl i
  | pointer _ _ _ ih => omega

/-- The rest of the walk decides the outcome. -/
theorem Reaches.outcome (reaches : Reaches tree read i p j q) :
    (walk tree read i p).outcome = (walk tree read j q).outcome := by
  induction reaches with
  | start => rfl
  | pointer before ok entry ih => rw [ih, walk_pointer tree ok entry]

/-- The entries up to a level decide where the walk comes to at that level. -/
theorem Reaches.congr {tree' : Radix Addr Ptr Word Leaf Fault}
    (reaches : Reaches tree read i p j q)
    (same : ∀ k, j < k → k ≤ i → tree'.slot k = tree.slot k ∧ tree'.decode k = tree.decode k) :
    Reaches tree' read i p j q := by
  induction reaches with
  | start => exact .start
  | @pointer j q r word before ok entry ih =>
      have above := ih fun k below top => same k (by omega) top
      obtain ⟨slot, decode⟩ := same (j + 1) (Nat.lt_succ_self j) before.le
      rw [← slot] at ok
      rw [← decode] at entry
      exact .pointer above ok entry

/-- A walk that ends in a leaf has read it, or goes on to it. -/
theorem walk_ok {l : Leaf} (ends : (walk tree read i p).outcome = .ok l) :
    ∃ word, (read (tree.slot i p)).outcome = .ok word ∧
      (tree.decode i p word = .leaf l ∨
        ∃ k r, i = k + 1 ∧ tree.decode i p word = .pointer r ∧
          (walk tree read k r).outcome = .ok l) := by
  cases outcome : (read (tree.slot i p)).outcome with
  | error f =>
      rw [walk_read_fault tree outcome] at ends
      exact nomatch ends
  | ok word =>
      refine ⟨word, rfl, ?_⟩
      cases entry : tree.decode i p word with
      | fault f =>
          rw [walk_fault tree outcome entry] at ends
          exact nomatch ends
      | leaf l' =>
          rw [walk_leaf tree outcome entry] at ends
          cases ends
          exact .inl rfl
      | pointer r =>
          cases i with
          | zero =>
              rw [walk_missing tree outcome entry] at ends
              exact nomatch ends
          | succ k =>
              rw [walk_pointer tree outcome entry] at ends
              exact .inr ⟨k, r, rfl, rfl, ends⟩

/-- A walk that ends in a leaf has come to the entry that holds it. -/
theorem Reaches.leaf {l : Leaf} (reaches : Reaches tree read i p j q)
    (ends : (walk tree read j q).outcome = .ok l) :
    ∃ j q word, Reaches tree read i p j q ∧ (read (tree.slot j q)).outcome = .ok word ∧
      tree.decode j q word = .leaf l := by
  induction j generalizing q with
  | zero =>
      obtain ⟨word, ok, here | ⟨k, r, above, -, -⟩⟩ := walk_ok ends
      · exact ⟨0, q, word, reaches, ok, here⟩
      · exact nomatch above
  | succ j ih =>
      obtain ⟨word, ok, here | ⟨k, r, above, entry, onward⟩⟩ := walk_ok ends
      · exact ⟨j + 1, q, word, reaches, ok, here⟩
      · cases above
        exact ih (.pointer reaches ok entry) onward

end Passing

/-- A walk reads at most as many entries as there are levels left. -/
theorem reads_le (bound : Nat) (each : ∀ addr, (read addr).reads.length ≤ bound) (i : Nat)
    (p : Ptr) : (walk tree read i p).reads.length ≤ bound * (i + 1) := by
  induction i generalizing p with
  | zero =>
      have here := each (tree.slot 0 p)
      cases outcome : (read (tree.slot 0 p)).outcome with
      | error f => simpa [walk_read_fault tree outcome] using here
      | ok word =>
          cases entry : tree.decode 0 p word with
          | fault f => simpa [walk_fault tree outcome entry] using here
          | leaf l => simpa [walk_leaf tree outcome entry] using here
          | pointer q => simpa [walk_missing tree outcome entry] using here
  | succ i ih =>
      have here := each (tree.slot (i + 1) p)
      have grows : bound ≤ bound * (i + 1 + 1) := Nat.le_mul_of_pos_right _ (by omega)
      cases outcome : (read (tree.slot (i + 1) p)).outcome with
      | error f =>
          rw [walk_read_fault tree outcome]
          exact Nat.le_trans here grows
      | ok word =>
          cases entry : tree.decode (i + 1) p word with
          | fault f =>
              rw [walk_fault tree outcome entry]
              exact Nat.le_trans here grows
          | leaf l =>
              rw [walk_leaf tree outcome entry]
              exact Nat.le_trans here grows
          | pointer q =>
              have rest := ih q
              rw [walk_pointer tree outcome entry, List.length_append, Nat.mul_succ]
              omega

end RadixWalk
