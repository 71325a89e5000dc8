import Mathlib.Tactic.Common
import Mathlib.Data.List.Induction

/-!
# Write-combining buffers

A patch writes some addresses and leaves the others.  A write-combining buffer
collects patches in slots: `put` merges a patch into a slot, `drain` writes a
slot to memory and empties it.  When no two slots hold one address, draining
in any order gives the memory that the patches give in the order of their
puts.
-/

set_option autoImplicit false

namespace WriteCombining

universe u v w

variable {Tag : Type u} {Addr : Type v} {Byte : Type w}

abbrev Patch (Addr : Type v) (Byte : Type w) := Addr → Option Byte

def Patch.none : Patch Addr Byte := fun _ => Option.none

def Patch.apply (p : Patch Addr Byte) (m : Addr → Byte) : Addr → Byte :=
  fun a => (p a).getD (m a)

/-- The later patch wins. -/
def Patch.merge (old new : Patch Addr Byte) : Patch Addr Byte :=
  fun a => (new a).or (old a)

@[simp] theorem Patch.apply_none (m : Addr → Byte) :
    (Patch.none : Patch Addr Byte).apply m = m := rfl

theorem Patch.apply_merge (old new : Patch Addr Byte) (m : Addr → Byte) :
    (old.merge new).apply m = new.apply (old.apply m) := by
  funext a
  cases written : new a <;> simp [Patch.apply, Patch.merge, written]

inductive Op (Tag : Type u) (Addr : Type v) (Byte : Type w)
  | put (tag : Tag) (p : Patch Addr Byte)
  | drain (tag : Tag)

/-- The slots and the memory behind them. -/
structure Buffer (Tag : Type u) (Addr : Type v) (Byte : Type w) where
  slots : Tag → Patch Addr Byte
  mem : Addr → Byte

section Steps

variable [DecidableEq Tag]

def Buffer.put (b : Buffer Tag Addr Byte) (tag : Tag) (p : Patch Addr Byte) :
    Buffer Tag Addr Byte :=
  { b with slots := fun t => if t = tag then (b.slots t).merge p else b.slots t }

def Buffer.drain (b : Buffer Tag Addr Byte) (tag : Tag) : Buffer Tag Addr Byte where
  slots t := if t = tag then Patch.none else b.slots t
  mem := (b.slots tag).apply b.mem

def Buffer.step (b : Buffer Tag Addr Byte) : Op Tag Addr Byte → Buffer Tag Addr Byte
  | .put tag p => b.put tag p
  | .drain tag => b.drain tag

end Steps

def Buffer.empty (m : Addr → Byte) : Buffer Tag Addr Byte where
  slots _ := Patch.none
  mem := m

/-- What the patches put so far write, each later one winning. -/
def written (ops : List (Op Tag Addr Byte)) : Patch Addr Byte :=
  ops.foldl (fun p op => match op with
    | .put _ q => p.merge q
    | .drain _ => p) Patch.none

@[simp] theorem written_nil : written ([] : List (Op Tag Addr Byte)) = Patch.none := rfl

@[simp] theorem written_put (ops : List (Op Tag Addr Byte)) (tag : Tag) (p : Patch Addr Byte) :
    written (ops ++ [.put tag p]) = (written ops).merge p := by
  simp only [written, List.foldl_append, List.foldl_cons, List.foldl_nil]

@[simp] theorem written_drain (ops : List (Op Tag Addr Byte)) (tag : Tag) :
    written (ops ++ [.drain tag]) = written ops := by
  simp only [written, List.foldl_append, List.foldl_cons, List.foldl_nil]

theorem apply_written_append (ops more : List (Op Tag Addr Byte)) (m : Addr → Byte) :
    (written (ops ++ more)).apply m = (written more).apply ((written ops).apply m) := by
  induction more using List.reverseRecOn with
  | nil => simp
  | append_singleton more op ih =>
      rw [← List.append_assoc]
      cases op with
      | put tag p => simp only [written_put, Patch.apply_merge, ih]
      | drain tag => simp only [written_drain, ih]

/-- A patch was put into `tag` at an address and the slot was not drained since. -/
def Waiting (ops : List (Op Tag Addr Byte)) (tag : Tag) (a : Addr) : Prop :=
  ∃ before p after, ops = before ++ .put tag p :: after ∧ (p a).isSome = true ∧
    .drain tag ∉ after

theorem not_waiting_nil (tag : Tag) (a : Addr) :
    ¬ Waiting ([] : List (Op Tag Addr Byte)) tag a := by
  rintro ⟨before, p, after, whole, -⟩
  simp at whole

theorem waiting_put_iff (ops : List (Op Tag Addr Byte)) (tag other : Tag)
    (p : Patch Addr Byte) (a : Addr) :
    Waiting (ops ++ [.put other p]) tag a ↔
      Waiting ops tag a ∨ other = tag ∧ (p a).isSome = true := by
  constructor
  · rintro ⟨before, q, after, whole, writes, kept⟩
    rcases List.eq_nil_or_concat after with rfl | ⟨rest, last, rfl⟩
    · obtain ⟨-, same⟩ := List.append_inj' whole rfl
      obtain ⟨rfl, rfl⟩ : other = tag ∧ p = q := by simpa using same
      exact .inr ⟨rfl, writes⟩
    · rw [List.concat_eq_append, ← List.cons_append, ← List.append_assoc] at whole
      obtain ⟨rfl, -⟩ := List.append_inj' whole rfl
      refine .inl ⟨before, q, rest, rfl, writes, fun drained => kept ?_⟩
      simp [drained]
  · rintro (⟨before, q, after, rfl, writes, kept⟩ | ⟨rfl, writes⟩)
    · exact ⟨before, q, after ++ [.put other p], by simp, writes, by simpa using kept⟩
    · exact ⟨ops, p, [], rfl, writes, by simp⟩

theorem waiting_drain_iff (ops : List (Op Tag Addr Byte)) (tag other : Tag) (a : Addr) :
    Waiting (ops ++ [.drain other]) tag a ↔ Waiting ops tag a ∧ other ≠ tag := by
  constructor
  · rintro ⟨before, q, after, whole, writes, kept⟩
    rcases List.eq_nil_or_concat after with rfl | ⟨rest, last, rfl⟩
    · obtain ⟨-, same⟩ := List.append_inj' whole rfl
      simp at same
    · rw [List.concat_eq_append, ← List.cons_append, ← List.append_assoc] at whole
      obtain ⟨rfl, same⟩ := List.append_inj' whole rfl
      obtain rfl : Op.drain other = last := List.singleton_inj.mp same
      refine ⟨⟨before, q, rest, rfl, writes, fun drained => kept (by simp [drained])⟩, ?_⟩
      rintro rfl
      exact kept (by simp)
  · rintro ⟨⟨before, q, after, rfl, writes, kept⟩, apart⟩
    exact ⟨before, q, after ++ [.drain other], by simp, writes, by
      simpa [kept] using apart.symm⟩

/-! ## Coherence with the memory that saw every put -/

/-- `b` buffers the puts of `ops`, which start on `m`: a slot holds an address exactly
when a put to it waits, and then the last byte put there at all; an address no slot
holds has that byte in memory. -/
structure Coherent (b : Buffer Tag Addr Byte) (ops : List (Op Tag Addr Byte))
    (m : Addr → Byte) : Prop where
  waiting : ∀ tag a, (b.slots tag a).isSome = true ↔ Waiting ops tag a
  last : ∀ tag a, (b.slots tag a).isSome = true → b.slots tag a = written ops a
  memory : ∀ a, (∀ tag, b.slots tag a = Option.none) → b.mem a = (written ops).apply m a

/-- No other slot holds an address of the patch. -/
def Apart (b : Buffer Tag Addr Byte) (tag : Tag) (p : Patch Addr Byte) : Prop :=
  ∀ other, other ≠ tag → ∀ a, (p a).isSome = true → b.slots other a = Option.none

theorem coherent_empty (m : Addr → Byte) :
    Coherent (Buffer.empty m : Buffer Tag Addr Byte) [] m where
  waiting tag a := by
    simp [Buffer.empty, Patch.none, not_waiting_nil]
  last tag a holds := by
    simp [Buffer.empty, Patch.none] at holds
  memory a free := rfl

variable [DecidableEq Tag] {b : Buffer Tag Addr Byte} {ops : List (Op Tag Addr Byte)}
  {m : Addr → Byte}

theorem Coherent.put (coherent : Coherent b ops m) {tag : Tag} {p : Patch Addr Byte}
    (apart : Apart b tag p) : Coherent (b.put tag p) (ops ++ [.put tag p]) m where
  waiting t a := by
    rw [waiting_put_iff, ← coherent.waiting]
    by_cases same : t = tag
    · subst same
      cases new : p a <;> simp [Buffer.put, Patch.merge, new]
    · simp [Buffer.put, same, Ne.symm same]
  last t a holds := by
    rw [written_put]
    by_cases same : t = tag
    · subst same
      cases new : p a with
      | some byte => simp [Buffer.put, Patch.merge, new]
      | none =>
          have held : (b.slots t a).isSome = true := by
            simpa [Buffer.put, Patch.merge, new] using holds
          simpa [Buffer.put, Patch.merge, new] using coherent.last t a held
    · have held : (b.slots t a).isSome = true := by simpa [Buffer.put, same] using holds
      have unwritten : p a = Option.none := by
        by_contra writes
        have free := apart t same a (Option.isSome_iff_ne_none.mpr writes)
        simp [free] at held
      simpa [Buffer.put, same, Patch.merge, unwritten] using coherent.last t a held
  memory a free := by
    rw [written_put]
    have here := free tag
    have unwritten : p a = Option.none := by
      cases new : p a with
      | none => rfl
      | some byte => simp [Buffer.put, Patch.merge, new] at here
    have before : ∀ t, b.slots t a = Option.none := by
      intro t
      by_cases same : t = tag
      · subst same
        simpa [Buffer.put, Patch.merge, unwritten] using here
      · simpa [Buffer.put, same] using free t
    simpa [Buffer.put, Patch.apply, Patch.merge, unwritten] using coherent.memory a before

theorem Coherent.drain (coherent : Coherent b ops m) (tag : Tag) :
    Coherent (b.drain tag) (ops ++ [.drain tag]) m where
  waiting t a := by
    rw [waiting_drain_iff, ← coherent.waiting]
    by_cases same : t = tag
    · simp [Buffer.drain, same, Patch.none]
    · simp [Buffer.drain, same, Ne.symm same]
  last t a holds := by
    rw [written_drain]
    by_cases same : t = tag
    · simp [Buffer.drain, same, Patch.none] at holds
    · have held : (b.slots t a).isSome = true := by simpa [Buffer.drain, same] using holds
      simpa [Buffer.drain, same] using coherent.last t a held
  memory a free := by
    rw [written_drain]
    cases drained : b.slots tag a with
    | some byte =>
        have last := coherent.last tag a (by simp [drained])
        simp [Buffer.drain, Patch.apply, ← last, drained]
    | none =>
        have before : ∀ t, b.slots t a = Option.none := by
          intro t
          by_cases same : t = tag
          · rw [same, drained]
          · simpa [Buffer.drain, same] using free t
        simpa [Buffer.drain, Patch.apply, drained] using coherent.memory a before

end WriteCombining
