import Mathlib.Tactic.Common
import Mathlib.Data.List.Basic
import Mathlib.Data.List.FinRange
import Mathlib.Data.List.Perm.Basic
import Mathlib.Logic.Function.Basic

/-!
# Requests that share reads

Each of `n` slots may want the word at an address.  It asks for it, or joins a peer that has
asked for the same address.  Answers come back in any order, and one answer is handed out to
its slot and then to the peers, one after the other; a slot that was served may at once want
another address.  As long as nobody joins the slot whose answer is being handed out, every
slot is given the word at its own address.
-/

set_option autoImplicit false

namespace SharedReads

universe u

/-- A slot wants nothing, waits for its own read, or for the read of a peer. -/
inductive Wait (n : Nat)
  | none
  | waitMem
  | waitPeer (i : Fin n)
deriving DecidableEq

/-- `serving` is the peer to be served next with the first answer, once the slot that asked for
it is served. -/
structure Table (n : Nat) (Addr Data : Type u) where
  wait : Fin n → Wait n
  addr : Fin n → Addr
  asked : List (Addr × Fin n)
  answers : List (Data × Fin n)
  serving : Option (Fin n)

variable {n : Nat} {Addr Data : Type u}

namespace Table

variable (t : Table n Addr Data)

/-- The answer that is being handed out to the peers. -/
def served : Option (Data × Fin n) := if t.serving.isSome then t.answers.head? else none

/-- The answers nobody was served with. -/
def fresh : List (Data × Fin n) := if t.serving.isSome then t.answers.tail else t.answers

/-- The slots whose own read is under way. -/
def reading : List (Fin n) := t.asked.map Prod.snd ++ t.fresh.map Prod.snd

/-- Who is served next with the answer `first`. -/
def turn (first : Data × Fin n) : Fin n := t.serving.getD first.2

def ask (idx : Fin n) (a : Addr) : Table n Addr Data :=
  { t with
    wait := Function.update t.wait idx .waitMem
    addr := Function.update t.addr idx a
    asked := t.asked ++ [(a, idx)] }

def join (idx : Fin n) (a : Addr) (i : Fin n) : Table n Addr Data :=
  { t with
    wait := Function.update t.wait idx (.waitPeer i)
    addr := Function.update t.addr idx a }

/-- The `k`-th read is answered. -/
def answer (read : Addr → Data) (k : Nat) (r : Addr × Fin n) : Table n Addr Data :=
  { t with asked := t.asked.eraseIdx k, answers := t.answers ++ [(read r.1, r.2)] }

/-- A slot other than `idx` that waits for the read of `id`. -/
def waiter (id idx : Fin n) : Option (Fin n) :=
  (List.finRange n).find? fun i => decide (t.wait i = .waitPeer id ∧ i ≠ idx)

/-- `idx` is served with the answer `first` and wants nothing more; `a` is left in its
address. -/
def serve (first : Data × Fin n) (idx : Fin n) (a : Addr) : Table n Addr Data :=
  let served :=
    { t with
      wait := Function.update t.wait idx .none
      addr := Function.update t.addr idx a }
  match t.waiter first.2 idx with
  | some i => { served with serving := some i }
  | none => { served with serving := none, answers := t.answers.tail }

end Table

/-- What slot `j`, which has joined `i`, is to be served with. -/
def Linked (read : Addr → Data) (t : Table n Addr Data) (j i : Fin n) : Prop :=
  (∃ first, t.served = some first ∧ first.2 = i ∧ first.1 = read (t.addr j)) ∨
    (∀ first, t.served = some first → first.2 ≠ i) ∧ t.wait i = .waitMem ∧ t.addr i = t.addr j

structure Consistent (read : Addr → Data) (t : Table n Addr Data) : Prop where
  nodup : t.reading.Nodup
  mem_reading : ∀ j, j ∈ t.reading ↔ t.wait j = .waitMem
  asked : ∀ r ∈ t.asked, r.1 = t.addr r.2
  fresh : ∀ r ∈ t.fresh, r.1 = read (t.addr r.2)
  peer : ∀ j i, t.wait j = .waitPeer i → i ≠ j ∧ Linked read t j i
  serving : ∀ k, t.serving = some k →
    ∃ first, t.answers.head? = some first ∧ t.wait k = .waitPeer first.2

section Consistent

variable {read : Addr → Data} {t : Table n Addr Data}

/-- Whoever is served is given the word at its address. -/
theorem Consistent.data (consistent : Consistent read t) {first : Data × Fin n}
    (head : t.answers.head? = some first) : first.1 = read (t.addr (t.turn first)) := by
  cases other : t.serving with
  | none =>
      have member : first ∈ t.fresh := by
        simpa [Table.fresh, other] using List.mem_of_head? head
      simpa [Table.turn, other] using consistent.fresh first member
  | some k =>
      obtain ⟨first', head', waits⟩ := consistent.serving k other
      obtain rfl : first = first' := Option.some_inj.mp (head.symm.trans head')
      have served : t.served = some first := by simp [Table.served, other, head]
      rcases (consistent.peer k first.2 waits).2 with ⟨first', here, -, data⟩ | ⟨other', -⟩
      · obtain rfl : first = first' := Option.some_inj.mp (served.symm.trans here)
        simpa [Table.turn, other] using data
      · exact absurd rfl (other' first served)

theorem Consistent.waits (consistent : Consistent read t) {first : Data × Fin n}
    (head : t.answers.head? = some first) : t.wait (t.turn first) ≠ .none := by
  cases other : t.serving with
  | none =>
      have member : first.2 ∈ t.reading := by
        refine List.mem_append_right _ (List.mem_map_of_mem ?_)
        simpa [Table.fresh, other] using List.mem_of_head? head
      simp [Table.turn, other, (consistent.mem_reading first.2).mp member]
  | some k =>
      obtain ⟨first', -, waits⟩ := consistent.serving k other
      simp [Table.turn, other, waits]

theorem Linked.of_wait_addr {t' : Table n Addr Data} {j i : Fin n} (linked : Linked read t j i)
    (served : t'.served = t.served) (own : t'.addr j = t.addr j)
    (kept : t.wait i = .waitMem → t'.wait i = .waitMem ∧ t'.addr i = t.addr i) :
    Linked read t' j i := by
  rcases linked with ⟨first, here, id, data⟩ | ⟨others, waits, addr⟩
  · exact .inl ⟨first, served.trans here, id, data.trans (by rw [own])⟩
  · obtain ⟨waits', addr'⟩ := kept waits
    exact .inr ⟨fun first here => others first (served.symm.trans here), waits',
      addr'.trans (addr.trans own.symm)⟩

/-- A slot that wants nothing asks for an address. -/
theorem Consistent.ask (consistent : Consistent read t) {idx : Fin n} (idle : t.wait idx = .none)
    (a : Addr) : Consistent read (t.ask idx a) := by
  have unread : idx ∉ t.reading := by
    rw [consistent.mem_reading, idle]
    exact nofun
  have order : (t.ask idx a).reading.Perm (idx :: t.reading) := by
    simp only [Table.reading, Table.ask, List.map_append, List.map_cons, List.map_nil,
      List.append_assoc, List.singleton_append]
    exact List.perm_middle
  have notRead : ∀ {r : Fin n}, r ∈ t.reading → r ≠ idx := by
    rintro r member rfl
    exact unread member
  constructor
  · exact order.nodup_iff.mpr (List.nodup_cons.mpr ⟨unread, consistent.nodup⟩)
  · intro j
    rw [order.mem_iff, List.mem_cons, consistent.mem_reading]
    by_cases here : j = idx
    · simp [Table.ask, here]
    · simp [Table.ask, here]
  · intro r member
    rcases List.mem_append.mp member with earlier | new
    · have other : r.2 ≠ idx :=
        notRead (List.mem_append_left _ (List.mem_map_of_mem earlier))
      simpa [Table.ask, Function.update_of_ne other] using consistent.asked r earlier
    · obtain rfl := List.mem_singleton.mp new
      simp [Table.ask]
  · intro r member
    have other : r.2 ≠ idx := notRead (List.mem_append_right _ (List.mem_map_of_mem member))
    simpa [Table.ask, Function.update_of_ne other] using consistent.fresh r member
  · intro j i waits
    have other : j ≠ idx := by
      rintro rfl
      simp [Table.ask] at waits
    have before : t.wait j = .waitPeer i := by simpa [Table.ask, other] using waits
    obtain ⟨apart, linked⟩ := consistent.peer j i before
    refine ⟨apart, linked.of_wait_addr rfl (Function.update_of_ne other ..) fun reads => ?_⟩
    have peer : i ≠ idx := by
      rintro rfl
      simp [idle] at reads
    exact ⟨(Function.update_of_ne peer ..).trans reads, Function.update_of_ne peer ..⟩
  · intro k other
    obtain ⟨first, head, waits⟩ := consistent.serving k other
    have apart : k ≠ idx := by
      rintro rfl
      simp [idle] at waits
    exact ⟨first, head, (Function.update_of_ne apart ..).trans waits⟩

/-- A slot that wants nothing joins a peer whose answer is not being handed out. -/
theorem Consistent.join (consistent : Consistent read t) {idx i : Fin n}
    (idle : t.wait idx = .none) (other : i ≠ idx) (reads : t.wait i = .waitMem)
    (apart : ∀ first, t.served = some first → first.2 ≠ i) :
    Consistent read (t.join idx (t.addr i) i) := by
  have unread : idx ∉ t.reading := by
    rw [consistent.mem_reading, idle]
    exact nofun
  have notRead : ∀ {r : Fin n}, r ∈ t.reading → r ≠ idx := by
    rintro r member rfl
    exact unread member
  constructor
  · exact consistent.nodup
  · intro j
    refine (consistent.mem_reading j).trans ?_
    by_cases here : j = idx
    · simp [Table.join, here, idle]
    · simp [Table.join, here]
  · intro r member
    have other : r.2 ≠ idx := notRead (List.mem_append_left _ (List.mem_map_of_mem member))
    simpa [Table.join, Function.update_of_ne other] using consistent.asked r member
  · intro r member
    have other : r.2 ≠ idx := notRead (List.mem_append_right _ (List.mem_map_of_mem member))
    simpa [Table.join, Function.update_of_ne other] using consistent.fresh r member
  · intro j i' waits
    by_cases here : j = idx
    · subst here
      obtain rfl : i = i' := by simpa [Table.join] using waits
      refine ⟨other, .inr ⟨apart, ?_, ?_⟩⟩
      · exact (Function.update_of_ne other ..).trans reads
      · simp [Table.join, Function.update_of_ne other]
    · have before : t.wait j = .waitPeer i' := by simpa [Table.join, here] using waits
      obtain ⟨apart', linked⟩ := consistent.peer j i' before
      refine ⟨apart', linked.of_wait_addr rfl (Function.update_of_ne here ..) fun reads => ?_⟩
      have peer : i' ≠ idx := by
        rintro rfl
        simp [idle] at reads
      exact ⟨(Function.update_of_ne peer ..).trans reads, Function.update_of_ne peer ..⟩
  · intro k serving
    obtain ⟨first, head, waits⟩ := consistent.serving k serving
    have apart : k ≠ idx := by
      rintro rfl
      simp [idle] at waits
    exact ⟨first, head, (Function.update_of_ne apart ..).trans waits⟩

theorem waiter_some {id idx i : Fin n} (found : t.waiter id idx = some i) :
    t.wait i = .waitPeer id ∧ i ≠ idx := by
  simpa using List.find?_some found

theorem waiter_none {id idx : Fin n} (found : t.waiter id idx = none) (i : Fin n)
    (other : i ≠ idx) : t.wait i ≠ .waitPeer id := by
  intro waits
  have fails := List.find?_eq_none.mp found i (List.mem_finRange i)
  simp [waits, other] at fails

/-- What serving leaves to be read, whoever is next. -/
theorem reading_serve {first : Data × Fin n} {idx : Fin n} {a : Addr} :
    (t.serve first idx a).reading =
      t.asked.map Prod.snd ++ t.answers.tail.map Prod.snd := by
  unfold Table.serve
  cases next : t.waiter first.2 idx with
  | none => simp [Table.reading, Table.fresh]
  | some i => simp [Table.reading, Table.fresh]

theorem fresh_serve {first : Data × Fin n} {idx : Fin n} {a : Addr} :
    (t.serve first idx a).fresh = t.answers.tail := by
  unfold Table.serve
  cases next : t.waiter first.2 idx with
  | none => simp [Table.fresh]
  | some i => simp [Table.fresh]

theorem wait_serve {first : Data × Fin n} {idx : Fin n} {a : Addr} :
    (t.serve first idx a).wait = Function.update t.wait idx .none := by
  unfold Table.serve
  cases next : t.waiter first.2 idx <;> rfl

theorem addr_serve {first : Data × Fin n} {idx : Fin n} {a : Addr} :
    (t.serve first idx a).addr = Function.update t.addr idx a := by
  unfold Table.serve
  cases next : t.waiter first.2 idx <;> rfl

theorem asked_serve {first : Data × Fin n} {idx : Fin n} {a : Addr} :
    (t.serve first idx a).asked = t.asked := by
  unfold Table.serve
  cases next : t.waiter first.2 idx <;> rfl

/-- The reads left are those of the slots that were not served. -/
theorem Consistent.reading_after (consistent : Consistent read t) {first : Data × Fin n}
    (head : t.answers.head? = some first) :
    (t.asked.map Prod.snd ++ t.answers.tail.map Prod.snd).Nodup ∧
      ∀ j, j ∈ t.asked.map Prod.snd ++ t.answers.tail.map Prod.snd ↔
        j ≠ t.turn first ∧ t.wait j = .waitMem := by
  obtain ⟨rest, answers⟩ : ∃ rest, t.answers = first :: rest :=
    ⟨_, (List.eq_cons_of_mem_head? head).trans rfl⟩
  cases other : t.serving with
  | none =>
      have order : t.reading.Perm
          (first.2 :: (t.asked.map Prod.snd ++ t.answers.tail.map Prod.snd)) := by
        simp only [Table.reading, Table.fresh, other, answers, Option.isSome_none,
          Bool.false_eq_true, if_false, List.map_cons, List.tail_cons]
        exact List.perm_middle
      have turn : t.turn first = first.2 := by simp [Table.turn, other]
      obtain ⟨gone, nodup⟩ := List.nodup_cons.mp (order.nodup_iff.mp consistent.nodup)
      refine ⟨nodup, fun j => ?_⟩
      rw [← consistent.mem_reading, order.mem_iff, List.mem_cons, turn]
      constructor
      · intro member
        exact ⟨fun here => gone (here ▸ member), .inr member⟩
      · rintro ⟨apart, here | member⟩
        · exact absurd here apart
        · exact member
  | some k =>
      obtain ⟨first', -, waits⟩ := consistent.serving k other
      have same : t.reading = t.asked.map Prod.snd ++ t.answers.tail.map Prod.snd := by
        simp [Table.reading, Table.fresh, other]
      have turn : t.turn first = k := by simp [Table.turn, other]
      rw [← same]
      refine ⟨consistent.nodup, fun j => ?_⟩
      rw [consistent.mem_reading, turn]
      constructor
      · intro reads
        refine ⟨?_, reads⟩
        rintro rfl
        simp [waits] at reads
      · exact And.right

/-- A peer of the first answer's slot is to be served with that answer, any other peer with an
answer yet to come. -/
theorem Consistent.peer_cases (consistent : Consistent read t) {first : Data × Fin n}
    (head : t.answers.head? = some first) {j i : Fin n} (waits : t.wait j = .waitPeer i) :
    i = first.2 ∧ first.1 = read (t.addr j) ∨
      i ≠ first.2 ∧ i ≠ t.turn first ∧ t.wait i = .waitMem ∧ t.addr i = t.addr j := by
  have linked := (consistent.peer j i waits).2
  cases serving : t.serving with
  | none =>
      have turn : t.turn first = first.2 := by simp [Table.turn, serving]
      rcases linked with ⟨first', here, -⟩ | ⟨-, reads, addr⟩
      · simp [Table.served, serving] at here
      · by_cases here : i = first.2
        · refine .inl ⟨here, ?_⟩
          rw [consistent.data head, turn, ← here, addr]
        · exact .inr ⟨here, turn ▸ here, reads, addr⟩
  | some k =>
      obtain ⟨first', -, waits'⟩ := consistent.serving k serving
      have turn : t.turn first = k := by simp [Table.turn, serving]
      have served : t.served = some first := by simp [Table.served, serving, head]
      rcases linked with ⟨first', here, id, data⟩ | ⟨others, reads, addr⟩
      · obtain rfl : first = first' := Option.some_inj.mp (served.symm.trans here)
        exact .inl ⟨id.symm, data⟩
      · refine .inr ⟨(others first served).symm, ?_, reads, addr⟩
        rw [turn]
        rintro rfl
        simp [waits'] at reads

theorem served_serve {first : Data × Fin n} {idx : Fin n} {a : Addr} :
    (t.serve first idx a).served =
      if (t.waiter first.2 idx).isSome then t.answers.head? else none := by
  unfold Table.serve
  cases next : t.waiter first.2 idx <;> simp [Table.served]

/-- Serving keeps the table consistent, whatever is left in the address of the served slot. -/
theorem Consistent.serve (consistent : Consistent read t) {first : Data × Fin n}
    (head : t.answers.head? = some first) (a : Addr) :
    Consistent read (t.serve first (t.turn first) a) := by
  obtain ⟨nodup, left⟩ := consistent.reading_after head
  constructor
  · rwa [reading_serve]
  · intro j
    rw [reading_serve, left, wait_serve]
    by_cases here : j = t.turn first
    · simp [here]
    · simp [here]
  · intro r member
    rw [asked_serve] at member
    have other := ((left r.2).mp (List.mem_append_left _ (List.mem_map_of_mem member))).1
    rw [addr_serve, Function.update_of_ne other]
    exact consistent.asked r member
  · intro r member
    rw [fresh_serve] at member
    have other := ((left r.2).mp (List.mem_append_right _ (List.mem_map_of_mem member))).1
    have fresh : r ∈ t.fresh := by
      unfold Table.fresh
      split
      · exact member
      · exact List.mem_of_mem_tail member
    rw [addr_serve, Function.update_of_ne other]
    exact consistent.fresh r fresh
  · intro j i waits
    rw [wait_serve] at waits
    have other : j ≠ t.turn first := by
      rintro rfl
      simp at waits
    rw [Function.update_of_ne other] at waits
    refine ⟨(consistent.peer j i waits).1, ?_⟩
    rcases consistent.peer_cases head waits with ⟨rfl, data⟩ | ⟨id, apart, reads, addr⟩
    · have next : (t.waiter first.2 (t.turn first)).isSome := by
        rw [Option.isSome_iff_ne_none]
        intro nobody
        exact waiter_none nobody j other waits
      refine .inl ⟨first, ?_, rfl, ?_⟩
      · rw [served_serve, if_pos next, head]
      · rw [addr_serve, Function.update_of_ne other]
        exact data
    · refine .inr ⟨?_, ?_, ?_⟩
      · intro first' here
        rw [served_serve] at here
        split at here
        · obtain rfl : first = first' := Option.some_inj.mp (head.symm.trans here)
          exact id.symm
        · cases here
      · rw [wait_serve, Function.update_of_ne apart]
        exact reads
      · rw [addr_serve, Function.update_of_ne apart, Function.update_of_ne other]
        exact addr
  · intro k serving
    unfold Table.serve at serving ⊢
    cases next : t.waiter first.2 (t.turn first) with
    | none => simp [next] at serving
    | some i =>
        obtain rfl : i = k := by simpa [next] using serving
        obtain ⟨waits, other⟩ := waiter_some next
        exact ⟨first, head, (Function.update_of_ne other ..).trans waits⟩

/-- An answer of the memory. -/
theorem Consistent.answer (consistent : Consistent read t) {k : Nat} {r : Addr × Fin n}
    (asked : t.asked[k]? = some r) : Consistent read (t.answer read k r) := by
  have member : r ∈ t.asked := List.mem_of_getElem? asked
  have fresh : (t.answer read k r).fresh = t.fresh ++ [(read r.1, r.2)] := by
    cases serving : t.serving with
    | none => simp [Table.fresh, Table.answer, serving]
    | some i =>
        obtain ⟨first, head, -⟩ := consistent.serving i serving
        obtain ⟨rest, answers⟩ := List.head?_eq_some_iff.mp head
        simp [Table.fresh, Table.answer, serving, answers]
  have served : (t.answer read k r).served = t.served := by
    cases serving : t.serving with
    | none => simp [Table.served, Table.answer, serving]
    | some i =>
        obtain ⟨first, head, -⟩ := consistent.serving i serving
        obtain ⟨rest, answers⟩ := List.head?_eq_some_iff.mp head
        simp [Table.served, Table.answer, serving, answers]
  have taken : t.asked.Perm (r :: t.asked.eraseIdx k) := by
    obtain ⟨bound, rfl⟩ := List.getElem?_eq_some_iff.mp asked
    exact (List.getElem_cons_eraseIdx_perm bound).symm
  have order : (t.answer read k r).reading.Perm t.reading := by
    rw [Table.reading, Table.reading, fresh, List.map_append]
    have ids := (taken.map Prod.snd).symm
    simp only [Table.answer, List.map_cons, List.map_nil] at ids ⊢
    refine List.Perm.trans ?_ (ids.append_right _)
    rw [← List.append_assoc]
    exact List.perm_append_comm
  constructor
  · exact order.nodup_iff.mpr consistent.nodup
  · intro j
    exact order.mem_iff.trans (consistent.mem_reading j)
  · intro r' left
    exact consistent.asked r' (List.mem_of_mem_eraseIdx left)
  · intro r' member'
    rw [fresh] at member'
    rcases List.mem_append.mp member' with earlier | new
    · exact consistent.fresh r' earlier
    · obtain rfl := List.mem_singleton.mp new
      exact congrArg read (consistent.asked r member)
  · intro j i waits
    obtain ⟨apart, linked⟩ := consistent.peer j i waits
    exact ⟨apart, linked.of_wait_addr served rfl fun reads => ⟨reads, rfl⟩⟩
  · intro i serving
    obtain ⟨first, head, waits⟩ := consistent.serving i serving
    refine ⟨first, ?_, waits⟩
    obtain ⟨rest, answers⟩ := List.head?_eq_some_iff.mp head
    simp [Table.answer, answers]

/-- While no slot wants anything, what is read may change. -/
theorem Consistent.change (consistent : Consistent read t) (idle : ∀ j, t.wait j = .none)
    (read' : Addr → Data) : Consistent read' t where
  nodup := consistent.nodup
  mem_reading := consistent.mem_reading
  asked := consistent.asked
  fresh r member := by
    have reads := (consistent.mem_reading r.2).mp
      (List.mem_append_right _ (List.mem_map_of_mem member))
    cases (idle r.2).symm.trans reads
  peer j i waits := by
    cases (idle j).symm.trans waits
  serving := consistent.serving

end Consistent

end SharedReads
