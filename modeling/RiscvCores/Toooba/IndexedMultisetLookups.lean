import RiscvCores.Toooba.IndexedMultiset

/-!
# Lookups in `mkIndexedMultisetQueue`

The wide pointers count blocks: `lhead` those opened so far, `ltail` the block of
the last removal.  They never are a table apart, which keeps a block and the one
reserved behind `lhead` where they were written until `ltail` has passed.
-/

set_option autoImplicit false

namespace Toooba.IndexedMultiset

open Clocked EqualRuns

variable {k remWidth : Nat} {α : Type} [DecidableEq α]

/-! ## Numbers of blocks as pointers -/

theorem ofNat_sub_of_le {w a b : Nat} (order : a ≤ b) :
    BitVec.ofNat w b - BitVec.ofNat w a = BitVec.ofNat w (b - a) := by
  obtain ⟨d, rfl⟩ := Nat.exists_eq_add_of_le order
  rw [BitVec.ofNat_add, BitVec.add_comm, BitVec.add_sub_cancel, Nat.add_sub_cancel_left]

theorem ofNat_pred {w a : Nat} (positive : 0 < a) :
    BitVec.ofNat w a - 1 = BitVec.ofNat w (a - 1) :=
  ofNat_sub_of_le positive

/-- Two blocks less than a table apart have different indices. -/
theorem ofNat_ne_of_near {a b : Nat} (order : a < b) (near : b < a + 2 ^ k) :
    BitVec.ofNat k a ≠ BitVec.ofNat k b := by
  intro same
  have mods : b % 2 ^ k = a % 2 ^ k := by
    have := congrArg BitVec.toNat same
    simpa only [BitVec.toNat_ofNat] using this.symm
  have apart := Nat.sub_mod_eq_zero_of_mod_eq mods
  rw [Nat.mod_eq_of_lt (by omega)] at apart
  omega

/-- Up to a table ahead, the index of a block tells how far the pointer moves. -/
theorem updateWidePointer_ofNat {a b : Nat} (order : a ≤ b) (near : b < a + 2 ^ k) :
    updateWidePointer (BitVec.ofNat (k + 1) a) (BitVec.ofNat k b) = BitVec.ofNat (k + 1) b := by
  have distance : BitVec.ofNat k b - (BitVec.ofNat (k + 1) a).setWidth k =
      BitVec.ofNat k (b - a) := by
    rw [BitVec.setWidth_ofNat_of_le (Nat.le_succ k), ofNat_sub_of_le order]
  have widened : (BitVec.ofNat k (b - a)).setWidth (k + 1) = BitVec.ofNat (k + 1) (b - a) := by
    apply BitVec.eq_of_toNat_eq
    rw [BitVec.toNat_setWidth, BitVec.toNat_ofNat, BitVec.toNat_ofNat,
      Nat.mod_eq_of_lt (show b - a < 2 ^ k by omega)]
  unfold updateWidePointer
  simp only [distance, widened]
  rw [← BitVec.ofNat_add, Nat.add_sub_cancel' order]

/-! ## What the table holds -/

/-- The blocks from `t` on of the calls `entries` are in the table. -/
structure Holds (entries : List (Entry k α)) (t : Nat) (s : State k α) : Prop where
  lhead : s.lhead = BitVec.ofNat (k + 1) (stretches (entries.map (·.ins)))
  ltail : s.ltail = BitVec.ofNat (k + 1) t
  room : stretches (entries.map (·.ins)) + 1 ≤ t + 2 ^ k
  order : t ≤ stretches (entries.map (·.ins))
  inUse : entries ≠ [] → t < stretches (entries.map (·.ins))
  inserted : ∀ n e, entries[n]? = some e →
    e.inserted = BitVec.ofNat k (stretch (entries.map (·.ins)) n)
  reserved : ∀ n e, entries[n]? = some e →
    e.reserved = BitVec.ofNat k
      (stretch (entries.map (·.ins)) n + if e.res = e.ins then 0 else 1)
  kept : ∀ n e, entries[n]? = some e → t ≤ stretch (entries.map (·.ins)) n →
    s.records (BitVec.ofNat k (stretch (entries.map (·.ins)) n)) = e.ins
  ahead : ∀ e, entries.getLast? = some e → s.records e.reserved = e.res

theorem holds_reset (records : BitVec k → α) :
    Holds [] 0 { records := records, lhead := 0, ltail := 0 } where
  lhead := rfl
  ltail := rfl
  room := by
    have := Nat.two_pow_pos k
    simp only [List.map_nil, stretches_nil]
    omega
  order := Nat.zero_le _
  inUse := fun calls => absurd rfl calls
  inserted := by simp
  reserved := by simp
  kept := by simp
  ahead := by simp

section Holds

variable {entries : List (Entry k α)} {t : Nat} {s : State k α}

theorem Holds.head (holds : Holds entries t s) :
    s.head = BitVec.ofNat k (stretches (entries.map (·.ins))) := by
  unfold State.head
  rw [holds.lhead, BitVec.setWidth_ofNat_of_le (Nat.le_succ k)]

/-- The level counts the blocks in use. -/
theorem Holds.level (holds : Holds entries t s) :
    s.level.toNat = stretches (entries.map (·.ins)) - t := by
  have room := holds.room
  have positive := Nat.two_pow_pos k
  unfold State.level
  rw [holds.lhead, holds.ltail, ofNat_sub_of_le holds.order, BitVec.toNat_ofNat]
  apply Nat.mod_eq_of_lt
  rw [Nat.pow_succ]
  omega

theorem Holds.empty_iff (holds : Holds entries t s) : s.empty = true ↔ entries = [] := by
  have level := holds.level
  have zero : s.empty = true ↔ s.level.toNat = 0 := by
    unfold State.empty
    rw [beq_iff_eq]
    constructor
    · intro same
      rw [same]
      rfl
    · intro same
      exact BitVec.eq_of_toNat_eq same
  rw [zero, level]
  constructor
  · intro none
    by_contra calls
    have := holds.inUse calls
    omega
  · intro none
    subst none
    simp

/-- A call may open a block and reserve one more. -/
theorem Holds.roomier (holds : Holds entries t s) (guard : s.almostFull = false) :
    stretches (entries.map (·.ins)) + 2 ≤ t + 2 ^ k := by
  have level := holds.level
  have order := holds.order
  have positive := Nat.two_pow_pos k
  have bound : (BitVec.ofNat (k + 1) (2 ^ k) - 1).toNat = 2 ^ k - 1 := by
    rw [ofNat_pred positive, BitVec.toNat_ofNat]
    apply Nat.mod_eq_of_lt
    rw [Nat.pow_succ]
    omega
  unfold State.almostFull at guard
  rw [decide_eq_false_iff_not, BitVec.le_def, bound, level] at guard
  omega

/-- The last block is in the slot before `lhead`. -/
theorem Holds.last (holds : Holds entries t s) (calls : entries ≠ []) :
    0 < stretches (entries.map (·.ins)) ∧
      s.head - 1 = BitVec.ofNat k (stretches (entries.map (·.ins)) - 1) ∧
      (entries.map (·.ins)).getLast? = some (s.records (s.head - 1)) := by
  have inUse := holds.inUse calls
  have positive : 0 < stretches (entries.map (·.ins)) := by omega
  obtain ⟨earlier, newest, rfl⟩ := List.eq_nil_or_concat entries |>.resolve_left calls
  have slot : s.head - 1 =
      BitVec.ofNat k (stretches ((earlier.concat newest).map (·.ins)) - 1) := by
    rw [holds.head, ofNat_pred positive]
  have whole : (earlier.concat newest).map (·.ins) = earlier.map (·.ins) ++ [newest.ins] := by
    simp
  have count := stretch_length_concat (earlier.map (·.ins)) newest.ins
  rw [← whole, List.length_map] at count
  have value := holds.kept earlier.length newest (by simp) (by omega)
  refine ⟨positive, slot, ?_⟩
  rw [slot, count, Nat.add_sub_cancel, value, whole, List.getLast?_concat]

/-- A block is opened exactly when the page changes. -/
theorem Holds.opens_iff (holds : Holds entries t s) (ins : α) :
    (s.records (s.head - 1) ≠ ins ∨ s.empty = true) ↔
      (entries.map (·.ins)).getLast? ≠ some ins := by
  rw [holds.empty_iff]
  by_cases calls : entries = []
  · subst calls
    simp
  · obtain ⟨-, -, newest⟩ := holds.last calls
    rw [newest]
    simp [calls]

/-! ## A call -/

/-- The table after a cycle with the call `c` alone. -/
def afterCall (s : State k α) (c : Call α) : State k α :=
  next s ({ insert := some c } : Input k 0 α)

/-- What a call does, with `top` the block of its page. -/
structure Called (s : State k α) (c : Call α) (t top : Nat) : Prop where
  lhead : (afterCall s c).lhead = BitVec.ofNat (k + 1) (top + 1)
  inserted : (insertAndReserve s c).1.inserted = BitVec.ofNat k top
  reserved : (insertAndReserve s c).1.reserved =
    BitVec.ofNat k (top + if c.res = c.ins then 0 else 1)
  page : (afterCall s c).records (BitVec.ofNat k top) = c.ins
  ahead : (afterCall s c).records (insertAndReserve s c).1.reserved = c.res
  others : ∀ b, t ≤ b → b < top →
    (afterCall s c).records (BitVec.ofNat k b) = s.records (BitVec.ofNat k b)

theorem afterCall_ltail (s : State k α) (c : Call α) : (afterCall s c).ltail = s.ltail := rfl

theorem setWidth_add_one {lhead : BitVec (k + 1)} {h : Nat}
    (value : lhead = BitVec.ofNat (k + 1) h) :
    (lhead + 1).setWidth k = BitVec.ofNat k (h + 1) := by
  have sum : lhead + 1 = BitVec.ofNat (k + 1) (h + 1) := by
    rw [value, BitVec.ofNat_add]
    rfl
  rw [sum, BitVec.setWidth_ofNat_of_le (Nat.le_succ k)]

/-- A new page goes to the slot of `lhead`, the page reserved behind it to the next. -/
theorem Holds.called_opening (holds : Holds entries t s) (guard : s.almostFull = false)
    {c : Call α} (opens : (entries.map (·.ins)).getLast? ≠ some c.ins) :
    Called s c t (stretches (entries.map (·.ins))) := by
  have condition := (holds.opens_iff c.ins).mpr opens
  have room := holds.roomier guard
  have head := holds.head
  have lhead := holds.lhead
  have order := holds.order
  have following := setWidth_add_one lhead
  generalize stretches (entries.map (·.ins)) = h at *
  have apart : ∀ b, t ≤ b → b < h → BitVec.ofNat k b ≠ BitVec.ofNat k h := fun b low high =>
    ofNat_ne_of_near high (by omega)
  have further : ∀ b, t ≤ b → b < h + 1 → BitVec.ofNat k b ≠ BitVec.ofNat k (h + 1) :=
    fun b low high => ofNat_ne_of_near high (by omega)
  have moved : s.lhead + 1 = BitVec.ofNat (k + 1) (h + 1) := by
    rw [lhead, BitVec.ofNat_add]
    rfl
  by_cases same : c.res = c.ins
  · have result : insertAndReserve s c = (⟨s.head, s.head⟩, some c.ins, none) := by
      unfold insertAndReserve
      rw [if_pos condition, if_neg (not_not_intro same)]
    have records : (afterCall s c).records = write s.records s.head c.ins := by
      simp [afterCall, next, canon, wires, result]
    refine ⟨?_, ?_, ?_, ?_, ?_, ?_⟩
    · simpa [afterCall, next, canon, wires, result] using moved
    · rw [result, head]
    · rw [result, head, if_pos same, Nat.add_zero]
    · rw [records, head, write_same]
    · rw [records, result, write_same, same]
    · intro b low high
      rw [records, head, write_other _ _ (apart b low high)]
  · have result : insertAndReserve s c =
        (⟨s.head, s.head + 1⟩, some c.ins, some c.res) := by
      unfold insertAndReserve
      rw [if_pos condition, if_pos same]
    have records : (afterCall s c).records =
        write (write s.records s.head c.ins) (BitVec.ofNat k (h + 1)) c.res := by
      simp [afterCall, next, canon, wires, result, ← following]
    have reserved : s.head + 1 = BitVec.ofNat k (h + 1) := by
      rw [head, BitVec.ofNat_add]
      rfl
    refine ⟨?_, ?_, ?_, ?_, ?_, ?_⟩
    · simpa [afterCall, next, canon, wires, result] using moved
    · rw [result, head]
    · rw [result, reserved, if_neg same]
    · rw [records, write_other _ _ (further h order (Nat.lt_succ_self h)), head, write_same]
    · rw [records, result, reserved, write_same]
    · intro b low high
      rw [records, write_other _ _ (further b low (by omega)), head,
        write_other _ _ (apart b low high)]

/-- A repeated page keeps its slot; the page reserved goes to the slot of `lhead`. -/
theorem Holds.called_repeating (holds : Holds entries t s) {c : Call α}
    (repeats : (entries.map (·.ins)).getLast? = some c.ins) :
    Called s c t (stretches (entries.map (·.ins)) - 1) := by
  have calls : entries ≠ [] := by
    intro none
    rw [none] at repeats
    exact nomatch repeats
  have condition := (holds.opens_iff c.ins).not.mpr (not_not_intro repeats)
  obtain ⟨positive, slot, newest⟩ := holds.last calls
  have page : s.records (s.head - 1) = c.ins := by
    rw [newest] at repeats
    exact Option.some.inj repeats
  have room := holds.room
  have head := holds.head
  have lhead := holds.lhead
  have inUse := holds.inUse calls
  generalize stretches (entries.map (·.ins)) = h at *
  have apart : ∀ b, t ≤ b → b < h → BitVec.ofNat k b ≠ BitVec.ofNat k h := fun b low high =>
    ofNat_ne_of_near high (by omega)
  have count : h - 1 + 1 = h := Nat.sub_add_cancel positive
  by_cases same : s.records (s.head - 1) = c.res
  · have result : insertAndReserve s c = (⟨s.head - 1, s.head - 1⟩, none, none) := by
      unfold insertAndReserve
      rw [if_neg condition, if_neg (not_not_intro same)]
    have unchanged : (afterCall s c).records = s.records := by
      simp [afterCall, next, canon, wires, result]
    refine ⟨?_, ?_, ?_, ?_, ?_, ?_⟩
    · rw [count]
      simpa [afterCall, next, canon, wires, result] using lhead
    · rw [result, slot]
    · rw [result, slot, if_pos (by rw [← same, page]), Nat.add_zero]
    · rw [unchanged, ← slot, page]
    · rw [unchanged, result, same]
    · intro b _ _
      rw [unchanged]
  · have result : insertAndReserve s c = (⟨s.head - 1, s.head⟩, none, some c.res) := by
      unfold insertAndReserve
      rw [if_neg condition, if_pos same]
    have records : (afterCall s c).records = write s.records s.head c.res := by
      simp [afterCall, next, canon, wires, result, State.head]
    refine ⟨?_, ?_, ?_, ?_, ?_, ?_⟩
    · rw [count]
      simpa [afterCall, next, canon, wires, result] using lhead
    · rw [result, slot]
    · rw [result, head, if_neg (by rw [← page]; exact Ne.symm same), count]
    · rw [records, head, write_other _ _ (apart (h - 1) (by omega) (by omega)), ← slot, page]
    · rw [records, result, write_same]
    · intro b low high
      rw [records, head, write_other _ _ (apart b low (by omega))]

/-- The log entry of a call. -/
def entryOf (s : State k α) (c : Call α) : Entry k α :=
  { toCall := c, toIndexedMultisetIndices := (insertAndReserve s c).1 }

theorem Holds.called (holds : Holds entries t s) (guard : s.almostFull = false) (c : Call α) :
    Called s c t (stretches (entries.map (·.ins) ++ [c.ins]) - 1) ∧
      stretches (entries.map (·.ins) ++ [c.ins]) + 1 ≤ t + 2 ^ k ∧
      t < stretches (entries.map (·.ins) ++ [c.ins]) := by
  have roomier := holds.roomier guard
  have order := holds.order
  rw [stretches_concat]
  by_cases repeats : (entries.map (·.ins)).getLast? = some c.ins
  · have calls : entries ≠ [] := by
      intro none
      rw [none] at repeats
      exact nomatch repeats
    rw [if_pos repeats]
    exact ⟨holds.called_repeating repeats, by omega, holds.inUse calls⟩
  · rw [if_neg repeats, Nat.add_sub_cancel]
    exact ⟨holds.called_opening guard repeats, by omega, by omega⟩

theorem Holds.call (holds : Holds entries t s) (guard : s.almostFull = false) (c : Call α) :
    Holds (entries ++ [entryOf s c]) t (afterCall s c) := by
  obtain ⟨called, room, inUse⟩ := holds.called guard c
  have whole : (entries ++ [entryOf s c]).map (·.ins) = entries.map (·.ins) ++ [c.ins] := by
    simp [entryOf]
  have count := stretch_length_concat (entries.map (·.ins)) c.ins
  rw [List.length_map] at count
  have old : ∀ n, n < entries.length →
      stretch (entries.map (·.ins) ++ [c.ins]) n = stretch (entries.map (·.ins)) n :=
    fun n inside => stretch_append _ _ (by simpa using inside)
  have cases : ∀ n e, (entries ++ [entryOf s c])[n]? = some e →
      (n < entries.length ∧ entries[n]? = some e) ∨ (n = entries.length ∧ e = entryOf s c) := by
    intro n e found
    rcases Nat.lt_or_ge n entries.length with inside | outside
    · rw [List.getElem?_append_left inside] at found
      exact Or.inl ⟨inside, found⟩
    · have last : n = entries.length := by
        have := (List.getElem?_eq_some_iff.mp found).1
        simp only [List.length_append, List.length_singleton] at this
        omega
      subst last
      rw [List.getElem?_concat_length] at found
      exact Or.inr ⟨rfl, (Option.some.inj found).symm⟩
  rw [count, Nat.add_sub_cancel] at called
  refine ⟨?_, holds.ltail, ?_, ?_, ?_, ?_, ?_, ?_, ?_⟩
  · rw [whole, count]
    exact called.lhead
  · rw [whole]
    exact room
  · rw [whole]
    exact Nat.le_of_lt inUse
  · intro _
    rw [whole]
    exact inUse
  · intro n e found
    rw [whole]
    rcases cases n e found with ⟨inside, earlier⟩ | ⟨rfl, rfl⟩
    · rw [old n inside]
      exact holds.inserted n e earlier
    · exact called.inserted
  · intro n e found
    rw [whole]
    rcases cases n e found with ⟨inside, earlier⟩ | ⟨rfl, rfl⟩
    · rw [old n inside]
      exact holds.reserved n e earlier
    · exact called.reserved
  · intro n e found live
    rw [whole] at live ⊢
    rcases cases n e found with ⟨inside, earlier⟩ | ⟨rfl, rfl⟩
    · have order := stretch_mono (entries.map (·.ins) ++ [c.ins]) (Nat.le_of_lt inside)
      rcases Nat.eq_or_lt_of_le order with same | below
      · have value := getElem?_eq_of_stretch_eq _ (Nat.le_of_lt inside) same
        rw [List.getElem?_append_left (by simpa using inside), List.getElem?_map, earlier,
          ← List.length_map (·.ins), List.getElem?_concat_length] at value
        rw [same, called.page]
        exact (Option.some.inj value).symm
      · rw [called.others _ live below]
        rw [old n inside] at live ⊢
        exact holds.kept n e earlier live
    · exact called.page
  · intro e newest
    rw [List.getLast?_concat] at newest
    cases newest
    exact called.ahead

/-! ## A removal -/

/-- The table with the tail at another place. -/
def State.tailAt (s : State k α) (ltail : BitVec (k + 1)) : State k α :=
  { s with ltail := ltail }

/-- Removing the index of a call from `ltail` on moves `ltail` to its block. -/
theorem Holds.remove (holds : Holds entries t s) {n : Nat} {e : Entry k α}
    (returned : entries[n]? = some e) (later : t ≤ stretch (entries.map (·.ins)) n) :
    Holds entries (stretch (entries.map (·.ins)) n)
      (s.tailAt (updateWidePointer s.ltail e.inserted)) := by
  have room := holds.room
  have inside : n < (entries.map (·.ins)).length := by
    rw [List.length_map]
    exact (List.getElem?_eq_some_iff.mp returned).1
  have opened := stretch_lt_stretches _ inside
  refine ⟨holds.lhead, ?_, ?_, ?_, fun _ => opened, holds.inserted, holds.reserved, ?_,
    holds.ahead⟩
  · simp only [State.tailAt]
    rw [holds.ltail, holds.inserted n e returned]
    exact updateWidePointer_ofNat later (by omega)
  · omega
  · omega
  · intro m other found live
    exact holds.kept m other found (by omega)

/-- The block of the last of some removals, `t` if there are none. -/
def lastBlock (entries : List (Entry k α)) (t : Nat) (rs : List (Removal k)) : Nat :=
  rs.getLast?.elim t fun r => stretch (entries.map (·.ins)) r.call

theorem Holds.removeAll (rs : List (Removal k)) (holds : Holds entries t s)
    (returned : ∀ r ∈ rs, (entries[r.call]?).map (·.inserted) = some r.idx)
    (inOrder : rs.Pairwise fun earlier later => earlier.call ≤ later.call)
    (later : ∀ r ∈ rs, t ≤ stretch (entries.map (·.ins)) r.call) :
    Holds entries (lastBlock entries t rs)
      (s.tailAt (rs.foldl (fun ltail r => updateWidePointer ltail r.idx) s.ltail)) := by
  induction rs generalizing t s with
  | nil => exact holds
  | cons r rest ih =>
      obtain ⟨e, found, index⟩ := Option.map_eq_some_iff.mp (returned r List.mem_cons_self)
      obtain ⟨first, others⟩ := List.pairwise_cons.mp inOrder
      have moved := holds.remove found (later r List.mem_cons_self)
      rw [index] at moved
      have all := ih moved (fun other member => returned other (List.mem_cons_of_mem r member))
        others fun other member => stretch_mono _ (first other member)
      have last : lastBlock entries t (r :: rest) =
          lastBlock entries (stretch (entries.map (·.ins)) r.call) rest := by
        unfold lastBlock
        rw [List.getLast?_cons]
        cases rest.getLast? <;> rfl
      rw [last]
      exact all

end Holds

/-! ## Runs -/

theorem next_eq (s : State k α) (i : Input k remWidth α) :
    next s i = (next s ({ insert := i.insert } : Input k 0 α)).tailAt
      (i.removals.foldl (fun ltail r => updateWidePointer ltail r.idx) s.ltail) := by
  have tail : (List.finRange remWidth).foldl (fun nltail p =>
        (((i.remove p).map (·.idx)).elim nltail (updateWidePointer nltail))) s.ltail =
      i.removals.foldl (fun ltail r => updateWidePointer ltail r.idx) s.ltail := by
    unfold Input.removals
    rw [List.foldl_filterMap]
    congr 1
    funext ltail p
    cases i.remove p <;> rfl
  rw [← tail]
  rfl

theorem log_concat (cycles : List (State k α × Input k remWidth α)) (s : State k α)
    (i : Input k remWidth α) :
    log (cycles ++ [(s, i)]) = log cycles ++ (i.insert.map (entryOf s)).toList := by
  unfold log
  rw [List.filterMap_append]
  cases here : i.insert with
  | none => simp [here]
  | some c => simp [here, entryOf]

omit [DecidableEq α] in
theorem removals_concat (cycles : List (State k α × Input k remWidth α)) (s : State k α)
    (i : Input k remWidth α) : removals (cycles ++ [(s, i)]) = removals cycles ++ i.removals := by
  simp [removals]

/-- The table after every cycle, and the removals so far in order. -/
structure Inv (cycles : List (State k α × Input k remWidth α)) (s : State k α) : Prop where
  holds : Holds (log cycles) (tailBlock cycles) s
  known : ∀ r ∈ removals cycles, r.call < (log cycles).length
  inOrder : (removals cycles).Pairwise fun earlier later => earlier.call ≤ later.call

theorem Inv.le_tailBlock {cycles : List (State k α × Input k remWidth α)} {s : State k α}
    (inv : Inv cycles s) {r : Removal k} (member : r ∈ removals cycles) :
    block cycles r.call ≤ tailBlock cycles := by
  obtain ⟨earlier, last, whole⟩ := List.eq_nil_or_concat (removals cycles) |>.resolve_left
    (List.ne_nil_of_mem member)
  have order := inv.inOrder
  unfold tailBlock
  rw [whole] at member order ⊢
  rw [List.concat_eq_append] at member order ⊢
  rw [List.getLast?_concat]
  rcases List.mem_append.mp member with before | here
  · exact stretch_mono _ ((List.pairwise_append.mp order).2.2 r before last (by simp))
  · rw [List.mem_singleton.mp here]
    exact Nat.le_refl _

/-- A block is live from the block of the last removal on. -/
theorem tailBlock_le_of_live {cycles : List (State k α × Input k remWidth α)} {b : Nat}
    (live : Live cycles b) : tailBlock cycles ≤ b := by
  unfold tailBlock
  cases last : (removals cycles).getLast? with
  | none => exact Nat.zero_le b
  | some r => exact live r (List.mem_of_getLast? last)

/-- Calls of a cycle leave the blocks of the calls before as they were. -/
theorem block_concat (cycles : List (State k α × Input k remWidth α)) (s : State k α)
    (i : Input k remWidth α) {n : Nat} (inside : n < (log cycles).length) :
    block (cycles ++ [(s, i)]) n = block cycles n := by
  unfold block pages
  rw [log_concat, List.map_append]
  exact stretch_append _ _ (by simpa using inside)

theorem Inv.next {cycles : List (State k α × Input k remWidth α)} {s : State k α}
    {i : Input k remWidth α} (inv : Inv cycles s) (allowed : Allowed cycles s i) :
    Inv (cycles ++ [(s, i)]) (next s i) := by
  have called : Holds (log (cycles ++ [(s, i)])) (tailBlock cycles)
      (IndexedMultiset.next s ({ insert := i.insert } : Input k 0 α)) := by
    rw [log_concat]
    cases call : i.insert with
    | none =>
        have idle : IndexedMultiset.next s ({ insert := none } : Input k 0 α) = s := rfl
        rw [idle]
        simpa using inv.holds
    | some c => exact inv.holds.call (allowed.insert (by rw [call]; rfl)) c
  have longer : (log cycles).length ≤ (log (cycles ++ [(s, i)])).length := by
    rw [log_concat, List.length_append]
    exact Nat.le_add_right _ _
  have inOrder := allowed.inOrder
  have parts := inOrder
  rw [removals_concat] at parts
  obtain ⟨-, now, across⟩ := List.pairwise_append.mp parts
  have later : ∀ r ∈ i.removals, tailBlock cycles ≤ block (cycles ++ [(s, i)]) r.call := by
    intro r member
    unfold tailBlock
    cases last : (removals cycles).getLast? with
    | none => exact Nat.zero_le _
    | some before =>
        have earlier := List.mem_of_getLast? last
        simp only [Option.elim_some]
        rw [← block_concat cycles s i (inv.known before earlier)]
        exact stretch_mono _ (across before earlier r member)
  have tail : lastBlock (log (cycles ++ [(s, i)])) (tailBlock cycles) i.removals =
      tailBlock (cycles ++ [(s, i)]) := by
    unfold lastBlock tailBlock
    rw [removals_concat, List.getLast?_append]
    cases i.removals.getLast? with
    | some r => rfl
    | none =>
        cases last : (removals cycles).getLast? with
        | none => rfl
        | some before =>
            exact (block_concat cycles s i (inv.known before (List.mem_of_getLast? last))).symm
  have moved := called.removeAll i.removals allowed.returned now later
  refine ⟨?_, ?_, inOrder⟩
  · rw [next_eq, ← tail]
    exact moved
  · intro r member
    rw [removals_concat] at member
    rcases List.mem_append.mp member with before | here
    · exact Nat.lt_of_lt_of_le (inv.known r before) longer
    · obtain ⟨e, found, -⟩ := Option.map_eq_some_iff.mp (allowed.returned r here)
      exact (List.getElem?_eq_some_iff.mp found).1

theorem run_inv {records : BitVec k → α} {cycles : List (State k α × Input k remWidth α)}
    {s : State k α} (run : (machine remWidth records).Run cycles s) : Inv cycles s := by
  induction run with
  | reset => exact ⟨holds_reset records, by simp [removals], List.Pairwise.nil⟩
  | cycle _ allowed ih => exact ih.next allowed

/-- The blocks in use leave one slot for the page reserved. -/
theorem Inv.card_liveBlocks {cycles : List (State k α × Input k remWidth α)} {s : State k α}
    (inv : Inv cycles s) : (liveBlocks cycles).card < 2 ^ k := by
  have room := inv.holds.room
  have positive := Nat.two_pow_pos k
  have within : liveBlocks cycles ⊆ Finset.Ico (tailBlock cycles) (blocks cycles) := by
    intro b member
    obtain ⟨below, live⟩ := Finset.mem_filter.mp member
    exact Finset.mem_Ico.mpr ⟨tailBlock_le_of_live live, Finset.mem_range.mp below⟩
  have count := Finset.card_le_card within
  rw [Nat.card_Ico] at count
  unfold blocks pages at count
  omega

theorem Inv.lookup_inserted {cycles : List (State k α × Input k remWidth α)} {s : State k α}
    (inv : Inv cycles s) {n : Nat} {e : Entry k α} (call : (log cycles)[n]? = some e)
    (live : Live cycles (block cycles n)) : lookup s e.inserted = e.ins := by
  unfold lookup
  rw [inv.holds.inserted n e call]
  exact inv.holds.kept n e call (tailBlock_le_of_live live)

/-- After a call with the page that was reserved, the reserved block is the last one. -/
theorem Inv.lookup_reserved {cycles : List (State k α × Input k remWidth α)} {s : State k α}
    (inv : Inv cycles s) {n : Nat} {e : Entry k α} (call : (log cycles)[n]? = some e)
    (since : ∀ m later, n < m → (log cycles)[m]? = some later → later.ins = e.res) :
    lookup s e.reserved = e.res := by
  have inside := (List.getElem?_eq_some_iff.mp call).1
  unfold lookup
  rcases Nat.eq_or_lt_of_le (show n + 1 ≤ (log cycles).length from inside) with newest | more
  · apply inv.holds.ahead
    rw [List.getLast?_eq_getElem?, ← newest, Nat.add_sub_cancel]
    exact call
  · obtain ⟨following, found⟩ : ∃ following, (log cycles)[n + 1]? = some following :=
      ⟨_, List.getElem?_eq_getElem more⟩
    have page : ∀ m, n < m → m < (pages cycles).length → (pages cycles)[m]? = some e.res := by
      intro m after below
      unfold pages at below ⊢
      rw [List.length_map] at below
      have entry := List.getElem?_eq_getElem below
      rw [List.getElem?_map, entry, Option.map_some, since m _ after entry]
    have size : n + 1 < (pages cycles).length := by simpa [pages] using more
    have top : blocks cycles = block cycles (n + 1) + 1 := by
      refine stretches_eq_of_constant size fun m after below => ?_
      rw [page m (by omega) below, page (n + 1) (Nat.lt_succ_self n) size]
    have here : (pages cycles)[n]? = some e.ins := by
      unfold pages
      rw [List.getElem?_map, call, Option.map_some]
    have slot : block cycles (n + 1) = block cycles n + if e.res = e.ins then 0 else 1 := by
      unfold block
      rw [stretch, page (n + 1) (Nat.lt_succ_self n) size, here]
      simp only [Option.some.injEq]
    have inUse : tailBlock cycles < blocks cycles :=
      inv.holds.inUse (List.ne_nil_of_length_pos (by omega))
    have value := inv.holds.kept (n + 1) following found (by
      change tailBlock cycles ≤ block cycles (n + 1)
      omega)
    rw [inv.holds.reserved n e call]
    change s.records (BitVec.ofNat k (block cycles n + if e.res = e.ins then 0 else 1)) = e.res
    rw [← slot, ← since (n + 1) following (Nat.lt_succ_self n) found]
    exact value

/-- The reserved index is behind the inserted one when the page ends. -/
theorem insertAndReserve_reserved (s : State k α) (c : Call α) (ends : c.res ≠ c.ins) :
    (insertAndReserve s c).1.reserved = (insertAndReserve s c).1.inserted + 1 := by
  unfold insertAndReserve
  by_cases opens : s.records (s.head - 1) ≠ c.ins ∨ s.empty = true
  · rw [if_pos opens, if_pos ends]
  · have page : s.records (s.head - 1) = c.ins := by
      by_contra other
      exact opens (Or.inl other)
    have different : s.records (s.head - 1) ≠ c.res := by
      rw [page]
      exact ends.symm
    rw [if_neg opens, if_pos different]
    exact (BitVec.sub_add_cancel s.head 1).symm

/-- No cycle mixes up pages: what an index was returned for stays under it. -/
theorem lookups_stay {records : BitVec k → α}
    {cycles : List (State k α × Input k remWidth α)} {s : State k α}
    (run : (machine remWidth records).Run cycles s) :
    (∀ (n : Nat) (e : Entry k α), (log cycles)[n]? = some e → Live cycles (block cycles n) →
      lookup s e.inserted = e.ins) ∧
    (∀ (n : Nat) (e : Entry k α), (log cycles)[n]? = some e →
      (∀ (m : Nat) (later : Entry k α), n < m → (log cycles)[m]? = some later → later.ins = e.res) →
      lookup s e.reserved = e.res) ∧
    (liveBlocks cycles).card < 2 ^ k ∧
    ∀ e ∈ log cycles, e.res ≠ e.ins → e.reserved = e.inserted + 1 := by
  have inv := run_inv run
  refine ⟨fun n e => inv.lookup_inserted, fun n e => inv.lookup_reserved,
    inv.card_liveBlocks, ?_⟩
  intro e member ends
  obtain ⟨⟨before, i⟩, -, returned⟩ := List.mem_filterMap.mp member
  obtain ⟨c, -, rfl⟩ := Option.map_eq_some_iff.mp returned
  exact insertAndReserve_reserved before c ends

instance (cycles : List (State k α × Input k remWidth α)) (s : State k α)
    (i : Input k remWidth α) : Decidable (Allowed cycles s i) :=
  decidable_of_iff
    ((i.insert.isSome → s.almostFull = false) ∧
      (∀ r ∈ i.removals, ((log (cycles ++ [(s, i)]))[r.call]?).map (·.inserted) = some r.idx) ∧
      (removals (cycles ++ [(s, i)])).Pairwise fun earlier later => earlier.call ≤ later.call)
    ⟨fun ⟨guard, returned, inOrder⟩ => ⟨guard, returned, inOrder⟩,
      fun allowed => ⟨allowed.insert, allowed.returned, allowed.inOrder⟩⟩

/-- Pages 7, 8 and 9; the index of page 7 is removed and page 8 from then on in use. -/
private def threePages : List (Input 2 2 Nat) :=
  [{ insert := some ⟨7, 8⟩ }, { insert := some ⟨8, 8⟩ },
    { insert := some ⟨8, 9⟩
      remove := fun p => if p = 0 then some ⟨0, 0⟩ else some ⟨1, 1⟩ }]

private instance (cycles : List (State 2 Nat × Input 2 2 Nat)) (s : State 2 Nat)
    (i : Input 2 2 Nat) : Decidable ((machine 2 fun _ : BitVec 2 => 7).allowed cycles s i) :=
  inferInstanceAs (Decidable (Allowed cycles s i))

theorem lookups_stay_threePages :
    let m := machine 2 fun _ : BitVec 2 => 7
    let s := m.after m.reset threePages
    lookup s 1 = 8 ∧ lookup s 2 = 9 ∧ s.almostFull = false := by
  intro m s
  obtain ⟨inserted, reserved, -, -⟩ := lookups_stay
    (Machine.run_of_accepts (m := machine 2 fun _ : BitVec 2 => 7) threePages
      (by decide +kernel))
  refine ⟨inserted 2 ⟨⟨8, 9⟩, ⟨1, 2⟩⟩ (by decide +kernel) (by decide +kernel),
    reserved 2 ⟨⟨8, 9⟩, ⟨1, 2⟩⟩ (by decide +kernel) ?_, by decide +kernel⟩
  intro m later after found
  have size : (log (Machine.cyclesOf (machine 2 fun _ : BitVec 2 => 7)
      (machine 2 fun _ : BitVec 2 => 7).reset threePages)).length = 3 := by decide +kernel
  have below := (List.getElem?_eq_some_iff.mp found).1
  omega

end Toooba.IndexedMultiset
