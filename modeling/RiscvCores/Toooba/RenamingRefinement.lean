import Mathlib.Data.Fintype.EquivFin
import Mathlib.Data.Fintype.Sum
import RiscvCores.Lib.Ring
import RiscvCores.Lib.RenameMap
import RiscvCores.Toooba.RenamingTable

/-!
# The renaming table refines a sequential map with rollback

From `deqP` on, the array holds the physical registers of the renamings in
flight and then the free ones.  A commit turns the array by one slot, a claim
or a kill only moves the border between the two parts, so the registers stay
where they are and a kill leaves what would be there without the claims.
-/

set_option autoImplicit false

namespace Toooba.RenamingTable

open RenameMap Ring

variable {c : RtCfg}

instance : NeZero c.size := ⟨c.someSlots.ne'⟩

/-! ## Pointers and searches -/

theorem incrIndex_eq_slot {idx : IndexT c} {incr : Nat} (small : incr ≤ c.size)
    (fits : idx.val + incr < 2 ^ tLog (c.size + 1)) : incrIndex idx incr = slot idx incr := by
  apply Fin.ext
  have inside := idx.isLt
  simp only [slot_val, incrIndex, newIdx, Nat.mod_eq_of_lt fits]
  split
  next wraps =>
    rcases Nat.lt_or_ge (idx.val + incr - c.size) c.size with below | above
    · rw [Nat.mod_eq_sub_mod wraps, Nat.mod_eq_of_lt below]
    · omega
  next stays => rw [Nat.mod_eq_of_lt (by omega)]

section Fold

variable {α : Type} {f : α → α → α} {le : α → α → Prop}

theorem length_mapPairs (xs : List α) : (mapPairs f xs).length = (xs.length + 1) / 2 := by
  induction xs using mapPairs.induct with
  | case1 a b rest ih =>
      simp only [mapPairs, List.length_cons, ih]
      omega
  | case2 short other =>
      rcases short with - | ⟨a, - | ⟨b, rest⟩⟩
      · simp [mapPairs]
      · simp [mapPairs]
      · exact absurd rfl (other a b rest)

/-- What is picked from the pairs is picked from the list. -/
theorem picked_of_mapPairs (pick : ∀ a b, f a b = a ∨ f a b = b)
    (left : ∀ a b, le a (f a b)) (right : ∀ a b, le b (f a b))
    (trans : ∀ a b d, le a b → le b d → le a d) {r : α} :
    ∀ xs : List α, r ∈ mapPairs f xs ∧ (∀ x ∈ mapPairs f xs, le x r) →
      r ∈ xs ∧ ∀ x ∈ xs, le x r := by
  intro xs
  have sub : ∀ xs : List α, ∀ x ∈ mapPairs f xs, x ∈ xs := by
    intro xs
    induction xs using mapPairs.induct with
    | case1 a b rest ih =>
        intro x inside
        simp only [mapPairs, List.mem_cons] at inside
        rcases inside with rfl | later
        · rcases pick a b with same | same <;> simp [same]
        · simp [ih x later]
    | case2 short other =>
        rcases short with - | ⟨a, - | ⟨b, rest⟩⟩
        · exact fun x inside => inside
        · exact fun x inside => inside
        · exact absurd rfl (other a b rest)
  have dominated : ∀ xs : List α, ∀ x ∈ xs, ∃ y ∈ mapPairs f xs, le x y ∨ x = y := by
    intro xs
    induction xs using mapPairs.induct with
    | case1 a b rest ih =>
        intro x inside
        simp only [List.mem_cons] at inside
        rcases inside with rfl | rfl | later
        · exact ⟨f x b, by simp [mapPairs], .inl (left x b)⟩
        · exact ⟨f a x, by simp [mapPairs], .inl (right a x)⟩
        · obtain ⟨y, paired, below⟩ := ih x later
          exact ⟨y, by simp [mapPairs, paired], below⟩
    | case2 short other =>
        rcases short with - | ⟨a, - | ⟨b, rest⟩⟩
        · exact fun x inside => ⟨x, inside, .inr rfl⟩
        · exact fun x inside => ⟨x, inside, .inr rfl⟩
        · exact absurd rfl (other a b rest)
  rintro ⟨inside, top⟩
  refine ⟨sub xs r inside, fun x member => ?_⟩
  obtain ⟨y, paired, below | rfl⟩ := dominated xs x member
  · exact trans x y r below (top y paired)
  · exact top x paired

theorem foldTree_picks (pick : ∀ a b, f a b = a ∨ f a b = b) (refl : ∀ a, le a a)
    (left : ∀ a b, le a (f a b)) (right : ∀ a b, le b (f a b))
    (trans : ∀ a b d, le a b → le b d → le a d) (rounds : Nat) :
    ∀ xs : List α, xs ≠ [] → xs.length ≤ rounds + 1 →
      ∃ r, foldTree f rounds xs = some r ∧ r ∈ xs ∧ ∀ x ∈ xs, le x r := by
  induction rounds with
  | zero =>
      intro xs some short
      obtain ⟨a, rest, rfl⟩ := List.exists_cons_of_ne_nil some
      obtain rfl : rest = [] := List.eq_nil_of_length_eq_zero (by simpa using short)
      exact ⟨a, rfl, by simp, by simp [refl]⟩
  | succ rounds ih =>
      intro xs some short
      have half := length_mapPairs (f := f) xs
      have positive := List.length_pos_iff.mpr some
      obtain ⟨r, found, picked⟩ := ih (mapPairs f xs)
        (List.ne_nil_of_length_pos (by omega)) (by omega)
      exact ⟨r, found, picked_of_mapPairs pick left right trans xs picked⟩

end Fold

theorem fold_picks {f : IndexT c → IndexT c → IndexT c} (le : IndexT c → IndexT c → Prop)
    (pick : ∀ a b, f a b = a ∨ f a b = b) (refl : ∀ a, le a a)
    (left : ∀ a b, le a (f a b)) (right : ∀ a b, le b (f a b))
    (trans : ∀ a b d, le a b → le b d → le a d) :
    ∃ r, fold f (List.finRange c.size) = some r ∧ ∀ x, le x r := by
  have some : List.finRange c.size ≠ [] :=
    List.ne_nil_of_length_pos (by simpa using c.someSlots)
  obtain ⟨r, found, -, top⟩ := foldTree_picks pick refl left right trans
    (List.finRange c.size).length (List.finRange c.size) some (Nat.le_succ _)
  exact ⟨r, found, fun x => top x (List.mem_finRange x)⟩

section Find

variable (s : State c) (pred : IndexT c → Bool)

theorem fold_getBy {first : Nat → Nat → Bool} (before : Nat → Nat → Prop)
    (refl : ∀ x, before x x) (trans : ∀ x y z, before x y → before y z → before x z)
    (yes : ∀ x y, first x y = true → before x y) (no : ∀ x y, first x y = false → before y x) :
    ∃ r, fold (getBy s pred first) (List.finRange c.size) = some r ∧
      ∀ x, pred x = true → pred r = true ∧ before (getVTag s r) (getVTag s x) := by
  refine fold_picks (fun x r => pred x = true →
    pred r = true ∧ before (getVTag s r) (getVTag s x)) ?_ ?_ ?_ ?_ ?_
  · intro a b
    unfold getBy
    split
    · exact .inr rfl
    · split
      · exact .inl rfl
      · split
        · exact .inl rfl
        · exact .inr rfl
  · exact fun a holds => ⟨holds, refl _⟩
  · intro a b holds
    unfold getBy
    rw [if_neg (by simp [holds])]
    split
    · exact ⟨holds, refl _⟩
    next other =>
      split
      · exact ⟨holds, refl _⟩
      next later => exact ⟨by simpa using other, no _ _ (by simpa using later)⟩
  · intro a b holds
    unfold getBy
    split
    · exact ⟨holds, refl _⟩
    next other =>
      rw [if_neg (by simp [holds])]
      split
      next earlier => exact ⟨by simpa using other, yes _ _ earlier⟩
      · exact ⟨holds, refl _⟩
  · intro a b d below above holds
    obtain ⟨middle, near⟩ := below holds
    obtain ⟨last, far⟩ := above middle
    exact ⟨last, trans _ _ _ far near⟩

theorem fold_older : ∃ r, fold (getOlder s pred) (List.finRange c.size) = some r ∧
    ∀ x, pred x = true → pred r = true ∧ getVTag s r ≤ getVTag s x :=
  fold_getBy s pred (· ≤ ·) Nat.le_refl (fun _ _ _ => Nat.le_trans)
    (fun _ _ less => Nat.le_of_lt (of_decide_eq_true less))
    (fun _ _ other => Nat.le_of_not_lt (of_decide_eq_false other))

theorem fold_younger : ∃ r, fold (getYounger s pred) (List.finRange c.size) = some r ∧
    ∀ x, pred x = true → pred r = true ∧ getVTag s x ≤ getVTag s r := by
  refine fold_getBy s pred (fun x y => y ≤ x) Nat.le_refl
    (fun _ _ _ low high => Nat.le_trans high low) (fun x y other => ?_) (fun x y less => ?_)
  · simpa using other
  · have below : x < y := by simpa using less
    exact Nat.le_of_lt below

variable {s pred}

theorem findOldest_some {k : IndexT c} (found : findOldest s pred = some k) :
    pred k = true ∧ ∀ x, pred x = true → getVTag s k ≤ getVTag s x := by
  obtain ⟨r, folded, top⟩ := fold_older s pred
  rw [findOldest, folded, Option.filter_eq_some_iff] at found
  obtain ⟨same, holds⟩ := found
  obtain rfl := Option.some_inj.mp same
  exact ⟨holds, fun x hit => (top x hit).2⟩

theorem findOldest_none (none : findOldest s pred = none) (x : IndexT c) : pred x = false := by
  obtain ⟨r, folded, top⟩ := fold_older s pred
  rw [findOldest, folded, Option.filter_eq_none_iff] at none
  by_contra hit
  exact none r rfl (top x (by simpa using hit)).1

theorem findYoungest_some {k : IndexT c} (found : findYoungest s pred = some k) :
    pred k = true ∧ ∀ x, pred x = true → getVTag s x ≤ getVTag s k := by
  obtain ⟨r, folded, top⟩ := fold_younger s pred
  rw [findYoungest, folded, Option.filter_eq_some_iff] at found
  obtain ⟨same, holds⟩ := found
  obtain rfl := Option.some_inj.mp same
  exact ⟨holds, fun x hit => (top x hit).2⟩

theorem findYoungest_none (none : findYoungest s pred = none) (x : IndexT c) : pred x = false := by
  obtain ⟨r, folded, top⟩ := fold_younger s pred
  rw [findYoungest, folded, Option.filter_eq_none_iff] at none
  by_contra hit
  exact none r rfl (top x (by simpa using hit)).1

end Find

/-- From the oldest entry on, virtual tags count up by one. -/
theorem exists_vTag_base {s : State c} {count : Nat}
    (occupied : Occupied s.valid s.deqP s.enqP count) :
    ∃ base, ∀ j, j < count → getVTag s (slot s.deqP j) = base + j := by
  have bound := occupied.bound
  have start := s.deqP.isLt
  have write := congrArg Fin.val occupied.write_eq
  rw [slot_val] at write
  rcases Nat.lt_or_ge (s.deqP.val + count) c.size with straight | wrapped
  · refine ⟨s.deqP.val + c.size, fun j below => ?_⟩
    rw [Nat.mod_eq_of_lt straight] at write
    have position : (slot s.deqP j).val = s.deqP.val + j := by
      rw [slot_val, Nat.mod_eq_of_lt (by omega)]
    rw [getVTag, position, if_pos (by omega)]
    omega
  · refine ⟨s.deqP.val, fun j below => ?_⟩
    rw [Nat.mod_eq_sub_mod wrapped, Nat.mod_eq_of_lt (by omega)] at write
    rcases Nat.lt_or_ge (s.deqP.val + j) c.size with low | high
    · have position : (slot s.deqP j).val = s.deqP.val + j := by
        rw [slot_val, Nat.mod_eq_of_lt low]
      rw [getVTag, position, if_neg (by omega)]
    · have position : (slot s.deqP j).val = s.deqP.val + j - c.size := by
        rw [slot_val, Nat.mod_eq_sub_mod high, Nat.mod_eq_of_lt (by omega)]
      rw [getVTag, position, if_pos (by omega)]
      omega

theorem vTag_le_iff {s : State c} {count : Nat} (occupied : Occupied s.valid s.deqP s.enqP count)
    {j k : Nat} (jInside : j < count) (kInside : k < count) :
    getVTag s (slot s.deqP j) ≤ getVTag s (slot s.deqP k) ↔ j ≤ k := by
  obtain ⟨base, tags⟩ := exists_vTag_base occupied
  rw [tags j jInside, tags k kInside]
  omega

/-! ## The invariant -/

abbrev Map (c : RtCfg) := Table ArchRIndx (PhyRIndx c)

/-- The registers hold the map: from `deqP` on the live renamings, then the free
registers. -/
structure Tracks (s : State c) (t : Map c) : Prop where
  table : ∀ arch, s.renamingTable (getRTIndex arch) = t.committed arch
  occupied : Occupied s.valid s.deqP s.enqP t.live.length
  arch : Holds s.newRenamingsArch s.deqP (t.live.map Renaming.arch)
  phy : Holds s.newRenamingsPhy s.deqP (t.live.map Renaming.phy ++ t.free)
  total : t.live.length + t.free.length = c.size

theorem getRTIndex_injective : Function.Injective getRTIndex := by
  intro a b same
  have vals := congrArg Fin.val same
  rcases a with a | a <;> rcases b with b | b <;>
    simp only [getRTIndex, Fin.val_castAdd, Fin.val_natAdd] at vals
  · exact congrArg ArchRIndx.gpr (Fin.ext vals)
  · omega
  · omega
  · exact congrArg ArchRIndx.fpu (Fin.ext (by omega))

theorem getRTIndex_surjective (r : Fin numArchReg) : ∃ arch, getRTIndex arch = r := by
  rcases Nat.lt_or_ge r.val 32 with low | high
  · exact ⟨.gpr ⟨r.val, low⟩, rfl⟩
  · have inside : r.val < 64 := r.isLt
    refine ⟨.fpu ⟨r.val - 32, by omega⟩, Fin.ext ?_⟩
    simp only [getRTIndex, Fin.val_natAdd]
    omega

/-- Turning the ring of registers by one slot. -/
theorem holds_rotate {mem : IndexT c → PhyRIndx c} {read : IndexT c} {first : PhyRIndx c}
    {rest : List (PhyRIndx c)} (holds : Holds mem read (first :: rest))
    (all : rest.length + 1 = c.size) (freed : PhyRIndx c) :
    Holds (Function.update mem read freed) (read + 1) (rest ++ [freed]) := by
  have last : slot (read + 1) rest.length = read := by
    rw [add_one_eq_slot, slot_add, Nat.add_comm, all, ← slot_mod, Nat.mod_self, slot_zero]
  have pushed := holds.pop.push (by omega) freed
  rwa [last] at pushed

/-- The commit of the oldest renaming. -/
def commitOne (s : State c) : State c :=
  match s.newRenamingsArch s.deqP with
  | some arch =>
      { s with
        newRenamingsPhy := Function.update s.newRenamingsPhy s.deqP
          (s.renamingTable (getRTIndex arch))
        valid := Function.update s.valid s.deqP false
        renamingTable := Function.update s.renamingTable (getRTIndex arch)
          (s.newRenamingsPhy s.deqP)
        deqP := s.deqP + 1 }
  | none => { s with valid := Function.update s.valid s.deqP false, deqP := s.deqP + 1 }

theorem Tracks.commitOne {s : State c} {t : Map c} (tracks : Tracks s t) (some : t.live ≠ []) :
    Tracks (commitOne s) t.commit := by
  obtain ⟨oldest, rest, live⟩ := List.exists_cons_of_ne_nil some
  obtain ⟨table, occupied, arch, phy, total⟩ := tracks
  rw [live] at arch phy total
  rw [live, List.length_cons] at occupied
  have all : (rest.map Renaming.phy ++ t.free).length + 1 = c.size := by
    simp only [List.length_append, List.length_map, List.length_cons] at total ⊢
    omega
  rcases oldest with ⟨dst | dst, reg⟩
  · have first : s.newRenamingsArch s.deqP = none := arch.head
    have head : s.newRenamingsPhy s.deqP = reg := phy.head
    have turned := holds_rotate phy all reg
    rw [← head, Function.update_eq_self, head] at turned
    refine ⟨?_, ?_, ?_, ?_, ?_⟩
    · simpa [RenamingTable.commitOne, first, Table.commit, live] using table
    · simpa [RenamingTable.commitOne, first, Table.commit, live] using occupied.pop
    · simpa [RenamingTable.commitOne, first, Table.commit, live] using arch.pop
    · simpa [RenamingTable.commitOne, first, Table.commit, live] using turned
    · simp only [Table.commit, live, List.length_append, List.length_nil,
        List.length_cons] at total ⊢
      omega
  · have first : s.newRenamingsArch s.deqP = Option.some dst := arch.head
    have head : s.newRenamingsPhy s.deqP = reg := phy.head
    have turned := holds_rotate phy all (t.committed dst)
    refine ⟨?_, ?_, ?_, ?_, ?_⟩
    · intro a
      by_cases same : a = dst
      · simp [RenamingTable.commitOne, first, Table.commit, live, same, head]
      · have other : getRTIndex a ≠ getRTIndex dst := fun equal =>
          same (getRTIndex_injective equal)
        simp [RenamingTable.commitOne, first, Table.commit, live, same, other, table]
    · simpa [RenamingTable.commitOne, first, Table.commit, live] using occupied.pop
    · simpa [RenamingTable.commitOne, first, Table.commit, live] using arch.pop
    · simpa [RenamingTable.commitOne, first, Table.commit, live, table] using turned
    · simp only [Table.commit, live, List.length_append, List.length_nil,
        List.length_cons] at total ⊢
      omega

/-- The claim of the next free register. -/
def claimOne (s : State c) (arch : Option ArchRIndx) (specBits : SpecBits c) : State c :=
  { s with
    newRenamingsArch := Function.update s.newRenamingsArch s.enqP arch
    valid := Function.update s.valid s.enqP true
    specBits := Function.update s.specBits s.enqP specBits
    enqP := s.enqP + 1 }

theorem Tracks.claimOne {s : State c} {t : Map c} (tracks : Tracks s t) (some : t.free ≠ [])
    (arch : Option ArchRIndx) (specBits : SpecBits c) :
    Tracks (claimOne s arch specBits) (t.claim arch) := by
  obtain ⟨reg, rest, free⟩ := List.exists_cons_of_ne_nil some
  obtain ⟨table, occupied, archs, phy, total⟩ := tracks
  rw [free, List.length_cons] at total
  have pushed := archs.push (by simp; omega) arch
  rw [List.length_map, ← occupied.write_eq] at pushed
  rw [Table.claim_of_free free]
  refine ⟨table, ?_, ?_, ?_, ?_⟩
  · simpa [RenamingTable.claimOne] using occupied.push (by omega)
  · simpa [RenamingTable.claimOne] using pushed
  · simpa [RenamingTable.claimOne, free] using phy
  · simp only [List.length_append, List.length_singleton]
    omega

/-! ## The loops of `canon` -/

section Cycle

variable {s : State c} {i : Input c} {t : Map c}

/-- The commits of the oldest `count` renamings. -/
def commitMany (t : Map c) : Nat → Map c
  | 0 => t
  | count + 1 => (commitMany t count).commit

theorem length_commitMany (t : Map c) (count : Nat) (inside : count ≤ t.live.length) :
    (commitMany t count).live.length + count = t.live.length := by
  induction count with
  | zero => rfl
  | succ count ih =>
      have before := ih (by omega)
      have busy : (commitMany t count).live ≠ [] := List.ne_nil_of_length_pos (by omega)
      have shorter := Table.length_commit busy
      simp only [commitMany]
      omega

theorem commitIndex_eq (fits : NoOverflow s i) {port : Nat} (below : port < firstIdle i.commit) :
    commitIndex s port = slot s.deqP port := by
  have ports := firstIdle_le i.commit
  have narrow := c.supCnt
  exact incrIndex_eq_slot (by omega) (by have := fits.1; omega)

/-- No more renamings are committed than are in flight. -/
theorem Tracks.commit_le (tracks : Tracks s t) (env : Environment s i) (fits : NoOverflow s i) :
    firstIdle i.commit ≤ t.live.length := by
  have ports := firstIdle_le i.commit
  rcases Nat.eq_zero_or_pos (firstIdle i.commit) with none | some
  · omega
  · have last : firstIdle i.commit - 1 < c.supSize := by omega
    have commits := (env.commits ⟨firstIdle i.commit - 1, last⟩).mpr (by dsimp only; omega)
    have valid := env.canCommit _ commits
    dsimp only [canCommit] at valid
    rw [commitIndex_eq fits (by omega), tracks.occupied.live_iff] at valid
    obtain ⟨k, below, same⟩ := valid
    have narrow := c.supCnt
    have bound := tracks.occupied.bound
    have equal := slot_inj (by omega) (by omega) same
    omega

/-- What the commit loop leaves. -/
theorem Tracks.commits (tracks : Tracks s t) (env : Environment s i) (fits : NoOverflow s i) :
    Tracks (commits s i) (commitMany t (firstIdle i.commit)) ∧
      (commits s i).enqP = s.enqP ∧ (commits s i).specBits = s.specBits ∧
      (commits s i).deqP = slot s.deqP (firstIdle i.commit) := by
  have ports := firstIdle_le i.commit
  have narrow := c.supCnt
  have few := tracks.commit_le env fits
  have bound := tracks.occupied.bound
  have pointer : incrIndex s.deqP (firstIdle i.commit) = slot s.deqP (firstIdle i.commit) :=
    incrIndex_eq_slot (by omega) fits.1
  have loop := foldl_ports (commitPort s i) s
    (fun j now => Tracks { now with deqP := slot s.deqP j } (commitMany t j) ∧
      now.enqP = s.enqP ∧ now.specBits = s.specBits ∧
      now.newRenamingsArch = s.newRenamingsArch ∧
      ∀ m, j ≤ m → m < c.size →
        now.newRenamingsPhy (slot s.deqP m) = s.newRenamingsPhy (slot s.deqP m))
    ports ?_ ?_ ?_
  · obtain ⟨done, enqP, specBits, -, -⟩ := loop
    rw [RenamingTable.commits, pointer]
    exact ⟨done, enqP, specBits, rfl⟩
  · refine ⟨?_, rfl, rfl, rfl, fun _ _ _ => rfl⟩
    simpa [commitMany] using tracks
  · intro j below now before
    obtain ⟨done, enqP, specBits, archs, phys⟩ := before
    have commits := (env.commits ⟨j, Nat.lt_of_lt_of_le below ports⟩).mpr below
    have busy : (commitMany t j).live ≠ [] := by
      have left := length_commitMany t j (by omega)
      exact List.ne_nil_of_length_pos (by omega)
    have step := done.commitOne busy
    have here := phys j (Nat.le_refl j) (by omega)
    have there : ∀ m, j + 1 ≤ m → m < c.size → slot s.deqP m ≠ slot s.deqP j :=
      fun m later inside same => by
        have equal := slot_inj inside (by omega) same
        omega
    cases first : s.newRenamingsArch (slot s.deqP j) with
    | none =>
        have port : commitPort s i now ⟨j, Nat.lt_of_lt_of_le below ports⟩ =
            { now with valid := Function.update now.valid (slot s.deqP j) false } := by
          simp only [commitPort, commits, if_pos, commitIndex_eq fits below, first]
        rw [port]
        refine ⟨?_, enqP, specBits, archs, fun m later inside => phys m (by omega) inside⟩
        simpa [RenamingTable.commitOne, archs, first, slot_add_one, commitMany] using step
    | some arch =>
        have port : commitPort s i now ⟨j, Nat.lt_of_lt_of_le below ports⟩ =
            { now with
              newRenamingsPhy := Function.update now.newRenamingsPhy (slot s.deqP j)
                (now.renamingTable (getRTIndex arch))
              valid := Function.update now.valid (slot s.deqP j) false
              renamingTable := Function.update now.renamingTable (getRTIndex arch)
                (s.newRenamingsPhy (slot s.deqP j)) } := by
          simp only [commitPort, commits, if_pos, commitIndex_eq fits below, first]
        rw [port]
        refine ⟨?_, enqP, specBits, archs, fun m later inside => ?_⟩
        · simpa [RenamingTable.commitOne, archs, first, slot_add_one, commitMany, here] using step
        · dsimp only
          rw [Function.update_of_ne (there m later inside)]
          exact phys m (by omega) inside
  · intro now port late
    have quiet : i.commit port = false := by
      rw [← Bool.not_eq_true, env.commits port]
      omega
    simp [commitPort, quiet]

/-- The number of ports that claim, the lowest ones. -/
def claimCount (i : Input c) : Nat := firstIdle fun port => (i.claimRename port).isSome

/-- The destinations claimed below `port`, in order. -/
def claimed (i : Input c) (port : Nat) : List (Option ArchRIndx) :=
  ((List.finRange c.supSize).take port).filterMap fun p => (i.claimRename p).map fun r => r.1.dst

def claimMany (t : Map c) (dsts : List (Option ArchRIndx)) : Map c := dsts.foldl Table.claim t

theorem claimed_succ {port : Nat} (inside : port < c.supSize) {r : ArchRegs × SpecBits c}
    (claims : i.claimRename ⟨port, inside⟩ = some r) :
    claimed i (port + 1) = claimed i port ++ [r.1.dst] := by
  have next : (List.finRange c.supSize).take (port + 1) =
      (List.finRange c.supSize).take port ++ [⟨port, inside⟩] := by
    rw [List.take_add_one]
    simp [inside]
  simp [claimed, next, List.filterMap_append, claims]

/-- The claims from `port` on add nothing when these ports are idle. -/
theorem claimed_of_idle {port : Nat}
    (idle : ∀ p : Fin c.supSize, port ≤ p.val → i.claimRename p = none) :
    claimed i c.supSize = claimed i port := by
  have rest : ((List.finRange c.supSize).drop port).filterMap
      (fun p => (i.claimRename p).map fun r => r.1.dst) = [] := by
    rw [List.filterMap_eq_nil_iff]
    intro p inside
    obtain ⟨k, below, rfl⟩ := List.getElem_of_mem inside
    rw [idle _ (by simp)]
    rfl
  have whole : (List.finRange c.supSize).take c.supSize =
      (List.finRange c.supSize).take port ++ (List.finRange c.supSize).drop port := by
    rw [List.take_append_drop, List.take_of_length_le (by simp)]
  rw [claimed, whole, List.filterMap_append, rest, List.append_nil, claimed]

theorem length_free_claimMany {t : Map c} (dsts : List (Option ArchRIndx))
    (room : dsts.length ≤ t.free.length) :
    (claimMany t dsts).free = t.free.drop dsts.length ∧
      (claimMany t dsts).live.length = t.live.length + dsts.length := by
  induction dsts generalizing t with
  | nil => simp [claimMany]
  | cons dst dsts ih =>
      rw [List.length_cons] at room
      obtain ⟨reg, rest, free⟩ := List.exists_cons_of_ne_nil
        (List.ne_nil_of_length_pos (l := t.free) (by omega))
      rw [free, List.length_cons] at room
      have step := ih (t := t.claim dst) (by rw [Table.claim_of_free free]; dsimp only; omega)
      rw [Table.claim_of_free free] at step
      simp only [List.length_append, List.length_singleton] at step
      simp only [claimMany, List.foldl_cons, Table.claim_of_free free, free, List.length_cons,
        List.drop_succ_cons]
      exact ⟨step.1, by rw [← claimMany, step.2]; omega⟩

theorem length_claimed {port : Nat} (within : port ≤ c.supSize)
    (all : ∀ p : Fin c.supSize, p.val < port → (i.claimRename p).isSome = true) :
    (claimed i port).length = port := by
  induction port with
  | zero => simp [claimed]
  | succ port ih =>
      obtain ⟨r, claims⟩ := Option.isSome_iff_exists.mp (all ⟨port, within⟩ (Nat.lt_succ_self port))
      rw [claimed_succ within claims, List.length_append, List.length_singleton,
        ih (by omega) fun p below => all p (by omega)]

theorem claimIndex_eq {port : Nat} (small : port ≤ c.supSize)
    (fits : s.enqP.val + port < 2 ^ tLog (c.size + 1)) :
    claimIndex s port = slot s.enqP port := by
  have narrow := c.supCnt
  exact incrIndex_eq_slot (by omega) fits

/-- A port that can rename finds that many free registers. -/
theorem Tracks.room (tracks : Tracks s t) {port : Nat} (small : port < c.supSize)
    (fits : s.enqP.val + port < 2 ^ tLog (c.size + 1)) (ready : canRename s port = true) :
    t.live.length + port < c.size := by
  have narrow := c.supCnt
  have bound := tracks.occupied.bound
  by_contra full
  have invalid : ¬ s.valid (slot s.enqP port) = true := by
    rw [canRename, claimIndex_eq (by omega) fits] at ready
    simpa using ready
  refine invalid ((tracks.occupied.live_iff _).mpr
    ⟨t.live.length + port - c.size, by omega, ?_⟩)
  rw [tracks.occupied.write_eq, slot_add, ← slot_mod s.deqP (t.live.length + port),
    Nat.mod_eq_sub_mod (by omega), slot_mod]

/-- The register a port offers, while the lower ports have not moved the pointer. -/
theorem Tracks.offered (tracks : Tracks s t) {port : Nat} (small : port < c.supSize)
    (fits : s.enqP.val + port < 2 ^ tLog (c.size + 1)) (ready : canRename s port = true) :
    t.free[port]? = some (getDstRenaming s port) := by
  have room := tracks.room small fits ready
  have total := tracks.total
  have inside : port < t.free.length := by omega
  have held := tracks.phy.2 (t.live.length + port) (by simp; omega)
  rw [getDstRenaming, claimIndex_eq (by omega) fits, tracks.occupied.write_eq, slot_add, held]
  rw [List.getElem_append_right (by simp)]
  simp [inside]

theorem claimEn_isSome (port : Fin c.supSize) :
    (claimEn s i port).isSome = (i.claimRename port).isSome := by
  simp [claimEn]

/-- What the claim loop leaves when it starts on registers with the same `enqP`. -/
theorem Tracks.claims {now : State c} (tracks : Tracks now t) (enqP : now.enqP = s.enqP)
    (env : Environment s i) (fits : NoOverflow s i) (room : claimCount i ≤ t.free.length) :
    Tracks (claims s i now) (claimMany t (claimed i c.supSize)) := by
  have ports : claimCount i ≤ c.supSize := firstIdle_le _
  have narrow := c.supCnt
  have small : s.enqP.val + claimCount i < 2 ^ tLog (c.size + 1) := fits.2
  have claims : ∀ p : Fin c.supSize, (i.claimRename p).isSome = true ↔ p.val < claimCount i :=
    env.claims
  have idle : ∀ p : Fin c.supSize, claimCount i ≤ p.val → i.claimRename p = none := by
    intro p late
    rw [← Option.not_isSome_iff_eq_none, claims p]
    omega
  have pointer : incrIndex s.enqP (firstIdle fun port => (claimEn s i port).isSome) =
      slot s.enqP (claimCount i) := by
    simp only [claimEn_isSome]
    have fitting : claimCount i ≤ c.size := by omega
    exact incrIndex_eq_slot fitting small
  have loop := foldl_ports (claimPort s i) now
    (fun j reached => Tracks { reached with enqP := slot s.enqP j } (claimMany t (claimed i j)))
    ports ?_ ?_ ?_
  · rw [claimed_of_idle idle, RenamingTable.claims, pointer]
    exact loop
  · simpa [claimed, claimMany, ← enqP] using tracks
  · intro j below reached before
    have inside := Nat.lt_of_lt_of_le below ports
    obtain ⟨r, asks⟩ := Option.isSome_iff_exists.mp ((claims ⟨j, inside⟩).mpr below)
    have length : (claimed i j).length = j :=
      length_claimed (by omega) fun p earlier => (claims p).mpr (by omega)
    have left := (length_free_claimMany (t := t) (claimed i j) (by omega)).1
    have some : (claimMany t (claimed i j)).free ≠ [] := by
      rw [left]
      exact List.ne_nil_of_length_pos (by rw [List.length_drop]; omega)
    have step := before.claimOne some r.1.dst r.2
    have port : claimPort s i reached ⟨j, inside⟩ =
        { reached with
          newRenamingsArch := Function.update reached.newRenamingsArch (slot s.enqP j) r.1.dst
          valid := Function.update reached.valid (slot s.enqP j) true
          specBits := Function.update reached.specBits (slot s.enqP j) r.2 } := by
      simp only [claimPort, claimEn, asks, Option.map_some, claimIndex_eq (by omega)
        (show s.enqP.val + j < 2 ^ tLog (c.size + 1) by omega)]
    rw [port, claimed_succ inside asks]
    simpa [RenamingTable.claimOne, slot_add_one, claimMany, List.foldl_append] using step
  · intro reached port late
    simp [claimPort, claimEn, idle port late]

/-! ## Wrong speculation -/

/-- What holds from some position on when it is closed upwards. -/
theorem exists_keep (p : Nat → Prop) (count : Nat)
    (up : ∀ j k, j ≤ k → k < count → p j → p k) :
    ∃ keep ≤ count, ∀ j < count, p j ↔ keep ≤ j := by
  induction count with
  | zero => exact ⟨0, Nat.le_refl 0, fun j below => absurd below (Nat.not_lt_zero j)⟩
  | succ count ih =>
      obtain ⟨keep, bound, cut⟩ := ih fun j k le below => up j k le (by omega)
      by_cases top : p count
      · rcases Nat.lt_or_ge keep count with inside | full
        · refine ⟨keep, by omega, fun j below => ?_⟩
          rcases Nat.lt_succ_iff_lt_or_eq.mp below with earlier | rfl
          · exact cut j earlier
          · exact ⟨fun _ => by omega, fun _ => top⟩
        · refine ⟨count, by omega, fun j below => ?_⟩
          rcases Nat.lt_succ_iff_lt_or_eq.mp below with earlier | rfl
          · rw [cut j earlier]
            omega
          · exact ⟨fun _ => Nat.le_refl _, fun _ => top⟩
      · refine ⟨count + 1, Nat.le_refl _, fun j below => ⟨fun holds => ?_, fun le => by omega⟩⟩
        exact absurd (up j count (by omega) (by omega) holds) top

/-- The number of renamings a wrong speculation kills. -/
def killCount (s : State c) (i : Input c) (x : RTWrongSpec c) : Nat :=
  (Finset.univ.filter fun k => (needKill s x k && (commits s i).valid k) = true).card

theorem age_slot (s : State c) {j : Nat} (inside : j < c.size) : age s (slot s.deqP j) = j := by
  have start := s.deqP.isLt
  rw [age, slot_val, Nat.mod_add_mod]
  rw [show s.deqP.val + j + (c.size - s.deqP.val) = j + c.size by omega, Nat.add_mod_right,
    Nat.mod_eq_of_lt inside]

/-- What the kills leave. -/
theorem Tracks.kills (tracks : Tracks s t) (env : Environment s i) (fits : NoOverflow s i)
    {x : RTWrongSpec c} (wrong : i.wrongSpec = some x) :
    killCount s i x ≤ (commitMany t (firstIdle i.commit)).live.length ∧
      Tracks (kills s (RenamingTable.commits s i) x)
        ((commitMany t (firstIdle i.commit)).kill (killCount s i x)) := by
  obtain ⟨done, enqP, specBits, deqP⟩ := tracks.commits env fits
  have few := tracks.commit_le env fits
  have left := length_commitMany t (firstIdle i.commit) few
  generalize map : commitMany t (firstIdle i.commit) = t' at done left ⊢
  generalize reached : RenamingTable.commits s i = now at done enqP specBits deqP ⊢
  have bound := tracks.occupied.bound
  have inside : ∀ j, j < t'.live.length → now.valid (slot now.deqP j) = true := fun j below =>
    (done.occupied.live_iff _).mpr ⟨j, below, rfl⟩
  have place : ∀ j, slot now.deqP j = slot s.deqP (firstIdle i.commit + j) := by
    intro j
    rw [deqP, slot_add]
  obtain ⟨keep, low, cut⟩ := exists_keep
    (fun j => needKill s x (slot now.deqP j) = true) t'.live.length (by
      intro j k le below killed
      cases all : x.killAll with
      | true => simp [needKill, all]
      | false =>
          have suffix := env.suffix x wrong all (slot now.deqP j) (slot now.deqP k)
          rw [reached, place j, place k, age_slot s (by omega), age_slot s (by omega)] at suffix
          simp only [needKill, all, Bool.false_or] at killed ⊢
          rw [place] at killed ⊢
          refine suffix ?_ ?_ (by omega) killed
          · rw [← place]
            exact inside j (by omega)
          · rw [← place]
            exact inside k below)
  -- the killed entries are a window of their own
  have killed : Occupied (fun k => needKill s x k && now.valid k) (slot now.deqP keep) now.enqP
      (t'.live.length - keep) := by
    refine ⟨by omega, ?_, fun p => ?_⟩
    · rw [slot_add, Nat.add_sub_cancel' low]
      exact done.occupied.write_eq
    · rw [Bool.and_eq_true, done.occupied.live_iff]
      constructor
      · rintro ⟨kill, j, below, rfl⟩
        have late := (cut j below).mp kill
        exact ⟨j - keep, by omega, by rw [slot_add, Nat.add_sub_cancel' late]⟩
      · rintro ⟨j, below, rfl⟩
        rw [slot_add]
        exact ⟨(cut (keep + j) (by omega)).mpr (by omega), keep + j, by omega, rfl⟩
  have card : killCount s i x = t'.live.length - keep := by
    rw [killCount, reached]
    exact killed.card
  have kept : t'.live.length - killCount s i x = keep := by omega
  have pointer : (findOldest s fun k => needKill s x k && now.valid k).getD s.enqP =
      slot now.deqP keep := by
    cases found : findOldest s fun k => needKill s x k && now.valid k with
    | none =>
        have none := findOldest_none found
        have all : keep = t'.live.length := by
          by_contra some
          have first : slot now.deqP keep = slot (slot now.deqP keep) 0 := (slot_zero _).symm
          have hit := (killed.live_iff (slot now.deqP keep)).mpr ⟨0, by omega, first.symm⟩
          rw [none] at hit
          exact Bool.false_ne_true hit
        rw [Option.getD_none, all, ← enqP]
        exact done.occupied.write_eq
    | some k =>
        obtain ⟨hit, oldest⟩ := findOldest_some found
        obtain ⟨j, below, rfl⟩ := (killed.live_iff k).mp hit
        have first := oldest (slot now.deqP keep)
          ((killed.live_iff _).mpr ⟨0, by omega, slot_zero _⟩)
        rw [slot_add, place, place, vTag_le_iff tracks.occupied (by omega) (by omega)] at first
        have zero : j = 0 := by omega
        rw [Option.getD_some, zero, slot_zero]
  refine ⟨by omega, ?_⟩
  obtain ⟨table, occupied, archs, phy, total⟩ := done
  have shorter : (t'.live.take keep).length = keep := by
    rw [List.length_take]
    omega
  refine ⟨table, ?_, ?_, ?_, ?_⟩
  · simp only [Table.kill, kept, shorter, RenamingTable.kills, pointer]
    refine ⟨by omega, rfl, fun p => ?_⟩
    by_cases dies : needKill s x p = true
    · simp only [dies, if_pos, Bool.false_eq_true, false_iff]
      rintro ⟨j, below, rfl⟩
      have late := (cut j (by omega)).mp dies
      omega
    · simp only [dies, Bool.false_eq_true]
      rw [if_neg (by simp), occupied.live_iff]
      constructor
      · rintro ⟨j, below, rfl⟩
        refine ⟨j, ?_, rfl⟩
        by_contra late
        exact dies ((cut j below).mpr (by omega))
      · rintro ⟨j, below, rfl⟩
        exact ⟨j, by omega, rfl⟩
  · simp only [Table.kill, kept, RenamingTable.kills]
    refine ⟨by simp; omega, fun k below => ?_⟩
    have deeper : k < (t'.live.map Renaming.arch).length := by
      simp at below ⊢
      omega
    rw [archs.2 k deeper]
    simp
  · have same : (t'.kill (killCount s i x)).live.map Renaming.phy ++
        (t'.kill (killCount s i x)).free = t'.live.map Renaming.phy ++ t'.free := by
      simp [Table.kill, ← List.append_assoc]
    rw [same]
    exact phy
  · simp only [Table.kill, List.length_append, List.length_map, List.length_take,
      List.length_drop]
    omega

end Cycle

/-! ## The log without the killed claims -/

abbrev History (c : RtCfg) := List (State c × Input c)

/-- The log after a cycle: the commits, and either the claims or, at a wrong speculation,
the log without the killed claims. -/
def logCycle (log : List (Event ArchRIndx)) (now : State c × Input c) : List (Event ArchRIndx) :=
  let committed := List.replicate (firstIdle now.2.commit) .commit ++ log
  match now.2.wrongSpec with
  | some x => dropLatest (killCount now.1 now.2 x) committed
  | none => ((claimed now.2 c.supSize).map .claim).reverse ++ committed

/-- The commits and the claims not killed, the newest first. -/
def logOf (cycles : History c) : List (Event ArchRIndx) := cycles.foldl logCycle []

/-- The map of reset. -/
def start (c : RtCfg) : Map c where
  committed arch := (getRTIndex arch).castAdd c.size
  live := []
  free := (List.finRange c.size).map (Fin.natAdd numArchReg)

theorem replay_commits {init : Map c} (log : List (Event ArchRIndx)) (count : Nat) :
    replay init (List.replicate count .commit ++ log) = commitMany (replay init log) count := by
  induction count with
  | zero => rfl
  | succ count ih =>
      rw [List.replicate_succ, List.cons_append, replay, ih]
      rfl

theorem legal_commits {init : Map c} {log : List (Event ArchRIndx)} (legal : Legal init log)
    {count : Nat} (inside : count ≤ (replay init log).live.length) :
    Legal init (List.replicate count .commit ++ log) := by
  induction count with
  | zero => exact legal
  | succ count ih =>
      refine ⟨ih (by omega), ?_⟩
      change (replay init (List.replicate count .commit ++ log)).live ≠ []
      have left := length_commitMany (replay init log) count (by omega)
      rw [replay_commits]
      exact List.ne_nil_of_length_pos (by omega)

theorem replay_claims {init : Map c} (log : List (Event ArchRIndx))
    (dsts : List (Option ArchRIndx)) :
    replay init ((dsts.map .claim).reverse ++ log) = claimMany (replay init log) dsts := by
  induction dsts using List.reverseRecOn with
  | nil => rfl
  | append_singleton dsts dst ih =>
      rw [List.map_append, List.reverse_append, List.map_singleton, List.reverse_singleton,
        List.append_assoc, List.singleton_append, replay, ih, claimMany, claimMany,
        List.foldl_append]
      rfl

theorem legal_claims {init : Map c} {log : List (Event ArchRIndx)} (legal : Legal init log)
    {dsts : List (Option ArchRIndx)} (room : dsts.length ≤ (replay init log).free.length) :
    Legal init ((dsts.map .claim).reverse ++ log) := by
  induction dsts using List.reverseRecOn with
  | nil => exact legal
  | append_singleton dsts dst ih =>
      rw [List.length_append, List.length_singleton] at room
      rw [List.map_append, List.reverse_append, List.map_singleton, List.reverse_singleton,
        List.append_assoc, List.singleton_append]
      refine ⟨ih (by omega), ?_⟩
      change (replay init ((dsts.map .claim).reverse ++ log)).free ≠ []
      rw [replay_claims, (length_free_claimMany dsts (by omega)).1]
      exact List.ne_nil_of_length_pos (by rw [List.length_drop]; omega)

theorem commitMany_free_le (t : Map c) (count : Nat) (inside : count ≤ t.live.length) :
    t.free.length ≤ (commitMany t count).free.length := by
  induction count with
  | zero => exact Nat.le_refl _
  | succ count ih =>
      have left := length_commitMany t count (by omega)
      obtain ⟨oldest, rest, live⟩ := List.exists_cons_of_ne_nil
        (List.ne_nil_of_length_pos (l := (commitMany t count).live) (by omega))
      obtain ⟨-, freed, more⟩ := Table.commit_of_live live
      rw [commitMany, more, List.length_append]
      have before := ih (by omega)
      omega

/-- The invariant: the registers hold what the log replays to. -/
structure Inv (cycles : History c) (s : State c) : Prop where
  legal : Legal (start c) (logOf cycles)
  tracks : Tracks s (replay (start c) (logOf cycles))

theorem inv_reset (arch : IndexT c → Option ArchRIndx) : Inv [] (reset arch) where
  legal := trivial
  tracks := by
    refine ⟨fun _ => rfl, Occupied.empty _, Holds.nil _ _, ⟨?_, fun k inside => ?_⟩, ?_⟩
    · simp [logOf, replay, start]
    · have below : k < c.size := by simpa [logOf, replay, start] using inside
      have position : slot (0 : IndexT c) k = ⟨k, below⟩ := by
        apply Fin.ext
        simp [slot_val, Nat.mod_eq_of_lt below]
      simp [logOf, replay, start, reset, position]
    · simp [logOf, replay, start]

theorem Tracks.correct {now : State c} {t : Map c} (tracks : Tracks now t) (i : Input c) :
    Tracks (correct i now) t := by
  unfold RenamingTable.correct
  split
  · exact ⟨tracks.table, tracks.occupied, tracks.arch, tracks.phy, tracks.total⟩
  · exact tracks

theorem claimCount_le {s : State c} {i : Input c} {t : Map c} (tracks : Tracks s t)
    (env : Environment s i) (fits : NoOverflow s i) : claimCount i ≤ t.free.length := by
  have ports : claimCount i ≤ c.supSize := firstIdle_le _
  have small : s.enqP.val + claimCount i < 2 ^ tLog (c.size + 1) := fits.2
  rcases Nat.eq_zero_or_pos (claimCount i) with none | some
  · omega
  · have last : claimCount i - 1 < c.supSize := by omega
    have claims := (env.claims ⟨claimCount i - 1, last⟩).mpr (by
      change claimCount i - 1 < claimCount i
      omega)
    have room := tracks.room last (by omega) (env.canRename _ claims)
    have total := tracks.total
    omega

theorem Inv.next {cycles : History c} {s : State c} {i : Input c} (inv : Inv cycles s)
    (env : Environment s i) (fits : NoOverflow s i) : Inv (cycles ++ [(s, i)]) (canon s i) := by
  have few := inv.tracks.commit_le env fits
  obtain ⟨done, enqP, -, -⟩ := inv.tracks.commits env fits
  have legal := legal_commits inv.legal few
  have log : logOf (cycles ++ [(s, i)]) = logCycle (logOf cycles) (s, i) := by
    simp [logOf]
  cases wrong : i.wrongSpec with
  | some x =>
      obtain ⟨killed, kills⟩ := inv.tracks.kills env fits wrong
      rw [← replay_commits] at killed kills
      have next : logOf (cycles ++ [(s, i)]) = dropLatest (killCount s i x)
          (List.replicate (firstIdle i.commit) .commit ++ logOf cycles) := by
        simp only [log, logCycle, wrong]
      refine ⟨?_, ?_⟩
      · rw [next]
        exact legal_dropLatest legal rfl killed
      · rw [next, replay_dropLatest legal rfl killed]
        simpa [canon, wrong] using kills.correct i
  | none =>
      have room := claimCount_le inv.tracks env fits
      have more := commitMany_free_le _ _ few
      have next : logOf (cycles ++ [(s, i)]) = ((claimed i c.supSize).map .claim).reverse ++
          (List.replicate (firstIdle i.commit) .commit ++ logOf cycles) := by
        simp only [log, logCycle, wrong]
      have idle : ∀ p : Fin c.supSize, claimCount i ≤ p.val → i.claimRename p = none := by
        intro p late
        rw [← Option.not_isSome_iff_eq_none, env.claims p]
        exact Nat.not_lt.mpr late
      have length : (claimed i c.supSize).length = claimCount i := by
        rw [claimed_of_idle idle]
        exact length_claimed (firstIdle_le _) fun p earlier => (env.claims p).mpr earlier
      refine ⟨?_, ?_⟩
      · rw [next]
        refine legal_claims legal ?_
        rw [replay_commits]
        omega
      · rw [next, replay_claims, replay_commits]
        have claims := done.claims enqP env fits (by omega)
        simpa [canon, wrong] using claims.correct i

theorem inv_run {arch : IndexT c → Option ArchRIndx} {cycles : History c} {s : State c}
    (run : ((machine c arch).restrict fun _ => NoOverflow).Run cycles s) : Inv cycles s :=
  Clocked.Machine.Run.invariant Inv (inv_reset arch)
    (fun _ _ _ _ inv (allowed : Environment _ _ ∧ NoOverflow _ _) =>
      inv.next allowed.1 allowed.2) run

/-! ## What the rename ports answer -/

/-- The last hit of a list is the first one of its reverse. -/
theorem find?_reverse {α : Type} {p : α → Bool} {xs : List α} {j : Nat} (inside : j < xs.length)
    (hit : p xs[j] = true) (last : ∀ m (below : m < xs.length), p xs[m] = true → m ≤ j) :
    xs.reverse.find? p = some xs[j] := by
  have split : xs = xs.take j ++ xs[j] :: xs.drop (j + 1) := by
    rw [List.getElem_cons_drop, List.take_append_drop]
  have later : (xs.drop (j + 1)).reverse.find? p = none := by
    rw [List.find?_eq_none]
    intro x member found
    obtain ⟨k, below, rfl⟩ := List.getElem_of_mem (List.mem_reverse.mp member)
    rw [List.length_drop] at below
    rw [List.getElem_drop] at found
    have early := last (j + 1 + k) (by omega) found
    omega
  have reversed : xs.reverse = (xs.drop (j + 1)).reverse ++ xs[j] :: (xs.take j).reverse := by
    conv_lhs => rw [split]
    rw [List.reverse_append, List.reverse_cons, List.append_assoc, List.singleton_append]
  rw [reversed, List.find?_append, later, Option.none_or, List.find?_cons_of_pos hit]

section Answers

variable {s : State c} {i : Input c} {t : Map c}

/-- The array and the committed table answer as the map before the cycle's claims. -/
theorem Tracks.lookup (tracks : Tracks s t) (arch : ArchRIndx) :
    (searchNewSrcRenamings s arch).getD (s.renamingTable (getRTIndex arch)) = t.lookup arch := by
  obtain ⟨table, occupied, archs, phy, total⟩ := tracks
  have holdsArch : ∀ j (below : j < t.live.length),
      s.newRenamingsArch (slot s.deqP j) = t.live[j].arch := by
    intro j below
    rw [archs.2 j (by simpa using below), List.getElem_map]
  have inside : ∀ j, j < t.live.length → s.valid (slot s.deqP j) = true := fun j below =>
    (occupied.live_iff _).mpr ⟨j, below, rfl⟩
  unfold searchNewSrcRenamings
  cases found : findYoungest s fun k => s.valid k && decide (s.newRenamingsArch k = some arch) with
  | some k =>
      obtain ⟨hit, youngest⟩ := findYoungest_some found
      simp only [Bool.and_eq_true, decide_eq_true_eq] at hit youngest
      obtain ⟨j, below, rfl⟩ := (occupied.live_iff k).mp hit.1
      have claims := hit.2
      rw [holdsArch j below] at claims
      have last := find?_reverse (p := fun r => decide (r.arch = some arch)) below
        (by simpa using claims) fun m early later => by
          have tag := youngest (slot s.deqP m) ⟨inside m early, by
            rw [holdsArch m early]
            simpa using later⟩
          rwa [vTag_le_iff occupied early below] at tag
      have register : s.newRenamingsPhy (slot s.deqP j) = t.live[j].phy := by
        rw [phy.2 j (by simp; omega), List.getElem_append_left (by simpa using below),
          List.getElem_map]
      simp [Table.lookup, last, register]
  | none =>
      have miss := findYoungest_none found
      have none : t.live.reverse.find? (fun r => decide (r.arch = some arch)) = none := by
        rw [List.find?_eq_none]
        intro r member claims
        obtain ⟨j, below, rfl⟩ := List.getElem_of_mem (List.mem_reverse.mp member)
        have no := miss (slot s.deqP j)
        rw [holdsArch j below, inside j below, Bool.true_and] at no
        exact Bool.false_ne_true (no.symm.trans claims)
      simp [Table.lookup, none, table]

theorem searchClaimedRenamings_succ {port : Nat} (inside : port < c.supSize)
    {r : ArchRegs × SpecBits c} (claims : i.claimRename ⟨port, inside⟩ = some r)
    (arch : ArchRIndx) :
    searchClaimedRenamings s i (port + 1) arch =
      if r.1.dst = some arch then some (getDstRenaming s port)
      else searchClaimedRenamings s i port arch := by
  have next : (List.finRange c.supSize).take (port + 1) =
      (List.finRange c.supSize).take port ++ [⟨port, inside⟩] := by
    rw [List.take_add_one]
    simp [inside]
  by_cases same : r.1.dst = some arch
  · simp [searchClaimedRenamings, next, claimEn, claims, same]
  · simp [searchClaimedRenamings, next, claimEn, claims, same]

/-- The lower ports claim and the port can rename. -/
structure Ready (s : State c) (i : Input c) (port : Nat) : Prop where
  small : port < c.supSize
  fits : s.enqP.val + port < 2 ^ tLog (c.size + 1)
  lower : ∀ p : Fin c.supSize, p.val < port →
    (i.claimRename p).isSome = true ∧ canRename s p = true
  here : canRename s port = true

theorem Ready.pred {port : Nat} (ready : Ready s i (port + 1)) : Ready s i port where
  small := by
    have small := ready.small
    omega
  fits := by
    have fits := ready.fits
    omega
  lower p below := ready.lower p (by omega)
  here := by
    have small := ready.small
    exact (ready.lower ⟨port, by omega⟩ (Nat.lt_succ_self port)).2

theorem Tracks.head_free (tracks : Tracks s t) {port : Nat} (ready : Ready s i port) :
    (claimMany t (claimed i port)).free.head? = some (getDstRenaming s port) := by
  have offered := tracks.offered ready.small ready.fits ready.here
  have room := tracks.room ready.small ready.fits ready.here
  have total := tracks.total
  have length := length_claimed (Nat.le_of_lt ready.small) fun p below => (ready.lower p below).1
  rw [(length_free_claimMany (claimed i port) (by omega)).1, length, List.head?_drop, offered]

/-- A rename port answers as the map with the claims of the lower ports. -/
theorem Tracks.getSrcRenaming (tracks : Tracks s t) {port : Nat} (ready : Ready s i port)
    (arch : ArchRIndx) :
    getSrcRenaming s i port arch = (claimMany t (claimed i port)).lookup arch := by
  unfold RenamingTable.getSrcRenaming
  rw [tracks.lookup]
  induction port with
  | zero => simp [searchClaimedRenamings, claimed, claimMany]
  | succ port ih =>
      have small := ready.small
      obtain ⟨r, claims⟩ := Option.isSome_iff_exists.mp
        (ready.lower ⟨port, by omega⟩ (Nat.lt_succ_self port)).1
      obtain ⟨rest, free⟩ := List.head?_eq_some_iff.mp (tracks.head_free ready.pred)
      have step : claimMany t (claimed i (port + 1)) =
          (claimMany t (claimed i port)).claim r.1.dst := by
        rw [claimed_succ (by omega) claims, claimMany, List.foldl_append]
        rfl
      rw [step, Table.lookup_claim free, searchClaimedRenamings_succ (by omega) claims]
      by_cases same : r.1.dst = some arch
      · rw [if_pos same, if_pos same, Option.getD_some]
      · rw [if_neg same, if_neg same]
        exact ih ready.pred

end Answers

/-! ## The refinement -/

theorem start_distinct : (start c).Distinct where
  committed a b same := getRTIndex_injective (Fin.castAdd_injective _ _ same)
  others := by
    simpa [start] using (List.nodup_finRange c.size).map (Fin.natAdd_injective _ _)
  apart arch := by
    simp only [start, List.map_nil, List.nil_append, List.mem_map, not_exists, not_and]
    intro k _ same
    have vals := congrArg Fin.val same
    have inside := (getRTIndex arch).isLt
    simp only [Fin.val_natAdd, Fin.val_castAdd] at vals
    omega

theorem Table.Distinct.claimMany {t : Map c} (distinct : t.Distinct)
    (dsts : List (Option ArchRIndx)) : (claimMany t dsts).Distinct := by
  induction dsts generalizing t with
  | nil => exact distinct
  | cons dst dsts ih => exact ih (distinct.claim dst)

/-- The table and the array hold every physical register once. -/
theorem Tracks.bijective {s : State c} {t : Map c} (tracks : Tracks s t)
    (distinct : t.Distinct) :
    Function.Bijective (Sum.elim s.renamingTable s.newRenamingsPhy) := by
  have length : (t.live.map Renaming.phy ++ t.free).length = c.size := by
    simpa using tracks.total
  have held : ∀ k, ∃ j, ∃ inside : j < (t.live.map Renaming.phy ++ t.free).length,
      k = slot s.deqP j ∧ s.newRenamingsPhy k = (t.live.map Renaming.phy ++ t.free)[j] := by
    intro k
    obtain ⟨j, below, rfl⟩ := exists_slot s.deqP k
    exact ⟨j, by omega, rfl, tracks.phy.2 j (by omega)⟩
  have injective : Function.Injective (Sum.elim s.renamingTable s.newRenamingsPhy) := by
    refine Function.Injective.sumElim ?_ ?_ ?_
    · intro a b same
      obtain ⟨arch, rfl⟩ := getRTIndex_surjective a
      obtain ⟨arch', rfl⟩ := getRTIndex_surjective b
      rw [tracks.table, tracks.table] at same
      rw [distinct.committed same]
    · intro k l same
      obtain ⟨j, inside, rfl, reg⟩ := held k
      obtain ⟨m, inside', rfl, reg'⟩ := held l
      rw [reg, reg'] at same
      rw [(distinct.others.getElem_inj_iff).mp same]
    · intro a k same
      obtain ⟨arch, rfl⟩ := getRTIndex_surjective a
      obtain ⟨j, inside, rfl, reg⟩ := held k
      rw [tracks.table, reg] at same
      exact distinct.apart arch (same ▸ List.getElem_mem inside)
  exact (Fintype.bijective_iff_injective_and_card _).mpr ⟨injective, by simp⟩

/-- The answer of a rename port that offers `dst`. -/
def answer (t : Map c) (dst : PhyRIndx c) (r : ArchRegs) : PhyRegs c where
  src1 := r.src1.map t.lookup
  src2 := r.src2.map t.lookup
  src3 := r.src3.map fun f => t.lookup (.fpu f)
  dst := r.dst.map fun d => { indx := dst, isFpuReg := isFpuReg d }

/-- The registers behave as the map that `log` replays to.  The log has no killed claim,
so an answer is the one without them; no live renaming, and none of the lower ports, sees
the register offered. -/
structure Refines (log : List (Event ArchRIndx)) (s : State c) : Prop where
  legal : Legal (start c) log
  permutation : Function.Bijective (Sum.elim s.renamingTable s.newRenamingsPhy)
  interval : Occupied s.valid s.deqP s.enqP (replay (start c) log).live.length
  answers : ∀ i port, Ready s i port → ∀ r, ∃ dst,
    (claimMany (replay (start c) log) (claimed i port)).free.head? = some dst ∧
      getRename s i port r =
        answer (claimMany (replay (start c) log) (claimed i port)) dst r ∧
      ∀ age arch,
        ((claimMany (replay (start c) log) (claimed i port)).upTo age).lookup arch ≠ dst

theorem Inv.refines {cycles : History c} {s : State c} (inv : Inv cycles s) :
    Refines (logOf cycles) s where
  legal := inv.legal
  permutation := inv.tracks.bijective (start_distinct.replay _)
  interval := inv.tracks.occupied
  answers i port ready r := by
    have head := inv.tracks.head_free ready
    have distinct := Table.Distinct.claimMany ((start_distinct (c := c)).replay (logOf cycles))
      (claimed i port)
    refine ⟨getDstRenaming s port, head, ?_, ?_⟩
    · have sources := funext (inv.tracks.getSrcRenaming ready)
      simp only [getRename, answer, sources]
    · exact distinct.lookup_ne_free (List.mem_of_head? head)

/-- In every run whose pointer sums fit their width, the table refines the sequential map. -/
theorem renaming_refines {arch : IndexT c → Option ArchRIndx} {cycles : History c} {s : State c}
    (run : ((machine c arch).restrict fun _ => NoOverflow).Run cycles s) :
    Refines (logOf cycles) s :=
  (inv_run run).refines

section Example

private theorem ways_fit : 4 ≤ 6 := by decide

/-- Four ways and six slots. -/
def fourWay : RtCfg where
  supSize := 4
  size := 6
  numSpecTags := 1
  someSlots := by decide
  supCnt := ways_fit

def claimOf (dst : Fin 32) (tag : Bool) : Option (ArchRegs × SpecBits fourWay) :=
  some ({ dst := some (.gpr dst) }, fun _ => tag)

/-- Two claims, of which a wrong speculation kills the second while the first commits. -/
def killRun : List (Input fourWay) :=
  [{ claimRename := fun port => if port.val < 2 then claimOf 1 (decide (port.val = 1)) else none },
    { commit := fun port => decide (port.val = 0)
      wrongSpec := some { killAll := false, specTag := (0 : Fin 1) } }]

theorem renaming_refines_killRun :
    let m := machine fourWay fun _ => none
    let cycles := m.cyclesOf m.reset killRun
    let s := m.after m.reset killRun
    (s.enqP.val = 1 ∧ (s.renamingTable (getRTIndex (.gpr 1))).val = 64) ∧
      Refines (logOf cycles) s :=
  ⟨by decide +kernel,
    renaming_refines (Clocked.Machine.run_of_accepts
      (m := (machine fourWay fun _ => none).restrict fun _ => NoOverflow) killRun
      (by decide +kernel))⟩

/-- Single claims and commits bring both pointers to the last slot, where four claims in
one cycle form the sum nine in three bits. -/
def wrapRun : List (Input fourWay) :=
  let claim : Fin 4 → Option (ArchRegs × SpecBits fourWay) := fun port =>
    if port.val = 0 then claimOf 1 false else none
  let both : Input fourWay :=
    { claimRename := claim, commit := fun port => decide (port.val = 0) }
  [{ claimRename := claim }, both, both, both, both,
    { commit := fun port => decide (port.val = 0) }, { claimRename := fun _ => claimOf 1 false }]

theorem not_interval_wrapRun :
    ¬ ∀ (cycles : History fourWay) (s : State fourWay),
      (machine fourWay fun _ => none).Run cycles s →
        ∃ count, Occupied s.valid s.deqP s.enqP count := by
  intro interval
  obtain ⟨count, occupied⟩ := interval _ _ (Clocked.Machine.run_of_accepts
    (m := machine fourWay fun _ => none) wrapRun (by decide +kernel))
  have three : count = 3 := by
    rw [← occupied.card]
    decide +kernel
  have write := occupied.write_eq
  rw [three] at write
  exact absurd write (by decide +kernel)

end Example

/-- Sums never overflow when the ways, a power of two, share out the slots evenly. -/
theorem noOverflow_of_dvd {ways : Nat} (pow : c.supSize = 2 ^ ways) (even : c.supSize ∣ c.size)
    (s : State c) (i : Input c) : NoOverflow s i := by
  have some := c.someSlots
  have narrow := c.supCnt
  have width : c.size < 2 ^ tLog (c.size + 1) := by
    rw [tLog, if_neg (by omega), Nat.add_sub_cancel]
    exact Nat.lt_log2_self
  have divides : c.supSize ∣ 2 ^ tLog (c.size + 1) := by
    rw [pow]
    refine Nat.pow_dvd_pow 2 (Nat.le_of_lt ((Nat.pow_lt_pow_iff_right Nat.one_lt_two).mp ?_))
    rw [← pow]
    omega
  obtain ⟨a, slots⟩ := even
  obtain ⟨b, values⟩ := divides
  have room : c.size + c.supSize ≤ 2 ^ tLog (c.size + 1) := by
    have fewer : a < b := by
      by_contra more
      have bigger := Nat.mul_le_mul_left c.supSize (Nat.le_of_not_lt more)
      omega
    have step := Nat.mul_le_mul_left c.supSize (Nat.succ_le_of_lt fewer)
    rw [Nat.mul_succ] at step
    omega
  have deq := s.deqP.isLt
  have enq := s.enqP.isLt
  have commits := firstIdle_le i.commit
  have claims := firstIdle_le fun port => (i.claimRename port).isSome
  exact ⟨by omega, by omega⟩

end Toooba.RenamingTable
