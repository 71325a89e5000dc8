import Mathlib.Tactic.Common
import Mathlib.Data.List.Nodup
import Mathlib.Logic.Function.Basic

/-!
# Renaming maps with rollback

A renaming map gives each architectural register the physical register that
holds it.  Claims take free registers in order, commits make the oldest live
claim permanent and free the register it replaces, and `kill` takes back the
youngest claims.  Killing is the same as never having claimed, whatever was
committed in between.
-/

set_option autoImplicit false

namespace RenameMap

universe u v

/-- A claim in flight; one without an architectural register only holds `phy`. -/
structure Renaming (Arch : Type u) (Phy : Type v) where
  arch : Option Arch
  phy : Phy

/-- The committed map, the claims in flight from the oldest on, and the free registers in
the order they are claimed. -/
structure Table (Arch : Type u) (Phy : Type v) where
  committed : Arch → Phy
  live : List (Renaming Arch Phy)
  free : List Phy

/-- `commit` or `claim`. -/
inductive Event (Arch : Type u)
  | claim (arch : Option Arch)
  | commit

variable {Arch : Type u} {Phy : Type v}

def Table.claim (t : Table Arch Phy) (arch : Option Arch) : Table Arch Phy :=
  match t.free with
  | [] => t
  | phy :: rest => { t with live := t.live ++ [⟨arch, phy⟩], free := rest }

/-- Takes back the `count` youngest claims. -/
def Table.kill (t : Table Arch Phy) (count : Nat) : Table Arch Phy :=
  { t with
    live := t.live.take (t.live.length - count)
    free := (t.live.drop (t.live.length - count)).map Renaming.phy ++ t.free }

section Commit

variable [DecidableEq Arch]

def Table.commit (t : Table Arch Phy) : Table Arch Phy :=
  match t.live with
  | [] => t
  | ⟨none, phy⟩ :: rest => { t with live := rest, free := t.free ++ [phy] }
  | ⟨some arch, phy⟩ :: rest =>
      { committed := Function.update t.committed arch phy
        live := rest
        free := t.free ++ [t.committed arch] }

/-- The register of the youngest live claim of `arch`, or the committed one. -/
def Table.lookup (t : Table Arch Phy) (arch : Arch) : Phy :=
  ((t.live.reverse.find? fun r => decide (r.arch = some arch)).map Renaming.phy).getD
    (t.committed arch)

def Table.step (t : Table Arch Phy) : Event Arch → Table Arch Phy
  | .claim arch => t.claim arch
  | .commit => t.commit

/-- The map after a log of events, which has the newest event first. -/
def replay (init : Table Arch Phy) : List (Event Arch) → Table Arch Phy
  | [] => init
  | event :: older => (replay init older).step event

/-- A claim finds a free register and a commit a live claim. -/
def Table.Accepts (t : Table Arch Phy) : Event Arch → Prop
  | .claim _ => t.free ≠ []
  | .commit => t.live ≠ []

def Legal (init : Table Arch Phy) : List (Event Arch) → Prop
  | [] => True
  | event :: older => Legal init older ∧ (replay init older).Accepts event

end Commit

/-- The log without its `count` youngest claims. -/
def dropLatest : Nat → List (Event Arch) → List (Event Arch)
  | 0, log => log
  | _ + 1, [] => []
  | count + 1, .claim _ :: older => dropLatest count older
  | count + 1, .commit :: older => .commit :: dropLatest (count + 1) older

variable {t init : Table Arch Phy} {log : List (Event Arch)} {count : Nat}

theorem Table.claim_of_free {phy : Phy} {rest : List Phy} (free : t.free = phy :: rest)
    (arch : Option Arch) :
    t.claim arch = { t with live := t.live ++ [⟨arch, phy⟩], free := rest } := by
  simp [Table.claim, free]

@[simp] theorem Table.kill_zero (t : Table Arch Phy) : t.kill 0 = t := by
  simp [Table.kill]

theorem Table.kill_claim (some : t.free ≠ []) (arch : Option Arch)
    (live : count ≤ t.live.length) : (t.claim arch).kill (count + 1) = t.kill count := by
  obtain ⟨phy, rest, free⟩ := List.exists_cons_of_ne_nil some
  rw [Table.claim_of_free free]
  have shorter : t.live.length + 1 - (count + 1) = t.live.length - count := by omega
  have within : t.live.length - count ≤ t.live.length := Nat.sub_le _ _
  simp only [Table.kill, List.length_append, List.length_singleton, shorter,
    List.take_append_of_le_length within, List.drop_append_of_le_length within, free,
    List.map_append, List.map_cons, List.map_nil, List.append_assoc, List.singleton_append]

/-- The registers of the committed map, the live claims and the free list are distinct. -/
structure Table.Distinct (t : Table Arch Phy) : Prop where
  committed : Function.Injective t.committed
  others : (t.live.map Renaming.phy ++ t.free).Nodup
  apart : ∀ arch, t.committed arch ∉ t.live.map Renaming.phy ++ t.free

theorem Table.Distinct.claim (distinct : t.Distinct) (arch : Option Arch) :
    (t.claim arch).Distinct := by
  cases free : t.free with
  | nil => simpa [Table.claim, free] using distinct
  | cons phy rest =>
      rw [Table.claim_of_free free]
      have same : (t.live ++ [(⟨arch, phy⟩ : Renaming Arch Phy)]).map Renaming.phy ++ rest =
          t.live.map Renaming.phy ++ t.free := by
        simp [free]
      exact ⟨distinct.committed, same ▸ distinct.others, fun a => same ▸ distinct.apart a⟩

theorem Table.Distinct.kill (distinct : t.Distinct) (count : Nat) : (t.kill count).Distinct := by
  have same : (t.kill count).live.map Renaming.phy ++ (t.kill count).free =
      t.live.map Renaming.phy ++ t.free := by
    simp [Table.kill, ← List.append_assoc]
  exact ⟨distinct.committed, same ▸ distinct.others, fun a => same ▸ distinct.apart a⟩

/-- What a live claim sees: the committed map and the claims older than it. -/
def Table.upTo (t : Table Arch Phy) (age : Nat) : Table Arch Phy :=
  { t with live := t.live.take age }

section Commit

variable [DecidableEq Arch]

/-- What a commit does to the oldest claim. -/
theorem Table.commit_of_live {oldest : Renaming Arch Phy} {rest : List (Renaming Arch Phy)}
    (live : t.live = oldest :: rest) :
    t.commit.live = rest ∧ ∃ freed, t.commit.free = t.free ++ [freed] := by
  rcases oldest with ⟨arch | arch, phy⟩
  · exact ⟨by simp [Table.commit, live], phy, by simp [Table.commit, live]⟩
  · exact ⟨by simp [Table.commit, live], t.committed arch, by simp [Table.commit, live]⟩

theorem Table.length_commit (some : t.live ≠ []) : t.commit.live.length + 1 = t.live.length := by
  obtain ⟨oldest, rest, live⟩ := List.exists_cons_of_ne_nil some
  rw [(Table.commit_of_live live).1, live, List.length_cons]

/-- The oldest claim and the youngest ones do not meet. -/
theorem Table.kill_commit (live : count < t.live.length) :
    t.commit.kill count = (t.kill count).commit := by
  cases whole : t.live with
  | nil => simp [whole] at live
  | cons oldest rest =>
      rw [whole, List.length_cons] at live
      have keep : rest.length + 1 - count = rest.length - count + 1 := by omega
      rcases oldest with ⟨arch | arch, phy⟩ <;>
        simp [Table.commit, Table.kill, whole, keep]

/-- Killing the youngest claims is never having made them. -/
theorem replay_dropLatest (legal : Legal init log)
    (live : init.live = []) (killed : count ≤ (replay init log).live.length) :
    replay init (dropLatest count log) = (replay init log).kill count := by
  induction log generalizing count with
  | nil =>
      have none : count = 0 := by simpa [replay, live] using killed
      simp [none, dropLatest]
  | cons event older ih =>
      cases count with
      | zero => simp [dropLatest]
      | succ count =>
          cases event with
          | claim arch =>
              have free : (replay init older).free ≠ [] := legal.2
              have fewer : count ≤ (replay init older).live.length := by
                obtain ⟨phy, rest, first⟩ := List.exists_cons_of_ne_nil free
                simp only [replay, Table.step, Table.claim_of_free first, List.length_append,
                  List.length_singleton] at killed
                omega
              rw [dropLatest, ih legal.1 fewer, replay, Table.step,
                Table.kill_claim free arch fewer]
          | commit =>
              have busy : (replay init older).live ≠ [] := legal.2
              have shorter := Table.length_commit busy
              simp only [replay, Table.step] at killed
              rw [dropLatest, replay, Table.step, ih legal.1 (by omega), replay, Table.step,
                Table.kill_commit (by omega)]

theorem legal_dropLatest (legal : Legal init log)
    (live : init.live = []) (killed : count ≤ (replay init log).live.length) :
    Legal init (dropLatest count log) := by
  induction log generalizing count with
  | nil =>
      have none : count = 0 := by simpa [replay, live] using killed
      simpa [none, dropLatest] using legal
  | cons event older ih =>
      cases count with
      | zero => simpa [dropLatest] using legal
      | succ count =>
          cases event with
          | claim arch =>
              have free : (replay init older).free ≠ [] := legal.2
              obtain ⟨phy, rest, first⟩ := List.exists_cons_of_ne_nil free
              simp only [replay, Table.step, Table.claim_of_free first, List.length_append,
                List.length_singleton] at killed
              exact ih legal.1 (by omega)
          | commit =>
              have busy : (replay init older).live ≠ [] := legal.2
              have shorter := Table.length_commit busy
              simp only [replay, Table.step] at killed
              refine ⟨ih legal.1 (by omega), ?_⟩
              rw [replay_dropLatest legal.1 live (by omega)]
              refine List.ne_nil_of_length_pos ?_
              simp only [Table.kill, List.length_take]
              omega

/-! ## Lookups -/

/-- A commit changes no answer. -/
theorem Table.lookup_commit (t : Table Arch Phy) (arch : Arch) :
    t.commit.lookup arch = t.lookup arch := by
  cases whole : t.live with
  | nil => simp [Table.commit, whole]
  | cons oldest rest =>
      rcases oldest with ⟨claimed | claimed, phy⟩
      · simp [Table.commit, Table.lookup, whole, List.find?_append]
      · cases younger : rest.reverse.find? fun r => decide (r.arch = some arch) with
        | some r => simp [Table.commit, Table.lookup, whole, List.find?_append, younger]
        | none =>
            by_cases same : claimed = arch
            · simp [Table.commit, Table.lookup, whole, List.find?_append, younger, same]
            · simp [Table.commit, Table.lookup, whole, List.find?_append, younger, same,
                Ne.symm same]

/-- A claim answers for its own register. -/
theorem Table.lookup_claim {phy : Phy} {rest : List Phy} (free : t.free = phy :: rest)
    (claimed : Option Arch) (arch : Arch) :
    (t.claim claimed).lookup arch = if claimed = some arch then phy else t.lookup arch := by
  by_cases same : claimed = some arch
  · simp [Table.claim_of_free free, Table.lookup, same]
  · simp [Table.claim_of_free free, Table.lookup, same]

/-! ## No register is used twice -/

theorem Table.Distinct.commit (distinct : t.Distinct) : t.commit.Distinct := by
  cases whole : t.live with
  | nil => simpa [Table.commit, whole] using distinct
  | cons oldest rest =>
      have others := distinct.others
      have apart := distinct.apart
      simp only [whole, List.map_cons, List.cons_append, List.nodup_cons] at others
      simp only [whole, List.map_cons, List.cons_append, List.mem_cons, not_or] at apart
      rcases oldest with ⟨arch | arch, phy⟩
      · have rotated : (rest.map Renaming.phy ++ (t.free ++ [phy])).Perm
            (phy :: (rest.map Renaming.phy ++ t.free)) := by
          rw [← List.append_assoc]
          exact List.perm_append_singleton _ _
        refine ⟨by simpa [Table.commit, whole] using distinct.committed, ?_, fun a => ?_⟩
        · simpa [Table.commit, whole, rotated.nodup_iff] using others
        · simpa [Table.commit, whole, or_comm, not_or, and_assoc, and_comm, and_left_comm]
            using apart a
      · refine ⟨?_, ?_, fun a => ?_⟩
        · intro a b same
          simp only [Table.commit, whole] at same
          by_cases left : a = arch <;> by_cases right : b = arch
          · rw [left, right]
          · simp only [left, Function.update_self, Function.update_of_ne right] at same
            exact ((apart b).1 same.symm).elim
          · simp only [right, Function.update_self, Function.update_of_ne left] at same
            exact ((apart a).1 same).elim
          · rw [Function.update_of_ne left, Function.update_of_ne right] at same
            exact distinct.committed same
        · have rotated : (rest.map Renaming.phy ++ (t.free ++ [t.committed arch])).Perm
              (t.committed arch :: (rest.map Renaming.phy ++ t.free)) := by
            rw [← List.append_assoc]
            exact List.perm_append_singleton _ _
          simp only [Table.commit, whole]
          rw [rotated.nodup_iff]
          exact List.nodup_cons.mpr ⟨(apart arch).2, others.2⟩
        · simp only [Table.commit, whole, ← List.append_assoc, List.mem_append,
            List.mem_singleton, not_or]
          by_cases same : a = arch
          · rw [same, Function.update_self]
            exact ⟨by simpa using others.1, Ne.symm (apart arch).1⟩
          · rw [Function.update_of_ne same]
            exact ⟨by simpa using (apart a).2, fun equal => same (distinct.committed equal)⟩

theorem Table.Distinct.replay (distinct : init.Distinct) (log : List (Event Arch)) :
    (replay init log).Distinct := by
  induction log with
  | nil => exact distinct
  | cons event older ih =>
      cases event with
      | claim arch => exact ih.claim arch
      | commit => exact ih.commit

theorem Table.lookup_mem (t : Table Arch Phy) (arch : Arch) :
    t.lookup arch ∈ t.live.map Renaming.phy ∨ t.lookup arch = t.committed arch := by
  unfold Table.lookup
  cases found : t.live.reverse.find? fun r => decide (r.arch = some arch) with
  | some r =>
      have live : r ∈ t.live := List.mem_reverse.mp (List.mem_of_find?_eq_some found)
      exact .inl (List.mem_map.mpr ⟨r, live, rfl⟩)
  | none => exact .inr rfl

/-- No live claim sees a free register. -/
theorem Table.Distinct.lookup_ne_free (distinct : t.Distinct) {phy : Phy} (free : phy ∈ t.free)
    (age : Nat) (arch : Arch) : (t.upTo age).lookup arch ≠ phy := by
  intro same
  rcases (t.upTo age).lookup_mem arch with live | committed
  · have taken : phy ∈ t.live.map Renaming.phy := by
      rw [same] at live
      obtain ⟨r, held, rfl⟩ := List.mem_map.mp live
      exact List.mem_map.mpr ⟨r, List.mem_of_mem_take held, rfl⟩
    exact List.disjoint_of_nodup_append distinct.others taken free
  · rw [same] at committed
    refine distinct.apart arch ?_
    rw [show t.committed arch = phy from committed.symm]
    exact List.mem_append_right _ free

end Commit

end RenameMap
