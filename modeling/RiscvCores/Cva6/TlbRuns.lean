import RiscvCores.Cva6.Tlb
import RiscvCores.Lib.DecisionTree

/-!
# Runs of a first-level translation buffer

Which entry a fill replaces, and what a hit says about the fills and flushes before it.
-/

set_option autoImplicit false

namespace Cva6.Tlb

open SharedTlb

variable {cfg : TlbCfg} {entries : Nat} {s : State cfg entries} {i : Input cfg}
  {cycles : List (State cfg entries × Input cfg)}

/-- The buffer under any updates, lookups and flushes. -/
def machine (cfg : TlbCfg) (entries : Nat) :
    Clocked.Machine (State cfg entries) (Input cfg) where
  reset := reset
  next := next
  allowed _ _ _ := True

instance (cycles : List (State cfg entries × Input cfg)) (s : State cfg entries)
    (i : Input cfg) : Decidable ((machine cfg entries).allowed cycles s i) :=
  instDecidableTrue

private def sv39Buffer : TlbCfg where
  rvh := false
  ptLevels := 3
  partWidth := 9
  extraWidth := 0
  noExtra := TlbCfg.no_extra false
  vlen := 64
  svWidth := 39
  xlen := 64
  asidWidth := 16
  vmidWidth := 1
  ways := 2
  setBits := 6

/-- A fill of a page for an address space. -/
private def fillOf (page asid : Nat) (content : BitVec 64) : TlbUpdate sv39Buffer where
  valid := true
  isPageS := 0
  isPageG := 0
  vpn := BitVec.ofNat _ page
  asid := BitVec.ofNat _ asid
  vmid := 0
  vStEnbl := ⟨false, false, true⟩
  content := content
  gContent := 0

/-- A lookup of a page, with a fill. -/
private def lookUp (page asid : Nat) (enabled : Bool) (update : Option (TlbUpdate sv39Buffer)) :
    Input sv39Buffer where
  flush := false
  sStEnbl := enabled
  update := update
  luAccess := true
  luAsid := BitVec.ofNat _ asid
  luVaddr := BitVec.ofNat _ (4096 * page)
  asidToBeFlushed := 0
  vaddrToBeFlushed := 0

/-! ## Replacement -/

theorem next_of_fills {e : Fin entries} {u : TlbUpdate cfg} (filled : fills s i e = some u) :
    (next s i).tags e = fillTag u ∧ (next s i).content e = u.content := by
  simp [next, filled]

/-- Three pages filled and used, one after the other. -/
private def threePages : List (Input sv39Buffer) :=
  [lookUp 1 0 true (some (fillOf 1 0 1)), lookUp 1 0 true none,
    lookUp 2 0 true (some (fillOf 2 0 1)), lookUp 2 0 true none,
    lookUp 3 0 true (some (fillOf 3 0 1)), lookUp 3 0 true none]

/-- The level of a page: the largest one its tag claims. -/
def Tag.level (tag : Tag cfg) : Nat :=
  Nat.findGreatest (fun x => pageMatch tag x = true) (cfg.ptLevels - 1)

/-- The page contains the address. -/
def Tag.Covers (tag : Tag cfg) (vaddr : BitVec cfg.vlen) : Prop :=
  ∀ y : Fin cfg.ptLevels, tag.level ≤ y.val → vpnMatch tag vaddr y = true

theorem anyLevelMatch_iff (levels : 0 < cfg.ptLevels) (tag : Tag cfg) (vaddr : BitVec cfg.vlen) :
    anyLevelMatch tag vaddr = true ↔ tag.Covers vaddr := by
  rw [anyLevelMatch, decide_eq_true_iff]
  constructor
  · rintro ⟨x, hit⟩ y above
    obtain ⟨parts, page⟩ := Bool.and_eq_true_iff.mp hit
    have larger : x.val ≤ tag.level := Nat.le_findGreatest (by omega) page
    exact of_decide_eq_true parts y (Nat.le_trans larger above)
  · intro covers
    have inside : tag.level < cfg.ptLevels := by
      have bound : tag.level ≤ cfg.ptLevels - 1 := Nat.findGreatest_le _
      omega
    have page : pageMatch tag tag.level = true :=
      Nat.findGreatest_spec (P := fun x => pageMatch tag x = true) (Nat.zero_le _) rfl
    refine ⟨⟨tag.level, inside⟩, Bool.and_eq_true_iff.mpr ⟨?_, page⟩⟩
    exact decide_eq_true fun y above => covers y above

/-- What `SFENCE.VMA` with an address and an address space must invalidate; zero stands for
all of them. -/
def MustInvalidate (tag : Tag cfg) (content : BitVec cfg.xlen) (vaddr : BitVec cfg.vlen)
    (asid : BitVec cfg.asidWidth) : Prop :=
  if asid = 0 then vaddr = 0 ∨ tag.Covers vaddr
  else isGlobal content = false ∧ tag.asid = asid ∧ (vaddr = 0 ∨ tag.Covers vaddr)

theorem flushes_iff (levels : 0 < cfg.ptLevels) (s : State cfg entries) (i : Input cfg)
    (e : Fin entries) :
    flushes s i e = true ↔
      MustInvalidate (s.tags e) (s.content e) i.vaddrToBeFlushed i.asidToBeFlushed := by
  have covers := anyLevelMatch_iff levels (s.tags e) i.vaddrToBeFlushed
  unfold flushes MustInvalidate
  rw [← covers]
  by_cases asid : i.asidToBeFlushed = 0#(cfg.asidWidth) <;>
    by_cases vaddr : i.vaddrToBeFlushed = 0#(cfg.vlen) <;> simp [asid, vaddr] <;> grind

/-- The fill was installed and no flush since then had to remove it. -/
def Installed (cycles : List (State cfg entries × Input cfg)) (u : TlbUpdate cfg) : Prop :=
  ∃ before now after, cycles = before ++ now :: after ∧ now.2.update = some u ∧
    now.2.flush = false ∧
    ∀ later ∈ after, later.2.flush = true →
      ¬ MustInvalidate (fillTag u) u.content later.2.vaddrToBeFlushed later.2.asidToBeFlushed

/-- Every valid entry is a fill that is still to be held. -/
theorem installed_of_run (levels : 0 < cfg.ptLevels) (run : (machine cfg entries).Run cycles s) :
    ∀ e, (s.tags e).valid = true →
      ∃ u, s.tags e = fillTag u ∧ s.content e = u.content ∧ Installed cycles u := by
  apply run.invariant fun cycles s => ∀ e : Fin entries, (s.tags e).valid = true →
    ∃ u, s.tags e = fillTag u ∧ s.content e = u.content ∧ Installed cycles u
  · intro e valid
    cases valid
  · intro cycles s i _ inv _ e valid
    cases filled : fills s i e with
    | some u =>
        obtain ⟨tag, content⟩ := next_of_fills filled
        refine ⟨u, tag, content, cycles, (s, i), [], rfl, ?_⟩
        unfold fills at filled
        split at filled
        · next here =>
            simp only [Bool.and_eq_true, Bool.not_eq_true'] at here
            exact ⟨filled, here.1.1, fun _ none => by cases none⟩
        · cases filled
    | none =>
        have kept : (next s i).tags e = s.tags e ∧ (next s i).content e = s.content e ∧
            (i.flush = true → flushes s i e = false) := by
          change ((next s i).tags e).valid = true at valid
          simp only [next, filled] at valid ⊢
          cases flushed : i.flush && flushes s i e with
          | true => simp [flushed] at valid
          | false =>
              refine ⟨by simp, trivial, ?_⟩
              intro flush
              simpa [flush] using flushed
        obtain ⟨tag, content, spared⟩ := kept
        have valid' : (s.tags e).valid = true := tag ▸ valid
        obtain ⟨u, tagBefore, contentBefore, before, now, after, split, update, noFlush, still⟩ :=
          inv e valid'
        refine ⟨u, tag.trans tagBefore, content.trans contentBefore, before, now,
          after ++ [(s, i)], by simp [split], update, noFlush, ?_⟩
        intro later member flush
        rcases List.mem_append.mp member with earlier | last
        · exact still later earlier flush
        · rw [List.mem_singleton.mp last] at flush ⊢
          rw [← tagBefore, ← contentBefore, ← flushes_iff levels, spared flush]
          simp

/-- What a lookup may rely on after a run. -/
structure SoundLookup (cycles : List (State cfg entries × Input cfg)) (s : State cfg entries)
    (i : Input cfg) : Prop where
  /-- A hit returns an installed fill for the address and, while translation is enabled, for
  the address space. -/
  hit : luHit s i = true → ∃ u, Installed cycles u ∧ luContent s i = u.content ∧
    luIsPage s i = u.isPageS ∧ (fillTag u).Covers i.luVaddr ∧
    (i.sStEnbl = true → u.asid = i.luAsid ∨ isGlobal u.content = true)
  /-- No entry that hits was to be removed by a flush since it was installed. -/
  fenced : ∀ e, entryHits s i e = true →
    ∃ u, s.tags e = fillTag u ∧ s.content e = u.content ∧ Installed cycles u

theorem lookup_sound (levels : 0 < cfg.ptLevels) (run : (machine cfg entries).Run cycles s)
    (i : Input cfg) : SoundLookup cycles s i := by
  have installed : ∀ e, entryHits s i e = true →
      ∃ u, s.tags e = fillTag u ∧ s.content e = u.content ∧ Installed cycles u := by
    intro e hits
    simp only [entryHits, Bool.and_eq_true] at hits
    exact installed_of_run levels run e hits.1.1.1
  refine ⟨?_, installed⟩
  intro hit
  obtain ⟨e, hits, content, page⟩ := luHit_entry hit
  obtain ⟨u, tag, held, there⟩ := installed e hits
  simp only [entryHits, Bool.and_eq_true] at hits
  obtain ⟨⟨⟨-, asid⟩, -⟩, level⟩ := hits
  refine ⟨u, there, content.trans held, ?_, ?_, ?_⟩
  · rw [page, tag]
    rfl
  · rw [← tag]
    exact (anyLevelMatch_iff levels _ _).mp level
  · intro enabled
    rw [matchAsid, enabled, tag, held] at asid
    simp only [Bool.and_true, Bool.not_true, Bool.or_false, Bool.or_eq_true, beq_iff_eq] at asid
    exact asid.imp_left Eq.symm

theorem lookup_sound_filled :
    let m : Clocked.Machine (State sv39Buffer 4) (Input sv39Buffer) := machine sv39Buffer 4
    SoundLookup (m.cyclesOf m.reset [lookUp 1 0 true (some (fillOf 1 0 1))])
      (m.after m.reset [lookUp 1 0 true (some (fillOf 1 0 1))]) (lookUp 1 0 true none) := by
  intro m
  exact lookup_sound (by decide) (Clocked.Machine.run_of_accepts _ (by decide)) _

/-- With translation disabled, a lookup for one address space hits the page of another. -/
theorem disabled_lookup_other_asid :
    ¬ ∀ cycles (s : State sv39Buffer 4), (machine sv39Buffer 4).Run cycles s →
      ∀ i e, entryHits s i e = true →
        (s.tags e).asid = i.luAsid ∨ isGlobal (s.content e) = true := by
  intro own
  have run := Clocked.Machine.run_of_accepts (m := machine sv39Buffer 4)
    [lookUp 1 1 true (some (fillOf 1 1 1))] (by decide)
  have same := own _ _ run (lookUp 1 2 false none) 0 (by decide +kernel)
  revert same
  decide +kernel

end Cva6.Tlb
