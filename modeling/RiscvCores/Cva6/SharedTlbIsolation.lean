import RiscvCores.Cva6.SharedTlb

/-!
# Isolation of address spaces in the shared translation buffer

A table records, for each set and way, the page-table-walker update stored there
since the last flush.  A clean lookup hits only an update stored for its own
address space and page, and hands out the PTE stored with it.
-/

set_option autoImplicit false

namespace Cva6.SharedTlb

open TechCells

variable {cfg : TlbCfg}

/-! ## Stored updates -/

/-- Which update each way of each set holds. -/
abbrev Table (cfg : TlbCfg) : Type := SetIndex cfg → Fin cfg.ways → Option (TlbUpdate cfg)

/-- An update as it is stored, with the stage enables of the side that asked last. -/
def storedUpdate (s : State cfg) (i : Input cfg) : TlbUpdate cfg :=
  { i.sharedTlbUpdate with vStEnbl := (vStEnbl i s.iReqQ).visible cfg }

def Table.cycle (table : Table cfg) (now : State cfg × Input cfg) : Table cfg := fun set w =>
  if anyFlush now.2 then none
  else if wrEn now.1 now.2 w && set == wrAddr now.2 then some (storedUpdate now.1 now.2)
  else table set w

/-- The updates stored since the last flush that are still in place. -/
def resident (cycles : List (State cfg × Input cfg)) : Table cfg :=
  cycles.foldl Table.cycle fun _ _ => none

theorem resident_append (cycles : List (State cfg × Input cfg)) (s : State cfg)
    (i : Input cfg) : resident (cycles ++ [(s, i)]) = (resident cycles).cycle (s, i) := by
  simp [resident]

/-! ## What a hit may return -/

/-- The level of the page one stage maps: the highest level flagged as a leaf. -/
def stageLevel (ptLevels : Nat) (isPage : BitVec (ptLevels - 1)) : Nat :=
  (List.range ptLevels).foldl
    (fun level x => if x ≠ 0 ∧ isPage.getLsbD (ptLevels - 1 - x) = true then x else level) 0

/-- The level of a stored page: the smaller page of the enabled stages. -/
def pageLevel (e : TlbUpdate cfg) : Nat :=
  let levelS := stageLevel cfg.ptLevels e.isPageS
  let levelG := stageLevel cfg.ptLevels e.isPageG
  if e.vStEnbl.s && e.vStEnbl.g then min levelS levelG
  else if e.vStEnbl.s then levelS
  else levelG

/-- The number of page-number bits: guest-physical addresses have extra ones. -/
def vpnBits (e : TlbUpdate cfg) : Nat :=
  if e.vStEnbl.s then cfg.partWidth * cfg.ptLevels else cfg.vpnLen

/-- The page numbers agree from the page's own level up. -/
def SamePage (e : TlbUpdate cfg) (vaddr : BitVec cfg.vlen) : Prop :=
  ∀ k, cfg.partWidth * pageLevel e ≤ k → k < vpnBits e →
    e.vpn.getLsbD k = vaddr.getLsbD (12 + k)

/-- The request a lookup makes. -/
def lookupAsid (i : Input cfg) : BitVec cfg.asidWidth :=
  if itlbLookup i then i.itlbAsid else i.dtlbAsid

def lookupStages (i : Input cfg) : StageEnbl := (vStEnbl i (itlbLookup i)).visible cfg

/-- An update that the lookup of cycle `i` may be answered with. -/
structure SameSpace (i : Input cfg) (e : TlbUpdate cfg) : Prop where
  asid : (lookupStages i).s = true → e.asid = lookupAsid i ∨ isGlobal e.content = true
  vmid : (lookupStages i).g = true → e.vmid = i.luVmid
  stages : e.vStEnbl = lookupStages i
  page : SamePage e (lookupVaddr i)

/-- The lookup of cycle `i` is answered in the next cycle, with registers `s'` and
inputs `i'`, from updates of its own address space only. -/
structure Isolated (table : Table cfg) (i : Input cfg) (s' : State cfg) (i' : Input cfg) :
    Prop where
  hit : ∀ w, wayHits s' i' w = true →
    ∃ e, table (rdAddr i) w = some e ∧ SameSpace i e
  itlb : ∀ handed, itlbUpdate s' i' = some handed → itlbLookup i = true ∧
    ∃ w e, wayHits s' i' w = true ∧ table (rdAddr i) w = some e ∧
      handed.content = e.content ∧ (cfg.rvh = true → handed.gContent = e.gContent)
  dtlb : ∀ handed, dtlbUpdate s' i' = some handed → dtlbLookup i = true ∧
    ∃ w e, wayHits s' i' w = true ∧ table (rdAddr i) w = some e ∧
      handed.content = e.content ∧ (cfg.rvh = true → handed.gContent = e.gContent)

/-! ## The memories follow the table -/

/-- The words written for an update. -/
def tagOf (e : TlbUpdate cfg) : SharedTag cfg where
  asid := e.asid
  vmid := e.vmid
  vpn :=
    { part := fun z => e.vpn.extractLsb' (cfg.partWidth * z.val) cfg.partWidth
      extra := e.vpn.extractLsb' (cfg.vpnLen - cfg.extraWidth) cfg.extraWidth }
  isPageS := e.isPageS
  isPageG := e.isPageG
  vStEnbl := e.vStEnbl

/-- A valid bit is set exactly for a resident update, whose words are in the memories. -/
structure Follows (table : Table cfg) (s : State cfg) : Prop where
  valid : ∀ set w, s.sharedTagValidQ set w = (table set w).isSome
  tag : ∀ set w e, table set w = some e → (s.tagSram w).words set = tagOf e
  pte : ∀ set w e, table set w = some e → (s.pteSram w).words set = e.content
  gPte : ∀ set w e, table set w = some e → (s.gPteSram w).words set = e.gContent

section Cycle

variable {table : Table cfg} {s : State cfg} {i : Input cfg}

/-- After a cycle a memory holds the written word in the written slot and its old
words elsewhere. -/
theorem words_cycle {Data : Type} (m : Sram (SetIndex cfg) Data) (wdata : Data)
    (set : SetIndex cfg) (w : Fin cfg.ways) :
    (m.cycle (sramPort s i w wdata)).words set =
      if wrEn s i w && set == wrAddr i then wdata else m.words set := by
  by_cases write : wrEn s i w = true
  · rw [m.words_of_write _ (by simp [sramPort, write]) (by simp [sramPort, write])]
    have address : (sramPort s i w wdata).addr = wrAddr i := by
      simp only [sramPort, sramAddr]
      rw [if_pos ⟨w, write⟩]
    rw [address]
    by_cases same : set = wrAddr i
    · simp [same, write, sramPort]
    · simp [same, write]
  · rw [m.words_of_no_write _ (by simpa [sramPort] using write)]
    simp [write]

/-- A word of a memory that follows the table still does after a cycle. -/
theorem Table.words_cycle {Data : Type} {m : Sram (SetIndex cfg) Data} {wdata : Data}
    {word : TlbUpdate cfg → Data} {w : Fin cfg.ways}
    (follows : ∀ set e, table set w = some e → m.words set = word e)
    (written : wdata = word (storedUpdate s i)) (set : SetIndex cfg) (e : TlbUpdate cfg)
    (holds : table.cycle (s, i) set w = some e) :
    (m.cycle (sramPort s i w wdata)).words set = word e := by
  rw [SharedTlb.words_cycle]
  simp only [Table.cycle] at holds
  split_ifs at holds ⊢ with _ write
  · cases holds
    exact written
  · exact follows set e holds

theorem Follows.cycle (follows : Follows table s) : Follows (table.cycle (s, i)) (next s i) where
  valid := by
    intro set w
    simp only [next, sharedTagValidD, Table.cycle, follows.valid]
    split_ifs <;> rfl
  tag := fun set w => Table.words_cycle (fun set => follows.tag set w) rfl set
  pte := fun set w => Table.words_cycle (fun set => follows.pte set w) rfl set
  gPte := fun set w => Table.words_cycle (fun set => follows.gPte set w) rfl set

end Cycle

theorem follows_of_run {memories : PowerOn cfg} {cycles : List (State cfg × Input cfg)}
    {s : State cfg} (run : (machine memories).Run cycles s) : Follows (resident cycles) s := by
  refine run.invariant (fun cycles s => Follows (resident cycles) s) ?_ ?_
  · refine ⟨fun _ _ => rfl, ?_, ?_, ?_⟩ <;>
      · intro _ _ _ holds
        cases holds
  · intro cycles s i _ follows _
    rw [resident_append]
    exact follows.cycle

@[simp] theorem visible_s (st : StageEnbl) : (st.visible cfg).s = st.s := by
  unfold StageEnbl.visible
  split <;> rfl

@[simp] theorem visible_g (st : StageEnbl) : (st.visible cfg).g = (cfg.rvh && st.g) := by
  unfold StageEnbl.visible
  split_ifs with rvh
  · simp [rvh]
  · simp [rvh]

theorem stageOn_visible (st : StageEnbl) :
    stageOn cfg st = ((st.visible cfg).s || (st.visible cfg).g) := by
  rw [visible_s, visible_g, stageOn]

/-! ## Page levels -/

theorem le_stageLevel {ptLevels x : Nat} {isPage : BitVec (ptLevels - 1)} (inside : x < ptLevels)
    (positive : x ≠ 0) (leaf : isPage.getLsbD (ptLevels - 1 - x) = true) :
    x ≤ stageLevel ptLevels isPage := by
  unfold stageLevel
  have found : ∀ n, x < n → x ≤ (List.range n).foldl (fun level x =>
      if x ≠ 0 ∧ isPage.getLsbD (ptLevels - 1 - x) = true then x else level) 0 := by
    intro n below
    induction n with
    | zero => exact absurd below (Nat.not_lt_zero x)
    | succ n ih =>
        rw [List.range_succ, List.foldl_append, List.foldl_cons, List.foldl_nil]
        rcases Nat.lt_succ_iff_lt_or_eq.mp below with earlier | rfl
        · split_ifs
          · exact Nat.le_of_lt earlier
          · exact ih earlier
        · rw [if_pos ⟨positive, leaf⟩]
  exact found ptLevels inside

/-- A level at which the page flags match is not above the stored page's level. -/
theorem pageMatch_le {e : TlbUpdate cfg} {st : StageEnbl} {x : Nat} (inside : x < cfg.ptLevels)
    (stages : e.vStEnbl = st.visible cfg) (on : stageOn cfg st = true)
    (page : pageMatch (tagOf e) st x = true) : x ≤ pageLevel e := by
  by_cases zero : x = 0
  · rw [zero]
    exact Nat.zero_le _
  have levelS : e.isPageS.getLsbD (cfg.ptLevels - 1 - x) = true →
      x ≤ stageLevel cfg.ptLevels e.isPageS := le_stageLevel inside zero
  have levelG : e.isPageG.getLsbD (cfg.ptLevels - 1 - x) = true →
      x ≤ stageLevel cfg.ptLevels e.isPageG := le_stageLevel inside zero
  unfold pageLevel
  rw [stages, visible_s, visible_g]
  simp only [pageMatch, tagOf, if_neg zero] at page
  by_cases single : cfg.rvh = false ∨ x = cfg.ptLevels - 1
  · rw [if_pos single] at page
    cases s : st.s <;> cases g : st.g <;> cases rvh : cfg.rvh <;>
      simp_all [stageOn]
  · rw [if_neg single] at page
    obtain ⟨rvh, notTop⟩ := not_or.mp single
    rw [Bool.not_eq_false] at rvh
    -- the other stage may also map a page one level up
    have above : cfg.ptLevels - 1 - 1 - x = cfg.ptLevels - 1 - (x + 1) := by omega
    have aboveS : e.isPageS.getLsbD (cfg.ptLevels - 1 - (x + 1)) = true →
        x ≤ stageLevel cfg.ptLevels e.isPageS :=
      fun leaf => Nat.le_of_succ_le (le_stageLevel (by omega) (Nat.succ_ne_zero x) leaf)
    have aboveG : e.isPageG.getLsbD (cfg.ptLevels - 1 - (x + 1)) = true →
        x ≤ stageLevel cfg.ptLevels e.isPageG :=
      fun leaf => Nat.le_of_succ_le (le_stageLevel (by omega) (Nat.succ_ne_zero x) leaf)
    rw [above] at page
    cases s : st.s <;> cases g : st.g <;> simp_all [stageOn]
    rcases page with ⟨leafS, leafG | leafG⟩ | ⟨leafG, leafS | leafS⟩ <;> simp_all

/-- A matching part is an equal slice of the page number. -/
theorem part_of_vpnMatch {e : TlbUpdate cfg} {vaddr : BitVec cfg.vlen} {st : StageEnbl}
    {y : Fin cfg.ptLevels}
    (same : vpnMatch (tagOf e) (lookupParts vaddr) st y = true) :
    vaddr.extractLsb' (12 + cfg.partWidth * y.val) cfg.partWidth =
      e.vpn.extractLsb' (cfg.partWidth * y.val) cfg.partWidth := by
  unfold vpnMatch at same
  split_ifs at same
  · rw [Bool.and_eq_true, beq_iff_eq] at same
    exact same.1
  · exact eq_of_beq same

/-- Equal parts from level `x` on are equal page-number bits. -/
theorem samePage_of_levelMatch {e : TlbUpdate cfg} {vaddr : BitVec cfg.vlen} {st : StageEnbl}
    {x : Fin cfg.ptLevels} (stages : e.vStEnbl = st.visible cfg) (on : stageOn cfg st = true)
    (extraBits : cfg.rvh = true → st.s = false → (lookupParts vaddr : VpnParts cfg).extra =
      vaddr.extractLsb' (12 + cfg.partWidth * cfg.ptLevels) cfg.extraWidth)
    (level : levelMatch (tagOf e) (lookupParts vaddr) st x = true) : SamePage e vaddr := by
  simp only [levelMatch, Bool.and_eq_true, decide_eq_true_eq] at level
  obtain ⟨parts, page⟩ := level
  have atMost := pageMatch_le x.isLt stages on page
  intro k low high
  have fromX : cfg.partWidth * x.val ≤ k :=
    Nat.le_trans (Nat.mul_le_mul_left _ atMost) low
  by_cases inParts : k < cfg.partWidth * cfg.ptLevels
  · have wide : 0 < cfg.partWidth := Nat.pos_of_mul_pos_right (Nat.zero_lt_of_lt inParts)
    have inside : k / cfg.partWidth < cfg.ptLevels := Nat.div_lt_of_lt_mul inParts
    have above : x ≤ (⟨k / cfg.partWidth, inside⟩ : Fin cfg.ptLevels) :=
      Fin.le_def.mpr ((Nat.le_div_iff_mul_le wide).mpr (by rw [Nat.mul_comm]; exact fromX))
    have split := Nat.div_add_mod k cfg.partWidth
    have bit := congrArg (fun part => part.getLsbD (k % cfg.partWidth))
      (part_of_vpnMatch (parts _ above))
    simp only [BitVec.getLsbD_extractLsb', Nat.mod_lt k wide, decide_true, Bool.true_and,
      Nat.add_assoc, split] at bit
    exact bit.symm
  · -- only guest-physical page numbers have bits above the last level
    have guest : e.vStEnbl.s = false := by
      by_contra s
      rw [Bool.not_eq_false] at s
      rw [vpnBits, if_pos s] at high
      exact inParts high
    rw [vpnBits, if_neg (by simp [guest]), TlbCfg.vpnLen] at high
    have rvh : cfg.rvh = true := by
      by_contra noRvh
      rw [Bool.not_eq_true] at noRvh
      have none := cfg.noExtra noRvh
      omega
    have stS : st.s = false := by rw [← guest, stages, visible_s]
    have levels : 0 < cfg.ptLevels := x.pos
    have last := parts ⟨cfg.ptLevels - 1, by omega⟩ (Fin.le_def.mpr (by dsimp only; omega))
    rw [vpnMatch, if_pos ⟨rvh, rfl, stS⟩, Bool.and_eq_true, beq_iff_eq, beq_iff_eq,
      extraBits rvh stS] at last
    have bit := congrArg
      (fun extra => extra.getLsbD (k - cfg.partWidth * cfg.ptLevels)) last.2
    have within : k - cfg.partWidth * cfg.ptLevels < cfg.extraWidth := by omega
    simp only [tagOf, BitVec.getLsbD_extractLsb', within, decide_true, Bool.true_and,
      Nat.add_assoc, Nat.add_sub_cancel, Nat.add_sub_cancel' (Nat.le_of_not_lt inParts)] at bit
    exact bit.symm

/-! ## Clean lookups -/

/-- The lookup of cycle `i`, compared in the next one, meets none of the
exceptional situations. -/
structure CleanLookup (s : State cfg) (i : Input cfg) (s' : State cfg) (i' : Input cfg) :
    Prop where
  noFlush : anyFlush i = false
  update : ∀ w, wrEn s i w = true →
    wrAddr i = rdAddr i ∧ s.sharedTagValidQ (rdAddr i) w = false
  stages : (compareStages s' i').visible cfg = lookupStages i
  extraBits : cfg.rvh = true → (lookupStages i).s = false →
    (lookupParts (lookupVaddr i) : VpnParts cfg).extra =
      (lookupVaddr i).extractLsb' (12 + cfg.partWidth * cfg.ptLevels) cfg.extraWidth
  ways : ∀ w, s'.sharedTagValid w = true → matchStage s' i' w = true →
    anyLevelMatch s' i' w = true → (∃ j, j ≤ w ∧ matchAsid s' i' j = true) →
    (cfg.rvh = true → ∃ j, j ≤ w ∧ matchVmid s' i' j = true) →
    matchAsid s' i' w = true ∧ (cfg.rvh = true → matchVmid s' i' w = true)

section Lookup

variable {table : Table cfg} {s : State cfg} {i i' : Input cfg} {w : Fin cfg.ways}

theorem next_iReqQ (lookup : rdEn i = true) : (next s i).iReqQ = itlbLookup i := by
  simp only [next]
  split_ifs with itlb dtlb
  · exact itlb.symm
  · simp [itlb]
  · simp [rdEn, itlb, dtlb] at lookup

theorem lookup_stageOn (lookup : rdEn i = true) :
    stageOn cfg (vStEnbl i (itlbLookup i)) = true := by
  cases itlb : itlbLookup i with
  | true =>
      simp only [itlbLookup, Bool.and_eq_true] at itlb
      exact itlb.1.1.1
  | false =>
      have dtlb : dtlbLookup i = true := by simpa [rdEn, itlb] using lookup
      simp only [dtlbLookup, Bool.and_eq_true] at dtlb
      exact dtlb.1.1.2

/-- A way that a clean lookup finds valid was not written in the lookup cycle, holds
an update and shows its words. -/
theorem clean_read (follows : Follows table s) (lookup : rdEn i = true)
    (clean : CleanLookup s i (next s i) i') (valid : (next s i).sharedTagValid w = true) :
    ∃ e, table.cycle (s, i) (rdAddr i) w = some e ∧ sharedTagRd (next s i) w = tagOf e ∧
      pte (next s i) w = e.content ∧ ((next s i).gPteSram w).rdata = e.gContent := by
  have wasValid : s.sharedTagValidQ (rdAddr i) w = true := valid
  have notWritten : wrEn s i w = false := by
    by_contra write
    rw [Bool.not_eq_false] at write
    rw [(clean.update w write).2] at wasValid
    cases wasValid
  obtain ⟨e, holds⟩ : ∃ e, table (rdAddr i) w = some e := by
    rw [follows.valid] at wasValid
    exact Option.isSome_iff_exists.mp wasValid
  have address : sramAddr s i = rdAddr i := by
    unfold sramAddr
    split_ifs with write
    · obtain ⟨other, write⟩ := write
      exact (clean.update other write).1
    · rfl
  have read : ∀ {Data : Type} (m : Sram (SetIndex cfg) Data) (wdata : Data),
      (m.cycle (sramPort s i w wdata)).rdata = m.words (rdAddr i) := by
    intro Data m wdata
    rw [m.rdata_of_read _ (by simp [sramPort, lookup]) notWritten]
    exact congrArg m.words address
  refine ⟨e, ?_, ?_, ?_, ?_⟩
  · simp [Table.cycle, clean.noFlush, notWritten, holds]
  · exact (read _ _).trans (follows.tag _ _ e holds)
  · exact (read _ _).trans (follows.pte _ _ e holds)
  · exact (read _ _).trans (follows.gPte _ _ e holds)

theorem clean_hit (follows : Follows table s) (lookup : rdEn i = true)
    (clean : CleanLookup s i (next s i) i') (hits : wayHits (next s i) i' w = true) :
    ∃ e, table.cycle (s, i) (rdAddr i) w = some e ∧ SameSpace i e ∧
      pte (next s i) w = e.content ∧ (cfg.rvh = true → gPte (next s i) w = e.gContent) := by
  simp only [wayHits, Bool.and_eq_true] at hits
  obtain ⟨⟨⟨⟨valid, someAsid⟩, someVmid⟩, stage⟩, level⟩ := hits
  obtain ⟨e, holds, tag, content, gContent⟩ := clean_read follows lookup clean valid
  have someVmid : cfg.rvh = true → ∃ j, j ≤ w ∧ matchVmid (next s i) i' j = true := by
    intro rvh
    simpa [anyMatchVmid, rvh] using someVmid
  obtain ⟨asid, vmid⟩ :=
    clean.ways w valid stage level (of_decide_eq_true someAsid) someVmid
  have stages := clean.stages
  have asked : (compareStages (next s i) i').s = (lookupStages i).s := by
    rw [← stages, visible_s]
  refine ⟨e, holds, ?_, content, ?_⟩
  · constructor
    · intro on
      rw [matchAsid, asked, on, tag, content] at asid
      have registered : (next s i).tlbUpdateAsidQ = lookupAsid i := by
        simp only [next, lookupAsid]
        split_ifs with itlb dtlb
        · rfl
        · rfl
        · simp [rdEn, itlb, dtlb] at lookup
      rw [registered] at asid
      simp only [Bool.and_true, Bool.not_true, Bool.or_false, Bool.or_eq_true,
        beq_iff_eq] at asid
      rcases asid with same | isGlobal
      · exact .inl same.symm
      · exact .inr isGlobal
    · intro on
      rw [← stages, visible_g, Bool.and_eq_true] at on
      have matched := vmid on.1
      have registered : (next s i).tlbUpdateVmidQ = i.luVmid := by
        simp [next, on.1, lookup]
      rw [matchVmid, on.2, tag, registered] at matched
      simp only [Bool.and_true, Bool.not_true, Bool.or_false, beq_iff_eq] at matched
      exact matched.symm
    · rw [matchStage, tag, beq_iff_eq, stages] at stage
      exact stage
    · obtain ⟨x, level⟩ := of_decide_eq_true level
      rw [tag] at level
      rw [matchStage, tag] at stage
      have parts : (next s i).vpnQ = lookupParts (lookupVaddr i) := by
        simp [next, vpnD, lookup]
      rw [parts] at level
      refine samePage_of_levelMatch (eq_of_beq stage) ?_ ?_ level
      · rw [stageOn_visible, stages, lookupStages, ← stageOn_visible]
        exact lookup_stageOn lookup
      · intro rvh guest
        exact clean.extraBits rvh (by rw [← asked, guest])
  · intro rvh
    rw [gPte, if_pos rvh]
    exact gContent

theorem lastHit_hits {s' : State cfg} (found : lastHit s' i' = some w) :
    wayHits s' i' w = true :=
  holds_of_foldl_last (wayHits s' i') _ found

end Lookup

/-- In every run, a clean lookup is answered from updates of its own address space
and page only, with the PTE stored in the way that hit. -/
theorem sharedTlb_isolated {memories : PowerOn cfg} {cycles : List (State cfg × Input cfg)}
    {s : State cfg} (run : (machine memories).Run cycles s) (i i' : Input cfg)
    (lookup : rdEn i = true) (clean : CleanLookup s i (next s i) i') :
    Isolated (resident (cycles ++ [(s, i)])) i (next s i) i' := by
  have follows := follows_of_run run
  rw [resident_append]
  have handed : ∀ w vpn, wayHits (next s i) i' w = true → ∃ e,
      (resident cycles).cycle (s, i) (rdAddr i) w = some e ∧
      (fill (next s i) w vpn).content = e.content ∧
      (cfg.rvh = true → (fill (next s i) w vpn).gContent = e.gContent) := by
    intro w vpn hits
    obtain ⟨e, holds, _, content, gContent⟩ := clean_hit follows lookup clean hits
    exact ⟨e, holds, content, gContent⟩
  constructor
  · intro w hits
    obtain ⟨e, holds, same, _⟩ := clean_hit follows lookup clean hits
    exact ⟨e, holds, same⟩
  · intro out valid
    unfold itlbUpdate at valid
    split_ifs at valid with request
    obtain ⟨w, found, rfl⟩ := Option.map_eq_some_iff.mp valid
    obtain ⟨e, holds, contents⟩ := handed w _ (lastHit_hits found)
    exact ⟨request, w, e, lastHit_hits found, holds, contents⟩
  · intro out valid
    unfold dtlbUpdate at valid
    split_ifs at valid with request
    obtain ⟨w, found, rfl⟩ := Option.map_eq_some_iff.mp valid
    obtain ⟨e, holds, contents⟩ := handed w _ (lastHit_hits found)
    simp only [Bool.and_eq_true] at request
    exact ⟨request.2, w, e, lastHit_hits found, holds, contents⟩

/-! ## Two address spaces in one set -/

section TwoSpaces

/-- Sv32 with two ways of two sets. -/
def sv32Cfg : TlbCfg where
  rvh := false
  ptLevels := 2
  partWidth := 10
  extraWidth := 0
  noExtra := TlbCfg.no_extra false
  vlen := 32
  svWidth := 32
  xlen := 32
  asidWidth := 9
  vmidWidth := 7
  ways := 2
  setBits := 1

/-- The walker's result for one 4 KiB page. -/
def walked (asid : BitVec 9) (vpn : BitVec 20) (content : BitVec 32) : TlbUpdate sv32Cfg where
  valid := true
  isPageS := 0
  isPageG := 0
  vpn := vpn
  asid := asid
  vmid := 0
  vStEnbl := { v := false, g := false, s := true }
  content := content
  gContent := 0

def translating : Input sv32Cfg where
  flush := false
  flushVvma := false
  flushGvma := false
  sStEnbl := true
  gStEnbl := false
  v := false
  sLdStEnbl := true
  gLdStEnbl := false
  ldStV := false
  dtlbAsid := 0
  itlbAsid := 0
  luVmid := 0
  itlbAccess := false
  itlbHit := false
  itlbVaddr := 0
  dtlbAccess := false
  dtlbHit := false
  dtlbVaddr := 0
  sharedTlbMiss := false
  sharedTlbUpdate := { walked 0 0 0 with valid := false }

/-- Address spaces 1 and 2 store one page each in set 0. -/
def twoSpaces : List (Input sv32Cfg) :=
  [{ translating with sharedTlbUpdate := walked 1 0x2 0x800cf },
    { translating with sharedTlbUpdate := walked 2 0x4 0xc00cf }]

/-- A load of page 4 by the given address space. -/
def loadPage (asid : BitVec 9) : Input sv32Cfg :=
  { translating with dtlbAsid := asid, dtlbAccess := true, dtlbVaddr := 0x4000 }

def blankMemory {Data : Type} (data : Data) : Sram (SetIndex sv32Cfg) Data where
  words := fun _ => data
  readAddr := 0
  rdata := data

def blankMemories : PowerOn sv32Cfg where
  tagSram := fun _ => blankMemory (tagOf (walked 0 0 0))
  pteSram := fun _ => blankMemory 0
  gPteSram := fun _ => blankMemory 0

/-- Address space 2 finds its page. -/
theorem sharedTlb_isolated_owner :
    let s := (machine blankMemories).after (reset blankMemories) twoSpaces
    let cycles := (machine blankMemories).cyclesOf (reset blankMemories) twoSpaces
    Isolated (resident (cycles ++ [(s, loadPage 2)])) (loadPage 2) (next s (loadPage 2))
      translating := by
  refine sharedTlb_isolated
    (Clocked.Machine.run_of_accepts twoSpaces ⟨trivial, trivial, trivial⟩)
    (loadPage 2) translating (by decide +kernel) ?_
  constructor <;> decide +kernel

/-- Address space 1 is answered with the page of address space 2. -/
theorem sharedTlb_leaks :
    ¬ ∀ (cfg : TlbCfg) (memories : PowerOn cfg) (cycles : List (State cfg × Input cfg))
        (s : State cfg) (i i' : Input cfg), (machine memories).Run cycles s → rdEn i = true →
      Isolated (resident (cycles ++ [(s, i)])) i (next s i) i' := by
  intro claim
  have run : (machine blankMemories).Run _ _ :=
    Clocked.Machine.run_of_accepts twoSpaces ⟨trivial, trivial, trivial⟩
  have isolated := claim sv32Cfg blankMemories _ _ (loadPage 1) translating run
    (by decide +kernel)
  obtain ⟨e, holds, same⟩ := isolated.hit ⟨1, by decide⟩ (by decide +kernel)
  have stored : some e = some (walked 2 0x4 0xc00cf) := holds.symm.trans (by decide +kernel)
  cases stored
  exact absurd (same.asid (by decide)) (by decide)

end TwoSpaces

end Cva6.SharedTlb
