import RiscvCores.Cva6.Mmu
import RiscvCores.Cva6.PtwPath
import RiscvCores.Cva6.SharedTlbIsolation

/-!
# Page permissions and the translation buffers

Every translation that the buffers of `cva6_mmu` hand out is a leaf of the page tables
for the page that is asked for, and was filled by a walk that some earlier access to the
page asked for.  The permission to read or to execute is the one of that access.
-/

set_option autoImplicit false

namespace Cva6.Mmu

open BitField PageWalk

variable {m : MmuCfg}

abbrev History (m : MmuCfg) : Type := List (State m × Input m)

/-! ## Accesses to a page -/

/-- The request of one side in a cycle. -/
def Asks (isInstr : Bool) (va : VAddr m.scheme) (i : Input m) : Prop :=
  if isInstr then i.fetchReq = true ∧ i.enableTranslation = true ∧ i.fetchVaddr = va
  else i.lsuReq = true ∧ i.enLdStTranslation = true ∧ i.lsuVaddr = va

def Requested (cycles : History m) (isInstr : Bool) (va : VAddr m.scheme) : Prop :=
  ∃ now ∈ cycles, Asks isInstr va now.2

/-- The page of `leaf` at `va` was asked for by one side. -/
def PageRequested (cycles : History m) (isInstr : Bool) (leaf : Leaf m.scheme)
    (va : VAddr m.scheme) : Prop :=
  ∃ va', SamePage leaf.level va va' ∧ Requested cycles isInstr va'

/-- The page was asked for by the load/store unit, and MXR was set in that cycle or a
later one. -/
def MxrRequested (cycles : History m) (leaf : Leaf m.scheme) (va : VAddr m.scheme) : Prop :=
  ∃ (va' : VAddr m.scheme) (k l : Nat), SamePage leaf.level va va' ∧ k ≤ l ∧
    (∃ now : State m × Input m, cycles[k]? = some now ∧ Asks false va' now.2) ∧
    ∃ now : State m × Input m, cycles[l]? = some now ∧ now.2.mxr = true

/-! ## What the page tables answer -/

/-- The physical address of `va` in the page of `leaf`: the level's parts of the page
number are those of `va`. -/
def physical (leaf : Leaf m.scheme) (va : VAddr m.scheme) : PAddr m.scheme :=
  setField ((leaf.pte.ppn ++ field va 0 12).setWidth (m.scheme.pmpWidth + 2)) 12
    (field va 12 (m.scheme.partWidth * leaf.level))

/-- A page walk made for this very access finds `leaf`. -/
def Finds (memory : PAddr m.scheme → Pte m.scheme) (root : Ppn m.scheme) (access : Access)
    (va : VAddr m.scheme) (leaf : Leaf m.scheme) : Prop :=
  (translate memory (fun _ => true) access root va).outcome = .ok leaf

/-- A fetch answered without exception is answered as its page walk would. -/
def FetchPermitted (memory : PAddr m.scheme → Pte m.scheme) (root : Ppn m.scheme)
    (s : State m) (i : Input m) : Prop :=
  let answer := instrInterface memory s i
  i.enableTranslation = true → answer.fetchValid = true →
    answer.fetchException.valid = false →
    ∃ leaf, Finds memory root .fetch i.fetchVaddr leaf ∧
      answer.fetchPaddr = physical leaf i.fetchVaddr ∧
      (i.privLvl = .u → leaf.pte.u = true) ∧ (i.privLvl = .s → leaf.pte.u = false)

/-- The access that the load/store unit asked for in the cycle before. -/
def lsuAccess (s : State m) (i : Input m) : Access :=
  if s.lsuIsStoreQ then .store else .load i.mxr

def LsuPermitted (memory : PAddr m.scheme → Pte m.scheme) (root : Ppn m.scheme)
    (s : State m) (i : Input m) : Prop :=
  let answer := dataInterface memory s i
  i.enLdStTranslation = true → answer.lsuValid = true → answer.lsuException.valid = false →
    ∃ leaf, Finds memory root (lsuAccess s i) s.lsuVaddrQ leaf ∧
      answer.lsuPaddr = physical leaf s.lsuVaddrQ ∧
      (i.ldStPrivLvl = .u → leaf.pte.u = true) ∧
      (i.ldStPrivLvl = .s → i.sum = false → leaf.pte.u = false)

/-! ## The condition -/

/-- No word of the tag memories looks like a stored entry at power-on, and their read
addresses are reset. -/
structure Blank (memories : SharedTlb.PowerOn m.tlb) : Prop where
  words : ∀ w set, ((memories.tagSram w).words set).vStEnbl.s = false
  readAddr : ∀ w, (memories.tagSram w).readAddr = (memories.pteSram w).readAddr

/-- The shared buffer is not looked up in the cycle of an update, which would read the
ways at the address of the update. -/
def Apart (memory : PAddr m.scheme → Pte m.scheme) (s : State m) (i : Input m) : Prop :=
  ¬ (SharedTlb.rdEn (sharedTlbInput memory s i) = true ∧
    (updateSharedTlb memory s i).valid = true)

/-- A page is fetched from only if its leaf has X or the load/store unit never asked for
it; it is loaded from only if its leaf has R, or X with MXR set, or nothing else asked for
it that an execute-only page lets pass. -/
structure Separate (memory : PAddr m.scheme → Pte m.scheme) (root : Ppn m.scheme)
    (cycles : History m) (s : State m) (i : Input m) : Prop where
  fetch : i.fetchReq = true → i.enableTranslation = true →
    ∀ leaf, LeafAt memory root i.fetchVaddr leaf →
      leaf.pte.x = true ∨ ¬ PageRequested cycles false leaf i.fetchVaddr
  load : s.lsuReqQ = true → s.lsuIsStoreQ = false → i.enLdStTranslation = true →
    ∀ leaf, LeafAt memory root s.lsuVaddrQ leaf →
      leaf.pte.r = true ∨ leaf.pte.x = true ∧ i.mxr = true ∨
        ¬ PageRequested cycles true leaf s.lsuVaddrQ ∧
          ¬ MxrRequested cycles leaf s.lsuVaddrQ

/-! ## Filled translations -/

section Filled

variable {memory : PAddr m.scheme → Pte m.scheme} {root : Ppn m.scheme}
  {cycles : History m} {va va' : VAddr m.scheme} {leaf : Leaf m.scheme}

theorem Requested.mono {isInstr : Bool} (requested : Requested cycles isInstr va)
    (now : State m × Input m) : Requested (cycles ++ [now]) isInstr va := by
  obtain ⟨before, member, asks⟩ := requested
  exact ⟨before, List.mem_append_left _ member, asks⟩

theorem PageRequested.mono {isInstr : Bool} (requested : PageRequested cycles isInstr leaf va)
    (now : State m × Input m) : PageRequested (cycles ++ [now]) isInstr leaf va := by
  obtain ⟨va', same, requested⟩ := requested
  exact ⟨va', same, requested.mono now⟩

theorem getElem?_mono {k : Nat} {before : State m × Input m} (found : cycles[k]? = some before)
    (now : State m × Input m) : (cycles ++ [now])[k]? = some before := by
  have inside := (List.getElem?_eq_some_iff.mp found).1
  rw [List.getElem?_append_left inside]
  exact found

theorem MxrRequested.mono (requested : MxrRequested cycles leaf va)
    (now : State m × Input m) : MxrRequested (cycles ++ [now]) leaf va := by
  obtain ⟨va', k, l, same, order, ⟨first, foundK, asks⟩, ⟨second, foundL, mxr⟩⟩ := requested
  exact ⟨va', k, l, same, order, ⟨first, getElem?_mono foundK now, asks⟩,
    second, getElem?_mono foundL now, mxr⟩

/-- `leaf` maps `va`, and some access to its page had the permissions of a walk. -/
structure Filled (memory : PAddr m.scheme → Pte m.scheme) (root : Ppn m.scheme)
    (cycles : History m) (va : VAddr m.scheme) (leaf : Leaf m.scheme) : Prop where
  mapped : LeafAt memory root va leaf
  accessed : leaf.pte.a = true
  execute : leaf.pte.x = true ∨ PageRequested cycles false leaf va
  readable : leaf.pte.r = true ∨ leaf.pte.x = true ∧
    (PageRequested cycles true leaf va ∨ MxrRequested cycles leaf va)

theorem Filled.mono (filled : Filled memory root cycles va leaf) (now : State m × Input m) :
    Filled memory root (cycles ++ [now]) va leaf where
  mapped := filled.mapped
  accessed := filled.accessed
  execute := filled.execute.imp_right fun requested => requested.mono now
  readable := filled.readable.imp_right fun ⟨executable, requested⟩ =>
    ⟨executable, requested.imp (fun requested => requested.mono now)
      fun requested => requested.mono now⟩

theorem samePage_trans {level : Nat} {va₁ va₂ va₃ : VAddr m.scheme}
    (first : SamePage level va₂ va₁) (second : SamePage level va₁ va₃) :
    SamePage level va₂ va₃ :=
  fun j low high => (first j low high).trans (second j low high)

theorem Filled.congr (filled : Filled memory root cycles va leaf)
    (same : SamePage leaf.level va va') : Filled memory root cycles va' leaf := by
  have back : SamePage leaf.level va' va := fun j low high => (same j low high).symm
  refine ⟨filled.mapped.congr same, filled.accessed, filled.execute.imp_right ?_,
    filled.readable.imp_right (And.imp_right (Or.imp ?_ ?_))⟩
  · rintro ⟨va'', page, requested⟩
    exact ⟨va'', samePage_trans back page, requested⟩
  · rintro ⟨va'', page, requested⟩
    exact ⟨va'', samePage_trans back page, requested⟩
  · rintro ⟨va'', k, l, page, requested⟩
    exact ⟨va'', k, l, samePage_trans back page, requested⟩

end Filled

/-! ## Entries -/

section Entries

variable {memory : PAddr m.scheme → Pte m.scheme} {root : Ppn m.scheme}
  {cycles : History m} {va : VAddr m.scheme}

/-- The parts of a page number in an entry. -/
abbrev Parts (m : MmuCfg) : Type := Fin m.tlb.ptLevels → BitVec m.tlb.partWidth

/-- `va` lies in the page of level `level` with these parts. -/
def Covers (parts : Parts m) (level : Nat) (va : VAddr m.scheme) : Prop :=
  ∀ j : Fin m.tlb.ptLevels, level ≤ j.val → vpn va j.val = parts j

/-- What an entry with these contents tells is a filled translation of its page. -/
structure Entry (memory : PAddr m.scheme → Pte m.scheme) (root : Ppn m.scheme)
    (cycles : History m) (parts : Parts m) (isPage : BitVec (m.tlb.ptLevels - 1))
    (content : Pte m.scheme) (leaf : Leaf m.scheme) : Prop where
  flags : ∀ x, x < m.tlb.ptLevels - 1 →
    isPage.getLsbD x = decide (x + leaf.level = m.tlb.ptLevels - 1)
  content : content = setFlag leaf.pte 5 leaf.isGlobal
  filled : ∀ va, Covers parts leaf.level va → Filled memory root cycles va leaf

def Holds (memory : PAddr m.scheme → Pte m.scheme) (root : Ppn m.scheme)
    (cycles : History m) (parts : Parts m) (isPage : BitVec (m.tlb.ptLevels - 1))
    (content : Pte m.scheme) : Prop :=
  ∃ leaf, Entry memory root cycles parts isPage content leaf

variable {parts parts' : Parts m} {isPage : BitVec (m.tlb.ptLevels - 1)}
  {content : Pte m.scheme}

theorem Holds.mono (holds : Holds memory root cycles parts isPage content)
    (now : State m × Input m) : Holds memory root (cycles ++ [now]) parts isPage content := by
  obtain ⟨leaf, flags, contents, filled⟩ := holds
  exact ⟨leaf, flags, contents, fun va covers => (filled va covers).mono now⟩

/-- A match at level `x` reaches down to the level of the leaf. -/
theorem matches_level {leaf : Leaf m.scheme}
    (flags : ∀ x, x < m.tlb.ptLevels - 1 →
      isPage.getLsbD x = decide (x + leaf.level = m.tlb.ptLevels - 1))
    {x : Fin m.tlb.ptLevels}
    (page : x.val = 0 ∨ isPage.getLsbD (m.tlb.ptLevels - 1 - x.val) = true) :
    x.val ≤ leaf.level := by
  rcases page with zero | page
  · omega
  · by_cases zero : x.val = 0
    · omega
    · have inside := x.isLt
      rw [flags _ (by omega), decide_eq_true_eq] at page
      omega

/-- An entry that another one was looked up with, on the levels of its page. -/
theorem Holds.refill (holds : Holds memory root cycles parts isPage content)
    {x : Fin m.tlb.ptLevels} (same : ∀ y, x ≤ y → parts' y = parts y)
    (page : x.val = 0 ∨ isPage.getLsbD (m.tlb.ptLevels - 1 - x.val) = true) :
    Holds memory root cycles parts' isPage content := by
  obtain ⟨leaf, flags, contents, filled⟩ := holds
  have below := matches_level flags page
  refine ⟨leaf, flags, contents, fun va covers => filled va fun j high => ?_⟩
  exact (covers j high).trans (same j (Nat.le_trans below high))

/-- What a look-up of `va` finds. -/
theorem Holds.lookup (holds : Holds memory root cycles parts isPage content)
    {x : Fin m.tlb.ptLevels} (same : ∀ y, x ≤ y → vpn va y.val = parts y)
    (page : x.val = 0 ∨ isPage.getLsbD (m.tlb.ptLevels - 1 - x.val) = true) :
    ∃ leaf, (∀ x, x < m.tlb.ptLevels - 1 →
        isPage.getLsbD x = decide (x + leaf.level = m.tlb.ptLevels - 1)) ∧
      content = setFlag leaf.pte 5 leaf.isGlobal ∧ Filled memory root cycles va leaf := by
  obtain ⟨leaf, flags, contents, filled⟩ := holds
  have below := matches_level flags page
  exact ⟨leaf, flags, contents, filled va fun j high => same j (Nat.le_trans below high)⟩

end Entries

/-! ## The invariant -/

section Invariant

variable {memory : PAddr m.scheme → Pte m.scheme} {root : Ppn m.scheme}

/-- The words of a tag and a PTE memory are an entry. -/
def WordHolds (memory : PAddr m.scheme → Pte m.scheme) (root : Ppn m.scheme)
    (cycles : History m) (tag : SharedTlb.SharedTag m.tlb) (content : Pte m.scheme) : Prop :=
  tag.vStEnbl.s = true → Holds memory root cycles tag.vpn.part tag.isPageS content

def TlbHolds {entries : Nat} (memory : PAddr m.scheme → Pte m.scheme) (root : Ppn m.scheme)
    (cycles : History m) (tlb : Tlb.State m.tlb entries) : Prop :=
  ∀ e, (tlb.tags e).valid = true → (tlb.tags e).vStEnbl = true →
    Holds memory root cycles (tlb.tags e).vpn (tlb.tags e).isPage (tlb.content e)

/-- The parts of a page number. -/
def partsOf (word : BitVec m.tlb.vpnLen) : Parts m :=
  fun j => word.extractLsb' (m.tlb.partWidth * j.val) m.tlb.partWidth

/-- The valid words of the shared buffer are entries, all of them if they were blank, and
its registers belong to the look-up of the last cycle. -/
structure SharedHolds (blank : Prop) (memory : PAddr m.scheme → Pte m.scheme)
    (root : Ppn m.scheme) (cycles : History m) (shared : SharedTlb.State m.tlb) : Prop where
  words : ∀ w set, blank ∨ shared.sharedTagValidQ set w = true →
    WordHolds memory root cycles ((shared.tagSram w).words set) ((shared.pteSram w).words set)
  readAddr : blank → ∀ w, (shared.tagSram w).readAddr = (shared.pteSram w).readAddr
  rdata : shared.sharedTlbAccessQ = true → ∀ w, shared.sharedTagValid w = true →
    WordHolds memory root cycles (shared.tagSram w).rdata (shared.pteSram w).rdata
  accessed : (shared.itlbReqQ || shared.dtlbReqQ) = true → shared.sharedTlbAccessQ = true
  itlbVpn : shared.itlbReqQ = true → shared.vpnQ.part = partsOf shared.itlbVpnQ
  dtlbVpn : shared.itlbReqQ = false → shared.dtlbReqQ = true →
    shared.vpnQ.part = partsOf shared.dtlbVpnQ
  requested : shared.sharedTlbAccessQ = true →
    Requested cycles shared.itlbReqQ shared.sharedTlbVaddrQ

structure Inv (blank : Prop) (memory : PAddr m.scheme → Pte m.scheme) (root : Ppn m.scheme)
    (cycles : History m) (s : State m) : Prop where
  itlb : TlbHolds memory root cycles s.itlb
  dtlb : TlbHolds memory root cycles s.dtlb
  shared : SharedHolds blank memory root cycles s.shared
  walker : OnPath m.dcacheIndexWidth memory root (Requested cycles) s.walker
  lsu : s.dtlbHitQ = true → ∃ leaf,
    (∀ x, x < m.tlb.ptLevels - 1 →
      s.dtlbIsPageQ.getLsbD x = decide (x + leaf.level = m.tlb.ptLevels - 1)) ∧
    s.dtlbPteQ = setFlag leaf.pte 5 leaf.isGlobal ∧
    Filled memory root cycles s.lsuVaddrQ leaf

variable {blank : Prop} {cycles : History m} {s : State m} {i : Input m}

/-! ### The first-level buffers -/

/-- A hit of a first-level buffer is a filled translation of the address. -/
theorem tlb_hit {entries : Nat} {tlb : Tlb.State m.tlb entries} (ti : Tlb.Input m.tlb)
    (holds : TlbHolds memory root cycles tlb) (hit : Tlb.luHit tlb ti = true) :
    ∃ leaf, (∀ x, x < m.tlb.ptLevels - 1 →
        (Tlb.luIsPage tlb ti).getLsbD x = decide (x + leaf.level = m.tlb.ptLevels - 1)) ∧
      Tlb.luContent tlb ti = setFlag leaf.pte 5 leaf.isGlobal ∧
      Filled memory root cycles ti.luVaddr leaf := by
  obtain ⟨e, hits, content, isPage⟩ := Tlb.luHit_entry hit
  simp only [Tlb.entryHits, Bool.and_eq_true] at hits
  obtain ⟨⟨⟨valid, _⟩, stage⟩, level⟩ := hits
  obtain ⟨x, level⟩ := of_decide_eq_true level
  rw [Tlb.levelMatch, Bool.and_eq_true, decide_eq_true_eq] at level
  obtain ⟨parts, page⟩ := level
  rw [content, isPage]
  apply (holds e valid stage).lookup (x := x)
  · intro y above
    exact eq_of_beq (parts y above)
  · rwa [Tlb.pageMatch, Bool.or_eq_true, beq_iff_eq] at page

/-- A buffer goes on holding entries when what it is filled with is one. -/
theorem tlbHolds_next {entries : Nat} {tlb : Tlb.State m.tlb entries} {ti : Tlb.Input m.tlb}
    (holds : TlbHolds memory root cycles tlb) (now : State m × Input m)
    (update : ∀ u, ti.update = some u → u.vStEnbl.s = true →
      Holds memory root (cycles ++ [now]) (partsOf u.vpn) u.isPageS u.content) :
    TlbHolds memory root (cycles ++ [now]) (Tlb.next tlb ti) := by
  intro e valid stage
  rcases Tlb.next_entry tlb ti e valid with ⟨u, updates, tag, content⟩ | ⟨tag, content⟩
  · rw [tag] at stage ⊢
    rw [content]
    exact update u updates stage
  · rw [tag] at valid stage ⊢
    rw [content]
    exact (holds e valid stage).mono now

/-! ### The shared buffer -/

theorem wayHits_holds {shared : SharedTlb.State m.tlb} {si : SharedTlb.Input m.tlb}
    {w : Fin m.tlb.ways} {vpn : BitVec m.tlb.vpnLen}
    (holds : SharedHolds blank memory root cycles shared)
    (accessed : shared.sharedTlbAccessQ = true)
    (looked : shared.vpnQ.part = partsOf vpn) (hits : SharedTlb.wayHits shared si w = true)
    (stage : (SharedTlb.fill shared w vpn).vStEnbl.s = true) :
    Holds memory root cycles (partsOf vpn) (SharedTlb.fill shared w vpn).isPageS
      (SharedTlb.fill shared w vpn).content := by
  simp only [SharedTlb.wayHits, Bool.and_eq_true] at hits
  obtain ⟨⟨⟨⟨valid, _⟩, _⟩, sameStage⟩, level⟩ := hits
  have tagStage : (shared.tagSram w).rdata.vStEnbl.s = true := stage
  have compared : ((SharedTlb.compareStages shared si).visible m.tlb).s = true := by
    rw [← eq_of_beq sameStage]
    exact tagStage
  rw [SharedTlb.visible_s] at compared
  obtain ⟨x, level⟩ := of_decide_eq_true level
  rw [SharedTlb.levelMatch, Bool.and_eq_true, decide_eq_true_eq] at level
  obtain ⟨parts, page⟩ := level
  apply (holds.rdata accessed w valid tagStage).refill (x := x)
  · intro y above
    have part := parts y above
    rw [SharedTlb.vpnMatch, if_neg (by simp), beq_iff_eq, looked] at part
    exact part
  · rw [SharedTlb.pageMatch, compared] at page
    by_cases zero : x.val = 0
    · exact .inl zero
    · right
      have flagged : (SharedTlb.sharedTagRd shared w).isPageS.getLsbD
          (m.tlb.ptLevels - 1 - x.val) = true := by simpa [zero] using page
      exact flagged

theorem itlbUpdate_holds {shared : SharedTlb.State m.tlb} {si : SharedTlb.Input m.tlb}
    (holds : SharedHolds blank memory root cycles shared) {u : SharedTlb.TlbUpdate m.tlb}
    (updates : SharedTlb.itlbUpdate shared si = some u) (stage : u.vStEnbl.s = true) :
    Holds memory root cycles (partsOf u.vpn) u.isPageS u.content := by
  unfold SharedTlb.itlbUpdate at updates
  split at updates
  · rename_i looked
    obtain ⟨w, found, rfl⟩ := Option.map_eq_some_iff.mp updates
    have accessed := holds.accessed (by rw [looked, Bool.true_or])
    exact wayHits_holds holds accessed (holds.itlbVpn looked) (SharedTlb.lastHit_hits found)
      stage
  · cases updates

theorem dtlbUpdate_holds {shared : SharedTlb.State m.tlb} {si : SharedTlb.Input m.tlb}
    (holds : SharedHolds blank memory root cycles shared) {u : SharedTlb.TlbUpdate m.tlb}
    (updates : SharedTlb.dtlbUpdate shared si = some u) (stage : u.vStEnbl.s = true) :
    Holds memory root cycles (partsOf u.vpn) u.isPageS u.content := by
  unfold SharedTlb.dtlbUpdate at updates
  split at updates
  · rename_i looked
    rw [Bool.and_eq_true, Bool.not_eq_true'] at looked
    obtain ⟨w, found, rfl⟩ := Option.map_eq_some_iff.mp updates
    have accessed := holds.accessed (by rw [looked.2, Bool.or_true])
    exact wayHits_holds holds accessed (holds.dtlbVpn looked.1 looked.2)
      (SharedTlb.lastHit_hits found) stage
  · cases updates

/-- The page number of a look-up and the parts that it compares. -/
theorem lookupParts_eq (vaddr : VAddr m.scheme) :
    (SharedTlb.lookupParts vaddr : SharedTlb.VpnParts m.tlb).part =
      partsOf ((vaddr.extractLsb' 12 (m.tlb.svWidth - 12)).setWidth m.tlb.vpnLen) := by
  have widths : m.scheme.partWidth * m.scheme.ptLevels = m.scheme.sv - 12 := by
    cases m.scheme with
    | sv32 => rfl
    | sv39 => rfl
    | sv39x4 => rfl
  funext j
  have room : m.scheme.partWidth * j.val + m.scheme.partWidth ≤ m.scheme.sv - 12 := by
    rw [← widths, ← Nat.mul_succ]
    exact Nat.mul_le_mul_left _ j.isLt
  apply BitVec.eq_of_getLsbD_eq
  intro k (inside : k < m.scheme.partWidth)
  have within : m.scheme.partWidth * j.val + k < m.scheme.sv - 12 := by omega
  have total : m.scheme.partWidth * j.val + k < m.scheme.partWidth * m.scheme.ptLevels + 0 := by
    omega
  simp only [SharedTlb.lookupParts, partsOf, BitVec.getLsbD_extractLsb', BitVec.getLsbD_setWidth,
    inside, within, total, decide_true, Bool.true_and, Nat.add_assoc]

/-- A look-up without a write reads its own words. -/
theorem rdata_apart {Data : Type} {shared : SharedTlb.State m.tlb} {si : SharedTlb.Input m.tlb}
    (read : SharedTlb.rdEn si = true) (quiet : si.sharedTlbUpdate.valid = false)
    (w : Fin m.tlb.ways) (sram : TechCells.Sram (SharedTlb.SetIndex m.tlb) Data) (wdata : Data) :
    (sram.cycle (SharedTlb.sramPort shared si w wdata)).rdata =
      sram.words (SharedTlb.rdAddr si) := by
  have idle : ∀ w, SharedTlb.wrEn shared si w = false := by
    intro w
    simp only [SharedTlb.wrEn, quiet, Bool.and_false, Bool.false_and]
  have address : SharedTlb.sramAddr shared si = SharedTlb.rdAddr si := by
    refine if_neg ?_
    rintro ⟨w, writes⟩
    exact Bool.false_ne_true ((idle w).symm.trans writes)
  rw [TechCells.Sram.rdata_of_read]
  · exact congrArg sram.words address
  · change (SharedTlb.wrEn shared si w || SharedTlb.rdEn si) = true
    rw [read, Bool.or_true]
  · exact idle w

/-- One cycle of the shared buffer. -/
theorem sharedHolds_next {shared : SharedTlb.State m.tlb} {si : SharedTlb.Input m.tlb}
    (holds : SharedHolds blank memory root cycles shared) (now : State m × Input m)
    (apart : blank ∨ ¬ (SharedTlb.rdEn si = true ∧ si.sharedTlbUpdate.valid = true))
    (update : si.sharedTlbUpdate.valid = true →
      Holds memory root (cycles ++ [now]) (partsOf si.sharedTlbUpdate.vpn)
        si.sharedTlbUpdate.isPageS si.sharedTlbUpdate.content)
    (asks : SharedTlb.rdEn si = true →
      Asks (SharedTlb.itlbLookup si) (SharedTlb.lookupVaddr si) now.2) :
    SharedHolds blank memory root (cycles ++ [now]) (SharedTlb.next shared si) where
  words := by
    intro w set trusted
    change WordHolds _ _ _ (((shared.tagSram w).cycle _).words set)
      (((shared.pteSram w).cycle _).words set)
    rw [SharedTlb.words_cycle, SharedTlb.words_cycle]
    cases written : SharedTlb.wrEn shared si w && set == SharedTlb.wrAddr si with
    | true =>
        intro _
        simp only [SharedTlb.wrEn, Bool.and_eq_true] at written
        exact update written.1.1.2
    | false =>
        intro stage
        refine (holds.words w set (trusted.imp_right fun valid => ?_) stage).mono now
        change SharedTlb.sharedTagValidD shared si set w = true at valid
        unfold SharedTlb.sharedTagValidD at valid
        rw [written] at valid
        split at valid
        · cases valid
        · exact valid
  readAddr := by
    intro trusted w
    have address := holds.readAddr trusted w
    simp only [SharedTlb.next, TechCells.Sram.cycle, SharedTlb.sramPort, address]
    rfl
  rdata := by
    intro accessed w valid
    have read : SharedTlb.rdEn si = true := accessed
    have looked : shared.sharedTagValidQ (SharedTlb.rdAddr si) w = true := valid
    change WordHolds _ _ _ ((shared.tagSram w).cycle _).rdata ((shared.pteSram w).cycle _).rdata
    rcases apart with trusted | apart
    · -- a write to the way leaves the address of the last read
      have address := holds.readAddr trusted w
      cases reads : (SharedTlb.wrEn shared si w || SharedTlb.rdEn si) &&
          !SharedTlb.wrEn shared si w with
      | true =>
          intro stage
          simp only [TechCells.Sram.cycle, SharedTlb.sramPort, reads, if_true] at stage ⊢
          exact (holds.words w _ (.inl trusted) stage).mono now
      | false =>
          intro stage
          simp only [TechCells.Sram.cycle, SharedTlb.sramPort, reads, Bool.false_eq_true,
            if_false, address] at stage ⊢
          exact (holds.words w _ (.inl trusted) stage).mono now
    · have quiet : si.sharedTlbUpdate.valid = false :=
        Bool.not_eq_true _ |>.mp fun updates => apart ⟨read, updates⟩
      rw [rdata_apart read quiet, rdata_apart read quiet]
      intro stage
      exact (holds.words w _ (.inr looked) stage).mono now
  accessed looked := looked
  itlbVpn := by
    intro looked
    have lookup : SharedTlb.itlbLookup si = true := looked
    simp only [SharedTlb.next, SharedTlb.vpnD, SharedTlb.rdEn, SharedTlb.lookupVaddr, lookup,
      Bool.true_or, if_true]
    exact lookupParts_eq si.itlbVaddr
  dtlbVpn := by
    intro notItlb looked
    have fetch : SharedTlb.itlbLookup si = false := notItlb
    have lookup : SharedTlb.dtlbLookup si = true := looked
    simp only [SharedTlb.next, SharedTlb.vpnD, SharedTlb.rdEn, SharedTlb.lookupVaddr, lookup,
      fetch, Bool.or_true, if_true, Bool.false_eq_true, if_false]
    exact lookupParts_eq si.dtlbVaddr
  requested := by
    intro accessed
    have read : SharedTlb.rdEn si = true := accessed
    refine ⟨now, by simp, ?_⟩
    have vaddr : (SharedTlb.next shared si).sharedTlbVaddrQ = SharedTlb.lookupVaddr si := by
      simp only [SharedTlb.next, read, if_true]
    rw [vaddr]
    exact asks read

/-! ### The walker -/

theorem getLsbD_pageBits {n : Nat} (flags : Fin n → Bool) (x : Fin n) :
    (pageBits flags).getLsbD x.val = flags x :=
  (BitVec.iunfoldr_getLsbD' (f := fun x (_ : Unit) => ((), flags x)) (fun _ => ())
    fun _ => rfl).1 x

theorem partsOf_vpn (va : VAddr m.scheme) (j : Fin m.tlb.ptLevels) :
    partsOf ((field va 12 m.scheme.vpnLen).setWidth m.tlb.vpnLen) j = vpn va j.val := by
  have widths : m.scheme.partWidth * m.scheme.ptLevels ≤ m.scheme.vpnLen := by
    cases m.scheme with
    | sv32 => decide
    | sv39 => decide
    | sv39x4 => decide
  have room : m.scheme.partWidth * j.val + m.scheme.partWidth ≤
      m.scheme.partWidth * m.scheme.ptLevels := by
    rw [← Nat.mul_succ]
    exact Nat.mul_le_mul_left _ j.isLt
  apply BitVec.eq_of_getLsbD_eq
  intro k (inside : k < m.scheme.partWidth)
  have within : m.scheme.partWidth * j.val + k < m.scheme.vpnLen := by omega
  have total : m.scheme.partWidth * j.val + k < m.scheme.partWidth * m.scheme.ptLevels + 0 := by
    omega
  simp only [partsOf, vpn, field, BitVec.getLsbD_extractLsb', BitVec.getLsbD_setWidth, inside,
    within, total, decide_true, Bool.true_and, Nat.add_assoc]

/-- A leaf that the walker found for an access of one side. -/
theorem walked_filled {leaf : Leaf m.scheme}
    (asked : Requested cycles s.walker.ptw.isInstrPtw s.walker.ptw.vaddr)
    (mapped : LeafAt memory root s.walker.ptw.vaddr leaf)
    (permitted : permits (walkerInput s i).access (walkerInput s i).hyp s.walker.ptw = true)
    (word : Ptw.pte s.walker.ptw = leaf.pte) :
    Filled memory root (cycles ++ [(s, i)]) s.walker.ptw.vaddr leaf := by
  have page : SamePage leaf.level s.walker.ptw.vaddr s.walker.ptw.vaddr := fun _ _ _ => rfl
  unfold permits at permitted
  rw [word] at permitted
  cases side : s.walker.ptw.isInstrPtw with
  | true =>
      rw [side] at asked
      rw [if_pos side, Bool.and_eq_true] at permitted
      obtain ⟨executable, accessed⟩ := permitted
      exact ⟨mapped, accessed, .inl executable,
        .inr ⟨executable, .inl ⟨_, page, asked.mono _⟩⟩⟩
  | false =>
      rw [side] at asked
      rw [if_neg (by rw [side]; exact Bool.false_ne_true), Bool.and_eq_true] at permitted
      obtain ⟨readable, _⟩ := permitted
      have data : PageRequested (cycles ++ [(s, i)]) false leaf s.walker.ptw.vaddr :=
        ⟨_, page, asked.mono _⟩
      have rights : leaf.pte.a = true ∧
          (leaf.pte.r = true ∨ leaf.pte.x = true ∧ i.mxr = true) := by
        simpa [Ptw.readable, walkerInput, word] using readable
      obtain ⟨accessed, readable | ⟨executable, mxr⟩⟩ := rights
      · exact ⟨mapped, accessed, .inr data, .inl readable⟩
      · obtain ⟨before, member, asks⟩ := asked
        obtain ⟨k, found⟩ := List.mem_iff_getElem?.mp member
        have inside := (List.getElem?_eq_some_iff.mp found).1
        refine ⟨mapped, accessed, .inr data, .inr ⟨executable, .inr ?_⟩⟩
        exact ⟨_, k, cycles.length, page, Nat.le_of_lt inside,
          ⟨before, getElem?_mono found _, asks⟩, (s, i), List.getElem?_concat_length, mxr⟩

/-- An update of the walker is an entry. -/
theorem updateSharedTlb_holds (plain : m.scheme.rvh = false)
    (onPath : OnPath m.dcacheIndexWidth memory root (Requested cycles) s.walker)
    (updates : (updateSharedTlb memory s i).valid = true) :
    Holds memory root (cycles ++ [(s, i)]) (partsOf (updateSharedTlb memory s i).vpn)
      (updateSharedTlb memory s i).isPageS (updateSharedTlb memory s i).content := by
  cases valid : (walkerDrive memory s i).sharedTlbUpdateValid with
  | false =>
      have none : updateSharedTlb memory s i = noUpdate := if_neg (by simp [valid])
      rw [none] at updates
      cases updates
  | true =>
      have update : updateSharedTlb memory s i =
          walkerUpdate (Ptw.sharedTlbUpdate (walkerInput s i).hyp s.walker.ptw) := if_pos valid
      obtain ⟨asked, leaf, mapped, permitted, word, vpns, flags, content⟩ :=
        update_leafAt plain onPath (i := wiredInput memory s i) valid
      have filled := walked_filled asked mapped permitted word
      rw [update]
      refine ⟨leaf, ?_, content, ?_⟩
      · intro x inside
        exact (getLsbD_pageBits _ ⟨x, inside⟩).trans (flags ⟨x, inside⟩)
      · intro va covers
        apply filled.congr
        intro j low high
        have part : vpn va j = partsOf ((Ptw.sharedTlbUpdate (walkerInput s i).hyp
          s.walker.ptw).vpn.setWidth m.tlb.vpnLen) ⟨j, high⟩ := covers ⟨j, high⟩ low
        rw [part, ← partsOf_vpn s.walker.ptw.vaddr ⟨j, high⟩]
        exact congrArg (fun word => partsOf (BitVec.setWidth m.tlb.vpnLen word) ⟨j, high⟩)
          vpns.symm

/-! ### Every cycle -/

theorem lookup_asks (lookup : SharedTlb.rdEn (sharedTlbInput memory s i) = true) :
    Asks (SharedTlb.itlbLookup (sharedTlbInput memory s i))
      (SharedTlb.lookupVaddr (sharedTlbInput memory s i)) i := by
  unfold SharedTlb.lookupVaddr
  cases fetch : SharedTlb.itlbLookup (sharedTlbInput memory s i) with
  | true =>
      simp only [SharedTlb.itlbLookup, SharedTlb.stageOn, Bool.and_eq_true] at fetch
      obtain ⟨⟨⟨stage, request⟩, _⟩, _⟩ := fetch
      have enabled : i.enableTranslation = true := by
        simpa [sharedTlbInput, sharedInput, SharedTlb.vStEnbl] using stage
      exact ⟨request, enabled, rfl⟩
  | false =>
      have data : SharedTlb.dtlbLookup (sharedTlbInput memory s i) = true := by
        simpa [SharedTlb.rdEn, fetch] using lookup
      simp only [SharedTlb.dtlbLookup, SharedTlb.stageOn, Bool.and_eq_true] at data
      obtain ⟨⟨⟨_, stage⟩, request⟩, _⟩ := data
      have enabled : i.enLdStTranslation = true := by
        simpa [sharedTlbInput, sharedInput, SharedTlb.vStEnbl] using stage
      exact ⟨request, enabled, rfl⟩

theorem sharedHolds_reset (memories : SharedTlb.PowerOn m.tlb) :
    SharedHolds (Blank memories) memory root [] (SharedTlb.reset memories) where
  words := by
    intro w set trusted stage
    rcases trusted with blank | valid
    · exact absurd ((blank.words w set).symm.trans stage) Bool.false_ne_true
    · cases valid
  readAddr blank := blank.readAddr
  rdata accessed := by cases accessed
  accessed looked := by cases looked
  itlbVpn looked := by cases looked
  dtlbVpn _ looked := by cases looked
  requested accessed := by cases accessed

theorem inv_reset (memories : SharedTlb.PowerOn m.tlb) :
    Inv (Blank memories) memory root [] (reset memories) where
  itlb _ valid := by cases valid
  dtlb _ valid := by cases valid
  shared := sharedHolds_reset memories
  walker := onPath_reset
  lsu hit := by cases hit

theorem inv_next (plain : m.scheme.rvh = false) (inv : Inv blank memory root cycles s)
    (rooted : i.satpPpn = root) (apart : blank ∨ Apart memory s i) :
    Inv blank memory root (cycles ++ [(s, i)]) (next memory s i) where
  itlb := by
    apply tlbHolds_next inv.itlb
    intro u updates stage
    exact (itlbUpdate_holds inv.shared updates stage).mono _
  dtlb := by
    apply tlbHolds_next inv.dtlb
    intro u updates stage
    exact (dtlbUpdate_holds inv.shared updates stage).mono _
  shared := sharedHolds_next inv.shared (s, i) apart (updateSharedTlb_holds plain inv.walker)
    lookup_asks
  walker := by
    apply onPath_next plain inv.walker
    · exact fun _ _ requested => requested.mono (s, i)
    · intro _ begins
      have accessed : s.shared.sharedTlbAccessQ = true := by
        simp only [Ptw.starts, Bool.and_eq_true] at begins
        exact begins.1.2
      exact ⟨(inv.shared.requested accessed).mono (s, i), rooted⟩
  lsu := by
    intro hit
    obtain ⟨leaf, flags, content, filled⟩ :=
      tlb_hit (dtlbInput i none) inv.dtlb hit
    exact ⟨leaf, flags, content, filled.mono (s, i)⟩

/-- The unit when the power-on contents of the tag memories are never looked at. -/
abbrev apartMachine (memories : SharedTlb.PowerOn m.tlb)
    (memory : PAddr m.scheme → Pte m.scheme) (root : Ppn m.scheme) :
    Clocked.Machine (State m) (Input m) :=
  (machine memories memory root).restrict fun _ s i => Blank memories ∨ Apart memory s i

/-- The invariant holds in every reachable state. -/
theorem inv_run (plain : m.scheme.rvh = false) {memories : SharedTlb.PowerOn m.tlb}
    (run : (apartMachine memories memory root).Run cycles s) :
    Inv (Blank memories) memory root cycles s := by
  refine run.invariant (Inv (Blank memories) memory root) (inv_reset memories) ?_
  intro cycles s i _ inv allowed
  exact inv_next plain inv allowed.1 allowed.2

end Invariant

/-! ## Answers -/

section Answers

variable {blank : Prop} {memory : PAddr m.scheme → Pte m.scheme} {root : Ppn m.scheme}
  {cycles : History m} {s : State m} {i : Input m}

theorem setField_empty {n : Nat} (target : BitVec n) (lo : Nat) (v : BitVec 0) :
    setField target lo v = target := by
  apply BitVec.eq_of_getLsbD_eq
  intro k _
  exact getLsbD_setField_outside target lo v k (by omega)

/-- The address that a hit makes of the page of `leaf`. -/
theorem translated_leaf (plain : m.scheme.rvh = false) {leaf : Leaf m.scheme}
    {isPage : BitVec (m.tlb.ptLevels - 1)} {content : Pte m.scheme} {va : VAddr m.scheme}
    (flags : ∀ x, x < m.tlb.ptLevels - 1 →
      isPage.getLsbD x = decide (x + leaf.level = m.tlb.ptLevels - 1))
    (contents : content = setFlag leaf.pte 5 leaf.isGlobal)
    (inside : leaf.level < m.scheme.ptLevels) :
    translated content va isPage = physical leaf va := by
  have ppn : content.ppn = leaf.pte.ppn := by
    rw [contents]
    exact field_setFlag_disjoint _ _ _ _ (.inr (by omega))
  unfold translated physical splice
  rw [ppn]
  generalize (leaf.pte.ppn ++ field va 0 12).setWidth (m.scheme.pmpWidth + 2) = target
  obtain ⟨pte, level, isGlobal⟩ := leaf
  obtain ⟨scheme, setBits, instrTlbEntries, dataTlbEntries, pmpEntries, indexWidth, tvalEn⟩ := m
  cases scheme with
  | sv39x4 => cases plain
  | sv32 =>
      have top : isPage.getLsbD 0 = decide (0 + level = 1) := flags 0 (Nat.one_pos)
      have short : ¬ (Scheme.sv32.ptLevels = 3 ∧
          isPage.getLsbD (Scheme.sv32.ptLevels - 2) = true) := fun three => by cases three.1
      change (if isPage.getLsbD 0 then setField
        (if Scheme.sv32.ptLevels = 3 ∧ isPage.getLsbD (Scheme.sv32.ptLevels - 2) = true then _
        else target) 12 (field va 12 10) else _) = setField target 12 (field va 12 (10 * level))
      rw [if_neg short, top]
      obtain rfl | rfl : level = 0 ∨ level = 1 := by
        change level < 2 at inside
        omega
      · exact (setField_empty target 12 _).symm
      · rfl
  | sv39 =>
      have top : isPage.getLsbD 0 = decide (0 + level = 2) := flags 0 (by decide : 0 < 2)
      have mid : (3 = 3 ∧ isPage.getLsbD 1 = true) ↔ 1 + level = 2 := by
        have bit : isPage.getLsbD 1 = decide (1 + level = 2) := flags 1 (by decide : 1 < 2)
        rw [bit, decide_eq_true_eq]
        exact and_iff_right rfl
      change (if isPage.getLsbD 0 then setField
        (if 3 = 3 ∧ isPage.getLsbD 1 = true then setField target 12 (field va 12 9)
        else target) 12 (field va 12 18) else
        (if 3 = 3 ∧ isPage.getLsbD 1 = true then setField target 12 (field va 12 9)
        else target)) = setField target 12 (field va 12 (9 * level))
      rw [top]
      obtain rfl | rfl | rfl : level = 0 ∨ level = 1 ∨ level = 2 := by
        change level < 3 at inside
        omega
      · rw [if_neg (mt mid.mp (by decide))]
        exact (setField_empty target 12 _).symm
      · rw [if_pos (mid.mpr rfl)]
        rfl
      · rw [if_neg (mt mid.mp (by decide))]
        rfl

/-- What a hit tells of the page. -/
structure Answered (memory : PAddr m.scheme → Pte m.scheme) (root : Ppn m.scheme)
    (cycles : History m) (content : Pte m.scheme) (paddr : PAddr m.scheme)
    (va : VAddr m.scheme) (leaf : Leaf m.scheme) : Prop where
  filled : Filled memory root cycles va leaf
  paddr : paddr = physical leaf va
  u : content.u = leaf.pte.u
  w : content.w = leaf.pte.w
  d : content.d = leaf.pte.d

theorem answered_of_hit (plain : m.scheme.rvh = false) {leaf : Leaf m.scheme}
    {isPage : BitVec (m.tlb.ptLevels - 1)} {content : Pte m.scheme} {va : VAddr m.scheme}
    (flags : ∀ x, x < m.tlb.ptLevels - 1 →
      isPage.getLsbD x = decide (x + leaf.level = m.tlb.ptLevels - 1))
    (contents : content = setFlag leaf.pte 5 leaf.isGlobal)
    (filled : Filled memory root cycles va leaf) :
    Answered memory root cycles content (translated content va isPage) va leaf := by
  obtain ⟨table, path, _⟩ := filled.mapped.path
  refine ⟨filled, translated_leaf plain flags contents path.level_lt, ?_, ?_, ?_⟩
  · rw [contents]
    exact flag_setField_outside _ _ _ _ (.inl (by decide))
  · rw [contents]
    exact flag_setField_outside _ _ _ _ (.inl (by decide))
  · rw [contents]
    exact flag_setField_outside _ _ _ _ (.inr (by decide))

/-! ### Fetches -/

/-- A fetch answered without exception hits, and the privilege allows it. -/
theorem fetch_hits (enabled : i.enableTranslation = true)
    (valid : (instrInterface memory s i).fetchValid = true)
    (passes : (instrInterface memory s i).fetchException.valid = false) :
    itlbLuHit s i = true ∧ i.fetchReq = true ∧ iaccessErr s i = false ∧
      (instrInterface memory s i).fetchPaddr =
        translated (itlbContent s i) i.fetchVaddr (itlbIsPage s i) := by
  unfold instrInterface at valid passes ⊢
  rw [if_pos enabled] at valid passes ⊢
  cases hit : itlbLuHit s i with
  | true =>
      rw [hit] at valid passes
      refine ⟨rfl, valid, ?_, rfl⟩
      cases refused : iaccessErr s i with
      | false => rfl
      | true =>
          rw [refused] at passes
          cases passes
  | false =>
      rw [hit] at valid passes
      simp only [Bool.false_eq_true, if_false] at valid passes
      split at passes
      · split at passes
        · cases passes
        · cases passes
      · rename_i notWalking
        rw [if_neg notWalking] at valid
        cases valid

theorem fetch_permitted (plain : m.scheme.rvh = false) (inv : Inv blank memory root cycles s)
    (separate : Separate memory root cycles s i) : FetchPermitted memory root s i := by
  intro enabled valid passes
  obtain ⟨hit, request, allowed, paddr⟩ := fetch_hits enabled valid passes
  obtain ⟨leaf, flags, content, filled⟩ := tlb_hit (itlbInput i none) inv.itlb hit
  have answered := answered_of_hit plain flags content filled
  have executable : leaf.pte.x = true := by
    rcases separate.fetch request enabled leaf filled.mapped with executable | unasked
    · exact executable
    · exact filled.execute.resolve_right unasked
  have privileged : ¬ (i.privLvl = .u ∧ leaf.pte.u = false) ∧
      ¬ (i.privLvl = .s ∧ leaf.pte.u = true) := by
    have u : (itlbContent s i).u = leaf.pte.u := answered.u
    simpa [iaccessErr, request, enabled, u] using allowed
  refine ⟨leaf, filled.mapped.translate ⟨executable, filled.accessed⟩,
    paddr.trans answered.paddr, ?_, ?_⟩
  · intro user
    exact Bool.not_eq_false _ |>.mp fun clear => privileged.1 ⟨user, clear⟩
  · intro supervisor
    exact Bool.not_eq_true _ |>.mp fun set => privileged.2 ⟨supervisor, set⟩

/-! ### Loads and stores -/

/-- The exception of a hit. -/
def hitException (s : State m) (i : Input m) : MmuException m :=
  let refused := daccessErr s i || canonicalAddrCheck i
  if s.lsuIsStoreQ then
    if !s.dtlbPteQ.w || refused || !s.dtlbPteQ.d then raise storePageFault s.lsuVaddrQ
    else i.misalignedEx
  else if refused then raise loadPageFault s.lsuVaddrQ
  else i.misalignedEx

theorem dataInterface_hit (enabled : i.enLdStTranslation = true)
    (aligned : i.misalignedEx.valid = false) (hit : (s.dtlbHitQ && s.lsuReqQ) = true) :
    dataInterface memory s i =
      ⟨true, translated s.dtlbPteQ s.lsuVaddrQ s.dtlbIsPageQ, hitException s i⟩ := by
  unfold dataInterface
  rw [if_pos (by rw [enabled, aligned]; rfl)]
  exact if_pos hit

theorem misaligned_raises (misaligned : i.misalignedEx.valid = true) :
    (dataInterface memory s i).lsuException.valid = true := by
  unfold dataInterface
  rw [if_neg (by simp [misaligned])]
  exact misaligned

/-- Without a hit the walker's faults alone are answers. -/
theorem missed_raises (enabled : i.enLdStTranslation = true)
    (aligned : i.misalignedEx.valid = false) (miss : (s.dtlbHitQ && s.lsuReqQ) = false)
    (valid : (dataInterface memory s i).lsuValid = true) :
    (dataInterface memory s i).lsuException.valid = true := by
  have translates : (i.enLdStTranslation && !i.misalignedEx.valid) = true := by
    rw [enabled, aligned]
    rfl
  have missed : ¬ (s.dtlbHitQ && s.lsuReqQ) = true := by rw [miss]; exact Bool.false_ne_true
  unfold dataInterface at valid ⊢
  simp only [if_pos translates, if_neg missed] at valid ⊢
  split at valid
  · rename_i walks
    rw [if_pos walks]
    cases access : (walkerDrive memory s i).ptwAccessException with
    | true => rfl
    | false =>
        have error : (walkerDrive memory s i).ptwError = true := by simpa [access] using valid
        simp only [error, if_true]
        rfl
  · cases valid

theorem hitException_passes (passes : (hitException s i).valid = false) :
    daccessErr s i = false ∧
      (s.lsuIsStoreQ = true → s.dtlbPteQ.w = true ∧ s.dtlbPteQ.d = true) := by
  unfold hitException at passes
  cases store : s.lsuIsStoreQ with
  | true =>
      simp only [store, if_true] at passes
      split at passes
      · cases passes
      · rename_i permitted
        simp only [Bool.or_eq_true, Bool.not_eq_true', not_or, Bool.not_eq_false,
          Bool.not_eq_true] at permitted
        obtain ⟨⟨writable, allowed, _⟩, dirty⟩ := permitted
        exact ⟨allowed, fun _ => ⟨writable, dirty⟩⟩
  | false =>
      simp only [store, Bool.false_eq_true, if_false] at passes
      split at passes
      · cases passes
      · rename_i permitted
        simp only [Bool.or_eq_true, not_or, Bool.not_eq_true] at permitted
        exact ⟨permitted.1, fun stores => nomatch stores⟩

/-- A load or store answered without exception hit in the cycle before, and the checks
of the hit pass. -/
theorem lsu_hits (enabled : i.enLdStTranslation = true)
    (valid : (dataInterface memory s i).lsuValid = true)
    (passes : (dataInterface memory s i).lsuException.valid = false) :
    s.dtlbHitQ = true ∧ s.lsuReqQ = true ∧ daccessErr s i = false ∧
      (s.lsuIsStoreQ = true → s.dtlbPteQ.w = true ∧ s.dtlbPteQ.d = true) ∧
      (dataInterface memory s i).lsuPaddr =
        translated s.dtlbPteQ s.lsuVaddrQ s.dtlbIsPageQ := by
  have aligned : i.misalignedEx.valid = false := by
    cases misaligned : i.misalignedEx.valid with
    | false => rfl
    | true => exact absurd (passes.symm.trans (misaligned_raises misaligned)) (by decide)
  cases hit : s.dtlbHitQ && s.lsuReqQ with
  | false =>
      exact absurd (passes.symm.trans (missed_raises enabled aligned hit valid)) (by decide)
  | true =>
      rw [dataInterface_hit enabled aligned hit] at passes ⊢
      obtain ⟨hits, request⟩ := Bool.and_eq_true_iff.mp hit
      obtain ⟨allowed, writes⟩ := hitException_passes passes
      exact ⟨hits, request, allowed, writes, rfl⟩

theorem lsu_permitted (plain : m.scheme.rvh = false) (inv : Inv blank memory root cycles s)
    (separate : Separate memory root cycles s i) : LsuPermitted memory root s i := by
  intro enabled valid passes
  obtain ⟨hit, request, allowed, writes, paddr⟩ := lsu_hits enabled valid passes
  obtain ⟨leaf, flags, content, filled⟩ := inv.lsu hit
  have answered := answered_of_hit plain flags content filled
  have permits : (lsuAccess s i).Permits leaf.pte := by
    unfold lsuAccess
    cases store : s.lsuIsStoreQ with
    | true =>
        obtain ⟨writable, dirty⟩ := writes store
        exact ⟨answered.w.symm.trans writable, filled.accessed, answered.d.symm.trans dirty⟩
    | false =>
        refine ⟨?_, filled.accessed⟩
        rcases separate.load request store enabled leaf filled.mapped with
          readable | selected | ⟨notFetched, notSelected⟩
        · exact .inl readable
        · exact .inr selected
        · rcases filled.readable with readable | ⟨_, asked | asked⟩
          · exact .inl readable
          · exact absurd asked notFetched
          · exact absurd asked notSelected
  have privileged : ¬ (i.ldStPrivLvl = .s ∧ i.sum = false ∧ leaf.pte.u = true) ∧
      ¬ (i.ldStPrivLvl = .u ∧ leaf.pte.u = false) := by
    simpa [daccessErr, enabled, answered.u, and_assoc] using allowed
  refine ⟨leaf, filled.mapped.translate permits, paddr.trans answered.paddr, ?_, ?_⟩
  · intro user
    exact Bool.not_eq_false _ |>.mp fun clear => privileged.2 ⟨user, clear⟩
  · intro supervisor sum
    exact Bool.not_eq_true _ |>.mp fun set => privileged.1 ⟨supervisor, sum, set⟩

/-- An access that is answered without exception gets the answer of its own page walk,
unless an access of another kind asked for its page. -/
theorem answers_as_walked (plain : m.scheme.rvh = false) {memories : SharedTlb.PowerOn m.tlb}
    (run : (apartMachine memories memory root).Run cycles s)
    (separate : Separate memory root cycles s i) :
    FetchPermitted memory root s i ∧ LsuPermitted memory root s i := by
  have inv := inv_run plain run
  exact ⟨fetch_permitted plain inv separate, lsu_permitted plain inv separate⟩

end Answers

/-! ## A page that may be read only -/

section ReadOnly

/-- Sv32 with two entries in each first-level buffer and two sets in the shared one. -/
def small : MmuCfg where
  scheme := .sv32
  setBits := 1
  instrTlbEntries := 2
  dataTlbEntries := 2
  pmpEntries := 0
  dcacheIndexWidth := 12
  tvalEn := true

/-- The root table in page 1 maps the superpage at `0x400000` with V, R, A and D. -/
def readOnly (addr : BitVec 34) : Pte small.scheme := if addr = 0x1004 then 0x1000c3#32 else 0#32

def zeroTag : SharedTlb.SharedTag small.tlb where
  asid := 0
  vmid := 0
  vpn := { part := fun _ => 0, extra := 0 }
  isPageS := 0
  isPageG := 0
  vStEnbl := { v := false, g := false, s := false }

def zeros : SharedTlb.PowerOn small.tlb where
  tagSram _ := { words := fun _ => zeroTag, readAddr := 0, rdata := zeroTag }
  pteSram _ := { words := fun _ => 0, readAddr := 0, rdata := 0 }
  gPteSram _ := { words := fun _ => 0, readAddr := 0, rdata := 0 }

/-- S-mode with translation on and no access. -/
def quiet : Input small where
  flush := false
  enableTranslation := true
  enLdStTranslation := true
  fetchReq := false
  fetchVaddr := 0x400000#32
  misalignedEx := noException
  lsuReq := false
  lsuVaddr := 0x400000#32
  lsuIsStore := false
  privLvl := .s
  ldStPrivLvl := .s
  sum := false
  mxr := false
  satpPpn := 1
  asid := 0
  vsAsid := 0
  vmid := 0
  asidToBeFlushed := 0
  vaddrToBeFlushed := 0
  flushTlb := false
  flushTlbVvma := false
  flushTlbGvma := false
  dataGnt := true
  dataRvalid := true
  dataRdata := 0
  pmpcfg k := k.elim0
  pmpaddr k := k.elim0

def loads : Input small := { quiet with lsuReq := true }

def fetches : Input small := { quiet with fetchReq := true }

/-- A load of the page and its walk. -/
def walked : List (Input small) := [loads, quiet, quiet, quiet, quiet]

def afterInputs (inputs : List (Input small)) : State small :=
  (machine zeros readOnly 1).after (reset zeros) inputs

theorem zeros_blank : Blank zeros := ⟨fun _ _ => rfl, fun _ => rfl⟩

theorem readOnly_leaf {root : Ppn small.scheme} {va : VAddr small.scheme}
    {leaf : Leaf small.scheme} (mapped : LeafAt readOnly root va leaf) :
    leaf.pte = 0x1000c3#32 := by
  obtain ⟨table, _, entry, _⟩ := mapped.path
  by_cases root : slot va leaf.level table.1 = 0x1004#34
  · exact entry.symm.trans (if_pos root)
  · have empty : leaf.pte = 0#32 := entry.symm.trans (if_neg root)
    have isLeaf := mapped.isLeaf
    rw [empty] at isLeaf
    exact absurd isLeaf (by decide)

theorem answers_as_walked_load :
    ∃ (cycles : History small) (s : State small),
      (apartMachine zeros readOnly 1).Run cycles s ∧
      (dataInterface readOnly s loads).lsuValid = true ∧
      (dataInterface readOnly s loads).lsuException.valid = false ∧
      LsuPermitted readOnly 1 s loads := by
  have run := Clocked.Machine.run_of_accepts (m := machine zeros readOnly 1)
    (walked ++ [loads, loads, loads]) (by repeat' constructor)
  have apart := run.restrict (fun _ s i => Blank zeros ∨ Apart readOnly s i)
    fun _ _ _ => .inl zeros_blank
  let s := afterInputs (walked ++ [loads, loads, loads])
  have answered : (dataInterface readOnly s loads).lsuValid = true ∧
      (dataInterface readOnly s loads).lsuException.valid = false := by decide +kernel
  refine ⟨_, s, apart, answered.1, answered.2, ?_⟩
  apply (answers_as_walked rfl apart ?_).2
  constructor
  · intro fetch
    cases fetch
  · intro _ _ _ leaf mapped
    rw [readOnly_leaf mapped]
    exact .inl rfl

/-- A fetch of the page is answered from the buffers without exception after a load of it,
though the page is not executable. -/
theorem fetch_of_readOnly :
    ∃ (cycles : History small) (s : State small),
      (machine zeros readOnly 1).Run cycles s ∧ fetches.satpPpn = 1 ∧
      (instrInterface readOnly s fetches).fetchValid = true ∧
      (instrInterface readOnly s fetches).fetchException.valid = false ∧
      (∀ leaf, LeafAt readOnly 1 fetches.fetchVaddr leaf → leaf.pte.x = false) ∧
      ¬ FetchPermitted readOnly 1 s fetches := by
  have run := Clocked.Machine.run_of_accepts (m := machine zeros readOnly 1)
    (walked ++ [fetches, fetches]) (by repeat' constructor)
  let s := afterInputs (walked ++ [fetches, fetches])
  have answered : (instrInterface readOnly s fetches).fetchValid = true ∧
      (instrInterface readOnly s fetches).fetchException.valid = false := by decide +kernel
  refine ⟨_, s, run, rfl, answered.1, answered.2, ?_, ?_⟩
  · intro leaf mapped
    rw [readOnly_leaf mapped]
    rfl
  · intro permitted
    obtain ⟨leaf, finds, _⟩ := permitted rfl answered.1 answered.2
    have faults : (translate readOnly (fun _ => true) .fetch 1 fetches.fetchVaddr).outcome =
        .error .pageFault := by rfl
    cases faults.symm.trans finds

end ReadOnly

end Cva6.Mmu
