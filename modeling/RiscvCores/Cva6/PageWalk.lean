import RiscvCores.Cva6.PtwRuns
import RiscvCores.Lib.BitField
import RiscvCores.Lib.RadixWalk

/-!
# One-stage walks

The walk of the page table as the algorithm quoted in `cva6_ptw` has it, for one
access, and the walker's runs without the hypervisor extension.  A failing check of
the algorithm, a missing leaf included, is the `ptw_error_o` of the walker;
`ptw_access_exception_o` is left to the protection of the page tables themselves.
-/

set_option autoImplicit false

namespace Cva6.PageWalk

open BitField RadixWalk Ptw

/-- The access that needs a translation; `mxr` is read for loads only. -/
inductive Access where
  | fetch
  | load (mxr : Bool)
  | store
  deriving DecidableEq, Repr

def Access.isFetch : Access → Bool
  | fetch => true
  | load _ | store => false

section Algorithm

variable {c : Scheme}

structure Leaf (c : Scheme) where
  pte : Pte c
  level : Nat
  /-- Some PTE on the path has its G bit set. -/
  isGlobal : Bool

inductive Fault (c : Scheme) where
  | pageFault
  | accessFault (addr : PAddr c)

/-- `va.vpn[i]` -/
def vpn (va : VAddr c) (i : Nat) : BitVec c.partWidth :=
  field va (12 + c.partWidth * i) c.partWidth

/-- `a + va.vpn[i] × PTESIZE`, with the pages counted by `ppn`. -/
def slot (va : VAddr c) (i : Nat) (ppn : Ppn c) : PAddr c :=
  BitVec.ofNat _ (ppn.toNat * 2 ^ 12 + (vpn va i).toNat * (c.xlen / 8))

/-- Step 3: V set, W only with R, and no reserved bit on RV64. -/
def WellFormed (pte : Pte c) : Prop :=
  pte.v = true ∧ (pte.w = true → pte.r = true) ∧ (c.xlen = 64 → pte.reserved = 0)

instance (pte : Pte c) : Decidable (WellFormed pte) := inferInstanceAs (Decidable (_ ∧ _))

/-- Step 5: the access bit of the PTE, and D for a store. -/
def Access.Permits (pte : Pte c) : Access → Prop
  | fetch => pte.x = true ∧ pte.a = true
  | load mxr => (pte.r = true ∨ pte.x = true ∧ mxr = true) ∧ pte.a = true
  | store => pte.w = true ∧ pte.a = true ∧ pte.d = true

instance (pte : Pte c) (access : Access) : Decidable (access.Permits pte) :=
  match access with
  | .fetch => inferInstanceAs (Decidable (_ ∧ _))
  | .load _ => inferInstanceAs (Decidable (_ ∧ _))
  | .store => inferInstanceAs (Decidable (_ ∧ _))

/-- `pa.ppn[i-1:0] = 0` -/
def Aligned (pte : Pte c) (i : Nat) : Prop := pte.ppn.toNat % 2 ^ (c.partWidth * i) = 0

instance (pte : Pte c) (i : Nat) : Decidable (Aligned pte i) :=
  inferInstanceAs (Decidable (_ = _))

/-- Steps 3 to 5 for the PTE at level `i`; the pointer carries the G bits above it. -/
def decode (access : Access) (i : Nat) (table : Ppn c × Bool) (pte : Pte c) :
    Entry (Ppn c × Bool) (Leaf c) (Fault c) :=
  if WellFormed pte then
    if pte.r ∨ pte.x then
      if access.Permits pte ∧ Aligned pte i then
        .leaf { pte := pte, level := i, isGlobal := table.2 || pte.g }
      else .fault .pageFault
    else .pointer (pte.ppn, table.2 || pte.g)
  else .fault .pageFault

def tree (access : Access) (va : VAddr c) :
    Radix (PAddr c) (Ppn c × Bool) (Pte c) (Leaf c) (Fault c) where
  slot i table := slot va i table.1
  decode := decode access
  missing := .pageFault

/-- A PTE that the protection of physical memory keeps from being read is a fault. -/
def readPte (memory : PAddr c → Pte c) (allow : PAddr c → Bool) (addr : PAddr c) :
    Probe (PAddr c) (Fault c) (Pte c) where
  reads := [addr]
  outcome := if allow addr then .ok (memory addr) else .error (.accessFault addr)

/-- The walk from level `i` on, with the G bits met so far. -/
def walkFrom (memory : PAddr c → Pte c) (allow : PAddr c → Bool) (access : Access)
    (va : VAddr c) (i : Nat) (table : Ppn c × Bool) : Probe (PAddr c) (Fault c) (Leaf c) :=
  walk (tree access va) (readPte memory allow) i table

/-- The translation of `va` from the root page `satpPpn`. -/
def translate (memory : PAddr c → Pte c) (allow : PAddr c → Bool) (access : Access)
    (satpPpn : Ppn c) (va : VAddr c) : Probe (PAddr c) (Fault c) (Leaf c) :=
  walkFrom memory allow access va (c.ptLevels - 1) (satpPpn, false)

section Step

variable {memory : PAddr c → Pte c} {allow : PAddr c → Bool} {access : Access} {va : VAddr c}
  {i : Nat} {table : Ppn c × Bool}

theorem readPte_allowed {addr : PAddr c} (allowed : allow addr = true) :
    (readPte memory allow addr).outcome = .ok (memory addr) :=
  if_pos allowed

theorem walkFrom_denied (denied : allow (slot va i table.1) = false) :
    walkFrom memory allow access va i table =
      ⟨[slot va i table.1], .error (.accessFault (slot va i table.1))⟩ :=
  walk_read_fault (tree access va)
    (if_neg fun allowed => Bool.false_ne_true (denied.symm.trans allowed))

theorem walkFrom_fault (allowed : allow (slot va i table.1) = true) {fault : Fault c}
    (decoded : decode access i table (memory (slot va i table.1)) = .fault fault) :
    walkFrom memory allow access va i table = ⟨[slot va i table.1], .error fault⟩ :=
  walk_fault (tree access va) (readPte_allowed allowed) decoded

theorem walkFrom_leaf (allowed : allow (slot va i table.1) = true) {leaf : Leaf c}
    (decoded : decode access i table (memory (slot va i table.1)) = .leaf leaf) :
    walkFrom memory allow access va i table = ⟨[slot va i table.1], .ok leaf⟩ :=
  walk_leaf (tree access va) (readPte_allowed allowed) decoded

theorem walkFrom_missing (allowed : allow (slot va 0 table.1) = true) {q : Ppn c × Bool}
    (decoded : decode access 0 table (memory (slot va 0 table.1)) = .pointer q) :
    walkFrom memory allow access va 0 table = ⟨[slot va 0 table.1], .error .pageFault⟩ :=
  walk_missing (tree access va) (readPte_allowed allowed) decoded

theorem walkFrom_pointer (allowed : allow (slot va (i + 1) table.1) = true)
    {q : Ppn c × Bool}
    (decoded : decode access (i + 1) table (memory (slot va (i + 1) table.1)) = .pointer q) :
    walkFrom memory allow access va (i + 1) table =
      ⟨[slot va (i + 1) table.1] ++ (walkFrom memory allow access va i q).reads,
        (walkFrom memory allow access va i q).outcome⟩ :=
  walk_pointer (tree access va) (readPte_allowed allowed) decoded

end Step

/-- At most one PTE is read for each level. -/
theorem translate_reads_le (memory : PAddr c → Pte c) (allow : PAddr c → Bool)
    (access : Access) (satpPpn : Ppn c) (va : VAddr c) :
    (translate memory allow access satpPpn va).reads.length ≤ c.ptLevels := by
  have bound := reads_le (tree access va) (readPte memory allow) 1 (fun _ => Nat.le_refl 1)
    (c.ptLevels - 1) (satpPpn, false)
  rw [translate, walkFrom]
  have levels : 0 < c.ptLevels := by
    cases c with
    | sv32 => decide
    | sv39 => decide
    | sv39x4 => decide
  omega

/-- The report of the walker that says how the walk of the algorithm ended. -/
def Says (va : VAddr c) : Except (Fault c) (Leaf c) → Report c → Prop
  | .ok leaf, .update u =>
      u.vpn = field va 12 c.vpnLen ∧
        (∀ x, u.isPageS x = decide (x.val + leaf.level = c.ptLevels - 1)) ∧
        u.content = setFlag leaf.pte 5 leaf.isGlobal
  | .error .pageFault, .ptwError _ _ _ => True
  | .error (.accessFault addr), .ptwAccessException badPaddr => badPaddr = addr
  | _, _ => False

end Algorithm

/-! ## Pointers -/

section Pointers

theorem pteSize_eq (c : Scheme) : c.xlen / 8 = 2 ^ c.ptLevels := by
  cases c with
  | sv32 => rfl
  | sv39 => rfl
  | sv39x4 => rfl

theorem pageSize_eq (c : Scheme) : 2 ^ 12 = 2 ^ c.partWidth * 2 ^ c.ptLevels := by
  cases c with
  | sv32 => rfl
  | sv39 => rfl
  | sv39x4 => rfl

theorem tablePointer_eq_slot {c : Scheme} (va : VAddr c) (i : Nat) (ppn : Ppn c) :
    tablePointer ppn (vpn va i) = slot va i ppn := by
  apply BitVec.eq_of_toNat_eq
  rw [tablePointer, slot, BitVec.toNat_setWidth, BitVec.toNat_ofNat, BitField.toNat_append_add,
    BitField.toNat_append_add, pteSize_eq, pageSize_eq c, BitVec.toNat_ofNat, Nat.zero_mod,
    Nat.add_zero, Nat.add_mul, Nat.mul_assoc]

theorem rootPointer_eq_slot {c : Scheme} (ppn : Ppn c) (va : VAddr c) :
    rootPointer ppn va = slot va (c.ptLevels - 1) ppn := by
  rw [← tablePointer_eq_slot, rootPointer, vpn]
  cases c with
  | sv32 => rfl
  | sv39 => rfl
  | sv39x4 => rfl

theorem vaddrLvl_eq_vpn {c : Scheme} (va : VAddr c) {level i : Nat}
    (below : level + (i + 1) = c.ptLevels - 1) : vaddrLvl va level = vpn va i := by
  have position : c.ptLevels - level - 2 = i := by omega
  rw [vaddrLvl, vpn, position]

end Pointers

/-! ## What a look-up does -/

section Lookups

variable {c : Scheme} {n : Nat} {p : AccessPins c n} {h : HypPins c} {s : Regs c}

theorem checkPte_denied (denied : allowAccess p s = false) :
    (checkPte p h s).sharedTlbUpdateValid = false ∧
      (checkPte p h s).regs.state = .propagateAccessError ∧
      (checkPte p h s).regs.ptwPptr = s.ptwPptr := by
  unfold checkPte
  simp [denied]

theorem checkPte_invalid (allowed : allowAccess p s = true)
    (invalid : invalidPte (pte s) = true) :
    (checkPte p h s).sharedTlbUpdateValid = false ∧
      (checkPte p h s).regs.state = .propagateError := by
  unfold checkPte
  simp only [allowed, invalid, if_true, Bool.not_true, Bool.false_eq_true, if_false]
  split
  · exact ⟨rfl, trivial⟩
  · exact ⟨rfl, trivial⟩

/-- The registers of a look-up before the PTE is decoded. -/
def found (s : Regs c) : Regs c :=
  { s with
    tagValid := false
    globalMapping :=
      if (pte s).g && (s.ptwStage == .sStage || !c.rvh) then true else s.globalMapping
    state := .latency }

theorem checkPte_valid (allowed : allowAccess p s = true)
    (valid : invalidPte (pte s) = false) :
    checkPte p h s =
      if (pte s).r || (pte s).x then leafPte p h s ⟨found s, false⟩
      else pointerPte h s ⟨found s, false⟩ := by
  unfold checkPte found
  simp only [allowed, valid, Bool.not_true, Bool.false_eq_true, if_false]
  by_cases g : ((pte s).g && (s.ptwStage == .sStage || !c.rvh)) = true
  · rw [if_pos g, if_pos g]
  · rw [if_neg g, if_neg g]

/-- A look-up ends with an update when `good` holds and with an error otherwise. -/
def Installs (d : Lookup c) (good : Bool) : Prop :=
  d.sharedTlbUpdateValid = good ∧
    d.regs.state = if good then .latency else .propagateError

theorem installs_fail (d : Lookup c) :
    Installs { d.fail s with sharedTlbUpdateValid := false } false := ⟨rfl, rfl⟩

theorem leafFetch_installs (plain : c.rvh = false) {r : Regs c} (latency : r.state = .latency) :
    Installs (leafFetch h s ⟨r, false⟩) ((pte s).x && (pte s).a) := by
  unfold leafFetch
  cases (pte s).x with
  | false => exact ⟨rfl, rfl⟩
  | true =>
      cases (pte s).a with
      | false => exact ⟨rfl, rfl⟩
      | true =>
          simp only [plain, Bool.false_and, Bool.not_false, Bool.or_true]
          exact ⟨rfl, latency⟩

theorem leafData_installs (plain : c.rvh = false) {r : Regs c} (latency : r.state = .latency) :
    Installs (leafData p h s ⟨r, false⟩)
      (readable p h s && !(p.lsuIsStore && (!(pte s).w || !(pte s).d))) := by
  unfold leafData
  simp only [plain, Bool.false_and, Bool.not_false, Bool.or_true, if_true]
  cases p.lsuIsStore && (!(pte s).w || !(pte s).d) with
  | true =>
      rw [Bool.not_true, Bool.and_false]
      exact installs_fail _
  | false =>
      cases readable p h s with
      | false => exact ⟨rfl, rfl⟩
      | true => exact ⟨rfl, latency⟩

/-- The permission checks of the walker. -/
def permits (p : AccessPins c n) (h : HypPins c) (s : Regs c) : Bool :=
  if s.isInstrPtw then (pte s).x && (pte s).a
  else readable p h s && !(p.lsuIsStore && (!(pte s).w || !(pte s).d))

/-- Without the hypervisor extension a leaf is installed or fails. -/
theorem leafPte_installs (plain : c.rvh = false) {r : Regs c} (latency : r.state = .latency) :
    Installs (leafPte p h s ⟨r, false⟩) (permits p h s && !misalignedPage s) := by
  have checked : Installs
      (if s.isInstrPtw then leafFetch h s ⟨r, false⟩ else leafData p h s ⟨r, false⟩)
      (permits p h s) := by
    unfold permits
    split
    · exact leafFetch_installs plain latency
    · exact leafData_installs plain latency
  unfold leafPte
  simp only [plain, Bool.false_and, Bool.false_eq_true, if_false]
  cases misalignedPage s with
  | true =>
      rw [Bool.not_true, Bool.and_false]
      exact installs_fail _
  | false =>
      rw [Bool.not_false, Bool.and_true]
      exact checked

/-- Without the hypervisor extension a pointer fails at the last level and moves the
walker to the next table at the others. -/
theorem pointerPte_last (plain : c.rvh = false) (last : s.ptwLvl = c.ptLevels - 1)
    (r : Regs c) : Installs (pointerPte h s ⟨r, false⟩) false := by
  unfold pointerPte
  simp only [plain, last, if_true, Bool.false_and, Bool.false_eq_true, if_false]
  exact ⟨rfl, rfl⟩

theorem pointerPte_next (plain : c.rvh = false) (inner : s.ptwLvl ≠ c.ptLevels - 1)
    (r : Regs c) :
    pointerPte h s ⟨r, false⟩ =
      ⟨{ r with
          ptwLvl := s.ptwLvl + 1
          state := .waitGrant
          ptwPptr := tablePointer (pte s).ppn (vaddrLvl s.vaddr s.ptwLvl) }, false⟩ := by
  unfold pointerPte nextTable
  simp only [plain, inner, Bool.false_and, Bool.false_eq_true, if_false]

end Lookups

/-! ## The checks of the algorithm and of the walker -/

section Checks

variable {c : Scheme} {n : Nat} {p : AccessPins c n} {h : HypPins c} {s : Regs c}

theorem invalidPte_iff (word : Pte c) : invalidPte word = false ↔ WellFormed word := by
  unfold invalidPte WellFormed
  cases word.v <;> cases word.r <;> cases word.w <;> simp <;> tauto

theorem decode_fault {access : Access} {i : Nat} {table : Ppn c × Bool} {word : Pte c}
    {fault : Fault c} (decoded : decode access i table word = .fault fault) :
    fault = .pageFault ∧
      (WellFormed word →
        (word.r ∨ word.x) ∧ ¬ (access.Permits word ∧ Aligned word i)) := by
  unfold decode at decoded
  split at decoded
  · split at decoded
    · split at decoded
      · cases decoded
      · cases decoded
        exact ⟨rfl, fun _ => ⟨by assumption, by assumption⟩⟩
    · cases decoded
  · cases decoded
    exact ⟨rfl, fun wellFormed => absurd wellFormed (by assumption)⟩

theorem decode_leaf {access : Access} {i : Nat} {table : Ppn c × Bool} {word : Pte c}
    {leaf : Leaf c} (decoded : decode access i table word = .leaf leaf) :
    WellFormed word ∧ (word.r ∨ word.x) ∧ access.Permits word ∧ Aligned word i ∧
      leaf = { pte := word, level := i, isGlobal := table.2 || word.g } := by
  unfold decode at decoded
  split at decoded
  · split at decoded
    · split at decoded
      · rename_i wellFormed isLeaf good
        cases decoded
        exact ⟨wellFormed, isLeaf, good.1, good.2, rfl⟩
      · cases decoded
    · cases decoded
  · cases decoded

theorem decode_pointer {access : Access} {i : Nat} {table q : Ppn c × Bool} {word : Pte c}
    (decoded : decode access i table word = .pointer q) :
    WellFormed word ∧ ¬ (word.r ∨ word.x) ∧ q = (word.ppn, table.2 || word.g) := by
  unfold decode at decoded
  split at decoded
  · split at decoded
    · split at decoded
      · cases decoded
      · cases decoded
    · rename_i wellFormed noLeaf
      cases decoded
      exact ⟨wellFormed, noLeaf, rfl⟩
  · cases decoded

/-- The pins that select the access while a PTE is looked up. -/
def Drives (p : AccessPins c n) : Access → Prop
  | .fetch => True
  | .load mxr => p.lsuIsStore = false ∧ p.mxr = mxr
  | .store => p.lsuIsStore = true

theorem permits_iff (plain : c.rvh = false) {access : Access} (drives : Drives p access)
    (noHlvx : p.hlvxInst = false) (side : s.isInstrPtw = access.isFetch)
    (wellFormed : WellFormed (pte s)) :
    permits p h s = true ↔ access.Permits (pte s) := by
  obtain ⟨_, writeNeedsRead, _⟩ := wellFormed
  unfold permits readable
  rw [side, noHlvx, plain]
  cases access with
  | fetch => simp [Access.isFetch, Access.Permits]
  | load mxr =>
      obtain ⟨load, selected⟩ := drives
      rw [load, selected]
      simp [Access.isFetch, Access.Permits]
      tauto
  | store =>
      have store : p.lsuIsStore = true := drives
      rw [store]
      simp [Access.isFetch, Access.Permits]
      tauto

theorem misalignedPage_iff {i : Nat} (level : s.ptwLvl + i = c.ptLevels - 1) :
    misalignedPage s = false ↔ Aligned (pte s) i := by
  unfold misalignedPage Aligned
  have position : c.ptLevels - 1 - s.ptwLvl = i := by omega
  rw [position]
  cases i with
  | zero => simp [← level, Nat.mod_one]
  | succ i =>
      have inner : s.ptwLvl < c.ptLevels - 1 := by omega
      rw [decide_eq_true inner, Bool.true_and, bne_eq_false_iff_eq]
      constructor
      · intro zero
        simpa using congrArg BitVec.toNat zero
      · intro zero
        apply BitVec.eq_of_toNat_eq
        simpa using zero

end Checks

/-! ## The update -/

section Updates

variable {c : Scheme} {h : HypPins c} {s : Regs c}

theorem isPageS_plain (plain : c.rvh = false) (x : Fin (c.ptLevels - 1)) :
    isPageS h s x = (s.ptwLvl == x.val) := by
  simp [isPageS, plain]

theorem content_plain (plain : c.rvh = false) :
    (sharedTlbUpdate h s).content = setFlag (pte s) 5 (s.globalMapping || (pte s).g) := by
  simp only [sharedTlbUpdate, plain, Bool.and_false, Bool.false_eq_true, if_false]
  apply BitVec.eq_of_getLsbD_eq
  intro i inside
  have wide : 5 + 1 ≤ c.xlen := by
    cases c with
    | sv32 => decide
    | sv39 => decide
    | sv39x4 => decide
  rw [BitVec.getLsbD_or, globalBit, BitVec.getLsbD_shiftLeft, BitVec.getLsbD_setWidth]
  by_cases bit : i = 5
  · subst bit
    have written := getLsbD_setField_inside (pte s) 5
      (BitVec.ofBool (s.globalMapping || (pte s).g)) 0 (by decide) wide
    rw [Nat.add_zero] at written
    rw [setFlag, written]
    have read : (pte s).getLsbD 5 = (pte s).g := rfl
    rw [read]
    cases s.globalMapping with
    | false => simp
    | true => simp [inside, Nat.zero_lt_of_lt inside]
  · have outside : i < 5 ∨ 5 + 1 ≤ i := by omega
    rw [setFlag, getLsbD_setField_outside _ _ _ _ outside]
    rcases outside with below | above
    · simp [below]
    · have beyond : (BitVec.ofBool s.globalMapping).getLsbD (i - 5) = false :=
        BitVec.getLsbD_of_ge _ _ (by omega)
      simp [beyond]

theorem vpn_plain (plain : c.rvh = false) :
    (sharedTlbUpdate h s).vpn = field s.vaddr 12 c.vpnLen := by
  cases c with
  | sv32 => rfl
  | sv39 => rfl
  | sv39x4 => cases plain

end Updates

/-! ## Runs -/

section Runs

variable {c : Scheme} {n : Nat} {indexWidth : Nat} {memory : PAddr c → Pte c}
  {feed : Nat → Input c n}

variable (indexWidth memory) in
/-- A look-up that installs or fails ends the walk with one report. -/
theorem lookup_installs (serves : Served feed) {s : Regs c} (looking : s.state = .pteLookup)
    (arrived : s.dataRvalid = true) {t : Nat} {good : Bool}
    (installs : Installs (checkPte (feed t).access (feed t).hyp s) good) :
    ∃ t' s' report, Walks indexWidth memory feed t ⟨s, .free⟩ [.report report] t' ⟨s', .free⟩ ∧
      s'.state = .idle ∧
      if good then report = .update (sharedTlbUpdate (feed t).hyp s)
      else ∃ atGSt atGIntSt badGpaddr, report = .ptwError atGSt atGIntSt badGpaddr := by
  have cycle := lookup_cycle indexWidth memory serves looking
    arrived t
  obtain ⟨valid, state⟩ := installs
  simp only [valid] at cycle
  cases good with
  | true =>
      obtain ⟨s', last, idle⟩ := latency_cycle indexWidth memory
        serves (s := { (checkPte (feed t).access (feed t).hyp s).regs with
          dataRvalid := false, dataRdata := (feed t).dataRdata }) state (t + 1)
      exact ⟨_, s', _, cycle.trans last, idle, rfl⟩
  | false =>
      obtain ⟨s₁, error, latency⟩ := error_cycle indexWidth memory
        serves (s := { (checkPte (feed t).access (feed t).hyp s).regs with
          dataRvalid := false, dataRdata := (feed t).dataRdata }) state (t + 1)
      obtain ⟨s', last, idle⟩ := latency_cycle indexWidth memory
        serves latency (t + 1 + 1)
      exact ⟨_, s', _, by simpa using (cycle.trans error).trans last, idle, _, _, _, rfl⟩

variable (indexWidth memory) in
/-- A look-up of a protected PTE ends the walk with its address. -/
theorem lookup_denied (serves : Served feed) {s : Regs c} (looking : s.state = .pteLookup)
    (arrived : s.dataRvalid = true) {t : Nat}
    (denied : allowAccess (feed t).access s = false) :
    ∃ t' s', Walks indexWidth memory feed t ⟨s, .free⟩
        [.report (.ptwAccessException s.ptwPptr)] t' ⟨s', .free⟩ ∧
      s'.state = .idle := by
  have cycle := lookup_cycle indexWidth memory serves looking
    arrived t
  obtain ⟨valid, state, pointer⟩ :=
    checkPte_denied (p := (feed t).access) (h := (feed t).hyp) denied
  simp only [valid] at cycle
  obtain ⟨s₁, error, latency⟩ := access_error_cycle indexWidth
    memory serves (s := { (checkPte (feed t).access (feed t).hyp s).regs with
      dataRvalid := false, dataRdata := (feed t).dataRdata }) state (t + 1)
  obtain ⟨s', last, idle⟩ := latency_cycle indexWidth memory
    serves latency (t + 1 + 1)
  refine ⟨t + 1 + 1 + 1, s', ?_, idle⟩
  rw [← pointer]
  simpa using (cycle.trans error).trans last

/-- The walker looks for the entry of level `i` in `table`. -/
structure Searches (access : Access) (va : VAddr c) (i : Nat) (table : Ppn c × Bool)
    (s : Regs c) : Prop where
  waiting : s.state = .waitGrant
  level : s.ptwLvl + i = c.ptLevels - 1
  pointer : s.ptwPptr = slot va i table.1
  globals : s.globalMapping = table.2
  vaddr : s.vaddr = va
  side : s.isInstrPtw = access.isFetch

/-- The pins hold still for one access. -/
structure Holds (feed : Nat → Input c n) (access : Access) (conf : Fin n → Pmp.PmpCfg)
    (confAddr : Fin n → BitVec c.pmpWidth) : Prop where
  drives : ∀ t, Drives (feed t).access access
  noHlvx : ∀ t, (feed t).access.hlvxInst = false
  conf : ∀ t, (feed t).access.pmpcfg = conf
  confAddr : ∀ t, (feed t).access.pmpaddr = confAddr

/-- PTEs are read as a supervisor. -/
def supervisorReads (conf : Fin n → Pmp.PmpCfg) (confAddr : Fin n → BitVec c.pmpWidth)
    (addr : PAddr c) : Bool :=
  Pmp.pmpAllow addr 1#3 .s confAddr conf

variable {access : Access} {va : VAddr c} {conf : Fin n → Pmp.PmpCfg}
  {confAddr : Fin n → BitVec c.pmpWidth}

section Decoding

variable {p : AccessPins c n} {h : HypPins c} {i : Nat} {table : Ppn c × Bool} {s : Regs c}
  {word : Pte c}

/-- The registers of a search when its PTE has arrived. -/
abbrev arrived (s : Regs c) (word : Pte c) : Regs c :=
  atPort { s with state := .pteLookup } false true word

theorem lookup_good (plain : c.rvh = false) (drives : Drives p access)
    (noHlvx : p.hlvxInst = false) (searches : Searches access va i table s)
    (wellFormed : WellFormed word) :
    (permits p h (arrived s word) && !misalignedPage (arrived s word)) = true ↔
      access.Permits word ∧ Aligned word i := by
  have permitted := permits_iff (p := p) (h := h) (s := arrived s word) plain drives noHlvx
    searches.side wellFormed
  have aligned := misalignedPage_iff (s := arrived s word) (i := i) searches.level
  rw [Bool.and_eq_true, Bool.not_eq_true', permitted, aligned]
  rfl

theorem lookup_fault (plain : c.rvh = false) (drives : Drives p access)
    (noHlvx : p.hlvxInst = false) (searches : Searches access va i table s)
    (allowed : allowAccess p (arrived s word) = true) {fault : Fault c}
    (decoded : decode access i table word = .fault fault) :
    Installs (checkPte p h (arrived s word)) false := by
  obtain ⟨_, failing⟩ := decode_fault decoded
  by_cases wellFormed : WellFormed word
  · obtain ⟨isLeaf, bad⟩ := failing wellFormed
    have good := (not_congr (lookup_good (h := h) plain drives noHlvx searches wellFormed)).mpr bad
    have valid : invalidPte (pte (arrived s word)) = false := (invalidPte_iff word).mpr wellFormed
    have leafBits : ((pte (arrived s word)).r || (pte (arrived s word)).x) = true := by
      rw [Bool.or_eq_true]
      exact isLeaf
    rw [checkPte_valid allowed valid, if_pos leafBits]
    have installs := leafPte_installs (p := p) (h := h) (s := arrived s word) plain
      (r := found (arrived s word)) rfl
    rwa [Bool.eq_false_of_not_eq_true good] at installs
  · have invalid : invalidPte (pte (arrived s word)) = true := by
      rw [← Bool.not_eq_false]
      exact fun valid => wellFormed ((invalidPte_iff word).mp valid)
    exact checkPte_invalid allowed invalid

theorem lookup_leaf (plain : c.rvh = false) (drives : Drives p access)
    (noHlvx : p.hlvxInst = false) (searches : Searches access va i table s)
    (allowed : allowAccess p (arrived s word) = true) {leaf : Leaf c}
    (decoded : decode access i table word = .leaf leaf) :
    Installs (checkPte p h (arrived s word)) true ∧
      Says va (.ok leaf) (.update (sharedTlbUpdate h (arrived s word))) := by
  obtain ⟨wellFormed, isLeaf, permitted, aligned, rfl⟩ := decode_leaf decoded
  have good := (lookup_good (h := h) plain drives noHlvx searches wellFormed).mpr
    ⟨permitted, aligned⟩
  have valid : invalidPte (pte (arrived s word)) = false := (invalidPte_iff word).mpr wellFormed
  have leafBits : ((pte (arrived s word)).r || (pte (arrived s word)).x) = true := by
    rw [Bool.or_eq_true]
    exact isLeaf
  constructor
  · rw [checkPte_valid allowed valid, if_pos leafBits]
    have installs := leafPte_installs (p := p) (h := h) (s := arrived s word) plain
      (r := found (arrived s word)) rfl
    rwa [good] at installs
  · refine ⟨?_, ?_, ?_⟩
    · rw [vpn_plain plain, ← searches.vaddr]
      rfl
    · intro x
      have level := searches.level
      change isPageS h (arrived s word) x = decide (x.val + i = c.ptLevels - 1)
      rw [isPageS_plain plain, beq_eq_decide, decide_eq_decide]
      change s.ptwLvl = x.val ↔ _
      omega
    · rw [content_plain plain, ← searches.globals]
      rfl

theorem lookup_missing (plain : c.rvh = false) (searches : Searches access va 0 table s)
    (allowed : allowAccess p (arrived s word) = true) {q : Ppn c × Bool}
    (decoded : decode access 0 table word = .pointer q) :
    Installs (checkPte p h (arrived s word)) false := by
  obtain ⟨wellFormed, noLeaf, _⟩ := decode_pointer decoded
  have valid : invalidPte (pte (arrived s word)) = false := (invalidPte_iff word).mpr wellFormed
  have pointerBits : ¬ ((pte (arrived s word)).r || (pte (arrived s word)).x) = true := by
    rw [Bool.or_eq_true]
    exact noLeaf
  rw [checkPte_valid allowed valid, if_neg pointerBits]
  exact pointerPte_last (s := arrived s word) plain searches.level _

theorem lookup_pointer (plain : c.rvh = false)
    (searches : Searches access va (i + 1) table s)
    (allowed : allowAccess p (arrived s word) = true) {q : Ppn c × Bool}
    (decoded : decode access (i + 1) table word = .pointer q) :
    (checkPte p h (arrived s word)).sharedTlbUpdateValid = false ∧
      Searches access va i q (checkPte p h (arrived s word)).regs := by
  obtain ⟨wellFormed, noLeaf, rfl⟩ := decode_pointer decoded
  have valid : invalidPte (pte (arrived s word)) = false := (invalidPte_iff word).mpr wellFormed
  have pointerBits : ¬ ((pte (arrived s word)).r || (pte (arrived s word)).x) = true := by
    rw [Bool.or_eq_true]
    exact noLeaf
  have level := searches.level
  have inner : (arrived s word).ptwLvl ≠ c.ptLevels - 1 := by
    change s.ptwLvl ≠ c.ptLevels - 1
    omega
  rw [checkPte_valid allowed valid, if_neg pointerBits, pointerPte_next plain inner]
  refine ⟨rfl, rfl, ?_, ?_, ?_, searches.vaddr, searches.side⟩
  · change s.ptwLvl + 1 + i = c.ptLevels - 1
    omega
  · change tablePointer word.ppn (vaddrLvl s.vaddr s.ptwLvl) = _
    rw [searches.vaddr, vaddrLvl_eq_vpn va level, tablePointer_eq_slot]
  · change (if word.g && (s.ptwStage == .sStage || !c.rvh) then true else s.globalMapping) = _
    rw [plain, searches.globals, Bool.not_false, Bool.or_true, Bool.and_true]
    cases word.g with
    | true => simp
    | false => simp

end Decoding

section Searching

variable {i : Nat} {table : Ppn c × Bool} {s : Regs c} {t : Nat} {sys : System c}

theorem allowAccess_search (holds : Holds feed access conf confAddr)
    (searches : Searches access va i table s) (word : Pte c) (t : Nat) :
    allowAccess (feed t).access (arrived s word) =
      supervisorReads conf confAddr (slot va i table.1) := by
  rw [allowAccess, supervisorReads, holds.conf, holds.confAddr, ← searches.pointer]
  rfl

theorem search_denied (serves : Served feed) (holds : Holds feed access conf confAddr)
    (searches : Searches access va i table s) (waits : Waits s sys)
    (denied : supervisorReads conf confAddr (slot va i table.1) = false) :
    ∃ t' s', Walks indexWidth memory feed t sys
        [.read (slot va i table.1), .report (.ptwAccessException (slot va i table.1))] t'
        ⟨s', .free⟩ ∧
      s'.state = .idle := by
  obtain ⟨t₁, request⟩ := served indexWidth memory serves
    searches.waiting (t := t) waits
  obtain ⟨t', s', last, idle⟩ := lookup_denied indexWidth memory
    serves (s := arrived s (memory s.ptwPptr)) rfl rfl (t := t₁)
    ((allowAccess_search holds searches _ t₁).trans denied)
  refine ⟨t', s', ?_, idle⟩
  rw [← searches.pointer]
  exact request.trans last

variable (indexWidth) in
theorem search_installs (serves : Served feed) (searches : Searches access va i table s)
    (waits : Waits s sys) {good : Bool}
    (installs : ∀ t, Installs
      (checkPte (feed t).access (feed t).hyp (arrived s (memory s.ptwPptr))) good) :
    ∃ t' t'' s' report, Walks indexWidth memory feed t sys
        [.read (slot va i table.1), .report report] t' ⟨s', .free⟩ ∧
      s'.state = .idle ∧
      if good then
        report = .update (sharedTlbUpdate (feed t'').hyp (arrived s (memory s.ptwPptr)))
      else ∃ atGSt atGIntSt badGpaddr, report = .ptwError atGSt atGIntSt badGpaddr := by
  obtain ⟨t₁, request⟩ := served indexWidth memory serves
    searches.waiting (t := t) waits
  obtain ⟨t', s', report, last, idle, ending⟩ := lookup_installs indexWidth
    memory serves (s := arrived s (memory s.ptwPptr)) rfl rfl (installs t₁)
  refine ⟨t', t₁, s', report, ?_, idle, ending⟩
  rw [← searches.pointer]
  exact request.trans last

variable (indexWidth memory) in
/-- The search of one level goes on to the next. -/
theorem search_pointer (serves : Served feed) (searches : Searches access va (i + 1) table s)
    (waits : Waits s sys) {q : Ppn c × Bool}
    (follows : ∀ t,
      (checkPte (feed t).access (feed t).hyp
          (arrived s (memory s.ptwPptr))).sharedTlbUpdateValid = false ∧
        Searches access va i q
          (checkPte (feed t).access (feed t).hyp (arrived s (memory s.ptwPptr))).regs) :
    ∃ t' s' sys', Walks indexWidth memory feed t sys [.read (slot va (i + 1) table.1)] t' sys' ∧
      Searches access va i q s' ∧ Waits s' sys' := by
  obtain ⟨t₁, request⟩ := served indexWidth memory serves
    searches.waiting (t := t) waits
  obtain ⟨valid, searches'⟩ := follows t₁
  have cycle := lookup_cycle indexWidth memory serves
    (s := arrived s (memory s.ptwPptr)) rfl rfl t₁
  simp only [valid] at cycle
  refine ⟨t₁ + 1, _, ⟨atPort _ (checkPte (feed t₁).access (feed t₁).hyp
    (arrived s (memory s.ptwPptr))).regs.tagValid false (feed t₁).dataRdata, .free⟩, ?_,
    searches', ⟨_, _, _, rfl⟩⟩
  rw [← searches.pointer]
  exact request.trans cycle

end Searching

/-- From cycle `t` on the walker makes the reads of `walk`, reports how it ends and is
idle. -/
def Follows (indexWidth : Nat) (memory : PAddr c → Pte c) (feed : Nat → Input c n)
    (va : VAddr c) (t : Nat) (sys : System c)
    (walk : Probe (PAddr c) (Fault c) (Leaf c)) : Prop :=
  ∃ t' s' report, Walks indexWidth memory feed t sys
      (walk.reads.map .read ++ [.report report]) t' ⟨s', .free⟩ ∧
    s'.state = .idle ∧ Says va walk.outcome report

section Searching

variable {i : Nat} {table : Ppn c × Bool} {s : Regs c} {t : Nat} {sys : System c}

theorem follows_denied (serves : Served feed) (holds : Holds feed access conf confAddr)
    (searches : Searches access va i table s) (waits : Waits s sys)
    (denied : supervisorReads conf confAddr (slot va i table.1) = false) :
    Follows indexWidth memory feed va t sys
      ⟨[slot va i table.1], .error (.accessFault (slot va i table.1))⟩ := by
  obtain ⟨t', s', run, idle⟩ := search_denied serves holds searches waits denied
  exact ⟨t', s', _, run, idle, rfl⟩

theorem follows_pageFault (serves : Served feed) (searches : Searches access va i table s)
    (waits : Waits s sys)
    (installs : ∀ t, Installs
      (checkPte (feed t).access (feed t).hyp (arrived s (memory s.ptwPptr))) false) :
    Follows indexWidth memory feed va t sys ⟨[slot va i table.1], .error .pageFault⟩ := by
  obtain ⟨t', _, s', report, run, idle, _, _, _, rfl⟩ :=
    search_installs _ serves searches waits installs
  exact ⟨t', s', _, run, idle, trivial⟩

/-- An entry that ends the walk of the algorithm ends that of the walker. -/
theorem follows_entry (plain : c.rvh = false) (serves : Served feed)
    (holds : Holds feed access conf confAddr) (searches : Searches access va i table s)
    (waits : Waits s sys)
    (allowed : supervisorReads conf confAddr (slot va i table.1) = true)
    (ends : ∀ q, decode access i table (memory (slot va i table.1)) ≠ .pointer q) :
    Follows indexWidth memory feed va t sys
      (walkFrom memory (supervisorReads conf confAddr) access va i table) := by
  have reads (t : Nat) := (allowAccess_search holds searches (memory s.ptwPptr) t).trans allowed
  have word : memory s.ptwPptr = memory (slot va i table.1) := by rw [searches.pointer]
  cases decoded : decode access i table (memory (slot va i table.1)) with
  | pointer q => exact absurd decoded (ends q)
  | fault fault =>
      obtain ⟨rfl, _⟩ := decode_fault decoded
      rw [walkFrom_fault allowed decoded]
      exact follows_pageFault serves searches waits fun t =>
        lookup_fault plain (holds.drives t) (holds.noHlvx t) searches (reads t)
          (by rw [word]; exact decoded)
  | leaf leaf =>
      have lookup (t : Nat) :=
        lookup_leaf (h := (feed t).hyp) plain (holds.drives t) (holds.noHlvx t) searches
          (reads t) (by rw [word]; exact decoded)
      obtain ⟨t', t'', s', _, run, idle, rfl⟩ :=
        search_installs indexWidth serves searches waits
          fun t => (lookup t).1
      rw [walkFrom_leaf allowed decoded]
      exact ⟨t', s', _, run, idle, (lookup t'').2⟩

end Searching

variable (indexWidth memory) in
/-- From a search at level `i` the walker follows the algorithm. -/
theorem walk_searching (plain : c.rvh = false) (serves : Served feed)
    (holds : Holds feed access conf confAddr) (i : Nat) (table : Ppn c × Bool) {s : Regs c}
    (searches : Searches access va i table s) {t : Nat} {sys : System c}
    (waits : Waits s sys) :
    Follows indexWidth memory feed va t sys
      (walkFrom memory (supervisorReads conf confAddr) access va i table) := by
  -- on the level of the entry; a pointer uses the hypothesis one level down
  induction i generalizing table s t sys with
  | zero =>
      cases allowed : supervisorReads conf confAddr (slot va 0 table.1) with
      | false =>
          rw [walkFrom_denied allowed]
          exact follows_denied serves holds searches waits allowed
      | true =>
          cases decoded : decode access 0 table (memory (slot va 0 table.1)) with
          | pointer q =>
              rw [walkFrom_missing allowed decoded]
              exact follows_pageFault serves searches waits fun t =>
                lookup_missing plain searches
                  ((allowAccess_search holds searches _ t).trans allowed)
                  (by rw [searches.pointer]; exact decoded)
          | fault _ =>
              exact follows_entry plain serves holds searches waits allowed
                (by simp [decoded])
          | leaf _ =>
              exact follows_entry plain serves holds searches waits allowed
                (by simp [decoded])
  | succ i ih =>
      cases allowed : supervisorReads conf confAddr (slot va (i + 1) table.1) with
      | false =>
          rw [walkFrom_denied allowed]
          exact follows_denied serves holds searches waits allowed
      | true =>
          cases decoded : decode access (i + 1) table (memory (slot va (i + 1) table.1)) with
          | pointer q =>
              rw [walkFrom_pointer allowed decoded]
              obtain ⟨t₁, s₁, sys₁, first, searches₁, waits₁⟩ :=
                search_pointer indexWidth memory (t := t) serves
                  searches waits fun t =>
                    lookup_pointer plain searches
                      ((allowAccess_search holds searches _ t).trans allowed)
                      (by rw [searches.pointer]; exact decoded)
              obtain ⟨t', s', report, rest, idle, ending⟩ :=
                ih (t := t₁) q searches₁ waits₁
              exact ⟨t', s', report, by simpa using first.trans rest, idle, ending⟩
          | fault _ =>
              exact follows_entry plain serves holds searches waits allowed
                (by simp [decoded])
          | leaf _ =>
              exact follows_entry plain serves holds searches waits allowed
                (by simp [decoded])

theorem startStage_plain (plain : c.rvh = false) (i : Input c n) (s : Regs c) :
    startStage i s =
      { s with ptwStage := .sStage, ptwPptr := rootPointer i.satpPpn i.sharedTlbVaddr } := by
  simp [startStage, plain]

/-- The first table is searched at the top level. -/
theorem idle_searches (plain : c.rvh = false) {i : Input c n} (begins : starts i = true)
    (side : i.itlbReq = access.isFetch) (s : Regs c) :
    Searches access i.sharedTlbVaddr (c.ptLevels - 1) (i.satpPpn, false)
      (Ptw.idle i s).regs := by
  rw [Ptw.idle, if_pos begins, startStage_plain plain]
  exact ⟨rfl, Nat.zero_add _, rootPointer_eq_slot i.satpPpn i.sharedTlbVaddr, rfl, rfl, side⟩

variable (indexWidth memory) in
/-- The cycle in which a walk starts. -/
theorem start_cycle (plain : c.rvh = false) (quiet : (feed 0).flush = false) {s : Regs c}
    (idle : s.state = .idle) (requested : (feed 0).sharedTlbAccess = true)
    (missed : (feed 0).sharedTlbHit = false)
    (side : (feed 0).itlbReq = access.isFetch) :
    ∃ s' sys', Walks indexWidth memory feed 0 ⟨s, .free⟩
        [.start (feed 0).sharedTlbVaddr access.isFetch] 1 sys' ∧
      Searches access (feed 0).sharedTlbVaddr (c.ptLevels - 1) ((feed 0).satpPpn, false) s' ∧
      Waits s' sys' := by
  have begun (i : Input c n) (requested : i.sharedTlbAccess = true)
      (missed : i.sharedTlbHit = false) : starts i = true := by
    simp [starts, plain, requested, missed]
  have driven (i : Input c n) (quiet : i.flush = false) : drive i s = Ptw.idle i s := by
    rw [drive_of_quiet quiet, dispatch, idle]
  have begins : starts (answer (feed 0) false false (feed 0).dataRdata) = true :=
    begun _ requested missed
  have unasked : (drive (feed 0) s).dataReq = false := by
    rw [driven _ quiet, Ptw.idle, if_pos (begun _ requested missed)]
  have wired := driven (answer (feed 0) false false (feed 0).dataRdata) quiet
  have missing : (Ptw.idle (answer (feed 0) false false (feed 0).dataRdata) s).sharedTlbMiss =
      true := by
    rw [Ptw.idle, if_pos begins]
  have silent : reports s (answer (feed 0) false false (feed 0).dataRdata) = [] := by
    rw [reports, wired, Ptw.idle, if_pos begins]
    rfl
  have cycle := free_cycle indexWidth memory (t := 0) rfl
    unasked wired
  rw [missing, silent, side] at cycle
  refine ⟨_, _, cycle, idle_searches plain begins side s, ?_⟩
  exact ⟨(Ptw.idle (answer (feed 0) false false (feed 0).dataRdata) s).regs.tagValid, _, _, rfl⟩

/-- The walker without the hypervisor extension follows the quoted algorithm: whatever was
flushed before, a walk that starts in an idle state and is not flushed makes exactly the
reads of the algorithm, at most one for each level, and ends in exactly one report, which
tells its outcome. -/
theorem ptw_eq_algorithm (plain : c.rvh = false) {cycles : List (System c × Input c n)}
    {sys : System c} (run : (machine indexWidth memory).Run cycles sys)
    (idle : sys.ptw.state = .idle) (serves : Served feed)
    (requested : (feed 0).sharedTlbAccess = true) (missed : (feed 0).sharedTlbHit = false)
    (side : (feed 0).itlbReq = access.isFetch)
    (holds : Holds feed access conf confAddr) :
    let walk := translate memory (supervisorReads conf confAddr) access (feed 0).satpPpn
      (feed 0).sharedTlbVaddr
    ∃ k report,
      ((machine indexWidth memory).trace sys feed k).ptw.state = .idle ∧
        (machine indexWidth memory).log (events indexWidth memory) sys feed k =
          .start (feed 0).sharedTlbVaddr access.isFetch ::
            (walk.reads.map .read ++ [.report report]) ∧
        Says (feed 0).sharedTlbVaddr walk.outcome report ∧
        walk.reads.length ≤ c.ptLevels := by
  intro walk
  obtain ⟨s, port⟩ := sys
  obtain rfl : port = .free := idle_port_free run idle
  obtain ⟨s₁, sys₁, first, searches, waits⟩ :=
    start_cycle indexWidth memory plain (serves.quiet 0) idle
      requested missed side
  obtain ⟨k, s', report, rest, idle', ending⟩ :=
    walk_searching indexWidth memory plain serves holds _ _
      searches (t := 1) waits
  obtain ⟨state, log⟩ := (first.trans rest).trace_log
  exact ⟨k, report, by rw [state]; exact idle', log, ending,
    translate_reads_le memory _ access _ _⟩

end Runs

/-- A load from `0x40001234` that misses, with the cache ready in every cycle. -/
def readyLoad : Input .sv39 0 where
  access :=
    { lsuIsStore := false, mxr := false, hlvxInst := false, pmpcfg := Fin.elim0,
      pmpaddr := Fin.elim0 }
  hyp :=
    { enableTranslation := true, enableGTranslation := false, enLdStTranslation := true,
      enLdStGTranslation := false, v := false, ldStV := false, vmxr := false, hgatpPpn := 0 }
  flush := false
  dataGnt := true
  dataRvalid := true
  dataRdata := 0
  asid := 0
  vsAsid := 0
  vmid := 0
  sharedTlbAccess := true
  sharedTlbHit := false
  sharedTlbVaddr := 0x40001234
  itlbReq := false
  satpPpn := 0x80
  vsatpPpn := 0

/-- Every word of memory is a leaf for page 0: the walk ends at the gigapage. -/
theorem ptw_eq_algorithm_gigapage :
    ∃ k u,
      (machine 12 fun _ => 0xcf).log (events 12 fun _ => 0xcf)
          { ptw := Ptw.reset, port := .free } (fun _ => readyLoad) k =
        [.start 0x40001234 false, .read 0x80008, .report (.update u)] ∧
      u.content = 0xcf ∧ u.isPageS ⟨0, by decide⟩ = true := by
  have served : Served fun _ => readyLoad :=
    ⟨fun _ => rfl, fun _ => ⟨0, rfl⟩, fun _ => ⟨0, rfl⟩⟩
  have holds : Holds (fun _ => readyLoad) (.load false) Fin.elim0 Fin.elim0 :=
    ⟨fun _ => ⟨rfl, rfl⟩, fun _ => rfl, fun _ => rfl, fun _ => rfl⟩
  obtain ⟨k, report, _, log, ending, _⟩ :=
    ptw_eq_algorithm rfl (Clocked.Machine.Run.reset (m := machine 12 fun _ => 0xcf)) rfl served
      rfl rfl rfl holds
  have walk : translate (c := .sv39) (fun _ => 0xcf) (supervisorReads Fin.elim0 Fin.elim0)
      (.load false) readyLoad.satpPpn readyLoad.sharedTlbVaddr =
        ⟨[0x80008], .ok { pte := 0xcf, level := 2, isGlobal := false }⟩ := by
    rfl
  rw [walk] at log ending
  cases report with
  | update u =>
      obtain ⟨_, page, content⟩ := ending
      refine ⟨k, u, log, ?_, ?_⟩
      · rw [content]
        decide
      · rw [page]
        decide
  | ptwError _ _ _ => exact ending.elim
  | ptwAccessException _ => exact ending.elim

end Cva6.PageWalk
