import RiscvCores.Cva6.PageWalk

/-!
# The path of a walk

The tables on the way to a virtual address and the leaf they lead to, for no access
in particular.  In every run of the walker, with any flushes, a walk in progress is on
the path of its address, and an update is a leaf of the tables that permits the access.
-/

set_option autoImplicit false

namespace Cva6.PageWalk

open BitField RadixWalk Ptw

section Paths

variable {c : Scheme}

/-- The table of level `i` on the way to `va`, with the G bits met so far. -/
inductive Path (memory : PAddr c → Pte c) (root : Ppn c) (va : VAddr c) :
    Nat → Ppn c × Bool → Prop
  | root : Path memory root va (c.ptLevels - 1) (root, false)
  | next {i : Nat} {table : Ppn c × Bool} {word : Pte c}
      (above : Path memory root va (i + 1) table)
      (entry : memory (slot va (i + 1) table.1) = word)
      (wellFormed : WellFormed word) (pointer : ¬ (word.r ∨ word.x)) :
      Path memory root va i (word.ppn, table.2 || word.g)

/-- The tables map `va` with `leaf`. -/
structure LeafAt (memory : PAddr c → Pte c) (root : Ppn c) (va : VAddr c) (leaf : Leaf c) :
    Prop where
  path : ∃ table, Path memory root va leaf.level table ∧
    memory (slot va leaf.level table.1) = leaf.pte ∧ leaf.isGlobal = (table.2 || leaf.pte.g)
  wellFormed : WellFormed leaf.pte
  isLeaf : leaf.pte.r ∨ leaf.pte.x
  aligned : Aligned leaf.pte leaf.level

/-- The parts of the page numbers agree from `level` on. -/
def SamePage (level : Nat) (va va' : VAddr c) : Prop :=
  ∀ j, level ≤ j → j < c.ptLevels → vpn va j = vpn va' j

variable {memory : PAddr c → Pte c} {root : Ppn c} {va va' : VAddr c}

theorem Path.level_lt {i : Nat} {table : Ppn c × Bool} (path : Path memory root va i table) :
    i < c.ptLevels := by
  induction path with
  | root =>
      cases c with
      | sv32 => decide
      | sv39 => decide
      | sv39x4 => decide
  | next _ _ _ _ ih => omega

/-- The path does not depend on the parts below its level. -/
theorem Path.congr {i : Nat} {table : Ppn c × Bool} (path : Path memory root va i table)
    (same : SamePage (i + 1) va va') : Path memory root va' i table := by
  induction path with
  | root => exact .root
  | next above entry wellFormed pointer ih =>
      rename_i i table word
      have here : vpn va (i + 1) = vpn va' (i + 1) := same _ (Nat.le_refl _) above.level_lt
      have slots : slot va (i + 1) table.1 = slot va' (i + 1) table.1 := by
        rw [slot, slot, here]
      refine .next (ih fun j low high => same j (by omega) high) ?_ wellFormed pointer
      rw [← slots]
      exact entry

/-- A leaf maps its whole page. -/
theorem LeafAt.congr {leaf : Leaf c} (mapped : LeafAt memory root va leaf)
    (same : SamePage leaf.level va va') : LeafAt memory root va' leaf := by
  obtain ⟨table, path, entry, globals⟩ := mapped.path
  refine ⟨⟨table, ?_, ?_, globals⟩, mapped.wellFormed, mapped.isLeaf, mapped.aligned⟩
  · exact path.congr fun j low high => same j (Nat.le_of_succ_le low) high
  · have slots : slot va leaf.level table.1 = slot va' leaf.level table.1 := by
      rw [slot, slot, same leaf.level (Nat.le_refl _) path.level_lt]
    rw [← slots]
    exact entry

/-- The walk for an access goes along the path. -/
theorem Path.walk {access : Access} {i : Nat} {table : Ppn c × Bool}
    (path : Path memory root va i table) :
    (translate memory (fun _ => true) access root va).outcome =
      (walkFrom memory (fun _ => true) access va i table).outcome := by
  induction path with
  | root => rfl
  | next above entry wellFormed pointer ih =>
      rw [ih, walkFrom_pointer rfl]
      rw [entry, decode, if_pos wellFormed, if_neg pointer]

/-- A page walk for the very access finds the leaf if the leaf permits the access. -/
theorem LeafAt.translate {access : Access} {leaf : Leaf c}
    (mapped : LeafAt memory root va leaf) (permits : access.Permits leaf.pte) :
    (translate memory (fun _ => true) access root va).outcome = .ok leaf := by
  obtain ⟨table, path, entry, globals⟩ := mapped.path
  have decoded : decode access leaf.level table (memory (slot va leaf.level table.1)) =
      .leaf leaf := by
    rw [entry, decode, if_pos mapped.wellFormed, if_pos mapped.isLeaf,
      if_pos ⟨permits, mapped.aligned⟩, ← globals]
  rw [path.walk, walkFrom_leaf rfl decoded]

end Paths

/-! ## The walker stays on the path -/

section Walker

variable {c : Scheme} {n : Nat} {indexWidth : Nat} {memory : PAddr c → Pte c} {root : Ppn c}

/-- The walker looks for an entry on the path of its address. -/
structure Search (memory : PAddr c → Pte c) (root : Ppn c) (asked : Bool → VAddr c → Prop)
    (i : Nat) (table : Ppn c × Bool) (s : Regs c) : Prop where
  path : Path memory root s.vaddr i table
  level : s.ptwLvl + i = c.ptLevels - 1
  pointer : s.ptwPptr = slot s.vaddr i table.1
  globals : s.globalMapping = table.2
  asked : asked s.isInstrPtw s.vaddr

/-- `asked` tells which walks were asked for. -/
structure OnPath (indexWidth : Nat) (memory : PAddr c → Pte c) (root : Ppn c)
    (asked : Bool → VAddr c → Prop) (sys : System c) : Prop where
  awaited : Awaited sys
  search : sys.ptw.state = .waitGrant ∨ sys.ptw.state = .pteLookup →
    ∃ i table, Search memory root asked i table sys.ptw
  request : sys.ptw.state = .pteLookup → sys.port ≠ .free →
    answerable indexWidth sys = some sys.ptw.ptwPptr
  answer : sys.ptw.state = .pteLookup → sys.ptw.dataRvalid = true →
    sys.ptw.dataRdata = memory sys.ptw.ptwPptr

section Lookups

variable {p : AccessPins c n} {h : HypPins c} {s : Regs c}

/-- What a look-up without the hypervisor extension can do. -/
theorem checkPte_cases (plain : c.rvh = false) :
    ((checkPte p h s).sharedTlbUpdateValid = false ∧
        ((checkPte p h s).regs.state = .propagateError ∨
          (checkPte p h s).regs.state = .propagateAccessError)) ∨
      ((checkPte p h s).sharedTlbUpdateValid = true ∧
        (checkPte p h s).regs.state = .latency ∧ WellFormed (pte s) ∧
        ((pte s).r ∨ (pte s).x) ∧ permits p h s = true ∧ misalignedPage s = false) ∨
      ((checkPte p h s).sharedTlbUpdateValid = false ∧ WellFormed (pte s) ∧
        ¬ ((pte s).r ∨ (pte s).x) ∧ s.ptwLvl ≠ c.ptLevels - 1 ∧
        (checkPte p h s).regs =
          { found s with
            ptwLvl := s.ptwLvl + 1
            state := .waitGrant
            ptwPptr := tablePointer (pte s).ppn (vaddrLvl s.vaddr s.ptwLvl) }) := by
  cases allowed : allowAccess p s with
  | false =>
      obtain ⟨valid, state, _⟩ := checkPte_denied (h := h) allowed
      exact .inl ⟨valid, .inr state⟩
  | true =>
      by_cases wellFormed : WellFormed (pte s)
      · have valid := (invalidPte_iff (pte s)).mpr wellFormed
        by_cases leaf : (pte s).r ∨ (pte s).x
        · rw [checkPte_valid allowed valid, if_pos (by simpa using leaf)]
          obtain ⟨installs, state⟩ := leafPte_installs (p := p) (h := h) (s := s) plain
            (r := found s) rfl
          cases good : permits p h s && !misalignedPage s with
          | false => exact .inl ⟨by rw [installs, good], .inl (by rw [state, good]; rfl)⟩
          | true =>
              rw [Bool.and_eq_true, Bool.not_eq_true'] at good
              refine .inr (.inl ⟨?_, ?_, wellFormed, leaf, good⟩)
              · rw [installs, good.1, good.2]
                rfl
              · rw [state, good.1, good.2]
                rfl
        · rw [checkPte_valid allowed valid, if_neg (by simpa using leaf)]
          by_cases last : s.ptwLvl = c.ptLevels - 1
          · obtain ⟨installs, state⟩ := pointerPte_last (h := h) plain last (found s)
            exact .inl ⟨installs, .inl state⟩
          · rw [pointerPte_next plain last]
            exact .inr (.inr ⟨rfl, wellFormed, leaf, last, rfl⟩)
      · have invalid : invalidPte (pte s) = true := by
          rw [← Bool.not_eq_false]
          exact fun valid => wellFormed ((invalidPte_iff _).mp valid)
        obtain ⟨valid, state⟩ := checkPte_invalid (h := h) allowed invalid
        exact .inl ⟨valid, .inl state⟩

end Lookups

section Step

variable {asked asked' : Bool → VAddr c → Prop} {s : Regs c} {i : Input c n}

theorem Search.mono {level : Nat} {table : Ppn c × Bool}
    (search : Search memory root asked level table s)
    (more : ∀ isInstr va, asked isInstr va → asked' isInstr va) :
    Search memory root asked' level table s :=
  ⟨search.path, search.level, search.pointer, search.globals, more _ _ search.asked⟩

/-- A flush leaves the walk. -/
theorem unflushed (looks : (next s i).state = .waitGrant ∨ (next s i).state = .pteLookup) :
    i.flush = false := by
  by_contra flushed
  rw [Bool.not_eq_false] at flushed
  have left : (next s i).state = flushState i s := by
    rw [next, drive, if_pos flushed]
  rw [left, flushState] at looks
  split at looks
  · rcases looks with looks | looks
    · cases looks
    · cases looks
  · rcases looks with looks | looks
    · cases looks
    · cases looks

theorem idle_search (plain : c.rvh = false)
    (begins : starts i = true → asked i.itlbReq i.sharedTlbVaddr ∧ i.satpPpn = root)
    (idle : s.state = .idle)
    (looks : (Ptw.idle i s).regs.state = .waitGrant ∨
      (Ptw.idle i s).regs.state = .pteLookup) :
    ∃ level table, Search memory root asked level table (Ptw.idle i s).regs := by
  by_cases start : starts i = true
  · obtain ⟨asks, rfl⟩ := begins start
    refine ⟨c.ptLevels - 1, (i.satpPpn, false), ?_⟩
    rw [Ptw.idle, if_pos start, startStage_plain plain]
    exact ⟨.root, Nat.zero_add _, rootPointer_eq_slot _ _, rfl, asks⟩
  · rw [Ptw.idle, if_neg start] at looks
    rcases looks with looks | looks
    · exact absurd (idle.symm.trans looks) (by decide)
    · exact absurd (idle.symm.trans looks) (by decide)

/-- A look-up that goes on follows the path. -/
theorem lookup_search (plain : c.rvh = false) {level : Nat} {table : Ppn c × Bool}
    (search : Search memory root asked level table s) (word : pte s = memory s.ptwPptr)
    {p : AccessPins c n} {h : HypPins c}
    (looks : (checkPte p h s).regs.state = .waitGrant ∨
      (checkPte p h s).regs.state = .pteLookup) :
    ∃ level table, Search memory root asked level table (checkPte p h s).regs := by
  rcases checkPte_cases (p := p) (h := h) plain with
    ⟨_, failed⟩ | ⟨_, latency, _⟩ | ⟨_, wellFormed, noLeaf, inner, regs⟩
  · rcases failed with failed | failed
    · rw [failed] at looks
      simp at looks
    · rw [failed] at looks
      simp at looks
  · rw [latency] at looks
    simp at looks
  · obtain ⟨below, rfl⟩ : ∃ below, level = below + 1 := by
      have position := search.level
      exact ⟨level - 1, by omega⟩
    have entry : memory (slot s.vaddr (below + 1) table.1) = pte s := by
      rw [word, search.pointer]
    refine ⟨below, ((pte s).ppn, table.2 || (pte s).g), ?_⟩
    rw [regs]
    refine ⟨search.path.next entry wellFormed noLeaf, ?_, ?_, ?_, search.asked⟩
    · have position := search.level
      change s.ptwLvl + 1 + below = c.ptLevels - 1
      omega
    · change tablePointer (pte s).ppn (vaddrLvl s.vaddr s.ptwLvl) =
        slot s.vaddr below (pte s).ppn
      rw [vaddrLvl_eq_vpn s.vaddr search.level, tablePointer_eq_slot]
    · change (if (pte s).g && (s.ptwStage == .sStage || !c.rvh) then true
        else s.globalMapping) = _
      rw [plain, search.globals, Bool.not_false, Bool.or_true, Bool.and_true]
      cases (pte s).g with
      | true => simp
      | false => simp

/-- A walker that is at a PTE in the next cycle is on the path. -/
theorem next_search (plain : c.rvh = false)
    (search : s.state = .waitGrant ∨ s.state = .pteLookup →
      ∃ level table, Search memory root asked level table s)
    (answer : s.state = .pteLookup → s.dataRvalid = true → s.dataRdata = memory s.ptwPptr)
    (begins : s.state = .idle → starts i = true →
      asked i.itlbReq i.sharedTlbVaddr ∧ i.satpPpn = root)
    (looks : (next s i).state = .waitGrant ∨ (next s i).state = .pteLookup) :
    ∃ level table, Search memory root asked level table (next s i) := by
  have quiet := unflushed looks
  have driven : next s i =
      { (dispatch i s).regs with dataRvalid := i.dataRvalid, dataRdata := i.dataRdata } := by
    rw [next, drive_of_quiet quiet]
  rw [driven] at looks ⊢
  change (dispatch i s).regs.state = _ ∨ (dispatch i s).regs.state = _ at looks
  -- the registers of the port are no part of a search
  suffices found : ∃ level table, Search memory root asked level table (dispatch i s).regs by
    obtain ⟨level, table, found⟩ := found
    exact ⟨level, table, found.path, found.level, found.pointer, found.globals, found.asked⟩
  unfold dispatch at looks ⊢
  cases state : s.state with
  | idle =>
      simp only [state] at looks ⊢
      exact idle_search plain (begins state) state looks
  | waitGrant =>
      obtain ⟨level, table, found⟩ := search (.inl state)
      refine ⟨level, table, ?_⟩
      simp only [waitGrant]
      split
      · exact ⟨found.path, found.level, found.pointer, found.globals, found.asked⟩
      · exact ⟨found.path, found.level, found.pointer, found.globals, found.asked⟩
  | pteLookup =>
      obtain ⟨level, table, found⟩ := search (.inr state)
      simp only [state, pteLookup] at looks ⊢
      split
      · rename_i arrived
        rw [if_pos arrived] at looks
        exact lookup_search plain found (answer state arrived) looks
      · exact ⟨level, table, found.path, found.level, found.pointer, found.globals,
          found.asked⟩
  | waitRvalid =>
      simp only [state] at looks
      split at looks
      · simp at looks
      · simp at looks
  | propagateError =>
      simp only [state, propagateError] at looks
      simp at looks
  | propagateAccessError =>
      simp only [state] at looks
      simp at looks
  | latency =>
      simp only [state] at looks
      simp at looks

end Step

/-- A walker that waits for an answer and is not flushed looked up the same PTE before. -/
theorem lookup_pending {asked : Bool → VAddr c → Prop}
    {sys : System c} (onPath : OnPath indexWidth memory root asked sys)
    (taken : sys.port ≠ .free) {i : Input c n}
    (looks : (next sys.ptw i).state = .pteLookup) :
    sys.ptw.state = .pteLookup ∧
      next sys.ptw i = atPort sys.ptw false i.dataRvalid i.dataRdata := by
  obtain ⟨waiting, unanswered⟩ := onPath.awaited taken
  have quiet := unflushed (.inr looks)
  rcases waiting with looking | flushed
  · exact ⟨looking, (next_unanswered looking unanswered quiet).2⟩
  · have stays : (next sys.ptw i).state = .waitRvalid := by
      rw [next, drive_of_quiet quiet, dispatch, flushed]
      simp only [unanswered, Bool.false_eq_true, if_false]
    exact absurd (stays.symm.trans looks) (by decide)

/-- One cycle keeps the walker on the path, with more walks asked for. -/
theorem onPath_next (plain : c.rvh = false) {asked asked' : Bool → VAddr c → Prop}
    {sys : System c} (onPath : OnPath indexWidth memory root asked sys)
    (more : ∀ isInstr va, asked isInstr va → asked' isInstr va) {i : Input c n}
    (begins : sys.ptw.state = .idle → starts i = true →
      asked' i.itlbReq i.sharedTlbVaddr ∧ i.satpPpn = root) :
    OnPath indexWidth memory root asked' (systemNext indexWidth memory sys i) where
  awaited := awaited_next onPath.awaited i
  search := by
    apply next_search plain
    · intro looks
      obtain ⟨level, table, found⟩ := onPath.search looks
      exact ⟨level, table, found.mono more⟩
    · exact onPath.answer
    · exact begins
  request := by
    intro looks taken
    by_cases free : sys.port = .free
    · obtain ⟨s, port⟩ := sys
      subst free
      have wired := wire_free indexWidth memory s i
      have quiet : (wire indexWidth memory ⟨s, .free⟩ i).flush = false :=
        unflushed (.inr looks)
      have granted : ((drive i s).dataReq && i.dataGnt) = true := by
        by_contra ungranted
        apply taken
        simp [systemNext, portNext, wired, answer, Bool.eq_false_of_not_eq_true ungranted]
      have waiting := (dataReq_iff s i).mp (Bool.and_eq_true_iff.mp granted).1
      have step := next_waitGrant waiting
        (i := wire indexWidth memory ⟨s, .free⟩ i) quiet
      rw [systemNext, portNext, step, wired, granted]
      exact congrArg some (address_assembled s)
    · obtain ⟨looking, step⟩ := lookup_pending onPath free looks
      have busy := onPath.request looking free
      rw [systemNext, portNext_busy busy, step]
      cases answered : i.dataRvalid with
      | false => rfl
      | true =>
          exact absurd (by rw [systemNext, portNext_busy busy, answered]; rfl) taken
  answer := by
    intro looks arrived
    have taken : sys.port ≠ .free := by
      intro free
      obtain ⟨s, port⟩ := sys
      subst free
      rw [systemNext, wire_free] at arrived
      exact absurd arrived Bool.false_ne_true
    obtain ⟨looking, step⟩ := lookup_pending onPath taken looks
    have busy := onPath.request looking taken
    rw [systemNext, step, wire_busy memory busy] at arrived ⊢
    have answered : i.dataRvalid = true := arrived
    change (if i.dataRvalid then memory sys.ptw.ptwPptr else i.dataRdata) = _
    rw [answered]
    rfl

/-- After reset no walk is in progress. -/
theorem onPath_reset {asked : Bool → VAddr c → Prop} :
    OnPath indexWidth memory root asked { ptw := Ptw.reset, port := .free } where
  awaited taken := absurd rfl taken
  search looks := by
    rcases looks with looks | looks
    · cases looks
    · cases looks
  request looks := by cases looks
  answer looks := by cases looks

theorem updates_lookup {s : Regs c} {i : Input c n}
    (updates : (dispatch i s).sharedTlbUpdateValid = true) :
    s.state = .pteLookup ∧ s.dataRvalid = true ∧
      (checkPte i.access i.hyp s).sharedTlbUpdateValid = true := by
  unfold dispatch at updates
  cases state : s.state with
  | pteLookup =>
      simp only [state, pteLookup] at updates
      split at updates
      · rename_i arrived
        exact ⟨rfl, arrived, updates⟩
      · cases updates
  | idle =>
      simp only [state, Ptw.idle] at updates
      split at updates
      · cases updates
      · cases updates
  | waitGrant =>
      simp only [state] at updates
      cases updates
  | waitRvalid =>
      simp only [state] at updates
      cases updates
  | propagateError =>
      simp only [state] at updates
      cases updates
  | propagateAccessError =>
      simp only [state] at updates
      cases updates
  | latency =>
      simp only [state] at updates
      cases updates

/-- What an update installs: a leaf of the tables for the address of the walk, which
permits the access that the pins select. -/
theorem update_leafAt (plain : c.rvh = false) {asked : Bool → VAddr c → Prop}
    {sys : System c} (onPath : OnPath indexWidth memory root asked sys) {i : Input c n}
    (updates : (drive i sys.ptw).sharedTlbUpdateValid = true) :
    asked sys.ptw.isInstrPtw sys.ptw.vaddr ∧
      ∃ leaf, LeafAt memory root sys.ptw.vaddr leaf ∧
        permits i.access i.hyp sys.ptw = true ∧ pte sys.ptw = leaf.pte ∧
        Says sys.ptw.vaddr (.ok leaf) (.update (sharedTlbUpdate i.hyp sys.ptw)) := by
  have dispatched : (dispatch i sys.ptw).sharedTlbUpdateValid = true := by
    unfold drive at updates
    split at updates
    · exact updates
    · exact updates
  obtain ⟨looking, arrived, valid⟩ := updates_lookup dispatched
  obtain ⟨level, table, search⟩ := onPath.search (.inr looking)
  have word : pte sys.ptw = memory sys.ptw.ptwPptr := onPath.answer looking arrived
  refine ⟨search.asked, ⟨pte sys.ptw, level, table.2 || (pte sys.ptw).g⟩, ?_⟩
  rcases checkPte_cases (p := i.access) (h := i.hyp) (s := sys.ptw) plain with
    ⟨invalid, _⟩ | ⟨_, _, wellFormed, isLeaf, permitted, aligned⟩ | ⟨invalid, _⟩
  · exact absurd (invalid.symm.trans valid) Bool.false_ne_true
  · refine ⟨⟨⟨table, search.path, ?_, rfl⟩, wellFormed, isLeaf,
      (misalignedPage_iff search.level).mp aligned⟩, permitted, rfl, vpn_plain plain, ?_, ?_⟩
    · rw [← search.pointer]
      exact word.symm
    · intro x
      have position := search.level
      change isPageS i.hyp sys.ptw x = decide (x.val + level = c.ptLevels - 1)
      rw [isPageS_plain plain, beq_eq_decide, decide_eq_decide]
      omega
    · rw [content_plain plain, search.globals]
  · exact absurd (invalid.symm.trans valid) Bool.false_ne_true

end Walker

end Cva6.PageWalk
