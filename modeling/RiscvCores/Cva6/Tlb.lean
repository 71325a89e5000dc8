import RiscvCores.Cva6.SharedTlb

/-!
# The first-level translation buffers

`cva6_tlb` without the hypervisor extension, with any number of entries.  The
victim of a fill is the entry that the PLRU tree points to.
-/

set_option autoImplicit false

namespace Cva6.Tlb

open SharedTlb

variable {cfg : TlbCfg} {entries : Nat}

/-- A line of `tags_q`. -/
structure Tag (cfg : TlbCfg) where
  asid : BitVec cfg.asidWidth
  vpn : Fin cfg.ptLevels → BitVec cfg.partWidth
  isPage : BitVec (cfg.ptLevels - 1)
  /-- `v_st_enbl[0]` -/
  vStEnbl : Bool
  valid : Bool

structure State (cfg : TlbCfg) (entries : Nat) where
  tags : Fin entries → Tag cfg
  content : Fin entries → BitVec cfg.xlen
  plruTree : Nat → Bool

structure Input (cfg : TlbCfg) where
  flush : Bool
  sStEnbl : Bool
  /-- `update_i`, when it is valid. -/
  update : Option (TlbUpdate cfg)
  luAccess : Bool
  luAsid : BitVec cfg.asidWidth
  luVaddr : BitVec cfg.vlen
  asidToBeFlushed : BitVec cfg.asidWidth
  vaddrToBeFlushed : BitVec cfg.vlen

/-! ## Translation -/

/-- `vpn_match[i][x]`, and `vaddr_vpn_match[i][0][x]` for the address to be flushed. -/
def vpnMatch (tag : Tag cfg) (vaddr : BitVec cfg.vlen) (x : Fin cfg.ptLevels) : Bool :=
  vaddr.extractLsb' (12 + cfg.partWidth * x.val) cfg.partWidth == tag.vpn x

/-- `page_match[i][x]` -/
def pageMatch (tag : Tag cfg) (x : Nat) : Bool :=
  x == 0 || tag.isPage.getLsbD (cfg.ptLevels - 1 - x)

/-- `level_match[i][x]` -/
def levelMatch (tag : Tag cfg) (vaddr : BitVec cfg.vlen) (x : Fin cfg.ptLevels) : Bool :=
  decide (∀ y, x ≤ y → vpnMatch tag vaddr y = true) && pageMatch tag x.val

/-- `|level_match[i]` -/
def anyLevelMatch (tag : Tag cfg) (vaddr : BitVec cfg.vlen) : Bool :=
  decide (∃ x, levelMatch tag vaddr x = true)

def matchAsid (s : State cfg entries) (i : Input cfg) (e : Fin entries) : Bool :=
  (i.luAsid == (s.tags e).asid || isGlobal (s.content e)) && i.sStEnbl || !i.sStEnbl

/-- `lu_hit[e]` -/
def entryHits (s : State cfg entries) (i : Input cfg) (e : Fin entries) : Bool :=
  (s.tags e).valid && matchAsid s i e && (s.tags e).vStEnbl &&
    anyLevelMatch (s.tags e) i.luVaddr

/-- The last iteration that hits. -/
def lastHit (s : State cfg entries) (i : Input cfg) : Option (Fin entries) :=
  (List.finRange entries).foldl (fun found e => if entryHits s i e then some e else found) none

/-- `lu_hit_o` -/
def luHit (s : State cfg entries) (i : Input cfg) : Bool := (lastHit s i).isSome

/-- `lu_content_o` -/
def luContent (s : State cfg entries) (i : Input cfg) : BitVec cfg.xlen :=
  match lastHit s i with
  | some e => s.content e
  | none => 0

/-- `lu_is_page_o` -/
def luIsPage (s : State cfg entries) (i : Input cfg) : BitVec (cfg.ptLevels - 1) :=
  match lastHit s i with
  | some e => (s.tags e).isPage
  | none => 0

/-! ## Replacement -/

/-- Bit `k` of an entry's index. -/
def indexBit (e k : Nat) : Bool := e >>> k % 2 == 1

/-- The node of the tree on the path to entry `e` at level `lvl`. -/
def treeNode (entries e lvl : Nat) : Nat := 2 ^ lvl - 1 + e >>> (Nat.clog 2 entries - lvl)

/-- The nodes on the path to entry `e` point away from it. -/
def plruTouch (entries e : Nat) (tree : Nat → Bool) : Nat → Bool :=
  (List.range (Nat.clog 2 entries)).foldl
    (fun tree lvl => Function.update tree (treeNode entries e lvl)
      (!indexBit e (Nat.clog 2 entries - lvl - 1)))
    tree

/-- `plru_tree_n` -/
def plruTreeNext (s : State cfg entries) (i : Input cfg) : Nat → Bool :=
  (List.finRange entries).foldl
    (fun tree e => if entryHits s i e && i.luAccess then plruTouch entries e.val tree else tree)
    s.plruTree

/-- `replace_en[e]` -/
def replaceEn (s : State cfg entries) (e : Fin entries) : Bool :=
  (List.range (Nat.clog 2 entries)).all fun lvl =>
    s.plruTree (treeNode entries e.val lvl) == indexBit e.val (Nat.clog 2 entries - lvl - 1)

/-! ## Update and flush -/

/-- The entry is invalidated by a flush. -/
def flushes (s : State cfg entries) (i : Input cfg) (e : Fin entries) : Bool :=
  let tag := s.tags e
  let asidIs0 := i.asidToBeFlushed == 0
  let vaddrIs0 := i.vaddrToBeFlushed == 0
  let vaddrMatch := anyLevelMatch tag i.vaddrToBeFlushed
  let isGlobal := isGlobal (s.content e)
  let asidMatch := i.asidToBeFlushed == tag.asid
  asidIs0 && vaddrIs0 || asidIs0 && vaddrMatch && !vaddrIs0 ||
    !isGlobal && vaddrMatch && asidMatch && !vaddrIs0 && !asidIs0 ||
    !isGlobal && vaddrIs0 && asidMatch && !asidIs0

/-- The tag of a fill. -/
def fillTag (u : TlbUpdate cfg) : Tag cfg where
  asid := u.asid
  vpn x := u.vpn.extractLsb' (cfg.partWidth * x.val) cfg.partWidth
  isPage := u.isPageS
  vStEnbl := u.vStEnbl.s
  valid := true

/-- The fill that entry `e` takes. -/
def fills (s : State cfg entries) (i : Input cfg) (e : Fin entries) : Option (TlbUpdate cfg) :=
  if !i.flush && replaceEn s e && !luHit s i then i.update else none

def next (s : State cfg entries) (i : Input cfg) : State cfg entries where
  tags e :=
    match fills s i e with
    | some u => fillTag u
    | none => if i.flush && flushes s i e then { s.tags e with valid := false } else s.tags e
  content e :=
    match fills s i e with
    | some u => u.content
    | none => s.content e
  plruTree := plruTreeNext s i

def reset : State cfg entries where
  tags _ := { asid := 0, vpn := fun _ => 0, isPage := 0, vStEnbl := false, valid := false }
  content _ := 0
  plruTree _ := false

/-! ## Hits -/

section Hits

variable {s : State cfg entries} {i : Input cfg}

theorem lastHit_hits {e : Fin entries} (found : lastHit s i = some e) :
    entryHits s i e = true :=
  holds_of_foldl_last (entryHits s i) _ found

/-- A hit is the content of an entry that hits. -/
theorem luHit_entry (hit : luHit s i = true) :
    ∃ e, entryHits s i e = true ∧ luContent s i = s.content e ∧
      luIsPage s i = (s.tags e).isPage := by
  obtain ⟨e, found⟩ := Option.isSome_iff_exists.mp hit
  refine ⟨e, lastHit_hits found, ?_, ?_⟩
  · rw [luContent, found]
  · rw [luIsPage, found]

/-- What an entry holds after a cycle: a fill, or what it held before. -/
theorem next_entry (s : State cfg entries) (i : Input cfg) (e : Fin entries)
    (valid : ((next s i).tags e).valid = true) :
    (∃ u, i.update = some u ∧ (next s i).tags e = fillTag u ∧ (next s i).content e = u.content) ∨
      (next s i).tags e = s.tags e ∧ (next s i).content e = s.content e := by
  cases filled : fills s i e with
  | some u =>
      left
      refine ⟨u, ?_, ?_, ?_⟩
      · unfold fills at filled
        split at filled
        · exact filled
        · cases filled
      · simp only [next, filled]
      · simp only [next, filled]
  | none =>
      right
      simp only [next, filled] at valid ⊢
      split at valid
      · cases valid
      · rename_i kept
        exact ⟨if_neg kept, trivial⟩

end Hits

end Cva6.Tlb
