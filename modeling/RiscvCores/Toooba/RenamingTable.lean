import RiscvCores.Lib.Clocked
import RiscvCores.Toooba.ProcTypes

/-!
# The register renaming table

`mkRegRenamingTable`: the committed map from architectural to physical
registers, and one array of `size` slots that is the list of the renamings in
flight from `deqP` to before `enqP` and the list of the free physical
registers elsewhere.  The methods record what is asked for in a cycle and the
rule `canon` performs it: first the commits, then either the kills of a wrong
speculation or the claims, then the mask of a correct speculation.
-/

set_option autoImplicit false

namespace Toooba.RenamingTable

/-- `SupSize`, the number of free physical registers and `NumSpecTags`.  A `SupCnt`
extends to the width that counts up to `size`. -/
structure RtCfg where
  supSize : Nat
  size : Nat
  numSpecTags : Nat
  someSlots : 0 < size
  supCnt : supSize ≤ size

abbrev numArchReg : Nat := 64

/-- `pack` of an architectural register. -/
def getRTIndex : ArchRIndx → Fin numArchReg
  | .gpr r => r.castAdd 32
  | .fpu r => r.natAdd 32

def isFpuReg : ArchRIndx → Bool
  | .gpr _ => false
  | .fpu _ => true

variable (c : RtCfg)

abbrev IndexT := Fin c.size

abbrev PhyRIndx := Fin (numArchReg + c.size)

abbrev SpecTag := Fin c.numSpecTags

abbrev SpecBits := SpecTag c → Bool

structure ArchRegs where
  src1 : Option ArchRIndx := none
  src2 : Option ArchRIndx := none
  src3 : Option (Fin 32) := none
  dst : Option ArchRIndx := none
deriving DecidableEq

structure PhyDst where
  indx : PhyRIndx c
  isFpuReg : Bool
deriving DecidableEq

structure PhyRegs where
  src1 : Option (PhyRIndx c)
  src2 : Option (PhyRIndx c)
  src3 : Option (PhyRIndx c)
  dst : Option (PhyDst c)
deriving DecidableEq

structure RenameClaim where
  arch : Option ArchRIndx
  phy : PhyRIndx c
  specBits : SpecBits c

structure RTWrongSpec where
  killAll : Bool
  specTag : SpecTag c

structure State where
  renamingTable : Fin numArchReg → PhyRIndx c
  newRenamingsArch : IndexT c → Option ArchRIndx
  newRenamingsPhy : IndexT c → PhyRIndx c
  valid : IndexT c → Bool
  specBits : IndexT c → SpecBits c
  enqP : IndexT c
  deqP : IndexT c

/-- The methods called in one cycle. -/
structure Input where
  claimRename : Fin c.supSize → Option (ArchRegs × SpecBits c) := fun _ => none
  commit : Fin c.supSize → Bool := fun _ => false
  wrongSpec : Option (RTWrongSpec c) := none
  correctSpec : Option (SpecBits c) := none

variable {c}

/-- The contents of `new_renamings_arch` are unknown at power-up. -/
def reset (arch : IndexT c → Option ArchRIndx) : State c where
  renamingTable r := r.castAdd c.size
  newRenamingsArch := arch
  newRenamingsPhy k := k.natAdd numArchReg
  valid _ := false
  specBits _ _ := false
  enqP := ⟨0, c.someSlots⟩
  deqP := ⟨0, c.someSlots⟩

/-! ## Pointers -/

/-- The sum in the width of `newIdx`, wrapped once at `size`. -/
def newIdx (size idx incr : Nat) : Nat :=
  let newIdx := (idx + incr) % 2 ^ tLog (size + 1)
  if newIdx ≥ size then newIdx - size else newIdx

theorem newIdx_lt {size : Nat} (some : 0 < size) (idx incr : Nat) :
    newIdx size idx incr < size := by
  have wrapped := Nat.mod_lt (idx + incr) (Nat.two_pow_pos (tLog (size + 1)))
  have width := pow_tLog_le some
  unfold newIdx
  dsimp only
  split <;> omega

def incrIndex (idx : IndexT c) (incr : Nat) : IndexT c :=
  ⟨newIdx c.size idx.val incr, newIdx_lt c.someSlots idx.val incr⟩

section Reads

variable (s : State c)

def claimIndex (port : Nat) : IndexT c := incrIndex s.enqP port

def commitIndex (port : Nat) : IndexT c := incrIndex s.deqP port

def getVTag (i : IndexT c) : Nat := if i.val < s.enqP.val then i.val + c.size else i.val

end Reads

/-! ## Searches -/

/-- `mapPairs` with the identity on an odd last element. -/
def mapPairs {α : Type} (f : α → α → α) : List α → List α
  | a :: b :: rest => f a b :: mapPairs f rest
  | short => short

/-- `fold`, the tree of pairs; `rounds` bounds its height. -/
def foldTree {α : Type} (f : α → α → α) : Nat → List α → Option α
  | 0, xs => xs.head?
  | rounds + 1, xs => foldTree f rounds (mapPairs f xs)

def fold {α : Type} (f : α → α → α) (xs : List α) : Option α := foldTree f xs.length xs

section Find

variable (s : State c) (pred : IndexT c → Bool)

/-- The better of two indices by the virtual tag, among those that satisfy `pred`. -/
def getBy (first : Nat → Nat → Bool) (a b : IndexT c) : IndexT c :=
  if !pred a then b
  else if !pred b then a
  else if first (getVTag s a) (getVTag s b) then a else b

def getOlder : IndexT c → IndexT c → IndexT c := getBy s pred fun x y => decide (x < y)

def getYounger : IndexT c → IndexT c → IndexT c := getBy s pred fun x y => !decide (x < y)

def findOldest : Option (IndexT c) :=
  (fold (getOlder s pred) (List.finRange c.size)).filter pred

def findYoungest : Option (IndexT c) :=
  (fold (getYounger s pred) (List.finRange c.size)).filter pred

end Find

/-! ## Renaming -/

section Rename

variable (s : State c) (i : Input c)

def getDstRenaming (claimPort : Nat) : PhyRIndx c := s.newRenamingsPhy (claimIndex s claimPort)

def claimEn (port : Fin c.supSize) : Option (RenameClaim c) :=
  (i.claimRename port).map fun (r, sb) =>
    { arch := r.dst, phy := getDstRenaming s port, specBits := sb }

def canRename (port : Nat) : Bool := !s.valid (claimIndex s port)

/-- The claims of the lower ports in this cycle, the most recent first. -/
def searchClaimedRenamings (getPort : Nat) (archReg : ArchRIndx) : Option (PhyRIndx c) :=
  (((List.finRange c.supSize).take getPort).reverse.filterMap (claimEn s i)).findSome? fun e =>
    if e.arch = some archReg then some e.phy else none

def searchNewSrcRenamings (archReg : ArchRIndx) : Option (PhyRIndx c) :=
  (findYoungest s fun k => s.valid k && decide (s.newRenamingsArch k = some archReg)).map
    s.newRenamingsPhy

def getSrcRenaming (getPort : Nat) (archReg : ArchRIndx) : PhyRIndx c :=
  (searchClaimedRenamings s i getPort archReg).getD
    ((searchNewSrcRenamings s archReg).getD (s.renamingTable (getRTIndex archReg)))

/-- Port `port` answers when `canRename` holds there. -/
def getRename (port : Nat) (r : ArchRegs) : PhyRegs c where
  src1 := r.src1.map (getSrcRenaming s i port)
  src2 := r.src2.map (getSrcRenaming s i port)
  src3 := r.src3.map fun f => getSrcRenaming s i port (.fpu f)
  dst := r.dst.map fun d => { indx := getDstRenaming s port, isFpuReg := isFpuReg d }

def canCommit (port : Nat) : Bool := s.valid (commitIndex s port)

end Rename

/-! ## The rule `canon` -/

section Canon

variable (s : State c) (i : Input c)

/-- One port of the commit loop.  The array is read as it was at the start of the cycle. -/
def commitPort (now : State c) (port : Fin c.supSize) : State c :=
  if i.commit port then
    let curDeqP := commitIndex s port
    match s.newRenamingsArch curDeqP with
    | some arch =>
        let freed := now.renamingTable (getRTIndex arch)
        { now with
          newRenamingsPhy := Function.update now.newRenamingsPhy curDeqP freed
          valid := Function.update now.valid curDeqP false
          renamingTable := Function.update now.renamingTable (getRTIndex arch)
            (s.newRenamingsPhy curDeqP) }
    | none => { now with valid := Function.update now.valid curDeqP false }
  else now

def commits : State c :=
  let done := (List.finRange c.supSize).foldl (commitPort s i) s
  { done with deqP := incrIndex s.deqP (firstIdle i.commit) }

def needKill (x : RTWrongSpec c) (k : IndexT c) : Bool := x.killAll || s.specBits k x.specTag

/-- The pointer moves back to the oldest entry killed; the ages are those of the start of
the cycle, the valid bits those after the commits. -/
def kills (now : State c) (x : RTWrongSpec c) : State c :=
  let killValid := fun k => needKill s x k && now.valid k
  { now with
    valid := fun k => if needKill s x k then false else now.valid k
    enqP := (findOldest s killValid).getD s.enqP }

def claimPort (now : State c) (port : Fin c.supSize) : State c :=
  match claimEn s i port with
  | some claim =>
      let curEnqP := claimIndex s port
      { now with
        newRenamingsArch := Function.update now.newRenamingsArch curEnqP claim.arch
        valid := Function.update now.valid curEnqP true
        specBits := Function.update now.specBits curEnqP claim.specBits }
  | none => now

def claims (now : State c) : State c :=
  let done := (List.finRange c.supSize).foldl (claimPort s i) now
  { done with enqP := incrIndex s.enqP (firstIdle fun port => (claimEn s i port).isSome) }

def correct (now : State c) : State c :=
  match i.correctSpec with
  | some mask => { now with specBits := fun k tag => now.specBits k tag && mask tag }
  | none => now

def canon : State c :=
  let committed := commits s i
  correct i (match i.wrongSpec with
    | some x => kills s committed x
    | none => claims s i committed)

end Canon

/-! ## Runs -/

/-- The position of a slot counted from `deqP`. -/
def age (s : State c) (k : IndexT c) : Nat := (k.val + (c.size - s.deqP.val)) % c.size

/-- The renamings in flight that carry `tag`, once the cycle committed, are the youngest. -/
def SuffixCarries (s : State c) (i : Input c) (tag : SpecTag c) : Prop :=
  ∀ a b, (commits s i).valid a = true → (commits s i).valid b = true → age s a ≤ age s b →
    s.specBits a tag = true → s.specBits b tag = true

/-- Commits and claims are consecutive and made where their guards hold, no claim comes
with a wrong speculation, and what that kills are the youngest renamings. -/
structure Environment (s : State c) (i : Input c) : Prop where
  commits : Consecutive i.commit
  canCommit : ∀ port, i.commit port = true → canCommit s port = true
  claims : Consecutive fun port => (i.claimRename port).isSome
  canRename : ∀ port, (i.claimRename port).isSome = true → canRename s port = true
  noClaim : i.wrongSpec.isSome = true → ∀ port, (i.claimRename port).isSome = false
  suffix : ∀ x, i.wrongSpec = some x → x.killAll = false → SuffixCarries s i x.specTag

instance (s : State c) (i : Input c) (tag : SpecTag c) : Decidable (SuffixCarries s i tag) :=
  inferInstanceAs (Decidable (∀ _ _, _))

instance (s : State c) (i : Input c) : Decidable (Environment s i) :=
  decidable_of_iff
    (Consecutive i.commit ∧
      (∀ port : Fin c.supSize, i.commit port = true → canCommit s port = true) ∧
      Consecutive (fun port => (i.claimRename port).isSome) ∧
      (∀ port : Fin c.supSize, (i.claimRename port).isSome = true → canRename s port = true) ∧
      (i.wrongSpec.isSome = true → ∀ port, (i.claimRename port).isSome = false) ∧
      ∀ x ∈ i.wrongSpec, x.killAll = false → SuffixCarries s i x.specTag)
    ⟨fun ⟨commits, canCommit, claims, canRename, noClaim, suffix⟩ =>
      ⟨commits, canCommit, claims, canRename, noClaim, suffix⟩,
      fun env => ⟨env.commits, env.canCommit, env.claims, env.canRename, env.noClaim, env.suffix⟩⟩

def machine (c : RtCfg) (arch : IndexT c → Option ArchRIndx) :
    Clocked.Machine (State c) (Input c) where
  reset := reset arch
  next := canon
  allowed _ := Environment

/-- The sums of the cycle's new pointers fit the width in which they are formed. -/
def NoOverflow (s : State c) (i : Input c) : Prop :=
  s.deqP.val + firstIdle i.commit < 2 ^ tLog (c.size + 1) ∧
    s.enqP.val + (firstIdle fun port => (i.claimRename port).isSome) < 2 ^ tLog (c.size + 1)

instance (s : State c) (i : Input c) : Decidable (NoOverflow s i) :=
  inferInstanceAs (Decidable (_ ∧ _))

instance (arch : IndexT c → Option ArchRIndx) (cycles : List (State c × Input c)) (s : State c)
    (i : Input c) : Decidable ((machine c arch).allowed cycles s i) :=
  inferInstanceAs (Decidable (Environment s i))

instance (arch : IndexT c → Option ArchRIndx) (cycles : List (State c × Input c)) (s : State c)
    (i : Input c) :
    Decidable (((machine c arch).restrict fun _ => NoOverflow).allowed cycles s i) :=
  inferInstanceAs (Decidable (Environment s i ∧ NoOverflow s i))

end Toooba.RenamingTable
