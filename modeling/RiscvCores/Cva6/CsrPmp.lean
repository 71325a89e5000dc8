import RiscvCores.Cva6.CsrRegfile

/-!
# Locked PMP entries are immutable

Only the write of a PMP register reaches the PMP registers; traps, returns and
the debugger leave them alone.  The write refuses locked entries, and the
legalization at the clock edge falls back on the old fields.
-/

set_option autoImplicit false

namespace Cva6.CsrRegfile

open BitField
open Cva6.Pmp (PrivLvl PmpAddrMode PmpCfg)

variable {cfg : CsrCfg}

/-! ## Frame -/

/-- The PMP registers. -/
def pmpRegs (s : Regs cfg) : (Fin 64 → PmpCfg) × (Fin 64 → BitVec (cfg.plen - 2)) :=
  (s.pmpcfg, s.pmpaddr)

theorem trapS_pmp (s d : Regs cfg) (pins : Pins cfg) :
    pmpRegs (trapS s pins d) = pmpRegs d := by
  simp only [trapS, pmpRegs]
  split <;> rfl

theorem trapM_pmp (s d : Regs cfg) (pins : Pins cfg) :
    pmpRegs (trapM s pins d) = pmpRegs d := by
  simp only [trapM, pmpRegs]
  split <;> rfl

theorem exceptionStack_pmp (s d : Regs cfg) (pins : Pins cfg) :
    pmpRegs (exceptionStack s pins d) = pmpRegs d := by
  unfold exceptionStack
  split
  · change pmpRegs (if _ then _ else _) = _
    split
    · split
      · rfl
      · exact trapS_pmp s d pins
    · exact trapM_pmp s d pins
  · rfl

theorem debugWhen_pmp (s d : Regs cfg) (happens enters : Bool) (dpc : BitVec cfg.xlen)
    (cause : BitVec 3) : pmpRegs (debugWhen s happens enters dpc cause d) = pmpRegs d := by
  unfold debugWhen
  split <;> rfl

theorem debugEntry_pmp (s d : Regs cfg) (pins : Pins cfg) :
    pmpRegs (debugEntry s pins d) = pmpRegs d := by
  unfold debugEntry
  split
  · rw [debugWhen_pmp, debugWhen_pmp, debugWhen_pmp]
    rfl
  · rfl

theorem translationEnables_pmp (s d : Regs cfg) :
    pmpRegs (translationEnables s d) = pmpRegs d := by
  simp only [translationEnables, pmpRegs]
  split <;> rfl

theorem returnM_pmp (s d : Regs cfg) : pmpRegs (returnM s d) = pmpRegs d := by
  simp only [returnM, pmpRegs]
  split <;> rfl

theorem returnS_pmp (s d : Regs cfg) : pmpRegs (returnS s d) = pmpRegs d := by
  simp only [returnS, pmpRegs]
  split <;> rfl

theorem returnFrom_pmp (s d : Regs cfg) (op : FuOp) :
    pmpRegs (returnFrom s op d) = pmpRegs d := by
  have vs (d : Regs cfg) : pmpRegs (returnVs s d) = pmpRegs d := rfl
  have debug (d : Regs cfg) : pmpRegs (returnDebug s d) = pmpRegs d := rfl
  simp only [returnFrom, apply_ite pmpRegs, returnM_pmp, returnS_pmp, vs, debug, ite_self]

/-- A register of `csr_update` other than a PMP register leaves them alone. -/
theorem csrWriteCase_pmp (s : Regs cfg) (csrAddr : BitVec 12) (csr : Csr)
    (wdata : BitVec cfg.xlen) (w : Update cfg) :
    pmpRegs (csrWriteCase s csrAddr csr wdata w).d = pmpRegs w.d ∨
      pmpRegs (csrWriteCase s csrAddr csr wdata w).d =
        (pmpcfgWrite s w.d.pmpcfg (pmpcfgIndex csrAddr) wdata, w.d.pmpaddr) ∨
      pmpRegs (csrWriteCase s csrAddr csr wdata w).d =
        (w.d.pmpcfg, pmpaddrWrite s w.d.pmpaddr (pmpaddrIndex csrAddr) wdata) := by
  cases csr with
  | pmpcfg =>
      simp only [csrWriteCase, Update.reject, pmpRegs]
      split_ifs
      · exact .inl rfl
      · exact .inr (.inl rfl)
  | pmpaddr => exact .inr (.inr rfl)
  | _ =>
      refine .inl ?_
      simp only [csrWriteCase, Update.reject, Update.when, Update.flushWhen, Update.fpWhen,
        Update.translation,
        pmpRegs]
      repeat' split
      all_goals rfl

theorem defaults_pmp (s : Regs cfg) (pins : Pins cfg) :
    pmpRegs (defaults s pins).d = pmpRegs s := by
  simp only [defaults, counters, pmpRegs]
  split <;> rfl

/-- The PMP registers that the clock edge legalizes are those of the case
statement, with the reserved bits cleared. -/
theorem next_pmp (s : Regs cfg) (i : Input cfg) :
    (next s i).pmpcfg = pmpcfgNext s (hardwire s i.pins (csrWrite s i)) ∧
      (next s i).pmpaddr = pmpaddrNext s (csrWrite s i).d := by
  let hardwired := hardwire s i.pins (csrWrite s i)
  let last := returnFrom s i.csrOp (translationEnables s
    (debugEntry s i.pins (exceptionStack s i.pins hardwired)))
  have kept : pmpRegs last = pmpRegs hardwired := by
    rw [returnFrom_pmp, translationEnables_pmp, debugEntry_pmp, exceptionStack_pmp]
  have cfgKept : last.pmpcfg = hardwired.pmpcfg := congrArg Prod.fst kept
  have addrKept : last.pmpaddr = hardwired.pmpaddr := congrArg Prod.snd kept
  constructor
  · funext k
    change pmpcfgNext s last k = pmpcfgNext s hardwired k
    rw [pmpcfgNext, pmpcfgNext, cfgKept]
  · funext k
    change pmpaddrNext s last k = pmpaddrNext s (csrWrite s i).d k
    rw [pmpaddrNext, pmpaddrNext, addrKept]
    rfl

/-! ## Locked entries -/

/-- The write of this cycle leaves the PMP registers alone, or is one of the
two PMP writes. -/
theorem csrWrite_pmp (s : Regs cfg) (i : Input cfg) :
    pmpRegs (csrWrite s i).d = pmpRegs s ∨
      (∃ index wdata, pmpRegs (csrWrite s i).d =
        (pmpcfgWrite s s.pmpcfg index wdata, s.pmpaddr)) ∨
      ∃ index wdata, pmpRegs (csrWrite s i).d =
        (s.pmpcfg, pmpaddrWrite s s.pmpaddr index wdata) := by
  have start := defaults_pmp s i.pins
  have startCfg : (defaults s i.pins).d.pmpcfg = s.pmpcfg := congrArg Prod.fst start
  have startAddr : (defaults s i.pins).d.pmpaddr = s.pmpaddr := congrArg Prod.snd start
  unfold csrWrite
  split
  · rcases csrWriteCase_pmp s i.csrAddr (selected s i) (csrWdata s i) (defaults s i.pins) with
      none | config | address
    · exact .inl (none.trans start)
    · rw [startCfg, startAddr] at config
      exact .inr (.inl ⟨_, _, config⟩)
    · rw [startCfg, startAddr] at address
      exact .inr (.inr ⟨_, _, address⟩)
  · exact .inl start

/-- A locked entry keeps its configuration through the write. -/
theorem csrWrite_locked (s : Regs cfg) (i : Input cfg) (k : Fin 64)
    (locked : (s.pmpcfg k).locked = true) : (csrWrite s i).d.pmpcfg k = s.pmpcfg k := by
  have unlocked : (s.pmpcfg k).locked ≠ false := by rw [locked]; decide
  rcases csrWrite_pmp s i with same | ⟨index, wdata, config⟩ | ⟨index, wdata, address⟩
  · exact congrFun (congrArg Prod.fst same) k
  · have written := congrFun (congrArg Prod.fst config) k
    exact written.trans (if_neg fun writes => unlocked writes.2.2)
  · exact congrFun (congrArg Prod.fst address) k

/-- An address that is not writable survives the write. -/
theorem csrWrite_notWritable (s : Regs cfg) (i : Input cfg) (k : Fin 64)
    (refused : pmpaddrWritable s k = false) : (csrWrite s i).d.pmpaddr k = s.pmpaddr k := by
  rcases csrWrite_pmp s i with same | ⟨index, wdata, config⟩ | ⟨index, wdata, address⟩
  · exact congrFun (congrArg Prod.snd same) k
  · exact congrFun (congrArg Prod.snd config) k
  · have written := congrFun (congrArg Prod.snd address) k
    refine written.trans (if_neg fun writes => ?_)
    rw [refused] at writes
    exact absurd writes.2 (by decide)

/-- Reserved bits clear, never `NA4`, never `W` without `R`. -/
def WellFormed (c : PmpCfg) : Prop :=
  c.reserved = 0 ∧ c.addrMode ≠ .na4 ∧
    ¬ (flag c.accessType 1 = true ∧ flag c.accessType 0 = false)

instance (c : PmpCfg) : Decidable (WellFormed c) := inferInstanceAs (Decidable (_ ∧ _))

theorem pmpcfgZero_wellFormed : WellFormed pmpcfgZero := by decide

/-- Legalization falls back on fields that are legal. -/
theorem pmpcfgNext_wellFormed (s d : Regs cfg) (k : Fin 64) (old : WellFormed (s.pmpcfg k))
    (reserved : k.val < cfg.nrPMPEntries → (d.pmpcfg k).reserved = 0) :
    WellFormed (pmpcfgNext s d k) := by
  obtain ⟨oldReserved, oldMode, oldAccess⟩ := old
  unfold pmpcfgNext
  split
  · split
    · exact ⟨oldReserved, oldMode, oldAccess⟩
    · refine ⟨reserved ‹_›, ?_, ?_⟩
      · change (if _ then _ else _) ≠ PmpAddrMode.na4
        split
        · exact oldMode
        · rename_i supported
          intro isNa4
          rw [isNa4] at supported
          simp at supported
      · intro writeOnly
        change flag (if _ then _ else _) 1 = true ∧ flag (if _ then _ else _) 0 = false at writeOnly
        split at writeOnly
        · exact oldAccess writeOnly
        · rename_i legal
          exact legal (by simp [writeOnly.1, writeOnly.2])
  · exact pmpcfgZero_wellFormed

/-- A locked entry that the write keeps is kept by the clock edge. -/
theorem pmpcfgNext_kept (s d : Regs cfg) (k : Fin 64) (present : k.val < cfg.nrPMPEntries)
    (same : d.pmpcfg k = s.pmpcfg k) : pmpcfgNext s d k = s.pmpcfg k := by
  unfold pmpcfgNext
  rw [if_pos present, same]
  simp only [ite_self]

/-- Entries that the configuration does not have are switched off. -/
def Absent (s : Regs cfg) : Prop :=
  ∀ k : Fin 64, ¬ k.val < cfg.nrPMPEntries → s.pmpcfg k = pmpcfgZero ∧ s.pmpaddr k = 0

/-- The reserved bits of the reset values are clear. -/
def ReservedReset (cfg : CsrCfg) : Prop :=
  ∀ k : Fin 64, k.val < cfg.nrPMPEntries → (cfg.pmpCfgRstVal k).reserved = 0

/-- The reset values of the configuration are legal. -/
def LegalReset (cfg : CsrCfg) : Prop :=
  ∀ k : Fin 64, k.val < cfg.nrPMPEntries → WellFormed (cfg.pmpCfgRstVal k)

/-- The reserved bits are clear, and entries that do not exist are off. -/
structure PmpLegal (s : Regs cfg) : Prop where
  reserved : ∀ k, (s.pmpcfg k).reserved = 0
  absent : Absent s

theorem reset_pmpLegal (clear : ReservedReset cfg) : PmpLegal (reset cfg) where
  reserved k := by
    change (if _ then _ else _ : PmpCfg).reserved = 0
    split
    · exact clear k ‹_›
    · rfl
  absent k beyond := ⟨if_neg beyond, if_neg beyond⟩

/-- `pmpcfg_d` after the reserved bits are hardwired. -/
theorem hardwire_reserved (s : Regs cfg) (pins : Pins cfg) (w : Update cfg) (k : Fin 64)
    (present : k.val < cfg.nrPMPEntries) : ((hardwire s pins w).pmpcfg k).reserved = 0 := by
  change (if _ then _ else _ : PmpCfg).reserved = 0
  rw [if_pos present]

theorem PmpLegal.cycle {s : Regs cfg} (legal : PmpLegal s) (i : Input cfg) :
    PmpLegal (next s i) where
  reserved k := by
    rw [(next_pmp s i).1, pmpcfgNext]
    split
    · split
      · exact legal.reserved k
      · exact hardwire_reserved s i.pins _ k ‹_›
    · rfl
  absent k beyond := by
    rw [(next_pmp s i).1, (next_pmp s i).2]
    exact ⟨if_neg beyond, if_neg beyond⟩

theorem reset_wellFormed (legal : LegalReset cfg) (k : Fin 64) :
    WellFormed ((reset cfg).pmpcfg k) := by
  change WellFormed (if _ then _ else _)
  split
  · exact legal k ‹_›
  · exact pmpcfgZero_wellFormed

theorem next_wellFormed (s : Regs cfg) (i : Input cfg) (k : Fin 64)
    (old : WellFormed (s.pmpcfg k)) : WellFormed ((next s i).pmpcfg k) := by
  rw [(next_pmp s i).1]
  exact pmpcfgNext_wellFormed s _ k old (hardwire_reserved s i.pins _ k)

/-- A locked entry is there. -/
theorem PmpLegal.present {s : Regs cfg} (legal : PmpLegal s) {k : Fin 64}
    (locked : (s.pmpcfg k).locked = true) : k.val < cfg.nrPMPEntries := by
  by_contra beyond
  rw [(legal.absent k beyond).1] at locked
  exact absurd locked (by decide)

/-- One cycle keeps the configuration of a locked entry. -/
theorem PmpLegal.next_pmpcfg {s : Regs cfg} (legal : PmpLegal s) (i : Input cfg) (k : Fin 64)
    (locked : (s.pmpcfg k).locked = true) : (next s i).pmpcfg k = s.pmpcfg k := by
  have present := legal.present locked
  rw [(next_pmp s i).1]
  refine pmpcfgNext_kept s _ k present ?_
  change (if _ then _ else _) = _
  rw [if_pos present, csrWrite_locked s i k locked, ← legal.reserved k]

/-- One cycle keeps an address that is not writable. -/
theorem PmpLegal.next_pmpaddr {s : Regs cfg} (legal : PmpLegal s) (i : Input cfg) (k : Fin 64)
    (refused : pmpaddrWritable s k = false) : (next s i).pmpaddr k = s.pmpaddr k := by
  rw [(next_pmp s i).2, pmpaddrNext, csrWrite_notWritable s i k refused, ite_self]
  split
  · rfl
  · rw [(legal.absent k ‹_›).2]

/-- The address of a locked entry, and the one below a locked top-of-range entry. -/
theorem not_pmpaddrWritable (s : Regs cfg) (k j : Fin 64) (locked : (s.pmpcfg k).locked = true)
    (of : j = k ∨ (j.val + 1 = k.val ∧ (s.pmpcfg k).addrMode = .tor)) :
    pmpaddrWritable s j = false := by
  rcases of with rfl | ⟨below, tor⟩
  · simp [pmpaddrWritable, locked]
  · have above : j.val + 1 < 64 := by omega
    have entry : (⟨j.val + 1, above⟩ : Fin 64) = k := Fin.ext below
    simp [pmpaddrWritable, above, entry, locked, tor]

/-- What a locked entry freezes: its configuration and address, and the address
below it in top-of-range mode. -/
structure Frozen (k : Fin 64) (s later : Regs cfg) : Prop where
  pmpcfg : later.pmpcfg k = s.pmpcfg k
  pmpaddr : later.pmpaddr k = s.pmpaddr k
  below : (s.pmpcfg k).addrMode = .tor →
    ∀ j : Fin 64, j.val + 1 = k.val → later.pmpaddr j = s.pmpaddr j

theorem PmpLegal.cycle_frozen {s : Regs cfg} (legal : PmpLegal s) (i : Input cfg) (k : Fin 64)
    (locked : (s.pmpcfg k).locked = true) : Frozen k s (next s i) where
  pmpcfg := legal.next_pmpcfg i k locked
  pmpaddr := legal.next_pmpaddr i k (not_pmpaddrWritable s k k locked (.inl rfl))
  below tor j below :=
    legal.next_pmpaddr i j (not_pmpaddrWritable s k j locked (.inr ⟨below, tor⟩))

/-- Any sequence of operations, traps and returns freezes a locked entry. -/
theorem PmpLegal.frozen {s : Regs cfg} (legal : PmpLegal s) (k : Fin 64)
    (locked : (s.pmpcfg k).locked = true) (inputs : List (Input cfg)) :
    Frozen k s ((csrMachine cfg).after s inputs) := by
  induction inputs generalizing s with
  | nil => exact ⟨rfl, rfl, fun _ _ _ => rfl⟩
  | cons i rest ih =>
      have first := legal.cycle_frozen i k locked
      have stillLocked : ((next s i).pmpcfg k).locked = true := by rw [first.pmpcfg, locked]
      have later := ih (legal.cycle i) stillLocked
      refine ⟨later.pmpcfg.trans first.pmpcfg, later.pmpaddr.trans first.pmpaddr, ?_⟩
      intro tor j below
      have stillTor : ((next s i).pmpcfg k).addrMode = .tor := by rw [first.pmpcfg, tor]
      exact (later.below stillTor j below).trans (first.below tor j below)

/-- From the moment an entry is locked it stays as it is; with legal reset
values every reachable entry is well formed. -/
theorem pmp_locked_frozen (cfg : CsrCfg) (clear : ReservedReset cfg)
    {cycles : List (Regs cfg × Input cfg)} {s : Regs cfg} (run : (csrMachine cfg).Run cycles s) :
    (∀ k : Fin 64, (s.pmpcfg k).locked = true →
      ∀ inputs : List (Input cfg), Frozen k s ((csrMachine cfg).after s inputs)) ∧
      (LegalReset cfg → ∀ k, WellFormed (s.pmpcfg k)) := by
  constructor
  · have reachable : PmpLegal s :=
      run.invariant (fun _ s => PmpLegal s) (reset_pmpLegal clear)
        fun _ _ i _ legal _ => legal.cycle i
    exact fun k locked inputs => reachable.frozen k locked inputs
  · intro legal
    exact run.invariant (fun _ s => ∀ k, WellFormed (s.pmpcfg k)) (reset_wellFormed legal)
      fun _ s i _ old _ k => next_wellFormed s i k (old k)

/-- Writes of `pmpaddr0`, of a locked `TOR` byte to entry 1, then attempts to
change both. -/
def lockInputs : List (Input cv64a6Imafdch) :=
  [{ csrOp := .csrWrite, csrAddr := 0x3B0, pins := { csrWdata := 0x1000 } },
    { csrOp := .csrWrite, csrAddr := 0x3A0, pins := { csrWdata := 0x8900 } }]

def unlockInputs : List (Input cv64a6Imafdch) :=
  [{ csrOp := .csrWrite, csrAddr := 0x3B0, pins := { csrWdata := 0x2000 } },
    { csrOp := .csrWrite, csrAddr := 0x3A0 }]

theorem pmp_locked_frozen_tor :
    let machine := csrMachine cv64a6Imafdch
    let locked := machine.after machine.reset lockInputs
    (locked.pmpcfg 1).locked = true ∧ (locked.pmpcfg 1).addrMode = .tor ∧
      (machine.after locked unlockInputs).pmpaddr 0 = locked.pmpaddr 0 ∧
      ∀ k, WellFormed (locked.pmpcfg k) := by
  have run : (csrMachine cv64a6Imafdch).Run _ _ :=
    (csrMachine cv64a6Imafdch).run_of_accepts lockInputs ⟨trivial, trivial, trivial⟩
  obtain ⟨frozen, wellFormed⟩ := pmp_locked_frozen cv64a6Imafdch (fun _ _ => rfl) run
  have locked : (((csrMachine cv64a6Imafdch).after (csrMachine cv64a6Imafdch).reset
      lockInputs).pmpcfg 1).locked = true := by decide +kernel
  have tor : (((csrMachine cv64a6Imafdch).after (csrMachine cv64a6Imafdch).reset
      lockInputs).pmpcfg 1).addrMode = .tor := by decide +kernel
  exact ⟨locked, tor, (frozen 1 locked unlockInputs).below tor 0 rfl,
    wellFormed fun _ _ => pmpcfgZero_wellFormed⟩

end Cva6.CsrRegfile
