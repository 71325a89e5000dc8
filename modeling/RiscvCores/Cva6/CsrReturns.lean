import RiscvCores.Cva6.CsrTraps

/-!
# Returning from a trap

What `mret` and `sret` restore out of the registers that a trap left.
-/

set_option autoImplicit false

namespace Cva6.CsrRegfile

open BitField
open Cva6.Pmp (PrivLvl)

variable {cfg : CsrCfg}

/-! ## The state after a return -/

section Return

variable (t : Regs cfg) (r : Input cfg) (plain : r.pins.ex.valid = false)

include plain

theorem beforeReturn_facts (op : r.csrOp = .mret ∨ r.csrOp = .sret) :
    (beforeReturn t r).v = t.v ∧
      (∀ pos, pos < 9 ∨ 15 ≤ pos ∧ pos < 32 ∨ 36 ≤ pos ∧ pos < 63 →
        flag (beforeReturn t r).mstatus pos = flag t.mstatus pos) := by
  have same := beforeReturn_saved_of_return t r op plain
  have start := defaults_saved t r.pins
  constructor
  · exact (congrArg Saved.v same).trans (congrArg Saved.v start)
  · intro pos apart
    have status : (beforeReturn t r).mstatus = mstatusHardwired t r.pins (defaults t r.pins) :=
      congrArg Saved.mstatus same
    rw [status, flag_mstatusHardwired t r.pins _ pos apart]
    exact congrArg (fun saved => flag saved.mstatus pos) start

theorem next_mret (op : r.csrOp = .mret) :
    (next t r).privLvl = mpp t.mstatus ∧
      (next t r).v = (if cfg.rvh then flag t.mstatus Mstatus.mpv else t.v) ∧
      flag (next t r).mstatus Mstatus.mie = flag t.mstatus Mstatus.mpie ∧
      flag (next t r).mstatus Mstatus.mprv =
        (!(cfg.rvh && mpp t.mstatus != .m) && flag t.mstatus Mstatus.mprv) := by
  obtain ⟨v, flags⟩ := beforeReturn_facts t r plain (.inl op)
  have same : savedOf (next t r) = savedOf (returnM t (beforeReturn t r)) := by
    rw [next_saved, returnFrom, op]
    simp
  have mprv := flags Mstatus.mprv (by decide)
  simp only [savedOf, Saved.mk.injEq] at same
  obtain ⟨privLvl, virtual, mstatus, -⟩ := same
  rw [privLvl, virtual, mstatus]
  unfold returnM
  extract_lets m1 m2 m3 d m4
  have mie3 : flag m3 Mstatus.mie = flag t.mstatus Mstatus.mpie := by
    unfold m3 m2 m1
    rw [flag_setFlag_other _ _ _ _ (by decide), setMpp, flag_setField_outside _ _ _ _ (by decide),
      flag_setFlag_same _ _ _ (by decide)]
  have mprv3 : flag m3 Mstatus.mprv = flag t.mstatus Mstatus.mprv := by
    unfold m3 m2 m1
    rw [flag_setFlag_other _ _ _ _ (by decide), setMpp, flag_setField_outside _ _ _ _ (by decide),
      flag_setFlag_other _ _ _ _ (by decide), mprv]
  cases rvh : cfg.rvh with
  | false => exact ⟨rfl, v, mie3, by simpa using mprv3⟩
  | true =>
      have mie4 : flag m4 Mstatus.mie = flag m3 Mstatus.mie :=
        flag_setFlag_other _ _ _ _ (by decide)
      have mprv4 : flag m4 Mstatus.mprv = flag m3 Mstatus.mprv :=
        flag_setFlag_other _ _ _ _ (by decide)
      cases level : mpp t.mstatus != .m with
      | false => exact ⟨rfl, rfl, mie4.trans mie3, by simpa using mprv4.trans mprv3⟩
      | true =>
          refine ⟨rfl, rfl, ?_, ?_⟩
          · exact (flag_setFlag_other m4 _ _ _ (by decide)).trans (mie4.trans mie3)
          · exact flag_setFlag_same m4 _ _ (by decide)

theorem next_sret (op : r.csrOp = .sret) (rvs : cfg.rvs = true)
    (native : (cfg.rvh && t.v) = false) :
    (next t r).privLvl = (if flag t.mstatus Mstatus.spp then .s else .u) ∧
      (next t r).v = (if cfg.rvh then flag t.hstatus Hstatus.spv else t.v) ∧
      flag (next t r).mstatus Mstatus.sie = flag t.mstatus Mstatus.spie ∧
      flag (next t r).mstatus Mstatus.mprv = (!cfg.rvh && flag t.mstatus Mstatus.mprv) := by
  obtain ⟨v, flags⟩ := beforeReturn_facts t r plain (.inr op)
  have same : savedOf (next t r) = savedOf (returnS t (beforeReturn t r)) := by
    rw [next_saved, returnFrom, op, rvs]
    cases rvh : cfg.rvh with
    | false => simp
    | true =>
        have off : t.v = false := by simpa [rvh] using native
        simp [off]
  have mprv := flags Mstatus.mprv (by decide)
  simp only [savedOf, Saved.mk.injEq] at same
  obtain ⟨privLvl, virtual, mstatus, -⟩ := same
  rw [privLvl, virtual, mstatus]
  unfold returnS
  extract_lets m1 m2 m3 d
  have sie3 : flag m3 Mstatus.sie = flag t.mstatus Mstatus.spie := by
    unfold m3 m2 m1
    rw [flag_setFlag_other _ _ _ _ (by decide), flag_setFlag_other _ _ _ _ (by decide),
      flag_setFlag_same _ _ _ (by decide)]
  have mprv3 : flag m3 Mstatus.mprv = flag t.mstatus Mstatus.mprv := by
    unfold m3 m2 m1
    rw [flag_setFlag_other _ _ _ _ (by decide), flag_setFlag_other _ _ _ _ (by decide),
      flag_setFlag_other _ _ _ _ (by decide), mprv]
  cases rvh : cfg.rvh with
  | false => exact ⟨rfl, v, sie3, by simpa using mprv3⟩
  | true =>
      refine ⟨rfl, rfl, ?_, ?_⟩
      · exact (flag_setFlag_other m3 _ _ _ (by decide)).trans sie3
      · exact flag_setFlag_same m3 _ _ (by decide)

theorem next_sret_guest (op : r.csrOp = .sret) (rvs : cfg.rvs = true)
    (rvh : cfg.rvh = true) (guest : t.v = true) :
    (next t r).privLvl = (if flag t.vsstatus Mstatus.spp then .s else .u) ∧
      (next t r).v = true ∧
      flag (next t r).vsstatus Mstatus.sie = flag t.vsstatus Mstatus.spie ∧
      flag (next t r).mstatus Mstatus.mprv = flag t.mstatus Mstatus.mprv := by
  obtain ⟨v, flags⟩ := beforeReturn_facts t r plain (.inr op)
  have same : savedOf (next t r) = savedOf (returnVs t (beforeReturn t r)) := by
    rw [next_saved, returnFrom, op, rvs, rvh, guest]
    simp
  simp only [savedOf, Saved.mk.injEq] at same
  obtain ⟨privLvl, virtual, mstatus, -, vsstatus, -⟩ := same
  rw [privLvl, virtual, mstatus, vsstatus]
  refine ⟨rfl, v.trans guest, ?_, flags Mstatus.mprv (by decide)⟩
  unfold returnVs
  extract_lets m1 m2
  unfold m2 m1
  change flag (setFlag _ _ _) _ = _
  rw [flag_setFlag_other _ _ _ _ (by decide), flag_setFlag_other _ _ _ _ (by decide),
    flag_setFlag_same _ _ _ (by decide)]

end Return

/-! ## What a trap saves -/

theorem trapM_facts (s d : Regs cfg) (pins : Pins cfg) :
    mpp (trapM s pins d).mstatus = s.privLvl ∧
      flag (trapM s pins d).mstatus Mstatus.mpie = flag s.mstatus Mstatus.mie ∧
      (cfg.rvh = true → flag (trapM s pins d).mstatus Mstatus.mpv = s.v) ∧
      flag (trapM s pins d).mstatus Mstatus.mprv = flag d.mstatus Mstatus.mprv ∧
      (trapM s pins d).mepc = extendPc pins.pc := by
  have mode := congrArg Mode.mpp (trapM_mode s d pins)
  refine ⟨mode, ?_⟩
  have mpie (m : BitVec 64) (b : Bool) (p : PrivLvl) :
      flag (setMpp (setFlag (setFlag m Mstatus.mie false) Mstatus.mpie b) p) Mstatus.mpie = b := by
    rw [setMpp, flag_setField_outside _ _ _ _ (by decide), flag_setFlag_same _ _ _ (by decide)]
  have mprv (m : BitVec 64) (b : Bool) (p : PrivLvl) :
      flag (setMpp (setFlag (setFlag m Mstatus.mie false) Mstatus.mpie b) p) Mstatus.mprv =
        flag m Mstatus.mprv := by
    rw [setMpp, flag_setField_outside _ _ _ _ (by decide), flag_setFlag_other _ _ _ _ (by decide),
      flag_setFlag_other _ _ _ _ (by decide)]
  unfold trapM
  extract_lets ex saved
  by_cases rvh : cfg.rvh = true
  · rw [if_pos rvh]
    refine ⟨?_, fun _ => ?_, ?_, rfl⟩
    · change flag (setFlag (setFlag _ _ _) _ _) _ = _
      rw [flag_setFlag_other _ _ _ _ (by decide), flag_setFlag_other _ _ _ _ (by decide)]
      exact mpie _ _ _
    · change flag (setFlag (setFlag _ _ _) _ _) _ = _
      rw [flag_setFlag_other _ _ _ _ (by decide), flag_setFlag_same _ _ _ (by decide)]
    · change flag (setFlag (setFlag _ _ _) _ _) _ = _
      rw [flag_setFlag_other _ _ _ _ (by decide), flag_setFlag_other _ _ _ _ (by decide)]
      exact mprv _ _ _
  · rw [if_neg rvh]
    exact ⟨mpie _ _ _, fun on => absurd on rvh, mprv _ _ _, rfl⟩

theorem trapS_facts (s d : Regs cfg) (pins : Pins cfg) :
    flag (trapS s pins d).mstatus Mstatus.spp = flag (privBits s.privLvl) 0 ∧
      flag (trapS s pins d).mstatus Mstatus.spie = flag s.mstatus Mstatus.sie ∧
      (cfg.rvh = true → flag (trapS s pins d).hstatus Hstatus.spv = s.v) ∧
      flag (trapS s pins d).mstatus Mstatus.mprv = flag d.mstatus Mstatus.mprv ∧
      (trapS s pins d).sepc = extendPc pins.pc := by
  have status : (trapS s pins d).mstatus =
      setFlag (setFlag (setFlag d.mstatus Mstatus.sie false) Mstatus.spie
        (flag s.mstatus Mstatus.sie)) Mstatus.spp (flag (privBits s.privLvl) 0) := by
    unfold trapS
    simp only []
    split <;> rfl
  rw [status]
  refine ⟨flag_setFlag_same _ _ _ (by decide), ?_, fun rvh => ?_, ?_, ?_⟩
  · rw [flag_setFlag_other _ _ _ _ (by decide), flag_setFlag_same _ _ _ (by decide)]
  · unfold trapS
    extract_lets ex saved
    rw [if_pos rvh]
    exact flag_setFlag_same _ _ _ (by decide)
  · rw [flag_setFlag_other _ _ _ _ (by decide), flag_setFlag_other _ _ _ _ (by decide),
      flag_setFlag_other _ _ _ _ (by decide)]
  · unfold trapS
    simp only []
    split <;> rfl

theorem trapVs_facts (s d : Regs cfg) (pins : Pins cfg) :
    flag (trapVs s pins d).vsstatus Mstatus.spp = flag (privBits s.privLvl) 0 ∧
      flag (trapVs s pins d).vsstatus Mstatus.spie = flag s.vsstatus Mstatus.sie ∧
      (trapVs s pins d).mstatus = d.mstatus ∧ (trapVs s pins d).vsepc = extendPc pins.pc := by
  refine ⟨flag_setFlag_same _ _ _ (by decide), ?_, rfl, rfl⟩
  change flag (setFlag (setFlag _ _ _) _ _) _ = _
  rw [flag_setFlag_other _ _ _ _ (by decide), flag_setFlag_same _ _ _ (by decide)]

/-- The saved pc is the pc. -/
theorem extendPc_setWidth (pc : BitVec cfg.vlen) (width : cfg.vlen = cfg.xlen) :
    (extendPc pc).setWidth cfg.vlen = pc := by
  apply BitVec.eq_of_getLsbD_eq
  intro k bound
  have inside : k < cfg.xlen := by omega
  rw [BitVec.getLsbD_setWidth, extendPc, BitVec.getLsbD_signExtend]
  simp [bound, inside]

/-- The level out of `spp`. -/
theorem level_of_spp (p : PrivLvl) (notM : p ≠ .m) (notHs : p ≠ .hs) :
    (if flag (privBits p) 0 then PrivLvl.s else .u) = p := by
  cases p with
  | m => exact absurd rfl notM
  | hs => exact absurd rfl notHs
  | s => rfl
  | u => rfl

section Restored

variable {s : Regs cfg} {i r : Input cfg} (traps : Traps s i) (rvs : cfg.rvs = true)
  (rvu : cfg.rvu = true) (width : cfg.vlen = cfg.xlen) (returns : ReturnsFrom (next s i) r)

include traps rvs rvu width returns

/-- Everything is restored; `mprv` is cleared by some of the returns. -/
theorem Traps.restored :
    (next (next s i) r).privLvl = s.privLvl ∧ (next (next s i) r).v = s.v ∧
      enabled s (next (next s i) r) i.pins.ex = enabled s s i.pins.ex ∧
      epcO (next s i) r.csrOp = i.pins.pc ∧
      (s.privLvl ≠ .m → flag (next (next s i) r).mstatus Mstatus.mprv =
        (flag s.mstatus Mstatus.mprv && (!cfg.rvh || toGuest s i.pins.ex))) := by
  have mprv (below : s.privLvl ≠ .m) :
      flag (beforeTrap s i).mstatus Mstatus.mprv = flag s.mstatus Mstatus.mprv :=
    beforeTrap_mprv s i rvu (traps.privLvlO ▸ below)
  obtain ⟨op, plain⟩ := returns
  unfold enabled
  cases sup : toSupervisor s i.pins.ex with
  | false =>
      have host : toGuest s i.pins.ex = false := by simp [toGuest, sup]
      have after := traps.machine rvs sup
      obtain ⟨level, mpie, mpv, kept, mepc⟩ := trapM_facts s (beforeTrap s i) i.pins
      simp only [savedOf, Saved.mk.injEq] at after
      obtain ⟨privLvl, v, mstatus, -, -, epc, -⟩ := after
      rw [privLvl, if_pos rfl] at op
      obtain ⟨lvl, virtual, mie, mprv'⟩ := next_mret (next s i) r plain op
      rw [mstatus, level] at mprv' lvl
      rw [mstatus] at virtual mie
      rw [lvl, virtual, mprv', op, host]
      refine ⟨rfl, ?_, ?_, ?_, fun below => ?_⟩
      · cases rvh : cfg.rvh with
        | true => exact mpv rvh
        | false => simpa [rvh] using v
      · exact mie.trans mpie
      · have address : epcO (next s i) .mret = (next s i).mepc.setWidth cfg.vlen := by
          simp [epcO]
        rw [address, epc, mepc, extendPc_setWidth _ width]
      · have isBelow : (s.privLvl != .m) = true := bne_iff_ne.mpr below
        rw [kept, mprv below, isBelow]
        cases cfg.rvh <;> simp
  | true =>
      have notM : s.privLvl ≠ .m := by
        intro isM
        simp [toSupervisor, isM] at sup
      have sppLevel := level_of_spp s.privLvl notM traps.level
      cases virtual : toGuest s i.pins.ex with
      | false =>
          have after := traps.supervisor rvs sup virtual
          obtain ⟨spp, spie, spv, kept, sepc⟩ := trapS_facts s (beforeTrap s i) i.pins
          simp only [savedOf, Saved.mk.injEq] at after
          obtain ⟨privLvl, v, mstatus, hstatus, -, -, epc, -⟩ := after
          rw [privLvl, if_neg (by decide)] at op
          have native : (cfg.rvh && (next s i).v) = false := by
            rw [v]
            cases cfg.rvh <;> simp
          obtain ⟨lvl, mode, sie, mprv'⟩ := next_sret (next s i) r plain op rvs native
          rw [mstatus] at lvl sie mprv'
          rw [hstatus] at mode
          rw [lvl, mode, mprv', op, spp, sppLevel]
          refine ⟨rfl, ?_, sie.trans spie, ?_, fun below => ?_⟩
          · cases rvh : cfg.rvh with
            | true => exact spv rvh
            | false => simpa [rvh] using v
          · have address : epcO (next s i) .sret = (next s i).sepc.setWidth cfg.vlen := by
              simp [epcO, rvs, native]
            rw [address, epc, sepc, extendPc_setWidth _ width]
          · rw [kept, mprv below, Bool.or_false, Bool.and_comm]
      | true =>
          have after := traps.guest rvs virtual
          obtain ⟨spp, spie, kept, vsepc⟩ := trapVs_facts s (beforeTrap s i) i.pins
          simp only [savedOf, Saved.mk.injEq] at after
          obtain ⟨privLvl, v, mstatus, -, vsstatus, -, -, epc⟩ := after
          rw [privLvl, if_neg (by decide)] at op
          have parts := virtual
          simp only [toGuest, Bool.and_eq_true] at parts
          obtain ⟨⟨⟨-, rvh⟩, was⟩, -⟩ := parts
          obtain ⟨lvl, mode, sie, mprv'⟩ := next_sret_guest (next s i) r plain op rvs rvh v
          rw [vsstatus] at lvl sie
          rw [mstatus, kept] at mprv'
          rw [lvl, mode, mprv', op, spp, sppLevel]
          refine ⟨rfl, was.symm, sie.trans spie, ?_, fun below => ?_⟩
          · have address : epcO (next s i) .sret = (next s i).vsepc.setWidth cfg.vlen := by
              simp [epcO, rvs, rvh, v]
            rw [address, epc, vsepc, extendPc_setWidth _ width]
          · rw [mprv below, Bool.or_true, Bool.and_true]

end Restored

/-- A trap is correct but for bases that the vector overwrites and an `mprv` that
no return clears. -/
theorem trapCorrect_iff (rvs : cfg.rvs = true) (rvu : cfg.rvu = true)
    (width : cfg.vlen = cfg.xlen) (s : Regs cfg) (i : Input cfg) (traps : Traps s i) :
    TrapCorrect s i ↔ overwritten s i.pins.ex = false ∧ mprvKept s i.pins.ex = false := by
  have target : (next s i).privLvl = if toSupervisor s i.pins.ex then .s else .m := by
    cases sup : toSupervisor s i.pins.ex with
    | false => exact congrArg Saved.privLvl (traps.machine rvs sup)
    | true =>
        cases virtual : toGuest s i.pins.ex with
        | false => exact congrArg Saved.privLvl (traps.supervisor rvs sup virtual)
        | true => exact congrArg Saved.privLvl (traps.guest rvs virtual)
  constructor
  · intro correct
    refine ⟨(traps.pc_iff rvs width).mp correct.pc, ?_⟩
    let r : Input cfg := { csrOp := if (next s i).privLvl = .m then .mret else .sret }
    have returns : ReturnsFrom (next s i) r := ⟨rfl, rfl⟩
    obtain ⟨level, -, -, -, mprv⟩ := traps.restored rvs rvu width returns
    have cleared := (correct.returns r returns).mprv
    unfold mprvKept
    by_cases below : s.privLvl = .m
    · simp [below]
    · rw [level, mprv below] at cleared
      have clear := cleared below
      have isBelow : (s.privLvl != .m) = true := bne_iff_ne.mpr below
      rw [isBelow, Bool.and_true]
      exact clear
  · intro ⟨vector, clears⟩
    refine ⟨target, ?_, fun isS => ?_, (traps.pc_iff rvs width).mpr vector, fun r returns => ?_⟩
    · rw [target]
      have level := traps.level
      unfold toSupervisor
      cases current : s.privLvl with
      | m => simp
      | hs => exact absurd current level
      | s => cases handsDown i.pins.ex s.mideleg s.medeleg <;> decide
      | u => cases handsDown i.pins.ex s.mideleg s.medeleg <;> decide
    · have sup : toSupervisor s i.pins.ex = true := by
        rw [target] at isS
        cases sup : toSupervisor s i.pins.ex with
        | true => rfl
        | false => rw [sup] at isS; exact PrivLvl.noConfusion isS
      cases virtual : toGuest s i.pins.ex with
      | false =>
          refine (congrArg Saved.v (traps.supervisor rvs sup virtual)).trans ?_
          change (if cfg.rvh = true then false else s.v) = false
          split
          · rfl
          · rename_i plain
            exact Bool.not_eq_true _ ▸ fun guest => plain (traps.virtualizable.hypervisor guest)
      | true => exact congrArg Saved.v (traps.guest rvs virtual)
    · obtain ⟨level, v, enable, pc, mprv⟩ := traps.restored rvs rvu width returns
      refine ⟨level, v, enable, pc, fun below => ?_⟩
      rw [level] at below
      have isBelow : (s.privLvl != .m) = true := bne_iff_ne.mpr below
      rw [mprv below]
      rw [mprvKept, isBelow, Bool.and_true] at clears
      exact clears

/-! ## A base that is not aligned -/

/-- A user under a supervisor whose interrupts are vectored from `base`. -/
def vectoredFrom (base : BitVec 64) : Regs cv64a6Imafdch :=
  { reset cv64a6Imafdch with privLvl := .u, mideleg := 2, stvec := (base ||| 1#64 : BitVec 64) }

/-- A supervisor software interrupt. -/
def softInterrupt : Input cv64a6Imafdch :=
  { pins := { ex := { cause := 0x8000000000000001, valid := true } } }

theorem vectoredFrom_traps (base : BitVec 64) : Traps (vectoredFrom base) softInterrupt := by
  refine ⟨rfl, fun isHs => PrivLvl.noConfusion isHs, ⟨fun guest => Bool.noConfusion guest,
    fun k set => ?_⟩, by decide, by decide⟩
  have clear : flag (0 : BitVec 64) k = false := BitVec.getLsbD_zero
  exact Bool.noConfusion (clear.symm.trans set)

/-- From an aligned base the trap is correct. -/
theorem trapCorrect_aligned : TrapCorrect (vectoredFrom 0x80000000) softInterrupt :=
  (trapCorrect_iff rfl rfl rfl _ _ (vectoredFrom_traps _)).mpr (by decide)

/-- From `0x80000014` the interrupt goes to `0x80000004`, below the table. -/
theorem trap_below_base :
    (csrWrite { vectoredFrom 0 with privLvl := .s }
      { csrOp := .csrWrite, csrAddr := 0x105, pins := { csrWdata := 0x80000015 } }).d.stvec =
        (vectoredFrom 0x80000014).stvec ∧
      (trapVectorBase (vectoredFrom 0x80000014) softInterrupt.pins.ex).toNat = 0x80000004 ∧
      (prescribedPc (vectoredFrom 0x80000014) softInterrupt.pins.ex).toNat = 0x80000018 ∧
      Traps (vectoredFrom 0x80000014) softInterrupt ∧
      ¬ TrapCorrect (vectoredFrom 0x80000014) softInterrupt := by
  have low : (trapVectorBase (vectoredFrom 0x80000014) softInterrupt.pins.ex).toNat =
    0x80000004 := by decide
  have high : (prescribedPc (vectoredFrom 0x80000014) softInterrupt.pins.ex).toNat =
    0x80000018 := by decide
  refine ⟨by decide, low, high, vectoredFrom_traps _, fun correct => ?_⟩
  have same := congrArg BitVec.toNat correct.pc
  rw [low, high] at same
  exact absurd same (by decide)

end Cva6.CsrRegfile
