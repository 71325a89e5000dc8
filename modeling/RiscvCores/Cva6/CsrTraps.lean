import RiscvCores.Cva6.CsrAccess

/-!
# Trap entry and return

A trap saves the level, the virtualization mode, the interrupt enable and the pc
in the registers of its target; `mret` or `sret` of that level restores them.
The vector address is formed by overwriting bits of the base.
-/

set_option autoImplicit false

namespace Cva6.CsrRegfile

open BitField
open Cva6.Pmp (PrivLvl)

variable {cfg : CsrCfg}

/-- `epc_o`. -/
def epcO (s : Regs cfg) (op : FuOp) : BitVec cfg.vlen :=
  let epc := s.mepc.setWidth cfg.vlen
  let epc :=
    if cfg.rvs && op == .sret then
      (if cfg.rvh && s.v then s.vsepc else s.sepc).setWidth cfg.vlen
    else epc
  if cfg.debugEn && op == .dret then s.dpc.setWidth cfg.vlen else epc

/-! ## What the architecture prescribes -/

/-- The code of a cause. -/
def causeNumber (ex : Exception cfg) : Nat := ex.cause.toNat % 2 ^ (cfg.xlen - 1)

/-- A pair of delegation registers hands the cause down. -/
def handsDown (ex : Exception cfg) (ideleg edeleg : BitVec cfg.xlen) : Bool :=
  flag (if ex.cause.msb then ideleg else edeleg) (causeNumber ex)

/-- The trap goes to S-mode, virtual or not. -/
def toSupervisor (s : Regs cfg) (ex : Exception cfg) : Bool :=
  s.privLvl != .m && handsDown ex s.mideleg s.medeleg

/-- The trap goes to VS-mode. -/
def toGuest (s : Regs cfg) (ex : Exception cfg) : Bool :=
  toSupervisor s ex && cfg.rvh && s.v && handsDown ex s.hideleg s.hedeleg

/-- `xtvec` of the target. -/
def tvec (s : Regs cfg) (ex : Exception cfg) : BitVec cfg.xlen :=
  if toGuest s ex then s.vstvec else if toSupervisor s ex then s.stvec else s.mtvec

/-- Interrupts of the target are vectored. -/
def vectored (s : Regs cfg) (ex : Exception cfg) : Bool :=
  flag (tvec s ex) 0 && (toSupervisor s ex || !cfg.directVecOnly)

/-- The number of a cause as the target sees it: a VS-level interrupt is one lower. -/
def targetNumber (s : Regs cfg) (ex : Exception cfg) : Nat :=
  if toGuest s ex then causeNumber ex - 1 else causeNumber ex

/-- `BASE`, plus four times the cause for a vectored interrupt. -/
def prescribedPc (s : Regs cfg) (ex : Exception cfg) : BitVec cfg.vlen :=
  setField ((tvec s ex).setWidth cfg.vlen) 0 (0#2) +
    if ex.cause.msb && vectored s ex then BitVec.ofNat cfg.vlen (4 * targetNumber s ex) else 0

/-- The interrupt enable of the target. -/
def enabled (target s : Regs cfg) (ex : Exception cfg) : Bool :=
  if toGuest target ex then flag s.vsstatus Mstatus.sie
  else if toSupervisor target ex then flag s.mstatus Mstatus.sie
  else flag s.mstatus Mstatus.mie

/-- Virtualization belongs to its extension, and only VS-level interrupts are
delegated to a guest. -/
structure Virtualizable (s : Regs cfg) : Prop where
  hypervisor : s.v = true → cfg.rvh = true
  hideleg : ∀ k, flag s.hideleg k = true → k = 2 ∨ k = 6 ∨ k = 10

/-- A trap that the register file takes, from a level that exists; no instruction
returns with an exception. -/
structure Traps (s : Regs cfg) (i : Input cfg) : Prop where
  takes : takesTrap s i.pins.ex = true
  level : s.privLvl ≠ .hs
  virtualizable : Virtualizable s
  number : causeNumber i.pins.ex < cfg.xlen
  op : i.csrOp ≠ .mret ∧ i.csrOp ≠ .sret ∧ i.csrOp ≠ .dret

/-- `mret` or `sret` of the level, without an exception. -/
structure ReturnsFrom (s : Regs cfg) (r : Input cfg) : Prop where
  op : r.csrOp = if s.privLvl = .m then .mret else .sret
  plain : r.pins.ex.valid = false

/-- A return in `t` by `r` restores what the trap of `s` by `i` interrupted. -/
structure Restores (s : Regs cfg) (i : Input cfg) (t : Regs cfg) (r : Input cfg) : Prop where
  level : (next t r).privLvl = s.privLvl
  v : (next t r).v = s.v
  enable : enabled s (next t r) i.pins.ex = enabled s s i.pins.ex
  pc : epcO t r.csrOp = i.pins.pc
  mprv : (next t r).privLvl ≠ .m → flag (next t r).mstatus Mstatus.mprv = false

/-- The trap goes where it should, and is undone by its return. -/
structure TrapCorrect (s : Regs cfg) (i : Input cfg) : Prop where
  target : (next s i).privLvl = if toSupervisor s i.pins.ex then .s else .m
  upward : privBits s.privLvl ≤ privBits (next s i).privLvl
  guest : (next s i).privLvl = .s → (next s i).v = toGuest s i.pins.ex
  pc : trapVectorBase s i.pins.ex = prescribedPc s i.pins.ex
  returns : ∀ r, ReturnsFrom (next s i) r → Restores s i (next s i) r

/-! ## Where the code deviates -/

/-- Bits 7 to 2 of a base are overwritten. -/
def overwritten (s : Regs cfg) (ex : Exception cfg) : Bool :=
  ex.cause.msb && vectored s ex && field (tvec s ex) 2 6 != 0

/-- A return clears `mprv` only with the hypervisor extension and not in VS-mode. -/
def mprvKept (s : Regs cfg) (ex : Exception cfg) : Bool :=
  flag s.mstatus Mstatus.mprv && s.privLvl != .m && (!cfg.rvh || toGuest s ex)

/-! ## The target -/

theorem delegated_eq (ex : Exception cfg) (ideleg edeleg : BitVec cfg.xlen)
    (number : causeNumber ex < cfg.xlen) :
    delegated ex ideleg edeleg = handsDown ex ideleg edeleg := by
  have index : causeIndex ex = causeNumber ex := by
    rw [causeIndex, toNat_field]
    unfold causeNumber at number ⊢
    generalize ex.cause.toNat = cause at number ⊢
    cases wide : cfg.isXlen64 with
    | true =>
        have xlen : cfg.xlen = 64 := by simp [CsrCfg.xlen, wide]
        rw [xlen] at number ⊢
        rw [if_pos rfl]
        omega
    | false =>
        have xlen : cfg.xlen = 32 := by simp [CsrCfg.xlen, wide]
        rw [xlen] at number ⊢
        rw [if_neg Bool.false_ne_true]
        omega
  rw [delegated, handsDown, index]
  cases ex.cause.msb <;> simp

theorem Traps.privLvlO {s : Regs cfg} {i : Input cfg} (traps : Traps s i) :
    privLvlO s = s.privLvl := by
  have takes := traps.takes
  unfold takesTrap at takes
  unfold CsrRegfile.privLvlO
  cases debug : cfg.debugEn with
  | false => rfl
  | true =>
      have off : s.debugMode = false := by
        simp [debug] at takes
        exact takes.2.1
      rw [off]
      rfl

theorem Traps.target {s : Regs cfg} {i : Input cfg} (traps : Traps s i) (rvs : cfg.rvs = true) :
    trapToPrivLvl s i.pins.ex = (if toSupervisor s i.pins.ex then .s else .m) ∧
      (toSupervisor s i.pins.ex = true → trapToV s i.pins.ex = toGuest s i.pins.ex) := by
  unfold trapToPrivLvl trapToV toGuest toSupervisor
  rw [traps.takes, rvs, traps.privLvlO, delegated_eq _ _ _ traps.number,
    delegated_eq _ _ _ traps.number]
  constructor
  · cases s.privLvl <;> cases handsDown i.pins.ex s.mideleg s.medeleg <;> simp
  · intro supervisor
    rw [supervisor]
    have hands : handsDown i.pins.ex s.mideleg s.medeleg = true :=
      ((Bool.and_eq_true _ _).mp supervisor).2
    rw [hands]
    cases cfg.rvh <;> cases s.v <;> simp

/-! ## The vector -/

/-- The six bits of the code are those of the cause. -/
theorem causeNumber_field (ex : Exception cfg) :
    field ex.cause 0 6 = BitVec.ofNat 6 (causeNumber ex) := by
  apply BitVec.eq_of_toNat_eq
  rw [toNat_field, BitVec.toNat_ofNat]
  unfold causeNumber
  generalize ex.cause.toNat = cause
  cases wide : cfg.isXlen64 with
  | true =>
      have xlen : cfg.xlen = 64 := by simp [CsrCfg.xlen, wide]
      rw [xlen]
      omega
  | false =>
      have xlen : cfg.xlen = 32 := by simp [CsrCfg.xlen, wide]
      rw [xlen]
      omega

/-- A VS-level interrupt reports the number below its own. -/
theorem guestNumber_field (ex : Exception cfg)
    (vsLevel : causeNumber ex = 2 ∨ causeNumber ex = 6 ∨ causeNumber ex = 10) :
    (field ex.cause 2 4 ++ 1#2 : BitVec 6) = BitVec.ofNat 6 (causeNumber ex - 1) := by
  have high : field ex.cause 2 4 = field (field ex.cause 0 6) 2 4 := by
    apply BitVec.eq_of_getLsbD_eq
    intro k bound
    rw [getLsbD_field, getLsbD_field, getLsbD_field]
    have inside : 2 + k < 6 := by omega
    simp [inside]
  rw [high, causeNumber_field ex]
  rcases vsLevel with two | six | ten
  · rw [two]
    rfl
  · rw [six]
    rfl
  · rw [ten]
    rfl

theorem Traps.vector {s : Regs cfg} {i : Input cfg} (traps : Traps s i) (rvs : cfg.rvs = true) :
    trapVectorBase s i.pins.ex =
      let b := setField ((tvec s i.pins.ex).setWidth cfg.vlen) 0 (0#2)
      if i.pins.ex.cause.msb && vectored s i.pins.ex then
        setField b 2 (BitVec.ofNat 6 (targetNumber s i.pins.ex))
      else b := by
  obtain ⟨level, guest⟩ := traps.target rvs
  have outside : (cfg.debugEn && s.debugMode) = false := by
    have takes := traps.takes
    unfold takesTrap at takes
    cases debug : cfg.debugEn <;> cases inDebug : s.debugMode <;> simp_all
  have six := causeNumber_field i.pins.ex
  unfold trapVectorBase vectored targetNumber tvec
  rw [level, outside, six, rvs]
  cases sup : toSupervisor s i.pins.ex with
  | false =>
      have host : toGuest s i.pins.ex = false := by simp [toGuest, sup]
      rw [host]
      simp [Bool.and_comm]
  | true =>
      rw [guest sup]
      cases toV : toGuest s i.pins.ex with
      | false => simp
      | true =>
          have hypervisor : cfg.rvh = true := by
            simp only [toGuest, Bool.and_eq_true] at toV
            exact toV.1.1.2
          rw [hypervisor]
          cases interrupt : i.pins.ex.cause.msb with
          | false => simp
          | true =>
              have vsLevel := traps.virtualizable.hideleg (causeNumber i.pins.ex) (by
                simp only [toGuest, handsDown, interrupt, Bool.and_eq_true] at toV
                exact toV.2)
              rw [guestNumber_field _ vsLevel]
              simp

theorem Traps.pc_iff {s : Regs cfg} {i : Input cfg} (traps : Traps s i) (rvs : cfg.rvs = true)
    (width : cfg.vlen = cfg.xlen) :
    trapVectorBase s i.pins.ex = prescribedPc s i.pins.ex ↔ overwritten s i.pins.ex = false := by
  have wide : 32 ≤ cfg.xlen := by
    unfold CsrCfg.xlen
    split <;> decide
  rw [traps.vector rvs, prescribedPc, overwritten]
  cases vectors : i.pins.ex.cause.msb && vectored s i.pins.ex with
  | false => simp
  | true =>
      have small : targetNumber s i.pins.ex < 64 := by
        have bound := traps.number
        have most : cfg.xlen ≤ 64 := by
          unfold CsrCfg.xlen
          split <;> decide
        unfold targetNumber
        split <;> omega
      have shifted : (BitVec.ofNat 6 (targetNumber s i.pins.ex)).setWidth cfg.vlen <<< 2 =
          BitVec.ofNat cfg.vlen (4 * targetNumber s i.pins.ex) := by
        have room : 2 ^ 8 ≤ 2 ^ cfg.vlen := Nat.pow_le_pow_right (by decide) (by omega)
        apply BitVec.eq_of_toNat_eq
        rw [BitVec.toNat_shiftLeft, BitVec.toNat_setWidth, BitVec.toNat_ofNat, BitVec.toNat_ofNat,
          Nat.mod_eq_of_lt (by omega : targetNumber s i.pins.ex < 2 ^ 6),
          Nat.mod_eq_of_lt (by omega : targetNumber s i.pins.ex < 2 ^ cfg.vlen),
          Nat.shiftLeft_eq, Nat.mul_comm]
      have bits : field (setField ((tvec s i.pins.ex).setWidth cfg.vlen) 0 (0#2)) 2 6 =
          field (tvec s i.pins.ex) 2 6 := by
        rw [field_setField_disjoint _ _ _ _ (by omega)]
        apply BitVec.eq_of_getLsbD_eq
        intro k bound
        have inside : 2 + k < cfg.vlen := by omega
        simp [getLsbD_field, inside]
      rw [if_pos rfl, if_pos rfl, ← shifted, setField_eq_add_iff _ _ _ (by omega), bits]
      simp

/-! ## What a cycle does to the saved state -/

/-- What a trap saves and a return restores. -/
@[ext]
structure Saved (cfg : CsrCfg) where
  privLvl : PrivLvl
  v : Bool
  mstatus : BitVec 64
  hstatus : BitVec 64
  vsstatus : BitVec 64
  mepc : BitVec cfg.xlen
  sepc : BitVec cfg.xlen
  vsepc : BitVec cfg.xlen

def savedOf (s : Regs cfg) : Saved cfg :=
  ⟨s.privLvl, s.v, s.mstatus, s.hstatus, s.vsstatus, s.mepc, s.sepc, s.vsepc⟩

theorem debugWhen_saved (s d : Regs cfg) (happens enters : Bool) (dpc : BitVec cfg.xlen)
    (cause : BitVec 3) : savedOf (debugWhen s happens enters dpc cause d) = savedOf d := by
  unfold debugWhen
  split <;> rfl

theorem debugEntry_saved (s d : Regs cfg) (pins : Pins cfg) :
    savedOf (debugEntry s pins d) = savedOf d := by
  unfold debugEntry
  split
  · rw [debugWhen_saved, debugWhen_saved, debugWhen_saved]
    rfl
  · rfl

theorem translationEnables_saved (s d : Regs cfg) :
    savedOf (translationEnables s d) = savedOf d := by
  simp only [translationEnables]
  split <;> rfl

/-- The registers before a return is looked at. -/
def beforeReturn (s : Regs cfg) (i : Input cfg) : Regs cfg :=
  translationEnables s
    (debugEntry s i.pins (exceptionStack s i.pins (hardwire s i.pins (csrWrite s i))))

theorem beforeReturn_saved (s : Regs cfg) (i : Input cfg) : savedOf (beforeReturn s i) =
    savedOf (exceptionStack s i.pins (hardwire s i.pins (csrWrite s i))) := by
  rw [beforeReturn, translationEnables_saved, debugEntry_saved]

theorem next_saved (s : Regs cfg) (i : Input cfg) :
    savedOf (next s i) = savedOf (returnFrom s i.csrOp (beforeReturn s i)) := rfl

/-- A cycle without a return. -/
theorem next_saved_of_not_return (s : Regs cfg) (i : Input cfg)
    (op : i.csrOp ≠ .mret ∧ i.csrOp ≠ .sret ∧ i.csrOp ≠ .dret) :
    savedOf (next s i) =
      savedOf (exceptionStack s i.pins (hardwire s i.pins (csrWrite s i))) := by
  have mret : (i.csrOp == .mret) = false := beq_eq_false_iff_ne.mpr op.1
  have sret : (i.csrOp == .sret) = false := beq_eq_false_iff_ne.mpr op.2.1
  have dret : (i.csrOp == .dret) = false := beq_eq_false_iff_ne.mpr op.2.2
  rw [next_saved, ← beforeReturn_saved, returnFrom, mret, sret, dret]
  simp

/-- A return without an exception starts from the saved state. -/
theorem beforeReturn_saved_of_return (s : Regs cfg) (r : Input cfg)
    (op : r.csrOp = .mret ∨ r.csrOp = .sret) (plain : r.pins.ex.valid = false) :
    savedOf (beforeReturn s r) = savedOf (hardwire s r.pins (defaults s r.pins)) := by
  have noTrap : takesTrap s r.pins.ex = false := by rw [takesTrap, plain, Bool.false_and]
  have noWrite : csrWrite s r = defaults s r.pins := by
    rw [csrWrite, csrWe]
    rcases op with mret | sret
    · rw [mret]
      rfl
    · rw [sret]
      rfl
  rw [beforeReturn_saved, noWrite, exceptionStack, noTrap, if_neg Bool.false_ne_true]

/-- The write and the hardwired fields leave most of the saved state. -/
theorem defaults_saved (s : Regs cfg) (pins : Pins cfg) :
    savedOf (defaults s pins).d = savedOf s := by
  simp only [defaults, counters, savedOf]
  split <;> rfl

theorem flag_mstatusHardwired (s : Regs cfg) (pins : Pins cfg) (w : Update cfg) (pos : Nat)
    (apart : pos < 9 ∨ 15 ≤ pos ∧ pos < 32 ∨ 36 ≤ pos ∧ pos < 63) :
    flag (mstatusHardwired s pins w) pos = flag w.d.mstatus pos := by
  unfold mstatusHardwired
  extract_lets m1 m2 m3 m4 m5
  have first : flag m2 pos = flag m1 pos := by
    unfold m2
    split
    · rw [flag_setField_outside _ _ _ _ (by simp only [Mstatus.uxl]; omega),
        flag_setField_outside _ _ _ _ (by simp only [Mstatus.sxl]; omega)]
    · rfl
  have second : flag m3 pos = flag m2 pos := by
    unfold m3
    split
    · rfl
    · exact flag_setField_outside _ _ _ _ (by simp only [Mstatus.mpp]; omega)
  have third : flag m4 pos = flag m3 pos := by
    unfold m4
    split
    · exact flag_setField_outside _ _ _ _ (by simp only [Mstatus.fs]; omega)
    · rfl
  have fourth : flag m5 pos = flag m4 pos := by
    unfold m5
    split
    · exact flag_setField_outside _ _ _ _ (by simp only [Mstatus.vs]; omega)
    · rfl
  rw [flag_setFlag_other _ _ _ _ (by simp only [Mstatus.sd]; omega), fourth, third, second, first]

/-! ## The write in the cycle of a trap -/

theorem csrWrite_v (s : Regs cfg) (i : Input cfg) : (csrWrite s i).d.v = s.v := by
  have start : (defaults s i.pins).d.v = s.v := congrArg Mode.v (defaults_mode s i.pins)
  unfold csrWrite
  split
  · have mode := congrArg Mode.v
      (csrWriteCase_mode s i.csrAddr (selected s i) (csrWdata s i) (defaults s i.pins))
    refine Eq.trans ?_ start
    refine Eq.trans mode ?_
    split
    · rfl
    · split <;> rfl
    · split <;> rfl
    · rfl
  · exact start

/-- Two registers write `mstatus`. -/
theorem csrWriteCase_mstatus (s : Regs cfg) (csrAddr : BitVec 12) (csr : Csr)
    (wdata : BitVec cfg.xlen) (w : Update cfg) :
    (csrWriteCase s csrAddr csr wdata w).d.mstatus =
      match csr with
      | .mstatus => mstatusWrite s wdata
      | .sstatus => if cfg.rvs then sstatusWrite s wdata else w.d.mstatus
      | _ => w.d.mstatus := by
  cases csr with
  | mstatus => rfl
  | sstatus =>
      simp only [csrWriteCase, Update.flushWhen]
      split <;> rfl
  | _ =>
      simp only [csrWriteCase, Update.reject, Update.when, Update.flushWhen, Update.fpWhen,
        Update.translation]
      repeat' split
      all_goals rfl

theorem mprv_sstatusWrite (s : Regs cfg) (wdata : BitVec cfg.xlen) :
    flag (sstatusWrite s wdata) Mstatus.mprv = flag s.mstatus Mstatus.mprv := by
  unfold sstatusWrite
  extract_lets m1 m2 m3
  have first : flag m1 Mstatus.mprv = flag s.mstatus Mstatus.mprv := by
    apply flag_maskedWrite
    have clear : smodeStatusWriteMask.getLsbD Mstatus.mprv = false := by decide
    simp [flag, clear]
  have second : flag m2 Mstatus.mprv = flag m1 Mstatus.mprv := by
    unfold m2
    split
    · rfl
    · exact flag_setField_outside _ _ _ _ (by decide)
  have third : flag m3 Mstatus.mprv = flag m2 Mstatus.mprv := by
    unfold m3
    split
    · rfl
    · exact flag_setField_outside _ _ _ _ (by decide)
  split
  · rw [setMpp, flag_setField_outside _ _ _ _ (by decide), third, second, first]
  · rw [third, second, first]

theorem csrReg_mstatus (a : BitVec 12) (is : csrReg a = .mstatus) : a = 0x300 := by
  have place : a.toNat = 0x300 := by
    unfold csrReg at is
    split at is
    any_goals first | assumption | exact Csr.noConfusion is
    unfold csrRange at is
    split_ifs at is
  exact BitVec.eq_of_toNat_eq place

/-- Below M-mode no write reaches `mstatus`. -/
theorem mstatus_unreached (s : Regs cfg) (i : Input cfg) (rvu : cfg.rvu = true)
    (below : privLvlO s ≠ .m) (we : csrWe s i = true) : selected s i ≠ .mstatus := by
  intro isMstatus
  have place : i.csrAddr = 0x300 := by
    apply csrReg_mstatus
    unfold selected convCsrAddr at isMstatus
    split at isMstatus
    · cases guest : s.v with
      | true =>
          rw [guest, csrReg_convert] at isMstatus
          generalize csrReg i.csrAddr = csr at isMstatus
          cases csr <;> first | rfl | exact Csr.noConfusion isMstatus
      | false =>
          have same : convertVsAccessCsr i.csrAddr false = i.csrAddr := by
            unfold convertVsAccessCsr
            split <;> rfl
          rwa [guest, same] at isMstatus
    · exact isMstatus
  have violates : privilegeViolation s i = true := by
    have access : csrAccess i.csrOp = true := by
      simp only [csrWe, Bool.and_eq_true, decide_eq_true_eq] at we
      unfold csrAccess
      rcases List.mem_cons.mp we.1 with op | rest
      · rw [op]
        rfl
      · rcases List.mem_cons.mp rest with op | rest
        · rw [op]
          rfl
        · rw [List.mem_singleton.mp rest]
          rfl
    have uncounted : counterAddr cfg 0x300 = false := by
      unfold counterAddr
      simp
    unfold privilegeViolation privilegeCheckH privilegeCheck accessPriv
    rw [access, place, uncounted]
    cases level : privLvlO s with
    | m => exact absurd level below
    | _ => cases cfg.rvh <;> cases s.v <;> simp [rvu] <;> exact .inl (by decide)
  simp [csrWe, violates] at we

theorem csrWrite_mprv (s : Regs cfg) (i : Input cfg) (rvu : cfg.rvu = true)
    (below : privLvlO s ≠ .m) :
    flag (csrWrite s i).d.mstatus Mstatus.mprv = flag s.mstatus Mstatus.mprv := by
  have start : (defaults s i.pins).d.mstatus = s.mstatus :=
    congrArg Saved.mstatus (defaults_saved s i.pins)
  unfold csrWrite
  split
  · rename_i we
    rw [csrWriteCase_mstatus, start]
    split
    · rename_i isMstatus
      exact absurd isMstatus (mstatus_unreached s i rvu below we)
    · split
      · exact mprv_sstatusWrite s _
      · rfl
    · rfl
  · rw [start]

/-! ## The state after a trap -/

/-- The registers that the trap starts from. -/
def beforeTrap (s : Regs cfg) (i : Input cfg) : Regs cfg := hardwire s i.pins (csrWrite s i)

theorem beforeTrap_v (s : Regs cfg) (i : Input cfg) : (beforeTrap s i).v = s.v := csrWrite_v s i

theorem beforeTrap_mprv (s : Regs cfg) (i : Input cfg) (rvu : cfg.rvu = true)
    (below : privLvlO s ≠ .m) :
    flag (beforeTrap s i).mstatus Mstatus.mprv = flag s.mstatus Mstatus.mprv :=
  (flag_mstatusHardwired s i.pins (csrWrite s i) Mstatus.mprv (by decide)).trans
    (csrWrite_mprv s i rvu below)

section After

variable {s : Regs cfg} {i : Input cfg} (traps : Traps s i) (rvs : cfg.rvs = true)

include traps rvs

/-- A trap to M-mode. -/
theorem Traps.machine (host : toSupervisor s i.pins.ex = false) :
    savedOf (next s i) =
      { savedOf (trapM s i.pins (beforeTrap s i)) with
        privLvl := .m
        v := if cfg.rvh then trapToV s i.pins.ex else s.v } := by
  have level := (traps.target rvs).1
  rw [host, if_neg Bool.false_ne_true] at level
  rw [next_saved_of_not_return s i traps.op, exceptionStack, if_pos traps.takes, level, rvs]
  have keepsV : (trapM s i.pins (hardwire s i.pins (csrWrite s i))).v = s.v := by
    rw [← beforeTrap_v s i]
    unfold trapM
    simp only []
    split <;> rfl
  rw [← keepsV]
  rfl

/-- A trap to S-mode, or to HS-mode. -/
theorem Traps.supervisor (sup : toSupervisor s i.pins.ex = true)
    (host : toGuest s i.pins.ex = false) :
    savedOf (next s i) =
      { savedOf (trapS s i.pins (beforeTrap s i)) with
        privLvl := .s
        v := if cfg.rvh then false else s.v } := by
  obtain ⟨level, toV⟩ := traps.target rvs
  rw [sup, if_pos rfl] at level
  have native := (toV sup).trans host
  rw [next_saved_of_not_return s i traps.op, exceptionStack, if_pos traps.takes, level, native, rvs]
  have keepsV : (trapS s i.pins (hardwire s i.pins (csrWrite s i))).v = s.v := by
    rw [← beforeTrap_v s i]
    unfold trapS
    simp only []
    split <;> rfl
  rw [← keepsV, Bool.and_false]
  rfl

/-- A trap to VS-mode. -/
theorem Traps.guest (virtual : toGuest s i.pins.ex = true) :
    savedOf (next s i) =
      { savedOf (trapVs s i.pins (beforeTrap s i)) with
        privLvl := .s
        v := true } := by
  obtain ⟨level, toV⟩ := traps.target rvs
  have parts := virtual
  simp only [toGuest, Bool.and_eq_true] at parts
  obtain ⟨⟨⟨sup, rvh⟩, -⟩, -⟩ := parts
  rw [sup, if_pos rfl] at level
  have native := (toV sup).trans virtual
  rw [next_saved_of_not_return s i traps.op, exceptionStack, if_pos traps.takes, level, native, rvs,
    rvh]
  rfl

end After

/-! ## Reachable states -/

theorem finish_hideleg (s : Regs cfg) (op : FuOp) (pins : Pins cfg) (w : Update cfg) :
    (finish s op pins w).hideleg = w.d.hideleg := by
  have pick (b : Bool) (x y : Regs cfg) (same : x.hideleg = y.hideleg) :
      (if b then x else y).hideleg = y.hideleg := by
    cases b
    · rfl
    · exact same
  have trapped (d : Regs cfg) : (exceptionStack s pins d).hideleg = d.hideleg := by
    apply pick
    have machine : (trapM s pins d).hideleg = d.hideleg := pick cfg.rvh _ _ rfl
    have supervisor : (trapS s pins d).hideleg = d.hideleg := pick cfg.rvh _ _ rfl
    have either := (pick (cfg.rvh && trapToV s pins.ex) (trapVs s pins d) (trapS s pins d)
      supervisor.symm).trans supervisor
    exact (pick (cfg.rvs && trapToPrivLvl s pins.ex == .s) _ _ (either.trans machine.symm)).trans
      machine
  have debugged (happens enters : Bool) (dpc : BitVec cfg.xlen) (cause : BitVec 3) (d : Regs cfg) :
      (debugWhen s happens enters dpc cause d).hideleg = d.hideleg := pick happens _ _ rfl
  have enters (d : Regs cfg) : (debugEntry s pins d).hideleg = d.hideleg := by
    apply pick
    rw [debugged, debugged, debugged]
  have enables (d : Regs cfg) : (translationEnables s d).hideleg = d.hideleg := by
    simp only [translationEnables]
    split <;> rfl
  have returns (d : Regs cfg) : (returnFrom s op d).hideleg = d.hideleg := by
    have machine (d : Regs cfg) : (returnM s d).hideleg = d.hideleg := pick cfg.rvh _ _ rfl
    have supervisor (d : Regs cfg) : (returnS s d).hideleg = d.hideleg := pick cfg.rvh _ _ rfl
    unfold returnFrom
    extract_lets sret d1 d2 d3
    have one : d1.hideleg = d.hideleg := pick _ _ _ (machine d)
    have two : d2.hideleg = d1.hideleg := pick _ _ _ (supervisor d1)
    have three : d3.hideleg = d2.hideleg := pick _ _ _ rfl
    exact (pick _ (returnDebug s d3) d3 rfl).trans (three.trans (two.trans one))
  have clocked : (finish s op pins w).hideleg = (returnFrom s op (translationEnables s
    (debugEntry s pins (exceptionStack s pins (hardwire s pins w))))).hideleg := rfl
  rw [clocked, returns, enables, enters, trapped]
  rfl

theorem csrWriteCase_hideleg (s : Regs cfg) (csrAddr : BitVec 12) (csr : Csr)
    (wdata : BitVec cfg.xlen) (w : Update cfg) :
    (csrWriteCase s csrAddr csr wdata w).d.hideleg = w.d.hideleg ∨
      (csrWriteCase s csrAddr csr wdata w).d.hideleg =
        maskedWrite s.hideleg wdata (vsInterrupts cfg.xlen) := by
  cases csr with
  | hideleg =>
      simp only [csrWriteCase, Update.when]
      split
      · exact .inr rfl
      · exact .inl rfl
  | _ =>
      left
      simp only [csrWriteCase, Update.reject, Update.when, Update.flushWhen, Update.fpWhen,
        Update.translation]
      repeat' split
      all_goals rfl

theorem csrWrite_hideleg (s : Regs cfg) (i : Input cfg) :
    (csrWrite s i).d.hideleg = s.hideleg ∨
      (csrWrite s i).d.hideleg = maskedWrite s.hideleg (csrWdata s i) (vsInterrupts cfg.xlen) := by
  have start : (defaults s i.pins).d.hideleg = s.hideleg := by
    simp only [defaults, counters]
    split <;> rfl
  unfold csrWrite
  split
  · exact start ▸ csrWriteCase_hideleg s i.csrAddr (selected s i) (csrWdata s i)
      (defaults s i.pins)
  · exact .inl start

theorem flag_vsInterrupts (k : Nat) (set : flag (vsInterrupts cfg.xlen) k = true) :
    k = 2 ∨ k = 6 ∨ k = 10 := by
  have wide : cfg.xlen = 64 ∨ cfg.xlen = 32 := by
    unfold CsrCfg.xlen
    split
    · exact .inl rfl
    · exact .inr rfl
  have inside : k < cfg.xlen := by
    by_contra beyond
    exact Bool.noConfusion ((BitVec.getLsbD_of_ge _ k (by omega)).symm.trans set)
  generalize cfg.xlen = w at wide set inside
  have table64 : ∀ k : Fin 64, flag (vsInterrupts 64) k = true →
      k.val = 2 ∨ k.val = 6 ∨ k.val = 10 := by decide
  have table32 : ∀ k : Fin 32, flag (vsInterrupts 32) k = true →
      k.val = 2 ∨ k.val = 6 ∨ k.val = 10 := by decide
  rcases wide with rfl | rfl
  · exact table64 ⟨k, inside⟩ set
  · exact table32 ⟨k, inside⟩ set

/-- Without the hypervisor extension `v` keeps its reset value. -/
theorem next_v (s : Regs cfg) (i : Input cfg) (native : cfg.rvh = false) : (next s i).v = s.v := by
  have pick (b : Bool) (x y : Regs cfg) (same : x.v = y.v) : (if b then x else y).v = y.v := by
    cases b
    · rfl
    · exact same
  have trapped (d : Regs cfg) : (exceptionStack s i.pins d).v = d.v := by
    have machine : (trapM s i.pins d).v = d.v := pick cfg.rvh _ _ rfl
    have supervisor : (trapS s i.pins d).v = d.v := pick cfg.rvh _ _ rfl
    unfold exceptionStack
    apply pick
    rw [native]
    have either := (pick (false && trapToV s i.pins.ex) (trapVs s i.pins d) (trapS s i.pins d)
      supervisor.symm).trans supervisor
    exact (pick (cfg.rvs && trapToPrivLvl s i.pins.ex == .s) _ _ (either.trans machine.symm)).trans
      machine
  have returns (d : Regs cfg) : (returnFrom s i.csrOp d).v = d.v := by
    have machine (d : Regs cfg) : (returnM s d).v = d.v := by rw [returnM, native]; rfl
    have supervisor (d : Regs cfg) : (returnS s d).v = d.v := by rw [returnS, native]; rfl
    have debug (d : Regs cfg) : (returnDebug s d).v = d.v := by rw [returnDebug, native]; rfl
    unfold returnFrom
    extract_lets sret d1 d2 d3
    have one : d1.v = d.v := pick _ _ _ (machine d)
    have two : d2.v = d1.v := pick _ _ _ (supervisor d1)
    have three : d3.v = d2.v := pick _ (returnVs s d2) d2 rfl
    exact (pick _ _ _ (debug d3)).trans (three.trans (two.trans one))
  have same := congrArg Saved.v (next_saved s i)
  refine same.trans ((returns _).trans ?_)
  refine (congrArg Saved.v (beforeReturn_saved s i)).trans ((trapped _).trans ?_)
  exact csrWrite_v s i

theorem Virtualizable.next {s : Regs cfg} (before : Virtualizable s) (i : Input cfg) :
    Virtualizable (next s i) := by
  constructor
  · intro guest
    cases rvh : cfg.rvh with
    | true => rfl
    | false =>
        rw [next_v s i rvh] at guest
        exact rvh.symm.trans (before.hypervisor guest)
  · intro k set
    have same : (CsrRegfile.next s i).hideleg = (csrWrite s i).d.hideleg := finish_hideleg s _ _ _
    rw [same] at set
    rcases csrWrite_hideleg s i with kept | written
    · rw [kept] at set
      exact before.hideleg k set
    · rw [written] at set
      cases masked : flag (vsInterrupts cfg.xlen) k with
      | true => exact flag_vsInterrupts k masked
      | false =>
          rw [flag_maskedWrite _ _ _ _ masked] at set
          exact before.hideleg k set

/-- Every reachable state. -/
theorem virtualizable_of_run {cycles : List (Regs cfg × Input cfg)} {s : Regs cfg}
    (run : (csrMachine cfg).Run cycles s) : Virtualizable s := by
  refine run.invariant (fun _ s => Virtualizable s) ⟨fun guest => Bool.noConfusion guest,
    fun k set => ?_⟩ fun _ _ i _ before _ => before.next i
  have clear : flag (0 : BitVec cfg.xlen) k = false := BitVec.getLsbD_zero
  exact Bool.noConfusion (clear.symm.trans set)

end Cva6.CsrRegfile
