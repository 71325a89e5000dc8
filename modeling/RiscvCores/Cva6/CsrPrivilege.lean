import RiscvCores.Cva6.CsrRegfile

/-!
# Privilege levels of the register file

The level, `mstatus.mpp` and `dcsr.prv` are read off the registers as a `Mode`.
Each part of `csr_update` moves the mode in one way; a cycle keeps it legal
unless software writes `dcsr.prv`, `mpp = 2'b10` or `mpv` where the code does
not legalize them.
-/

set_option autoImplicit false

namespace Cva6.CsrRegfile

open BitField
open Cva6.Pmp (PrivLvl)

variable {cfg : CsrCfg}

/-! ## Modes -/

/-- Privilege level, virtualization, debug mode and the saved levels. -/
@[ext]
structure Mode where
  privLvl : PrivLvl
  v : Bool
  debugMode : Bool
  mpp : PrivLvl
  prv : PrivLvl

def modeOf (s : Regs cfg) : Mode :=
  ⟨s.privLvl, s.v, s.debugMode, mpp s.mstatus, prv s.dcsr⟩

/-- The levels a configuration implements. -/
def implemented (cfg : CsrCfg) : PrivLvl → Bool
  | .m => true
  | .s => cfg.rvs
  | .u => cfg.rvu
  | .hs => false

/-- Current and saved levels are implemented, virtualization and debug mode
belong to their extensions, and outside debug mode a guest is in S- or U-mode. -/
structure Mode.Legal (cfg : CsrCfg) (mode : Mode) : Prop where
  level : implemented cfg mode.privLvl = true
  mpp : implemented cfg mode.mpp = true
  hypervisor : mode.v = true → cfg.rvh = true
  debug : mode.debugMode = true → cfg.debugEn = true
  guest : mode.debugMode = false → mode.v = true → mode.privLvl = .s ∨ mode.privLvl = .u

/-- The privilege state is legal. -/
structure ModeLegal (s : Regs cfg) : Prop extends Mode.Legal cfg (modeOf s) where
  prv : cfg.debugEn = true → implemented cfg (prv s.dcsr) = true

/-! ## The write -/

theorem mpp_foldl_setFlag (m : BitVec 64) (positions : List Nat)
    (apart : ∀ k ∈ positions, 13 ≤ k ∨ k + 1 ≤ 11) :
    mpp (positions.foldl (fun m k => setFlag m k false) m) = mpp m := by
  induction positions generalizing m with
  | nil => rfl
  | cons k rest ih =>
      rw [List.foldl_cons, ih _ fun j mem => apart j (List.mem_cons_of_mem k mem),
        mpp_setFlag m k false (apart k List.mem_cons_self)]

theorem mstatusAbsent_apart (cfg : CsrCfg) (k : Nat) (mem : k ∈ mstatusAbsent cfg) :
    13 ≤ k ∨ k + 1 ≤ 11 := by
  have outside : ∀ k ∈ [Mstatus.sie, Mstatus.spie, Mstatus.spp, Mstatus.sum, Mstatus.mxr,
      Mstatus.tvm, Mstatus.tsr, Mstatus.tw, Mstatus.mprv], 13 ≤ k ∨ k + 1 ≤ 11 := by decide
  apply outside
  unfold mstatusAbsent at mem
  rcases List.mem_append.mp mem with supervisor | user
  · split at supervisor
    · exact absurd supervisor List.not_mem_nil
    · exact List.mem_append_left [Mstatus.tw, Mstatus.mprv] supervisor
  · split at user
    · exact absurd user List.not_mem_nil
    · exact List.mem_append_right [Mstatus.sie, Mstatus.spie, Mstatus.spp, Mstatus.sum,
        Mstatus.mxr, Mstatus.tvm, Mstatus.tsr] user

/-- A level that a write to `mstatus` refuses. -/
def mppRefused (cfg : CsrCfg) (p : PrivLvl) : Bool :=
  (!cfg.rvh && p == .hs) || (!cfg.rvs && p == .s) || (!cfg.rvu && p == .u)

/-- `mstatus.mpp` after a write to `mstatus`. -/
theorem mpp_mstatusWrite (s : Regs cfg) (wdata : BitVec cfg.xlen) :
    mpp (mstatusWrite s wdata) =
      if mppRefused cfg (mpp (wdata.setWidth 64)) then mpp s.mstatus
      else mpp (wdata.setWidth 64) := by
  unfold mstatusWrite
  extract_lets m1 m2 m3 m4 m5 m6 m7 m8 m9
  have first : mpp m1 = mpp (wdata.setWidth 64) := mpp_setField _ _ _ (by decide)
  have second : mpp m2 = mpp m1 := by
    unfold m2
    split
    · rfl
    · exact mpp_setField _ _ _ (by decide)
  have third : mpp m3 = mpp m2 := by
    unfold m3
    split
    · rfl
    · exact mpp_setField _ _ _ (by decide)
  have fourth : mpp m4 = mpp m3 := mpp_foldl_setFlag m3 _ (mstatusAbsent_apart cfg)
  have written : mpp m4 = mpp (wdata.setWidth 64) := by rw [fourth, third, second, first]
  have last : mpp (setFlag m9 Mstatus.ube false) = mpp m5 := by
    rw [mpp_setFlag m9 _ _ (by decide), mpp_setFlag m8 _ _ (by decide),
      mpp_setFlag m7 _ _ (by decide), mpp_setFlag m6 _ _ (by decide),
      mpp_setField m5 _ _ (by decide)]
  rw [last]
  unfold m5
  rw [written, ← mppRefused.eq_def]
  split
  · exact mpp_setMpp m4 _
  · exact written

/-- A write to `sstatus` keeps `mpp`. -/
theorem mpp_sstatusWrite (s : Regs cfg) (wdata : BitVec cfg.xlen) :
    mpp (sstatusWrite s wdata) = mpp s.mstatus := by
  have masked : field ((smodeStatusWriteMask.setWidth cfg.xlen).setWidth 64) Mstatus.mpp 2 = 0 := by
    apply BitVec.eq_of_getLsbD_eq
    intro k bound
    have clear : smodeStatusWriteMask.getLsbD (Mstatus.mpp + k) = false := by
      have : k = 0 ∨ k = 1 := by omega
      rcases this with rfl | rfl <;> decide
    rw [getLsbD_field, BitVec.getLsbD_setWidth, BitVec.getLsbD_setWidth, clear]
    simp
  unfold sstatusWrite
  extract_lets m1 m2 m3
  have first : mpp m1 = mpp s.mstatus := by
    unfold m1 supervisorStatus
    rw [mpp, field_maskedWrite _ _ _ _ masked]
    rfl
  have second : mpp m2 = mpp m1 := by
    unfold m2
    split
    · rfl
    · exact mpp_setField _ _ _ (by decide)
  have third : mpp m3 = mpp m2 := by
    unfold m3
    split
    · rfl
    · exact mpp_setField _ _ _ (by decide)
  split
  · exact mpp_setMpp m3 _
  · rw [third, second, first]

/-- Only three registers move the mode. -/
theorem csrWriteCase_mode (s : Regs cfg) (csrAddr : BitVec 12) (csr : Csr)
    (wdata : BitVec cfg.xlen) (w : Update cfg) :
    modeOf (csrWriteCase s csrAddr csr wdata w).d =
      match csr with
      | .mstatus => { modeOf w.d with mpp := mpp (mstatusWrite s wdata) }
      | .sstatus =>
          if cfg.rvs then { modeOf w.d with mpp := mpp (sstatusWrite s wdata) } else modeOf w.d
      | .dcsr =>
          if cfg.debugEn then { modeOf w.d with prv := prv (dcsrWrite wdata) } else modeOf w.d
      | _ => modeOf w.d := by
  cases csr with
  | mstatus => rfl
  | sstatus =>
      simp only [csrWriteCase, Update.flushWhen]
      split <;> rfl
  | dcsr =>
      simp only [csrWriteCase, Update.when]
      split <;> rfl
  | _ =>
      simp only [csrWriteCase, Update.reject, Update.when, Update.flushWhen, Update.fpWhen,
        Update.translation]
      repeat' split
      all_goals rfl

theorem defaults_mode (s : Regs cfg) (pins : Pins cfg) :
    modeOf (defaults s pins).d = modeOf s := by
  simp only [defaults, counters, modeOf]
  split <;> rfl

/-! ## The parts of a cycle -/

theorem hardwire_mode (s : Regs cfg) (pins : Pins cfg) (w : Update cfg) :
    modeOf (hardwire s pins w) =
      { modeOf w.d with mpp := if cfg.rvu then mpp w.d.mstatus else .m } := by
  have saved : mpp (mstatusHardwired s pins w) = if cfg.rvu then mpp w.d.mstatus else .m := by
    unfold mstatusHardwired
    extract_lets m1 m2 m3 m4 m5
    have first : mpp m2 = mpp m1 := by
      unfold m2
      split
      · rw [mpp_setField _ _ _ (by decide), mpp_setField _ _ _ (by decide)]
      · rfl
    have second : mpp m3 = if cfg.rvu then mpp m1 else .m := by
      unfold m3
      split
      · exact first
      · exact mpp_setMpp m2 .m
    have third : mpp m4 = mpp m3 := by
      unfold m4
      split
      · exact mpp_setField _ _ _ (by decide)
      · rfl
    have fourth : mpp m5 = mpp m4 := by
      unfold m5
      split
      · exact mpp_setField _ _ _ (by decide)
      · rfl
    rw [mpp_setFlag m5 _ _ (by decide), fourth, third, second]
  exact Mode.ext rfl rfl rfl saved rfl

theorem trapS_mode (s d : Regs cfg) (pins : Pins cfg) : modeOf (trapS s pins d) = modeOf d := by
  have saved (m : BitVec 64) (b c : Bool) :
      mpp (setFlag (setFlag (setFlag m Mstatus.sie false) Mstatus.spie b) Mstatus.spp c) =
        mpp m := by
    rw [mpp_setFlag _ _ _ (by decide), mpp_setFlag _ _ _ (by decide),
      mpp_setFlag _ _ _ (by decide)]
  simp only [trapS]
  split <;> exact Mode.ext rfl rfl rfl (saved _ _ _) rfl

theorem trapM_mode (s d : Regs cfg) (pins : Pins cfg) :
    modeOf (trapM s pins d) = { modeOf d with mpp := s.privLvl } := by
  simp only [trapM]
  split
  · refine Mode.ext rfl rfl rfl ?_ rfl
    change mpp (setFlag (setFlag (setMpp _ s.privLvl) Mstatus.mpv _) Mstatus.gva _) = s.privLvl
    rw [mpp_setFlag _ _ _ (by decide), mpp_setFlag _ _ _ (by decide), mpp_setMpp]
  · exact Mode.ext rfl rfl rfl (mpp_setMpp _ _) rfl

/-- A trap goes to M, or to S with everything but the level and `v` unchanged. -/
theorem exceptionStack_mode (s d : Regs cfg) (pins : Pins cfg) :
    modeOf (exceptionStack s pins d) =
      if takesTrap s pins.ex then
        { modeOf d with
          privLvl := trapToPrivLvl s pins.ex
          v := if cfg.rvh then trapToV s pins.ex else d.v
          mpp :=
            if cfg.rvs && trapToPrivLvl s pins.ex == .s then mpp d.mstatus else s.privLvl }
      else modeOf d := by
  unfold exceptionStack
  split
  · extract_lets trapped
    have keepsV : trapped.v = d.v ∧ trapped.debugMode = d.debugMode ∧
        mpp trapped.mstatus =
          (if cfg.rvs && trapToPrivLvl s pins.ex == .s then mpp d.mstatus else s.privLvl) ∧
        prv trapped.dcsr = prv d.dcsr := by
      unfold trapped
      split
      · split
        · exact ⟨rfl, rfl, rfl, rfl⟩
        · have mode := trapS_mode s d pins
          exact ⟨congrArg Mode.v mode, congrArg Mode.debugMode mode, congrArg Mode.mpp mode,
            congrArg Mode.prv mode⟩
      · have mode := trapM_mode s d pins
        exact ⟨congrArg Mode.v mode, congrArg Mode.debugMode mode, congrArg Mode.mpp mode,
          congrArg Mode.prv mode⟩
    obtain ⟨v, debugMode, saved, prvKept⟩ := keepsV
    refine Mode.ext rfl ?_ debugMode saved prvKept
    change (if cfg.rvh then trapToV s pins.ex else trapped.v) = _
    rw [v]
  · rfl

theorem saveMode_prv (s : Regs cfg) (dcsr : BitVec 32) :
    prv (saveMode s dcsr) = privLvlO s := by
  rw [saveMode, prv_setFlag _ _ _ (by decide), prv_setPrv]

/-- The mode with other debug parts. -/
def Mode.debugged (mode : Mode) (debugMode : Bool) (prv : PrivLvl) : Mode :=
  { mode with debugMode, prv }

theorem debugWhen_mode (s d : Regs cfg) (happens enters : Bool) (dpc : BitVec cfg.xlen)
    (cause : BitVec 3) (mode : Mode) (onlyDebug : ∃ b, modeOf d = mode.debugged b (privLvlO s)) :
    ∃ b, modeOf (debugWhen s happens enters dpc cause d) = mode.debugged b (privLvlO s) := by
  obtain ⟨b, same⟩ := onlyDebug
  unfold debugWhen
  split
  · have level : prv (setField (saveMode s d.dcsr) Dcsr.cause cause) = privLvlO s :=
      (prv_setField _ _ _ (by decide)).trans (saveMode_prv s d.dcsr)
    exact ⟨enters, Mode.ext (congrArg Mode.privLvl same :) (congrArg Mode.v same :) rfl
      (congrArg Mode.mpp same :) level⟩
  · exact ⟨b, same⟩

/-- Outside debug mode `dcsr.prv` follows the level; nothing else but debug mode
itself moves. -/
theorem debugEntry_mode (s d : Regs cfg) (pins : Pins cfg) :
    ∃ b, modeOf (debugEntry s pins d) =
      (modeOf d).debugged b (if cfg.debugEn && !s.debugMode then privLvlO s else prv d.dcsr) := by
  unfold debugEntry
  by_cases outside : (cfg.debugEn && !s.debugMode) = true
  · rw [if_pos outside, if_pos outside]
    apply debugWhen_mode
    apply debugWhen_mode
    apply debugWhen_mode
    exact ⟨d.debugMode, Mode.ext rfl rfl rfl rfl (saveMode_prv s d.dcsr)⟩
  · rw [if_neg outside, if_neg outside]
    exact ⟨d.debugMode, rfl⟩

/-- Debug mode is entered, or was on before. -/
theorem debugEntry_debugMode (s d : Regs cfg) (pins : Pins cfg)
    (same : d.debugMode = s.debugMode) :
    ((debugEntry s pins d).debugMode = true → cfg.debugEn = true ∨ s.debugMode = true) ∧
      ((debugEntry s pins d).debugMode = false → s.debugMode = false) := by
  unfold debugEntry
  split
  · rename_i outside
    simp only [Bool.and_eq_true, Bool.not_eq_true'] at outside
    exact ⟨fun _ => .inl outside.1, fun _ => outside.2⟩
  · rw [same]
    exact ⟨.inr, id⟩

theorem translationEnables_mode (s d : Regs cfg) :
    modeOf (translationEnables s d) = modeOf d := by
  simp only [translationEnables]
  split <;> rfl

theorem returnM_mode (s d : Regs cfg) :
    modeOf (returnM s d) =
      { modeOf d with
        privLvl := mpp s.mstatus
        v := if cfg.rvh then flag s.mstatus Mstatus.mpv else d.v
        mpp := if cfg.rvu then .u else .m } := by
  unfold returnM
  extract_lets m1 m2 m3 first m4
  have saved : mpp m3 = if cfg.rvu then .u else .m := by
    rw [mpp_setFlag m2 _ _ (by decide), mpp_setMpp]
  by_cases hypervisor : cfg.rvh = true
  · have cleared : mpp m4 = mpp m3 := mpp_setFlag m3 _ _ (by decide)
    have written : mpp (if (mpp s.mstatus != .m) = true then setFlag m4 Mstatus.mprv false
        else m4) = if cfg.rvu then .u else .m := by
      split
      · rw [mpp_setFlag m4 _ _ (by decide), cleared, saved]
      · rw [cleared, saved]
    rw [if_pos hypervisor, if_pos hypervisor]
    exact Mode.ext rfl rfl rfl written rfl
  · rw [if_neg hypervisor, if_neg hypervisor]
    exact Mode.ext rfl rfl rfl saved rfl

theorem returnS_mode (s d : Regs cfg) :
    modeOf (returnS s d) =
      { modeOf d with
        privLvl := if flag s.mstatus Mstatus.spp then .s else .u
        v := if cfg.rvh then flag s.hstatus Hstatus.spv else d.v } := by
  have saved (m : BitVec 64) (b : Bool) :
      mpp (setFlag (setFlag (setFlag m Mstatus.sie b) Mstatus.spp false) Mstatus.spie true) =
        mpp m := by
    rw [mpp_setFlag _ _ _ (by decide), mpp_setFlag _ _ _ (by decide),
      mpp_setFlag _ _ _ (by decide)]
  simp only [returnS]
  by_cases hypervisor : cfg.rvh = true
  · rw [if_pos hypervisor, if_pos hypervisor]
    exact Mode.ext rfl rfl rfl ((mpp_setFlag _ _ _ (by decide)).trans (saved _ _)) rfl
  · rw [if_neg hypervisor, if_neg hypervisor]
    exact Mode.ext rfl rfl rfl (saved _ _) rfl

/-! ## A cycle -/

/-- The writes and returns that the code does not legalize are legal: software
writes implemented levels, and returns to M-mode with virtualization off. -/
structure Legalized (s : Regs cfg) (i : Input cfg) : Prop where
  dcsr : cfg.debugEn = true → s.debugMode = true → csrWe s i = true → selected s i = .dcsr →
    implemented cfg (prv (dcsrWrite (csrWdata s i))) = true
  mstatus : cfg.rvh = true → csrWe s i = true → selected s i = .mstatus →
    mpp ((csrWdata s i).setWidth 64) ≠ .hs
  mret : i.csrOp = .mret → cfg.rvh = true → s.debugMode = false → mpp s.mstatus = .m →
    flag s.mstatus Mstatus.mpv = false
  dret : i.csrOp = .dret → cfg.debugEn = true → cfg.rvh = true → prv s.dcsr = .m →
    flag s.dcsr Dcsr.v = false

/-- A level that `mstatus` accepts is implemented, `HS` apart. -/
theorem implemented_of_accepted (p : PrivLvl) (accepted : mppRefused cfg p = false)
    (notHs : cfg.rvh = true → p ≠ .hs) : implemented cfg p = true := by
  cases p with
  | m => rfl
  | hs =>
      have hypervisor : cfg.rvh = true := by simpa [mppRefused] using accepted
      exact absurd rfl (notHs hypervisor)
  | s => simpa [mppRefused, implemented] using accepted
  | u => simpa [mppRefused, implemented] using accepted

/-- The write keeps the mode, but for legal saved levels. -/
theorem csrWrite_mode (s : Regs cfg) (i : Input cfg) (legal : ModeLegal s)
    (legalized : Legalized s i) :
    ∃ saved level, implemented cfg saved = true ∧
      (cfg.debugEn = true → s.debugMode = true → implemented cfg level = true) ∧
      modeOf (csrWrite s i).d = { modeOf s with mpp := saved, prv := level } := by
  have start := defaults_mode s i.pins
  have savedLegal : implemented cfg (mpp s.mstatus) = true := legal.mpp
  have same : ∃ saved level, implemented cfg saved = true ∧
      (cfg.debugEn = true → s.debugMode = true → implemented cfg level = true) ∧
      modeOf s = { modeOf s with mpp := saved, prv := level } :=
    ⟨mpp s.mstatus, prv s.dcsr, savedLegal, fun debug _ => legal.prv debug, rfl⟩
  unfold csrWrite
  split
  · rename_i enabled
    rw [csrWriteCase_mode, start]
    split
    · rename_i register
      refine ⟨_, prv s.dcsr, ?_, fun debug _ => legal.prv debug, rfl⟩
      rw [mpp_mstatusWrite]
      split
      · exact savedLegal
      · rename_i accepted
        exact implemented_of_accepted _ (Bool.not_eq_true _ ▸ accepted)
          fun hypervisor => legalized.mstatus hypervisor enabled register
    · split
      · refine ⟨_, prv s.dcsr, ?_, fun debug _ => legal.prv debug, rfl⟩
        rw [mpp_sstatusWrite]
        exact savedLegal
      · exact same
    · rename_i register
      split
      · exact ⟨mpp s.mstatus, _, savedLegal,
          fun debug inDebug => legalized.dcsr debug inDebug enabled register, rfl⟩
      · exact same
    · exact same
  · rw [start]
    exact same

/-- The level traps and returns see outside debug mode. -/
theorem privLvlO_of_not_debug (s : Regs cfg) (off : s.debugMode = false) :
    privLvlO s = s.privLvl := by
  simp [privLvlO, off]

/-- A trap is taken outside debug mode. -/
theorem ModeLegal.off_of_trap {s : Regs cfg} (legal : ModeLegal s) {ex : Exception cfg}
    (trap : takesTrap s ex = true) : s.debugMode = false := by
  by_contra inDebug
  have on : s.debugMode = true := by simpa using inDebug
  have debug : cfg.debugEn = true := legal.debug on
  simp [takesTrap, on, debug] at trap

theorem trapToPrivLvl_cases (s : Regs cfg) (ex : Exception cfg) :
    trapToPrivLvl s ex = .m ∨ (trapToPrivLvl s ex = .s ∧ cfg.rvs = true) := by
  unfold trapToPrivLvl
  split
  · rename_i delegate
    simp only [Bool.and_eq_true] at delegate
    split
    · exact .inl rfl
    · exact .inr ⟨rfl, delegate.1.2⟩
  · exact .inl rfl

/-- A trap that stays virtualized goes to VS-mode. -/
theorem ModeLegal.trapToPrivLvl_guest {s : Regs cfg} (legal : ModeLegal s) {ex : Exception cfg}
    (toV : trapToV s ex = true) : trapToPrivLvl s ex = .s := by
  simp only [trapToV, Bool.and_eq_true] at toV
  obtain ⟨⟨⟨delegate, -⟩, -⟩, guest⟩ := toV
  have trap : takesTrap s ex = true := delegate.1.1
  have off := legal.off_of_trap trap
  have level : privLvlO s ≠ .m := by
    rw [privLvlO_of_not_debug s off]
    rcases legal.guest off guest with supervisor | user
    · exact fun isM => PrivLvl.noConfusion (supervisor.symm.trans isM)
    · exact fun isM => PrivLvl.noConfusion (user.symm.trans isM)
  unfold trapToPrivLvl
  rw [if_pos (by simpa using delegate), if_neg (by simpa using level)]

/-- The exception stack keeps a mode legal. -/
theorem exceptionStack_legal {s d : Regs cfg} (pins : Pins cfg) (legal : ModeLegal s)
    (before : Mode.Legal cfg (modeOf d)) :
    Mode.Legal cfg (modeOf (exceptionStack s pins d)) := by
  rw [exceptionStack_mode]
  split
  · have level := trapToPrivLvl_cases s pins.ex
    have current : implemented cfg s.privLvl = true := legal.level
    refine ⟨?_, ?_, ?_, before.debug, ?_⟩
    · change implemented cfg (trapToPrivLvl s pins.ex) = true
      rcases level with isM | ⟨isS, supervisor⟩
      · rw [isM]
        rfl
      · rw [isS]
        exact supervisor
    · change implemented cfg (if _ then _ else _) = true
      split
      · exact before.mpp
      · exact current
    · intro guest
      change (if cfg.rvh = true then _ else _) = true at guest
      split at guest
      · assumption
      · exact before.hypervisor guest
    · intro _ guest
      change (if cfg.rvh = true then _ else _) = true at guest
      split at guest
      · exact .inl (legal.trapToPrivLvl_guest guest)
      · exact absurd (before.hypervisor guest) ‹_›
  · exact before

/-- Debug entry keeps a mode legal. -/
theorem debugEntry_legal {s d : Regs cfg} (pins : Pins cfg) (legal : ModeLegal s)
    (before : Mode.Legal cfg (modeOf d)) (same : d.debugMode = s.debugMode) :
    Mode.Legal cfg (modeOf (debugEntry s pins d)) := by
  obtain ⟨b, mode⟩ := debugEntry_mode s d pins
  have isB : (debugEntry s pins d).debugMode = b := congrArg Mode.debugMode mode
  have moves := debugEntry_debugMode s d pins same
  rw [isB] at moves
  rw [mode]
  refine ⟨before.level, before.mpp, before.hypervisor, fun on => ?_, fun off guest => ?_⟩
  · rcases moves.1 on with debug | inDebug
    · exact debug
    · exact legal.debug inDebug
  · exact before.guest (same.trans (moves.2 off)) guest

/-- `mret` keeps a mode legal. -/
theorem returnM_legal {s d : Regs cfg} (legal : ModeLegal s)
    (before : Mode.Legal cfg (modeOf d)) (off : d.debugMode = false → s.debugMode = false)
    (legalized : cfg.rvh = true → s.debugMode = false → mpp s.mstatus = .m →
      flag s.mstatus Mstatus.mpv = false) :
    Mode.Legal cfg (modeOf (returnM s d)) := by
  rw [returnM_mode]
  have saved : implemented cfg (mpp s.mstatus) = true := legal.mpp
  refine ⟨saved, ?_, ?_, before.debug, fun outside guest => ?_⟩
  · change implemented cfg (if cfg.rvu = true then .u else .m) = true
    split
    · assumption
    · rfl
  · intro guest
    change (if cfg.rvh = true then _ else _) = true at guest
    split at guest
    · assumption
    · exact before.hypervisor guest
  · change (if cfg.rvh = true then _ else _) = true at guest
    change mpp s.mstatus = .s ∨ mpp s.mstatus = .u
    split at guest
    · rename_i hypervisor
      cases level : mpp s.mstatus with
      | m =>
          rw [legalized hypervisor (off outside) level] at guest
          exact absurd guest (by decide)
      | hs =>
          rw [level] at saved
          exact absurd saved Bool.false_ne_true
      | s => exact .inl rfl
      | u => exact .inr rfl
    · exact absurd (before.hypervisor guest) ‹_›

/-- A return to S- or U-mode keeps a mode legal. -/
theorem Mode.Legal.toSupervisor {mode : Mode} (legal : Mode.Legal cfg mode) (spp v : Bool)
    (supervisor : cfg.rvs = true) (user : cfg.rvu = true)
    (hypervisor : v = true → cfg.rvh = true) :
    Mode.Legal cfg { mode with privLvl := if spp then .s else .u, v } := by
  refine ⟨?_, legal.mpp, hypervisor, legal.debug, fun _ _ => ?_⟩
  · cases spp with
    | true => exact supervisor
    | false => exact user
  · cases spp with
    | true => exact .inl rfl
    | false => exact .inr rfl

/-- `dret` keeps a mode legal. -/
theorem returnDebug_legal {s d : Regs cfg} (legal : ModeLegal s)
    (before : Mode.Legal cfg (modeOf d)) (debug : cfg.debugEn = true)
    (legalized : cfg.rvh = true → prv s.dcsr = .m → flag s.dcsr Dcsr.v = false) :
    Mode.Legal cfg (modeOf (returnDebug s d)) := by
  have saved := legal.prv debug
  refine ⟨saved, before.mpp, ?_, fun on => absurd on (by simp [modeOf, returnDebug]),
    fun _ guest => ?_⟩
  · intro guest
    change (if cfg.rvh = true then _ else _) = true at guest
    split at guest
    · assumption
    · exact before.hypervisor guest
  · change (if cfg.rvh = true then _ else _) = true at guest
    change prv s.dcsr = .s ∨ prv s.dcsr = .u
    split at guest
    · rename_i hypervisor
      cases level : prv s.dcsr with
      | m =>
          rw [legalized hypervisor level] at guest
          exact absurd guest (by decide)
      | hs =>
          rw [level] at saved
          exact absurd saved Bool.false_ne_true
      | s => exact .inl rfl
      | u => exact .inr rfl
    · exact absurd (before.hypervisor guest) ‹_›

/-- The returns keep a mode legal and leave `dcsr.prv` alone. -/
theorem returnFrom_legal {s d : Regs cfg} {i : Input cfg} (user : cfg.rvu = true)
    (legal : ModeLegal s) (legalized : Legalized s i) (before : Mode.Legal cfg (modeOf d))
    (off : d.debugMode = false → s.debugMode = false) :
    Mode.Legal cfg (modeOf (returnFrom s i.csrOp d)) ∧
      prv (returnFrom s i.csrOp d).dcsr = prv d.dcsr := by
  have hypervisorV : s.v = true → cfg.rvh = true := legal.hypervisor
  unfold returnFrom
  extract_lets sret d1 d2 d3
  have first : Mode.Legal cfg (modeOf d1) ∧ prv d1.dcsr = prv d.dcsr := by
    unfold d1
    split
    · rename_i isMret
      refine ⟨returnM_legal legal before off (legalized.mret (by simpa using isMret)), ?_⟩
      exact congrArg Mode.prv (returnM_mode s d)
    · exact ⟨before, rfl⟩
  have second : Mode.Legal cfg (modeOf d2) ∧ prv d2.dcsr = prv d.dcsr := by
    unfold d2
    split
    · rename_i isSret
      simp only [sret, Bool.and_eq_true] at isSret
      have mode := returnS_mode s d1
      refine ⟨?_, (congrArg Mode.prv mode).trans first.2⟩
      rw [mode]
      refine first.1.toSupervisor _ _ isSret.1.1 user fun guest => ?_
      split at guest
      · assumption
      · exact first.1.hypervisor guest
    · exact first
  have third : Mode.Legal cfg (modeOf d3) ∧ prv d3.dcsr = prv d.dcsr := by
    unfold d3
    split
    · rename_i isSret
      simp only [sret, Bool.and_eq_true] at isSret
      exact ⟨second.1.toSupervisor _ d2.v isSret.1.2.1 user fun _ => isSret.1.1, second.2⟩
    · exact second
  split
  · rename_i isDret
    simp only [Bool.and_eq_true, beq_iff_eq] at isDret
    exact ⟨returnDebug_legal legal third.1 isDret.1 (legalized.dret isDret.2 isDret.1), third.2⟩
  · exact third

/-- A cycle whose writes and returns are legalized keeps the mode legal. -/
theorem next_modeLegal {s : Regs cfg} (user : cfg.rvu = true) (legal : ModeLegal s)
    {i : Input cfg} (legalized : Legalized s i) : ModeLegal (next s i) := by
  obtain ⟨saved, level, savedLegal, levelLegal, written⟩ := csrWrite_mode s i legal legalized
  let d1 := hardwire s i.pins (csrWrite s i)
  let d2 := exceptionStack s i.pins d1
  let d3 := debugEntry s i.pins d2
  let d4 := translationEnables s d3
  have mode1 : modeOf d1 = { modeOf s with mpp := saved, prv := level } := by
    have savedWritten : mpp (csrWrite s i).d.mstatus = saved := congrArg Mode.mpp written
    rw [hardwire_mode, written, savedWritten, if_pos user]
  have legal1 : Mode.Legal cfg (modeOf d1) := by
    rw [mode1]
    exact ⟨legal.level, savedLegal, legal.hypervisor, legal.debug, legal.guest⟩
  have legal2 : Mode.Legal cfg (modeOf d2) := exceptionStack_legal i.pins legal legal1
  have trap := exceptionStack_mode s d1 i.pins
  have same2 : d2.debugMode = s.debugMode := by
    have kept : (modeOf d2).debugMode = (modeOf d1).debugMode := by
      rw [trap]
      split <;> rfl
    exact kept.trans (congrArg Mode.debugMode mode1)
  have prv2 : prv d2.dcsr = level := by
    have kept : (modeOf d2).prv = (modeOf d1).prv := by
      rw [trap]
      split <;> rfl
    exact kept.trans (congrArg Mode.prv mode1)
  have legal3 : Mode.Legal cfg (modeOf d3) := debugEntry_legal i.pins legal legal2 same2
  have mode4 : modeOf d4 = modeOf d3 := translationEnables_mode s d3
  have off : d4.debugMode = false → s.debugMode = false := fun outside =>
    (debugEntry_debugMode s d2 i.pins same2).2
      ((congrArg Mode.debugMode mode4).symm.trans outside)
  obtain ⟨returned, returnedPrv⟩ :=
    returnFrom_legal user legal legalized (mode4 ▸ legal3 : Mode.Legal cfg (modeOf d4)) off
  refine { returned with prv := fun debug => ?_ }
  obtain ⟨b, entry⟩ := debugEntry_mode s d2 i.pins
  have prv3 : prv d3.dcsr = if cfg.debugEn && !s.debugMode then privLvlO s else prv d2.dcsr :=
    congrArg Mode.prv entry
  have prv4 : prv d4.dcsr = prv d3.dcsr := congrArg Mode.prv mode4
  change implemented cfg (prv (returnFrom s i.csrOp d4).dcsr) = true
  rw [returnedPrv, prv4, prv3]
  split
  · rename_i outside
    simp only [Bool.and_eq_true, Bool.not_eq_true'] at outside
    rw [privLvlO_of_not_debug s outside.2]
    exact legal.level
  · rename_i inside
    have inDebug : s.debugMode = true := by simpa [debug] using inside
    rw [prv2]
    exact levelLegal debug inDebug

/-- The mode after reset. -/
theorem reset_mode (cfg : CsrCfg) : modeOf (reset cfg) = ⟨.m, false, false, .u, .m⟩ := by
  have level : prv (reset cfg).dcsr = .m :=
    (prv_setField _ _ _ (by decide)).trans (prv_setPrv 0 .m)
  have saved : mpp (reset cfg).mstatus = .u := by
    change mpp (0 : BitVec 64) = .u
    decide
  exact Mode.ext rfl rfl rfl saved level

theorem reset_modeLegal (user : cfg.rvu = true) : ModeLegal (reset cfg) := by
  have mode := reset_mode cfg
  refine { toLegal := ?_, prv := fun _ => ?_ }
  · rw [mode]
    exact ⟨rfl, user, fun guest => absurd guest Bool.false_ne_true,
      fun on => absurd on Bool.false_ne_true, fun _ guest => absurd guest Bool.false_ne_true⟩
  · rw [show prv (reset cfg).dcsr = .m from congrArg Mode.prv mode]
    rfl

/-- With user mode, every state that legalized writes and returns reach is
legal; without it `mstatus.mpp` is not, from reset on. -/
theorem modeLegal_iff (cfg : CsrCfg) :
    (∀ cycles s, ((csrMachine cfg).restrict fun _ s i => Legalized s i).Run cycles s →
      ModeLegal s) ↔ cfg.rvu = true := by
  constructor
  · intro always
    have start := (always [] (reset cfg) .reset).mpp
    rwa [reset_mode] at start
  · intro user cycles s run
    refine run.invariant (fun _ s => ModeLegal s) (reset_modeLegal user) ?_
    intro _ _ _ _ legal allowed
    exact next_modeLegal user legal allowed.2

/-- A debug request, a write of `dcsr` with `prv = 2'b10`, and `dret`. -/
def debuggerInputs : List (Input cv64a6Imafdch) :=
  [{ pins := { ex := { cause := 24, valid := true } } },
    { csrOp := .csrWrite, csrAddr := 0x7B0, pins := { csrWdata := 2 } },
    { csrOp := .dret }]

/-- `dret` puts the core into the level that the debugger wrote. -/
theorem dret_reserved_level :
    ∃ cycles s, (csrMachine cv64a6Imafdch).Run cycles s ∧ s.privLvl = .hs ∧
      implemented cv64a6Imafdch s.privLvl = false := by
  have run := (csrMachine cv64a6Imafdch).run_of_accepts debuggerInputs
    ⟨trivial, trivial, trivial, trivial⟩
  have level : ((csrMachine cv64a6Imafdch).after (csrMachine cv64a6Imafdch).reset
      debuggerInputs).privLvl = .hs := by decide +kernel
  exact ⟨_, _, run, level, by rw [level]; rfl⟩

end Cva6.CsrRegfile
