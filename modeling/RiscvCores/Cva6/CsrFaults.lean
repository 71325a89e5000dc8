import RiscvCores.Cva6.CsrRegfile

/-!
# Accesses that fault

A refused read or write leaves the registers alone by itself.  What is left are
the accesses that are refused in one place and carried out in another.
-/

set_option autoImplicit false

namespace Cva6.CsrRegfile

open BitField
open Cva6.Pmp (PrivLvl)

variable {cfg : CsrCfg}

/-- The cycle with the CSR NOP in place of the operation. -/
def nop (i : Input cfg) : Input cfg := { i with csrOp := .add }

/-! ## The operation after the case statement -/

theorem access_cases {op : FuOp} (access : csrAccess op = true) :
    op = .csrWrite ∨ op = .csrSet ∨ op = .csrClear ∨ op = .csrRead := by
  simpa [csrAccess] using access

/-- An access is no return and no `wfi`. -/
theorem finish_access (s : Regs cfg) (pins : Pins cfg) (w : Update cfg) {op : FuOp}
    (access : csrAccess op = true) : finish s op pins w = finish s .add pins w := by
  have returns (d : Regs cfg) : returnFrom s op d = returnFrom s .add d := by
    rcases access_cases access with rfl | rfl | rfl | rfl <;> rfl
  have waits : wfiNext s op pins = wfiNext s .add pins := by
    rcases access_cases access with rfl | rfl | rfl | rfl <;> rfl
  simp only [finish, clock, returns, waits]

/-- The cycle reads the write only through the registers and the dirty flag. -/
theorem finish_congr (s : Regs cfg) (op : FuOp) (pins : Pins cfg) {w w' : Update cfg}
    (same : w.d = w'.d) (dirty : w.dirtyFpStateCsr = w'.dirtyFpStateCsr) :
    finish s op pins w = finish s op pins w' := by
  have fp : fpDirty w pins = fpDirty w' pins := by rw [fpDirty, fpDirty, dirty]
  have hardwired : hardwire s pins w = hardwire s pins w' := by
    simp only [hardwire, mstatusHardwired, vsstatusHardwired, same, fp]
  rw [finish, finish, hardwired]

/-! ## What a refused access assigns -/

/-- The case statement assigns nothing but exceptions and the flush. -/
structure Inert (w w' : Update cfg) : Prop where
  d : w'.d = w.d
  perfWe : w'.perfWe = w.perfWe
  perfData : w'.perfData = w.perfData
  dirty : w'.dirtyFpStateCsr = w.dirtyFpStateCsr

theorem Inert.refl (w : Update cfg) : Inert w w := ⟨rfl, rfl, rfl, rfl⟩

theorem Inert.reject (w : Update cfg) : Inert w w.reject := ⟨rfl, rfl, rfl, rfl⟩

/-- `csr_update` assigns a register, or the performance counters. -/
def csrWrites (s : Regs cfg) (csrAddr : BitVec 12) (wdata : BitVec cfg.xlen) : Csr → Bool
  | .fflags | .frm | .fcsr | .ftran => fpAccess s
  | .dcsr | .dpc | .dscratch0 | .dscratch1 => cfg.debugEn
  | .jvt => cfg.rvzcmt
  | .vsstatus | .vsie | .vsip | .vstvec | .vsscratch | .vsepc | .vscause | .vstval => cfg.rvh
  | .vsatp => cfg.rvh && !vsatpIntercepted s && modeSupported cfg (satpOf wdata)
  | .sstatus | .sie | .sip | .stvec | .scounteren | .sscratch | .sepc | .scause => cfg.rvs
  | .stval => cfg.rvs && cfg.tvalEn
  | .satp => cfg.rvs && !satpIntercepted s && modeSupported cfg (satpOf wdata)
  | .senvcfg | .menvcfg | .mcounteren => cfg.rvu
  | .hstatus | .hedeleg | .hideleg | .hie | .hip | .hvip | .hcounteren | .htval | .htinst
  | .henvcfg | .mtinst | .mtval2 => cfg.rvh
  | .hgatp => cfg.rvh && !hgatpIntercepted s && modeSupported cfg (hgatpOf wdata)
  | .medeleg | .mideleg => cfg.rvs
  | .mtval => cfg.tvalEn
  | .mcycleh | .minstreth => !cfg.isXlen64
  | .mstatus | .mie | .mtvec | .mscratch | .mepc | .mcause | .mip | .mcountinhibit | .mcycle
  | .minstret | .mhpmEvent | .mhpmCounter | .mhpmCounterH | .dcache | .icache | .pmpaddr => true
  | .accCons => cfg.enableAccelerator
  | .pmpcfg => !(cfg.isXlen64 && pmpcfgIndex csrAddr % 2 == 1)
  | _ => false

theorem Inert.when (w : Update cfg) (d : Regs cfg) {present : Bool} (absent : present = false) :
    Inert w (w.when present d) := by
  rw [absent]
  exact .reject w

theorem Inert.ite (w other : Update cfg) {w' : Update cfg} {present : Bool} (inert : Inert w w')
    (absent : present = false) : Inert w (if present = true then other else w') := by
  rw [absent]
  exact inert

theorem Inert.either (w : Update cfg) {w' other : Update cfg} (present : Bool)
    (inert : Inert w w') (inertOther : Inert w other) :
    Inert w (if present = true then w' else other) := by
  cases present with
  | true => exact inert
  | false => exact inertOther

theorem Inert.flushWhen (w : Update cfg) (d : Regs cfg) {present : Bool}
    (absent : present = false) : Inert w (w.flushWhen present d) := by
  rw [absent]
  exact .reject w

theorem Inert.fpWhen (w : Update cfg) (fcsr : BitVec 32) {present : Bool}
    (absent : present = false) : Inert w (w.fpWhen present fcsr) := by
  rw [absent]
  exact .reject w

theorem Inert.translation (w refused : Update cfg) (d : Regs cfg) (inert : Inert w refused)
    {present intercepted supported : Bool}
    (silent : (present && !intercepted && supported) = false) :
    Inert w (w.translation refused present intercepted supported d) := by
  cases present with
  | false => exact .reject w
  | true =>
      cases intercepted with
      | true => exact ⟨inert.d, inert.perfWe, inert.perfData, inert.dirty⟩
      | false =>
          cases supported with
          | false => exact ⟨rfl, rfl, rfl, rfl⟩
          | true => exact absurd silent (by decide)

/-- Registers that `csr_update` does not write are left alone. -/
theorem csrWriteCase_inert (s : Regs cfg) (csrAddr : BitVec 12) (csr : Csr)
    (wdata : BitVec cfg.xlen) (w : Update cfg) (silent : csrWrites s csrAddr wdata csr = false) :
    Inert w (csrWriteCase s csrAddr csr wdata w) := by
  cases csr with
  | fflags | frm | fcsr | ftran => exact .fpWhen w _ silent
  | vsstatus | sstatus | hstatus => exact .flushWhen w _ silent
  | vsatp =>
      exact .translation w { w with virtualUpdateAccessException := true } _
        ⟨rfl, rfl, rfl, rfl⟩ silent
  | satp | hgatp => exact .translation w _ _ (.reject w) silent
  | mtval | menvcfg => exact .ite w _ (.refl w) silent
  | hgeie | menvcfgh => exact .either w _ (.refl w) (.reject w)
  | mstatush => exact .either w _ (.reject w) (.refl w)
  | misa => exact .refl w
  | pmpcfg =>
      have refused : (cfg.isXlen64 && pmpcfgIndex csrAddr % 2 == 1) = true := by
        exact (Bool.not_eq_false' ..).mp silent
      change Inert w (if _ then w.reject else _)
      rw [if_pos refused]
      exact .reject w
  | mstatus | mie | mtvec | mscratch | mepc | mcause | mip | mcountinhibit | mcycle | minstret
  | mhpmEvent | mhpmCounter | mhpmCounterH | dcache | icache | pmpaddr =>
      exact Bool.noConfusion (silent : true = false)
  | tselect | tdata1 | tdata2 | tdata3 | hgeip | mvendorid | marchid | mimpid | mhartid
  | mconfigptr | cycle | cycleh | instret | instreth | hpmCounter | hpmCounterH | other =>
      exact .reject w
  | _ => exact .when w _ silent

/-- The registers that one process refuses and another one writes. -/
def refusedAndWritten (cfg : CsrCfg) (csr : Csr) : Bool :=
  (csr == .senvcfg && !cfg.rvs) || (csr == .mhpmCounterH && cfg.isXlen64)

/-- A read that faults selects a register that is not written, or one of the two. -/
theorem csrReadCase_exception (s : Regs cfg) (pins : Pins cfg) (csrAddr : BitVec 12) (csr : Csr)
    (wdata : BitVec cfg.xlen)
    (fault : (csrReadCase s pins csrAddr csr).readAccessException = true ∨
      (csrReadCase s pins csrAddr csr).virtualReadAccessException = true) :
    csrWrites s csrAddr wdata csr = false ∨ refusedAndWritten cfg csr = true := by
  have plain {present : Bool} {x : BitVec cfg.xlen}
      (fault : (Read.when present x).readAccessException = true ∨
        (Read.when present x).virtualReadAccessException = true) : present = false := by
    cases present with
    | true => simp [Read.when] at fault
    | false => rfl
  cases csr with
  | senvcfg => exact .inr (by simp [refusedAndWritten, plain fault])
  | mhpmCounterH =>
      have wide : cfg.isXlen64 = true := by simpa using plain fault
      exact .inr (by simp [refusedAndWritten, wide])
  | stval =>
      refine .inl ?_
      change (cfg.rvs && cfg.tvalEn) = false
      rw [plain fault, Bool.false_and]
  | vsatp =>
      refine .inl ?_
      have read : csrReadCase s pins csrAddr .vsatp = if cfg.rvh then
          if vsatpIntercepted s then { virtualReadAccessException := true } else .value s.vsatp
          else .when false 0 := rfl
      rw [read] at fault
      change (cfg.rvh && !vsatpIntercepted s && _) = false
      cases present : cfg.rvh with
      | false => rfl
      | true =>
          cases intercepted : vsatpIntercepted s with
          | true => rfl
          | false => simp [present, intercepted, Read.value] at fault
  | satp =>
      refine .inl ?_
      have read : csrReadCase s pins csrAddr .satp =
          if cfg.rvs then .when (!satpIntercepted s) s.satp else .when false 0 := rfl
      rw [read] at fault
      change (cfg.rvs && !satpIntercepted s && _) = false
      cases present : cfg.rvs with
      | false => rfl
      | true =>
          rw [present, if_pos rfl] at fault
          rw [plain fault]
          rfl
  | hgatp =>
      refine .inl ?_
      have read : csrReadCase s pins csrAddr .hgatp =
          if cfg.rvh then .when (!hgatpIntercepted s) s.hgatp else .when false 0 := rfl
      rw [read] at fault
      change (cfg.rvh && !hgatpIntercepted s && _) = false
      cases present : cfg.rvh with
      | false => rfl
      | true =>
          rw [present, if_pos rfl] at fault
          rw [plain fault]
          rfl
  | mstatus | misa | mie | mtvec | mscratch | mepc | mcause | mtval | mip | mvendorid | marchid
  | mimpid | mhartid | mconfigptr | mcountinhibit | mcycle | minstret | mhpmEvent | mhpmCounter
  | dcache | icache | pmpaddr => rcases fault with fault | fault <;> exact Bool.noConfusion fault
  | pmpcfg => exact .inl (plain fault)
  | _ => first | exact .inl (plain fault) | exact .inl rfl

/-- A write that faults is not carried out, the counter strobe apart. -/
theorem csrWriteCase_exception (s : Regs cfg) (csrAddr : BitVec 12) (csr : Csr)
    (wdata : BitVec cfg.xlen) (w : Update cfg) (clean : w.updateAccessException = false)
    (virtualClean : w.virtualUpdateAccessException = false)
    (fault : (csrWriteCase s csrAddr csr wdata w).updateAccessException = true ∨
      (csrWriteCase s csrAddr csr wdata w).virtualUpdateAccessException = true) :
    csrWrites s csrAddr wdata csr = false ∨ refusedAndWritten cfg csr = true := by
  have quiet : ¬ (w.updateAccessException = true ∨ w.virtualUpdateAccessException = true) := by
    simp [clean, virtualClean]
  have plain {present : Bool} {d : Regs cfg}
      (fault : (w.when present d).updateAccessException = true ∨
        (w.when present d).virtualUpdateAccessException = true) : present = false := by
    cases present with
    | true => simp [Update.when, clean, virtualClean] at fault
    | false => rfl
  have flushes {present : Bool} {d : Regs cfg}
      (fault : (w.flushWhen present d).updateAccessException = true ∨
        (w.flushWhen present d).virtualUpdateAccessException = true) : present = false := by
    cases present with
    | true => simp [Update.flushWhen, clean, virtualClean] at fault
    | false => rfl
  have fp {present : Bool} {fcsr : BitVec 32}
      (fault : (w.fpWhen present fcsr).updateAccessException = true ∨
        (w.fpWhen present fcsr).virtualUpdateAccessException = true) : present = false := by
    cases present with
    | true => simp [Update.fpWhen, clean, virtualClean] at fault
    | false => rfl
  have translates {refused : Update cfg} {present intercepted supported : Bool} {d : Regs cfg}
      (fault : (w.translation refused present intercepted supported d).updateAccessException =
          true ∨
        (w.translation refused present intercepted supported d).virtualUpdateAccessException =
          true) : (present && !intercepted && supported) = false := by
    cases present with
    | false => rfl
    | true =>
        cases intercepted with
        | true => rfl
        | false => cases supported <;> simp [Update.translation, clean, virtualClean] at fault
  cases csr with
  | fflags | frm | fcsr | ftran => exact .inl (fp fault)
  | vsstatus | sstatus | hstatus => exact .inl (flushes fault)
  | vsatp | satp | hgatp => exact .inl (translates fault)
  | mtval =>
      have kept : csrWriteCase s csrAddr .mtval wdata w =
          if cfg.tvalEn then { w with d := { w.d with mtval := wdata } } else w := rfl
      rw [kept] at fault
      split at fault <;> exact absurd fault quiet
  | menvcfg =>
      have kept : csrWriteCase s csrAddr .menvcfg wdata w =
          if cfg.rvu then { w with d := { w.d with fiom := flag wdata 0 } } else w := rfl
      rw [kept] at fault
      split at fault <;> exact absurd fault quiet
  | mhpmCounterH =>
      cases wide : cfg.isXlen64 with
      | true => exact .inr (by simp [refusedAndWritten, wide])
      | false =>
          have granted : csrWriteCase s csrAddr .mhpmCounterH wdata w =
              if cfg.isXlen64 then { w.reject with perfWe := true }
              else { w with perfWe := true, perfData := wdata } := rfl
          rw [granted, wide] at fault
          exact absurd fault quiet
  | pmpcfg =>
      cases refused : (cfg.isXlen64 && pmpcfgIndex csrAddr % 2 == 1) with
      | true => exact .inl ((Bool.not_eq_false' ..).mpr refused)
      | false =>
          have granted : csrWriteCase s csrAddr .pmpcfg wdata w =
              if cfg.isXlen64 && pmpcfgIndex csrAddr % 2 == 1 then w.reject
              else { w with d := { w.d with
                pmpcfg := pmpcfgWrite s w.d.pmpcfg (pmpcfgIndex csrAddr) wdata } } := rfl
          rw [granted, refused] at fault
          exact absurd fault quiet
  | mhpmEvent | mhpmCounter | pmpaddr => exact absurd fault quiet
  | mstatus => exact absurd (flushes fault) (by decide)
  | mie | mtvec | mscratch | mepc | mcause | mip | mcountinhibit | mcycle | minstret
  | dcache | icache => exact absurd (plain fault) (by decide)
  | _ => first | exact .inl rfl | exact .inl (plain fault)

/-! ## A faulting access -/

/-- The write enable is up for a register that `csr_update` writes, while the
access is refused elsewhere: by the virtual privilege check, which does not take
the enable away, or by the other process. -/
def LeakyWrite (s : Regs cfg) (i : Input cfg) : Prop :=
  csrWe s i = true ∧ csrWrites s i.csrAddr (csrWdata s i) (selected s i) = true ∧
    (virtualPrivilegeViolation s i = true ∨ refusedAndWritten cfg (selected s i) = true)

instance (s : Regs cfg) (i : Input cfg) : Decidable (LeakyWrite s i) :=
  inferInstanceAs (Decidable (_ ∧ _))

/-- The next registers and the performance counter port are those of the NOP. -/
def NoEffect (s : Regs cfg) (i : Input cfg) : Prop :=
  next s i = next s (nop i) ∧ perf s i = perf s (nop i)

theorem csrWrite_nop (s : Regs cfg) (i : Input cfg) : csrWrite s (nop i) = defaults s i.pins := by
  have off : csrWe s (nop i) = false := rfl
  rw [csrWrite, if_neg (by rw [off]; decide)]
  rfl

/-- A write that assigns nothing is as good as the NOP. -/
theorem noEffect_of_inert {s : Regs cfg} {i : Input cfg} (access : csrAccess i.csrOp = true)
    (inert : Inert (defaults s i.pins) (csrWrite s i)) : NoEffect s i := by
  constructor
  · rw [next, next, csrWrite_nop, finish_access s i.pins _ access]
    exact finish_congr s .add i.pins inert.d inert.dirty
  · rw [perf, perf, csrWrite_nop, inert.perfWe, inert.perfData]

/-- The access raises `csr_exception_o`. -/
def Faults (s : Regs cfg) (i : Input cfg) : Prop :=
  csrAccess i.csrOp = true ∧ csrException s i = true

instance (s : Regs cfg) (i : Input cfg) : Decidable (Faults s i) :=
  inferInstanceAs (Decidable (_ ∧ _))

/-- The enabled write of an access that is not refused by the privilege check. -/
theorem csrWrite_enabled {s : Regs cfg} {i : Input cfg} (enabled : csrWe s i = true) :
    csrWrite s i =
        csrWriteCase s i.csrAddr (selected s i) (csrWdata s i) (defaults s i.pins) ∧
      privilegeViolation s i = false := by
  refine ⟨if_pos enabled, ?_⟩
  simp only [csrWe, Bool.and_eq_true, Bool.not_eq_true'] at enabled
  exact enabled.2

theorem csrReadProcess_granted {s : Regs cfg} {i : Input cfg} (access : csrAccess i.csrOp = true)
    (granted : privilegeViolation s i = false) :
    csrReadProcess s i = csrReadCase s i.pins i.csrAddr (selected s i) :=
  if_pos (by simp [csrRead, access, granted])

/-- A granted access that faults selects a register that is not written, unless
its write leaks. -/
theorem silent_of_fault {s : Regs cfg} {i : Input cfg} (fault : Faults s i)
    (enabled : csrWe s i = true) (tight : ¬ LeakyWrite s i) :
    csrWrites s i.csrAddr (csrWdata s i) (selected s i) = false := by
  obtain ⟨access, fault⟩ := fault
  obtain ⟨written, granted⟩ := csrWrite_enabled enabled
  have read := csrReadProcess_granted access granted
  by_contra writes
  have writes : csrWrites s i.csrAddr (csrWdata s i) (selected s i) = true := by
    simpa using writes
  have notVirtual : virtualPrivilegeViolation s i = false := by
    by_contra virtual
    exact tight ⟨enabled, writes, .inl (by simpa using virtual)⟩
  have refused : csrWrites s i.csrAddr (csrWdata s i) (selected s i) = false ∨
      refusedAndWritten cfg (selected s i) = true := by
    simp only [csrException, granted, notVirtual, Bool.or_false, Bool.or_eq_true,
      Bool.and_eq_true] at fault
    rw [read, written] at fault
    rcases fault with (update | read) | ⟨-, update | read⟩
    · exact csrWriteCase_exception s _ _ _ _ rfl rfl (.inl update)
    · exact csrReadCase_exception s i.pins _ _ _ (.inl read)
    · exact csrWriteCase_exception s _ _ _ _ rfl rfl (.inr update)
    · exact csrReadCase_exception s i.pins _ _ _ (.inr read)
  rcases refused with silent | twice
  · rw [writes] at silent
    exact absurd silent (by decide)
  · exact tight ⟨enabled, writes, .inr twice⟩

/-- In every state, a faulting access that is not a leaky write has no effect. -/
theorem step_noEffect {s : Regs cfg} {i : Input cfg} (fault : Faults s i)
    (tight : ¬ LeakyWrite s i) : NoEffect s i := by
  apply noEffect_of_inert fault.1
  by_cases enabled : csrWe s i = true
  · rw [(csrWrite_enabled enabled).1]
    exact csrWriteCase_inert s _ _ _ _ (silent_of_fault fault enabled tight)
  · rw [csrWrite, if_neg enabled]
    exact .refl _

/-- A leaky write faults. -/
theorem LeakyWrite.faults {s : Regs cfg} {i : Input cfg} (leaky : LeakyWrite s i) :
    Faults s i := by
  obtain ⟨enabled, -, why⟩ := leaky
  have access : csrAccess i.csrOp = true := by
    simp only [csrWe, Bool.and_eq_true, decide_eq_true_eq] at enabled
    have member := enabled.1
    simp only [csrAccess, decide_eq_true_eq, List.mem_cons, List.not_mem_nil, or_false] at member ⊢
    tauto
  refine ⟨access, ?_⟩
  rcases why with virtual | twice
  · have hypervisor : cfg.rvh = true := by
      simp only [virtualPrivilegeViolation, Bool.and_eq_true] at virtual
      exact virtual.1.2
    simp [csrException, virtual, hypervisor]
  · have refused : (csrReadProcess s i).readAccessException = true := by
      rw [csrReadProcess_granted access (csrWrite_enabled enabled).2]
      simp only [refusedAndWritten, Bool.or_eq_true, Bool.and_eq_true, beq_iff_eq,
        Bool.not_eq_true'] at twice
      rcases twice with ⟨register, absent⟩ | ⟨register, wide⟩
      · rw [register]
        change (Read.when cfg.rvs _).readAccessException = true
        rw [absent]
        rfl
      · rw [register]
        change (Read.when (!cfg.isXlen64) _).readAccessException = true
        rw [wide]
        rfl
    simp [csrException, refused]

/-- The input with a faulting access replaced by the NOP. -/
def scrub (now : Regs cfg × Input cfg) : Input cfg :=
  if Faults now.1 now.2 then nop now.2 else now.2

/-- In a run without leaky writes no faulting access has an effect, and the run
reaches the registers that it reaches with NOPs in their place. -/
theorem csr_faults_noEffect (cfg : CsrCfg) {cycles : List (Regs cfg × Input cfg)} {s : Regs cfg}
    (run : ((csrMachine cfg).restrict fun _ s i => ¬ LeakyWrite s i).Run cycles s) :
    (∀ now ∈ cycles, Faults now.1 now.2 → NoEffect now.1 now.2) ∧
      s = (csrMachine cfg).after (reset cfg) (cycles.map scrub) := by
  induction run with
  | reset => exact ⟨fun _ mem => absurd mem List.not_mem_nil, rfl⟩
  | @cycle cycles s i run allowed ih =>
      obtain ⟨quiet, same⟩ := ih
      have now : Faults s i → NoEffect s i := fun fault => step_noEffect fault allowed.2
      have scrubbed : next s (scrub (s, i)) = next s i := by
        unfold scrub
        split
        · exact (now ‹_›).1.symm
        · rfl
      constructor
      · intro other mem
        rcases List.mem_append.mp mem with earlier | last
        · exact quiet other earlier
        · rw [List.mem_singleton.mp last]
          exact now
      · rw [List.map_append, List.map_singleton, Clocked.Machine.after_concat, ← same]
        exact scrubbed.symm

/-- In M-mode a write of `mvendorid` is refused, and nothing moves. -/
def mvendoridInput : Input cv64a6Imafdch :=
  { csrOp := .csrWrite, csrAddr := 0xF11, pins := { csrWdata := 5 } }

theorem csr_faults_noEffect_mvendorid :
    Faults (reset cv64a6Imafdch) mvendoridInput ∧
      NoEffect (reset cv64a6Imafdch) mvendoridInput := by
  have fault : Faults (reset cv64a6Imafdch) mvendoridInput := by decide +kernel
  have tight : ¬ LeakyWrite (reset cv64a6Imafdch) mvendoridInput := by decide +kernel
  have run := ((csrMachine cv64a6Imafdch).restrict fun _ s i => ¬ LeakyWrite s i).run_of_accepts
    [mvendoridInput] ⟨⟨trivial, tight⟩, trivial⟩
  exact ⟨fault, (csr_faults_noEffect cv64a6Imafdch run).1 _ (List.mem_singleton_self _) fault⟩

/-- M-mode enters VS-mode. -/
def enterVsInputs : List (Input cv64a6Imafdch) :=
  [{ csrOp := .csrWrite, csrAddr := 0x300, pins := { csrWdata := 0x8000000800 } },
    { csrOp := .mret }]

/-- VS-mode writes `hstatus`, which raises a virtual-instruction exception. -/
def hstatusInput : Input cv64a6Imafdch :=
  { csrOp := .csrWrite, csrAddr := 0x600
    pins := { csrWdata := 0x200, ex := { cause := 22, valid := true } } }

/-- The guest changes `hstatus` although its access faults. -/
theorem hstatus_leaks :
    ∃ cycles s, (csrMachine cv64a6Imafdch).Run cycles s ∧ s.v = true ∧ s.privLvl = .s ∧
      Faults s hstatusInput ∧
      (next s hstatusInput).hstatus ≠ (next s (nop hstatusInput)).hstatus := by
  have run := (csrMachine cv64a6Imafdch).run_of_accepts enterVsInputs ⟨trivial, trivial, trivial⟩
  refine ⟨_, _, run, ?_⟩
  decide +kernel

end Cva6.CsrRegfile
