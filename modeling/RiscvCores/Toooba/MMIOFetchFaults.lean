import RiscvCores.Toooba.FetchStage
import RiscvCores.Toooba.MMIOFetch

/-!
# Faults of instruction fetches from memory-mapped I/O

The answer of the platform goes through `doFetch2` and is picked.  `doFetch2` takes the bits of
every half-word, also of one that is not valid, and no cause.
-/

set_option autoImplicit false

namespace Toooba.MMIOFetchFaults

open Toooba.Amo (Data)
open Toooba.MMIOPlatform Toooba.FetchStage HalfwordParse

/-- The half-words of an answer. -/
def lanes : MMIOPRs → Nat → Option (BitVec 16)
  | .instFetch insts => fun j => (insts[j]?).join
  | .dataAccess _ => fun _ => none

section Fetch

variable {c : FetchCfg} (fetch2In : Fetch1ToFetch2 c) (half : Nat → BitVec 16)

/-- Of `n` half-words the first `k` are valid: the instructions within these come unchanged, then
the one with the first invalid half-word and a fault, and no other without one. -/
def Precise (n k : Nat) (insts : List (InstrFromFetch2 c)) : Prop :=
  if n ≤ k then insts = (starts (starts32 half) n 0).map (instAt fetch2In half)
  else ∃ inst rest,
    insts = (starts (starts32 half) k 0).map (instAt fetch2In half) ++ inst :: rest ∧
      inst.pc = (fragment fetch2In 0 (stop (starts32 half) k 0)).pc ∧
      ∀ faulty ∈ inst :: rest, faulty.cause = some .instAccessFault

variable {fetch2In half}

theorem fragments_congr {half' : Nat → BitVec 16} {n : Nat}
    (same : ∀ i, i < n → half i = half' i) :
    fragments fetch2In half n = fragments fetch2In half' n := by
  unfold fragments
  apply List.map_congr_left
  intro i member
  rw [same i (List.mem_range.mp member)]

/-- Without an exception none is picked. -/
theorem picked_quiet (quiet : fetch2In.cause = none) {n cycles : Nat} (enough : n ≤ cycles) :
    ∀ inst ∈ picked cycles (fragments fetch2In half n), inst.cause = none := by
  have length := length_fragments fetch2In half n
  obtain ⟨u, -, parsed, -⟩ := picked_spec cycles (fragments fetch2In half n) (by rwa [length])
  apply parsed.quiet
  intro frag member
  obtain ⟨i, -, rfl⟩ := List.mem_map.mp (List.mem_of_mem_take member)
  exact quiet

/-- Faults are precise where there is none. -/
theorem precise_picked_iff (quiet : fetch2In.cause = none) {n k cycles : Nat}
    (enough : n ≤ cycles) {half' : Nat → BitVec 16}
    (valid : ∀ i, i < k → i < n → half' i = half i) :
    Precise fetch2In half n k (picked cycles (fragments fetch2In half' n)) ↔ n ≤ k := by
  unfold Precise
  split
  next all =>
    refine iff_of_true ?_ all
    rw [fragments_congr fun i below => valid i (Nat.lt_of_lt_of_le below all) below]
    exact picked_fragments quiet enough
  next some =>
    refine iff_of_false ?_ some
    rintro ⟨inst, rest, insts, -, faults⟩
    have member : inst ∈ picked cycles (fragments fetch2In half' n) := by
      rw [insts]
      simp
    have none := picked_quiet quiet enough inst member
    rw [faults inst (List.mem_cons_self ..)] at none
    exact nomatch none

end Fetch

section Runs

variable {c : PlatformCfg} {fc : FetchCfg} {mem : DataAlignedAddr → Data} {s₀ s : Platform c}
  {during : History c} {cRq : CoreId c → Option MMIOCRq} {i : CoreId c} {req : MMIOCRq}
  {maxWay : Nat}

/-- What `doFetch2` makes of an answer. -/
theorem doFetch2_answer (ways : c.supSizeX2 = fc.supSizeX2) (fits : maxWay < c.supSizeX2)
    {fetch2In : Fetch1ToFetch2 fc} (mmio : fetch2In.access_mmio = true)
    (quiet : fetch2In.cause = none) (frags : fetch2In.inst_frags_fetched = maxWay)
    (undef : Nat → BitVec 16) (memResp : Nat → Option (BitVec 16)) (addr : Addr) (k : Nat) :
    doFetch2 undef fetch2In (instData fetch2In (lanes (fetchAnswer c mem addr k)) memResp) =
      fragments fetch2In (fun j => if j < k then halfword mem (addr + 2 * BitVec.ofNat 64 j)
        else undef j) (maxWay + 1) := by
  have width : min fc.supSizeX2 (maxWay + 1) = maxWay + 1 := by
    rw [← ways]
    exact Nat.min_eq_right fits
  unfold doFetch2 fragments instData
  rw [frags, width, quiet, mmio]
  apply List.map_congr_left
  intro j member
  have inside : j < c.supSizeX2 := by
    have below := List.mem_range.mp member
    omega
  congr 1
  unfold lanes fetchAnswer validValue
  simp only [Option.isNone_none, if_true, List.getElem?_map, List.getElem?_range inside,
    Option.map_some, Option.join_some]
  split <;> rfl

/-- A fetch is served after at most two steps for each half-word, with the half-words before the
first failing read.  The faults that the fetch stage makes of the answer are precise only when
there are none. -/
theorem fetch_faults_precise_iff (ways : c.supSizeX2 = fc.supSizeX2)
    (selects : Selects s₀ cRq i req) (func : req.func = .inst maxWay)
    (fits : maxWay < c.supSizeX2)
    (run : (fetchMachine mem s₀).Run ((s₀, .selectReq cRq) :: during) s)
    (busy : ∀ cycle ∈ during, cycle.1.state ≠ .selectReq) :
    serviceSteps during ≤ 2 * (maxWay + 1) ∧
      (s.state ≠ .selectReq → ∃ rule : Rule c, rule.quiet = false ∧
        (fetchMachine mem s₀).allowed ((s₀, .selectReq cRq) :: during) s rule) ∧
      (s.state = .selectReq → ∃ answer,
        responses during = [(i, answer)] ∧
        answer = fetchAnswer c mem req.addr (readBefore (readResults during)) ∧
        ∀ (fetch2In : Fetch1ToFetch2 fc) (undef : Nat → BitVec 16)
          (memResp : Nat → Option (BitVec 16)) (cycles : Nat),
          fetch2In.access_mmio = true → fetch2In.cause = none →
          fetch2In.inst_frags_fetched = maxWay → maxWay + 1 ≤ cycles →
          (Precise fetch2In (fun j => halfword mem (req.addr + 2 * BitVec.ofNat 64 j))
              (maxWay + 1) (readBefore (readResults during))
              (picked cycles (doFetch2 undef fetch2In
                (instData fetch2In (lanes answer) memResp))) ↔
            readBefore (readResults during) = maxWay + 1)) := by
  have phase := fetch_phase_of_run selects func run busy
  refine ⟨phase.bound, ?_, ?_⟩
  · intro working
    obtain ⟨rule, service, enabled, reads⟩ := phase.enabled working
    exact ⟨rule, service, enabled, reads⟩
  · intro idle
    obtain ⟨answered, atMost⟩ := phase.answered idle
    refine ⟨_, answered, rfl, ?_⟩
    intro fetch2In undef memResp cycles mmio quiet frags enough
    rw [doFetch2_answer ways fits mmio quiet frags]
    have valid : ∀ j, j < readBefore (readResults during) → j < maxWay + 1 →
        (if j < readBefore (readResults during)
          then halfword mem (req.addr + 2 * BitVec.ofNat 64 j) else undef j) =
        halfword mem (req.addr + 2 * BitVec.ofNat 64 j) := by
      intro j below _
      exact if_pos below
    rw [precise_picked_iff quiet enough valid]
    omega

/-- The condition that the answers meet, as a computation. -/
def readsOrFails (mem : DataAlignedAddr → Data) (cycles : History c) (rule : Rule c) : Bool :=
  rule.fabricRsp.all fun dprs => (fabricReqs cycles).getLast?.all fun req =>
    decide (dprs.valid = true → dprs.data = mem (getDataAlignedAddr req.addr))

theorem readsOrFails_iff (mem : DataAlignedAddr → Data) (cycles : History c) (rule : Rule c) :
    ReadsOrFails mem cycles rule ↔ readsOrFails mem cycles rule = true := by
  unfold ReadsOrFails readsOrFails
  simp only [Option.all_eq_true, decide_eq_true_eq]
  constructor
  · intro holds dprs rsp req last
    exact holds dprs req rsp last
  · intro holds dprs req rsp last
    exact holds dprs rsp req last

instance (mem : DataAlignedAddr → Data) (start : Platform c) (cycles : History c)
    (s : Platform c) (rule : Rule c) :
    Decidable ((fetchMachine mem start).allowed cycles s rule) :=
  decidable_of_iff (s.guard rule = true ∧ readsOrFails mem cycles rule = true)
    (and_congr Iff.rfl (readsOrFails_iff mem cycles rule).symm)

/-! ### A fetch of one way -/

private def oneHart : PlatformCfg where
  coreNum := 1
  someCore := Nat.one_pos
  supSizeX2 := 2
  cyclesPerTimeInc := 100
  ticksPerTimeInc := 1
  msipBaseAddr := 0x400000
  mtimecmpBaseAddr := 0x400800
  mtimeBaseAddr := 0x4017FF

private def onlyHart : CoreId oneHart := ⟨0, by decide⟩

private def oneWay : FetchCfg where
  supSize := 1
  someWay := by decide
  pcIdxSz := 2
  epochSz := 2
  fv_decode_C inst := inst.setWidth 32

private def selecting : Platform oneHart where
  mtimecmp _ := 0
  mtime := 0
  toHostQ := none
  fromHostQ := none
  toHostAddr := 0
  fromHostAddr := 0
  state := .selectReq
  curReq := .invalid
  reqCore := onlyHart
  reqFunc := .ld
  reqAmofunc := .none
  reqBE := 0
  reqSz := 0
  reqData := 0
  instSel := 0
  fetchingWay := 0
  fetchedInsts := []
  waitMTIPCRs _ := false
  waitLowerMSIPCRs := none
  waitUpperMSIPCRs := none
  amoResp := 0
  amoWaitWriteResp := false
  cycle := 0
  mtip _ := true

private def fetchRom (maxWay : Nat) : MMIOCRq :=
  { addr := 0x1006, func := .inst maxWay, byteEn := 0, data := 0 }

/-- The last half-word of a double word and the first of the next, with an error for the latter
if it is to fail. -/
private def romRules (fails : Bool) : List (Rule oneHart) :=
  [.selectReq fun _ => some (fetchRom 1), .toFabricIFetchReq,
    .fromFabricIFetchRsp ⟨true, 0x0001000100010001⟩, .toFabricIFetchReq,
    .fromFabricIFetchRsp ⟨!fails, 0x0001000100010001⟩]

private def rom : DataAlignedAddr → Data := fun _ => 0x0001000100010001

private def romFetch : Fetch1ToFetch2 oneWay where
  pc := { lsb := 6, idx := 0 }
  inst_frags_fetched := 1
  pred_next_pc := none
  cause := none
  access_mmio := true
  decode_epoch := false
  main_epoch := 0

private def romCycles (fails : Bool) : History oneHart :=
  ((fetchMachine rom selecting).cyclesOf selecting (romRules fails)).tail

private def romServed (fails : Bool) : Platform oneHart :=
  (fetchMachine rom selecting).after selecting (romRules fails)

private theorem rom_selects :
    Selects selecting (fun _ => some (fetchRom 1)) onlyHart (fetchRom 1) :=
  ⟨by decide, by decide, rfl⟩

private theorem rom_run (fails : Bool) :
    (fetchMachine rom selecting).Run
      ((selecting, .selectReq fun _ => some (fetchRom 1)) :: romCycles fails)
      (romServed fails) := by
  cases fails with
  | false => exact Clocked.Machine.run_of_accepts (romRules false) (by decide +kernel)
  | true => exact Clocked.Machine.run_of_accepts (romRules true) (by decide +kernel)

private theorem rom_ways : oneHart.supSizeX2 = oneWay.supSizeX2 := rfl

private theorem rom_frags : romFetch.inst_frags_fetched = 1 := rfl

theorem fetch_faults_precise_iff_rom :
    ∃ answer, responses (romCycles false) = [(onlyHart, answer)] ∧
      Precise romFetch (fun j => halfword rom (0x1006 + 2 * BitVec.ofNat 64 j)) 2
        (readBefore (readResults (romCycles false)))
        (picked 2 (doFetch2 (fun _ => 0) romFetch
          (instData romFetch (lanes answer) fun _ => none))) := by
  obtain ⟨answer, answered, -, precise⟩ :=
    (fetch_faults_precise_iff rom_ways rom_selects rfl (by decide) (rom_run false)
      (by decide +kernel)).2.2 (by decide +kernel)
  refine ⟨answer, answered, ?_⟩
  exact (precise romFetch _ _ 2 rfl rfl rfl (Nat.le_refl 2)).mpr (by decide +kernel)

/-- The second read fails; its half-word is picked without a fault. -/
theorem fetch_fault_not_delivered :
    ¬ ∀ {c : PlatformCfg} {fc : FetchCfg} {mem : DataAlignedAddr → Data} {s₀ s : Platform c}
        {during : History c} {cRq : CoreId c → Option MMIOCRq} {i : CoreId c} {req : MMIOCRq}
        {maxWay : Nat}, c.supSizeX2 = fc.supSizeX2 → Selects s₀ cRq i req →
      req.func = .inst maxWay → maxWay < c.supSizeX2 →
      (fetchMachine mem s₀).Run ((s₀, .selectReq cRq) :: during) s →
      (∀ cycle ∈ during, cycle.1.state ≠ .selectReq) → s.state = .selectReq →
      ∀ (fetch2In : Fetch1ToFetch2 fc) (undef : Nat → BitVec 16)
        (memResp : Nat → Option (BitVec 16)) (cycles : Nat),
        fetch2In.access_mmio = true → fetch2In.cause = none →
        fetch2In.inst_frags_fetched = maxWay → maxWay + 1 ≤ cycles →
        ∃ answer, responses during = [(i, answer)] ∧
          answer = fetchAnswer c mem req.addr (readBefore (readResults during)) ∧
          Precise fetch2In (fun j => halfword mem (req.addr + 2 * BitVec.ofNat 64 j))
            (maxWay + 1) (readBefore (readResults during))
            (picked cycles (doFetch2 undef fetch2In
              (instData fetch2In (lanes answer) memResp))) := by
  intro claim
  obtain ⟨answer, -, rfl, precise⟩ := claim rom_ways rom_selects rfl (by decide)
    (rom_run true) (by decide +kernel) (by decide +kernel) romFetch (fun _ => 0) (fun _ => none) 2
    rfl rfl rom_frags (Nat.le_refl 2)
  have count : readBefore (readResults (romCycles true)) = 1 := by decide +kernel
  rw [count, doFetch2_answer rom_ways (by decide) rfl rfl rom_frags,
    precise_picked_iff rfl (Nat.le_refl 2) fun j below _ => if_pos below] at precise
  exact absurd precise (by decide)

end Runs

end Toooba.MMIOFetchFaults
