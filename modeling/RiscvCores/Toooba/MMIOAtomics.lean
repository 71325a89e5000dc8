import RiscvCores.Toooba.MMIOPlatform

/-!
# Atomic operations on memory-mapped I/O

The service of an AMO from `selectReq` to the next `selectReq`, in phases.  On `mtime`
and `mtimecmp` it is the operation of the ISA.  On the fabric the size is always that of
a double word, for which `fn_update_bytes` drops the result.
-/

set_option autoImplicit false

namespace Toooba.MMIOPlatform

open Toooba.Amo

variable {c : PlatformCfg}

/-! ## Byte enables -/

/-- The part of a double word that an AMO accesses. -/
inductive Part where
  | double | lower | upper
  deriving DecidableEq

def Part.byteEn : Part → ByteEn
  | .double => 0xFF
  | .lower => 0x0F
  | .upper => 0xF0

def Part.lsbs : Part → BitVec 3
  | .upper => 4
  | _ => 0

/-- A 4- or 8-byte enable that fits the address. -/
def Part.Legal (part : Part) (req : MMIOCRq) : Prop :=
  req.byteEn = part.byteEn ∧ addrLsbs req.addr = part.lsbs

/-- The double word behind an operation of the ISA on a part of it. -/
def amoWord (part : Part) (f : AmoFunc) (old operand : Data) : Data :=
  match part with
  | .double => riscvAmo f old operand
  | .lower => upper old ++ riscvAmo f (lower old) (lower operand)
  | .upper => riscvAmo f (upper old) (lower operand) ++ lower old

/-- What an operation of the ISA returns. -/
def amoResult (part : Part) (old : Data) : Data :=
  match part with
  | .double => old
  | .lower => (lower old).signExtend 64
  | .upper => (upper old).signExtend 64

theorem updateBytes_double (old wr : Data) : updateBytes (Part.double).byteEn old wr = wr := by
  have mask : byteMask (Part.double).byteEn = BitVec.allOnes 64 := by decide
  rw [updateBytes, mask, BitVec.not_allOnes, BitVec.and_zero, BitVec.and_allOnes, BitVec.zero_or]

theorem byteMask_lower (k : Nat) : (byteMask (Part.lower).byteEn).getLsbD k = decide (k < 32) := by
  have mask : byteMask (Part.lower).byteEn = (BitVec.allOnes 32).setWidth 64 := by decide
  rw [mask]
  simp only [BitVec.getLsbD_setWidth, BitVec.getLsbD_allOnes]
  rw [← Bool.decide_and, decide_eq_decide]
  omega

theorem byteMask_upper (k : Nat) :
    (byteMask (Part.upper).byteEn).getLsbD k = (decide (k < 64) && !decide (k < 32)) := by
  have mask : byteMask (Part.upper).byteEn = ~~~(BitVec.allOnes 32).setWidth 64 := by decide
  rw [mask]
  simp only [BitVec.getLsbD_not, BitVec.getLsbD_setWidth, BitVec.getLsbD_allOnes]
  rcases Nat.lt_or_ge k 64 with inside | outside
  · simp [inside]
  · simp [Nat.not_lt.mpr outside]

theorem updateBytes_lower (old wr : Data) :
    updateBytes (Part.lower).byteEn old wr = upper old ++ lower wr := by
  apply BitVec.eq_of_getLsbD_eq
  intro k below
  simp only [updateBytes, BitVec.getLsbD_or, BitVec.getLsbD_and, BitVec.getLsbD_not,
    byteMask_lower, BitVec.getLsbD_append, BitVec.getLsbD_extractLsb, below, decide_true,
    Bool.true_and]
  rcases Nat.lt_or_ge k 32 with low | high
  · simp [low]
  · have offset : k - 32 < 32 := by omega
    simp [Nat.not_lt.mpr high, show 32 + (k - 32) = k by omega, offset]

theorem updateBytes_upper (old wr : Data) :
    updateBytes (Part.upper).byteEn old wr = upper wr ++ lower old := by
  apply BitVec.eq_of_getLsbD_eq
  intro k below
  simp only [updateBytes, BitVec.getLsbD_or, BitVec.getLsbD_and, BitVec.getLsbD_not,
    byteMask_upper, BitVec.getLsbD_append, BitVec.getLsbD_extractLsb, below, decide_true,
    Bool.true_and]
  rcases Nat.lt_or_ge k 32 with low | high
  · simp [low]
  · have offset : k - 32 < 32 := by omega
    simp [Nat.not_lt.mpr high, show 32 + (k - 32) = k by omega, offset]

/-! ## The two other implementations -/

section Registers

variable {s : Platform c} {f : AmoFunc} {part : Part}

theorem getWriteData_amo (func : s.reqFunc = .amo f) (be : s.reqBE = part.byteEn) (old : Data) :
    s.getWriteData old = amoWord part f old s.reqData := by
  rw [Platform.getWriteData, func, be]
  change amoExec _ _ _ _ = _
  rw [amoExec_eq]
  cases part <;> rfl

theorem getAmoResp_part (be : s.reqBE = part.byteEn) (old : Data) :
    s.getAmoResp old = amoResult part old := by
  rw [Platform.getAmoResp, be]
  cases part <;> rfl

end Registers

/-- The double word behind the store of `rl_mmio_from_fabric_amo_rsp`. -/
def fabricWord (part : Part) (f : AmoFunc) (addr : Addr) (old operand : Data) : Data :=
  updateBytes part.byteEn old (fnAmoOp szD f addr old operand)

/-- The operation does not matter. -/
def keptWord (part : Part) (old operand : Data) : Data :=
  match part with
  | .double => operand
  | .lower => upper old ++ lower operand
  | .upper => 0#32 ++ lower old

theorem fabricWord_eq {part : Part} {addr : Addr} (lsbs : addrLsbs addr = part.lsbs) (f : AmoFunc)
    (old operand : Data) : fabricWord part f addr old operand = keptWord part old operand := by
  rw [fabricWord, fnAmoOp_szD, lsbs]
  cases part with
  | double => exact updateBytes_double old operand
  | lower => exact updateBytes_lower old operand
  | upper => exact updateBytes_upper old 0

/-! ## The service of a request -/

/-- What AMOs can change. -/
structure Contents (c : PlatformCfg) where
  mtime : Data
  mtimecmp : CoreId c → Data
  memory : DataAlignedAddr → Data

def contents (fab : Fabric) (cycles : History c) (s : Platform c) : Contents c :=
  ⟨s.mtime, s.mtimecmp, fab.memory cycles⟩

/-- The double word that a request addresses. -/
def Contents.word (k : Contents c) : MMIOPlatformReq → Data
  | .mTime => k.mtime
  | .mTimeCmp offset => k.mtimecmp (core c offset)
  | .mmioFabricAdapter addr => k.memory (getDataAlignedAddr addr)
  | _ => 0

def Contents.replace (k : Contents c) (target : MMIOPlatformReq) (w : Data) : Contents c :=
  match target with
  | .mTime => { k with mtime := w }
  | .mTimeCmp offset => { k with mtimecmp := Function.update k.mtimecmp (core c offset) w }
  | .mmioFabricAdapter addr =>
      { k with memory := Function.update k.memory (getDataAlignedAddr addr) w }
  | _ => k

/-- Timer registers can always be read. -/
def Fabric.reads (fab : Fabric) : MMIOPlatformReq → Bool
  | .mmioFabricAdapter addr => fab.readable (getDataAlignedAddr addr)
  | _ => true

/-- The requests that an AMO can be made to. -/
def TakesAmo : MMIOPlatformReq → Prop
  | .mTime => True
  | .mTimeCmp _ => True
  | .mmioFabricAdapter _ => True
  | _ => False

def isTimer : MMIOPlatformReq → Bool
  | .mTime => true
  | .mTimeCmp _ => true
  | _ => false

/-- The rule `selectReq` takes the request of a core. -/
structure Selects (s : Platform c) (cRq : CoreId c → Option MMIOCRq) (i : CoreId c)
    (req : MMIOCRq) : Prop where
  noTimer : (List.finRange c.coreNum).any s.needTimerInt = false
  first : (List.finRange c.coreNum).find? (fun i => (cRq i).isSome) = some i
  req : cRq i = some req

theorem Selects.exec {s : Platform c} {cRq : CoreId c → Option MMIOCRq} {i : CoreId c}
    {req : MMIOCRq} (selects : Selects s cRq i req) :
    s.exec (.selectReq cRq) = (s.record i req, {}) := by
  simp only [Platform.exec, Platform.selectReq, selects.noTimer, selects.first, selects.req]
  rfl

section Service

variable (fab : Fabric) (k : Contents c) (target : MMIOPlatformReq) (part : Part) (f : AmoFunc)
  (operand : Data) (i : CoreId c)

/-- What the code makes of a request: the contents and the responses. -/
def outcome : Contents c × List (CoreId c × MMIOPRs) → Prop
  | (after, rs) =>
      if fab.reads target then
        match target with
        | .mmioFabricAdapter _ =>
            after = k.replace target (keptWord part (k.word target) operand) ∧
              rs = [(i, .dataAccess ⟨true, k.word target⟩)]
        | _ =>
            after = k.replace target (amoWord part f (k.word target) operand) ∧
              rs = [(i, .dataAccess ⟨true, amoResult part (k.word target)⟩)]
      else after = k ∧ ∃ data, rs = [(i, .dataAccess ⟨false, data⟩)]

/-- The registers of `selectReq`. -/
structure Recorded (s : Platform c) : Prop where
  curReq : s.curReq = target
  reqCore : s.reqCore = i
  reqFunc : s.reqFunc = .amo f
  reqAmofunc : s.reqAmofunc = f
  reqBE : s.reqBE = part.byteEn
  reqSz : s.reqSz = szD
  reqData : s.reqData = operand

/-- Where the service of a request stands: the contents, the responses so far, the last
request to the fabric and the registers. -/
inductive Phase :
    Contents c → List (CoreId c × MMIOPRs) → Option MMIOCRq → Platform c → Prop
  | process {last : Option MMIOCRq} {s : Platform c}
      (recorded : Recorded target part f operand i s) (state : s.state = .processReq) :
      Phase k [] last s
  | posted {last : Option MMIOCRq} {s : Platform c} (curReq : s.curReq = target)
      (timer : isTimer target = true) (reqCore : s.reqCore = i) (state : s.state = .waitResp)
      (amoResp : s.amoResp = amoResult part (k.word target)) :
      Phase (k.replace target (amoWord part f (k.word target) operand)) [] last s
  | load {addr : Addr} {s : Platform c} (recorded : Recorded target part f operand i s)
      (fabric : target = .mmioFabricAdapter addr) (state : s.state = .waitResp)
      (first : s.amoWaitWriteResp = false) :
      Phase k [] (some (Platform.fabricLoad addr)) s
  | store (addr : Addr) {last : Option MMIOCRq} {s : Platform c}
      (curReq : s.curReq = .mmioFabricAdapter addr) (func : s.reqFunc = .amo f)
      (state : s.state = .waitResp)
      (second : s.amoWaitWriteResp = true) {after : Contents c}
      {rs : List (CoreId c × MMIOPRs)}
      (served : outcome fab k target part f operand i (after, rs)) :
      Phase after rs last s
  | idle {last : Option MMIOCRq} {s : Platform c} (state : s.state = .selectReq)
      {after : Contents c} {rs : List (CoreId c × MMIOPRs)}
      (served : outcome fab k target part f operand i (after, rs)) : Phase after rs last s

end Service

/-! ### Steps -/

section Steps

variable {fab : Fabric} {k : Contents c} {target : MMIOPlatformReq} {part : Part} {f : AmoFunc}
  {operand : Data} {i : CoreId c} {s : Platform c} {rule : Rule c}

theorem fabricReqs_concat (cycles : History c) (s : Platform c) (rule : Rule c) :
    fabricReqs (cycles ++ [(s, rule)]) =
      fabricReqs cycles ++ (s.exec rule).2.fabric.toList := by
  rw [fabricReqs, List.filterMap_append]
  cases sent : (s.exec rule).2.fabric <;> simp [fabricReqs, sent]

theorem responses_concat (cycles : History c) (s : Platform c) (rule : Rule c) :
    responses (cycles ++ [(s, rule)]) =
      responses cycles ++ (s.exec rule).2.response.toList := by
  rw [responses, List.filterMap_append]
  cases sent : (s.exec rule).2.response <;> simp [responses, sent]

theorem memory_concat (fab : Fabric) (cycles : History c) (s : Platform c) (rule : Rule c) :
    fab.memory (cycles ++ [(s, rule)]) =
      ((s.exec rule).2.fabric.toList).foldl Fabric.put (fab.memory cycles) := by
  rw [Fabric.memory, fabricReqs_concat, List.foldl_append]
  rfl

/-- Methods and time that no service depends on. -/
def Rule.quiet : Rule c → Bool
  | .toHost => true
  | .fromHost _ => true
  | .incCycle => true
  | _ => false

theorem exec_quiet (quiet : rule.quiet = true) :
    (s.exec rule).2 = {} ∧ (s.exec rule).1.mtime = s.mtime ∧
      (s.exec rule).1.mtimecmp = s.mtimecmp := by
  cases rule <;> first | exact ⟨rfl, rfl, rfl⟩ | cases quiet

theorem Recorded.quiet (recorded : Recorded target part f operand i s)
    (quiet : rule.quiet = true) : Recorded target part f operand i (s.exec rule).1 := by
  obtain ⟨curReq, reqCore, reqFunc, reqAmofunc, reqBE, reqSz, reqData⟩ := recorded
  cases rule <;>
    first
    | exact ⟨curReq, reqCore, reqFunc, reqAmofunc, reqBE, reqSz, reqData⟩
    | cases quiet

theorem Phase.quiet {after : Contents c} {rs : List (CoreId c × MMIOPRs)}
    {last : Option MMIOCRq} (phase : Phase fab k target part f operand i after rs last s)
    (quiet : rule.quiet = true) :
    Phase fab k target part f operand i after rs last (s.exec rule).1 := by
  cases phase with
  | process recorded state =>
      refine .process (recorded.quiet quiet) ?_
      cases rule <;> first | exact state | cases quiet
  | posted curReq timer reqCore state amoResp =>
      cases rule <;> first | exact .posted curReq timer reqCore state amoResp | cases quiet
  | load recorded fabric state first_ =>
      refine .load (recorded.quiet quiet) fabric ?_ ?_ <;>
        cases rule <;> first | exact state | exact first_ | cases quiet
  | store addr curReq func state second served =>
      refine .store addr ?_ ?_ ?_ ?_ served <;>
        cases rule <;>
        first | exact curReq | exact func | exact state | exact second | cases quiet
  | idle state served =>
      refine .idle ?_ served
      cases rule <;> first | exact state | cases quiet

/-- The rule that takes up a recorded request. -/
theorem rule_of_process (recorded : Recorded target part f operand i s)
    (state : s.state = .processReq) (takes : TakesAmo target) (enabled : s.guard rule = true) :
    rule.quiet = true ∨
      (target = .mTime ∧ rule = .processMTime) ∨
      (∃ offset, target = .mTimeCmp offset ∧ rule = .processMTimeCmp) ∨
      (∃ addr, target = .mmioFabricAdapter addr ∧ rule = .toFabricAmoReq) := by
  have func := recorded.reqFunc
  have cur := recorded.curReq
  cases target <;> simp only [TakesAmo] at takes <;>
    cases rule <;>
    simp_all [Platform.guard, Platform.fabricIn, Rule.quiet, Platform.isMSIP,
      Platform.isMTimeCmp, Platform.isFabric, Platform.isLdSt, MMIOFunc.isAmo,
      MMIOFunc.isInstFetch]

theorem rule_of_wait (state : s.state = .waitResp) (timer : isTimer s.curReq = true)
    (enabled : s.guard rule = true) :
    rule.quiet = true ∨ rule = .waitMTimeDone ∨ rule = .waitMTimeCmpDone := by
  cases cur : s.curReq <;> rw [cur] at timer <;>
    simp only [isTimer, Bool.false_eq_true] at timer <;>
    cases rule <;>
    simp_all [Platform.guard, Platform.fabricIn, Rule.quiet, Platform.isMSIP,
      Platform.isMTimeCmp, Platform.isFabric]

theorem rule_of_fabric {addr : Addr} (state : s.state = .waitResp)
    (fabric : s.curReq = .mmioFabricAdapter addr) (func : s.reqFunc = .amo f)
    (enabled : s.guard rule = true) :
    rule.quiet = true ∨ ∃ dprs, rule = .fromFabricAmoRsp dprs := by
  cases rule <;>
    simp_all [Platform.guard, Platform.fabricIn, Rule.quiet, Platform.isMSIP,
      Platform.isMTimeCmp, Platform.isFabric, Platform.isLdSt, MMIOFunc.isInstFetch]

/-- What `classify` gives for a legal AMO. -/
structure Fits (c : PlatformCfg) (target : MMIOPlatformReq) (part : Part) : Prop where
  takes : TakesAmo target
  inside : ∀ offset, target = .mTimeCmp offset → offset < c.coreNum
  lsbs : ∀ addr, target = .mmioFabricAdapter addr → addrLsbs addr = part.lsbs

theorem classify_fits {part : Part} {req : MMIOCRq} (legal : part.Legal req)
    (takes : TakesAmo (s.classify req.addr)) : Fits c (s.classify req.addr) part := by
  refine ⟨takes, ?_, ?_⟩
  · intro offset device
    simp only [Platform.classify] at device
    split at device
    · cases device
    split at device
    next between =>
      obtain ⟨above, below⟩ := between
      obtain rfl := MMIOPlatformReq.mTimeCmp.inj device
      generalize getDataAlignedAddr req.addr = a at above below ⊢
      rw [PlatformCfg.mtimecmpBoundAddr, BitVec.lt_def, BitVec.toNat_add, BitVec.toNat_ofNat]
        at below
      rw [BitVec.le_def] at above
      rw [BitVec.toNat_sub]
      have small := a.isLt
      omega
    repeat (split at device; · cases device)
    cases device
  · intro addr device
    simp only [Platform.classify] at device
    repeat (split at device; · cases device)
    obtain rfl := MMIOPlatformReq.mmioFabricAdapter.inj device
    exact legal.2

/-- A timer register was written; the response waits for posts or is sent. -/
structure TimerServed (target : MMIOPlatformReq) (i : CoreId c) (resp : Data)
    (next : Platform c × Effects c) : Prop where
  fabric : next.2.fabric = none
  reply : (next.2.response = none ∧ next.1.curReq = target ∧ next.1.reqCore = i ∧
      next.1.state = .waitResp ∧ next.1.amoResp = resp) ∨
    (next.2.response = some (i, .dataAccess ⟨true, resp⟩) ∧ next.1.state = .selectReq)

theorem Recorded.notFetch (recorded : Recorded target part f operand i s) :
    s.reqFunc.isInstFetch = false := by
  rw [recorded.reqFunc]
  rfl

theorem Recorded.notLoad (recorded : Recorded target part f operand i s) : s.reqFunc ≠ .ld := by
  rw [recorded.reqFunc]
  exact nofun

theorem processMTime_served (recorded : Recorded .mTime part f operand i s) :
    TimerServed .mTime i (amoResult part s.mtime) s.processMTime ∧
      s.processMTime.1.mtime = amoWord part f s.mtime operand ∧
      s.processMTime.1.mtimecmp = s.mtimecmp := by
  have write := getWriteData_amo recorded.reqFunc recorded.reqBE s.mtime
  have resp := getAmoResp_part recorded.reqBE s.mtime
  rw [recorded.reqData] at write
  simp only [Platform.processMTime, recorded.notFetch, Bool.false_eq_true, if_false,
    if_neg recorded.notLoad, write, resp]
  split
  · exact ⟨⟨rfl, .inl ⟨rfl, recorded.curReq, recorded.reqCore, rfl, rfl⟩⟩, rfl, rfl⟩
  · refine ⟨⟨rfl, .inr ⟨?_, rfl⟩⟩, rfl, rfl⟩
    rw [← recorded.reqCore]
    rfl

theorem processMTimeCmp_served {offset : Nat} (inside : offset < c.coreNum)
    (recorded : Recorded (.mTimeCmp offset) part f operand i s) :
    TimerServed (.mTimeCmp offset) i (amoResult part (s.mtimecmp (core c offset)))
        (s.processMTimeCmp offset) ∧
      (s.processMTimeCmp offset).1.mtime = s.mtime ∧
      (s.processMTimeCmp offset).1.mtimecmp =
        Function.update s.mtimecmp (core c offset)
          (amoWord part f (s.mtimecmp (core c offset)) operand) := by
  have write := getWriteData_amo recorded.reqFunc recorded.reqBE (s.mtimecmp (core c offset))
  have resp := getAmoResp_part recorded.reqBE (s.mtimecmp (core c offset))
  have valid : ¬offset > c.coreNum - 1 := by omega
  rw [recorded.reqData] at write
  simp only [Platform.processMTimeCmp, recorded.notFetch, Bool.false_eq_true, if_false,
    if_neg recorded.notLoad, if_neg valid, write, resp]
  split
  · exact ⟨⟨rfl, .inl ⟨rfl, recorded.curReq, recorded.reqCore, rfl, rfl⟩⟩, rfl, rfl⟩
  split
  · exact ⟨⟨rfl, .inl ⟨rfl, recorded.curReq, recorded.reqCore, rfl, rfl⟩⟩, rfl, rfl⟩
  · refine ⟨⟨rfl, .inr ⟨?_, rfl⟩⟩, rfl, rfl⟩
    rw [← recorded.reqCore]
    rfl

section Next

variable {cycles service : History c}

/-- The phase behind some cycles. -/
abbrev PhaseAt (fab : Fabric) (k : Contents c) (target : MMIOPlatformReq) (part : Part)
    (f : AmoFunc) (operand : Data) (i : CoreId c) (cycles service : History c)
    (s : Platform c) : Prop :=
  Phase fab k target part f operand i (contents fab cycles s) (responses service)
    (fabricReqs cycles).getLast? s

theorem contents_silent (fab : Fabric) (silent : (s.exec rule).2.fabric = none)
    (cycles : History c) :
    contents fab (cycles ++ [(s, rule)]) (s.exec rule).1 =
        ⟨(s.exec rule).1.mtime, (s.exec rule).1.mtimecmp, fab.memory cycles⟩ ∧
      fabricReqs (cycles ++ [(s, rule)]) = fabricReqs cycles := by
  rw [contents, memory_concat, fabricReqs_concat, silent]
  exact ⟨rfl, List.append_nil _⟩

theorem PhaseAt.quiet (phase : PhaseAt fab k target part f operand i cycles service s)
    (quiet : rule.quiet = true) :
    PhaseAt fab k target part f operand i (cycles ++ [(s, rule)]) (service ++ [(s, rule)])
      (s.exec rule).1 := by
  obtain ⟨effects, mtime, mtimecmp⟩ := exec_quiet (s := s) quiet
  have silent : (s.exec rule).2.fabric = none := by rw [effects]
  obtain ⟨same, reqs⟩ := contents_silent fab silent cycles
  rw [PhaseAt, same, mtime, mtimecmp, reqs, responses_concat, effects]
  simpa [contents] using Phase.quiet phase quiet

theorem outcome_timer (timer : isTimer target = true) {after : Contents c}
    {rs : List (CoreId c × MMIOPRs)} :
    outcome fab k target part f operand i (after, rs) ↔
      after = k.replace target (amoWord part f (k.word target) operand) ∧
        rs = [(i, .dataAccess ⟨true, amoResult part (k.word target)⟩)] := by
  cases target with
  | mTime | mTimeCmp => exact Iff.rfl
  | invalid | timerInterrupt | msip | toHost | fromHost | mmioFabricAdapter => cases timer

theorem outcome_fault {addr : Addr} (fabric : target = .mmioFabricAdapter addr)
    (missing : fab.readable (getDataAlignedAddr addr) = false) (data : Data) :
    outcome fab k target part f operand i (k, [(i, .dataAccess ⟨false, data⟩)]) := by
  subst fabric
  rw [outcome, if_neg (by rw [Fabric.reads, missing]; decide)]
  exact ⟨rfl, data, rfl⟩

theorem outcome_fabric {addr : Addr} (fabric : target = .mmioFabricAdapter addr)
    (readable : fab.readable (getDataAlignedAddr addr) = true) {after : Contents c}
    {rs : List (CoreId c × MMIOPRs)} :
    outcome fab k target part f operand i (after, rs) ↔
      after = k.replace target (keptWord part (k.word target) operand) ∧
        rs = [(i, .dataAccess ⟨true, k.word target⟩)] := by
  subst fabric
  rw [outcome, if_pos (show fab.reads (.mmioFabricAdapter addr) = true from readable)]

/-- A rule that writes a timer register. -/
theorem PhaseAt.timer (timer : isTimer target = true) (start : responses service = [])
    (served : TimerServed target i (amoResult part (k.word target)) (s.exec rule))
    (changed : (⟨(s.exec rule).1.mtime, (s.exec rule).1.mtimecmp, fab.memory cycles⟩ : Contents c) =
      k.replace target (amoWord part f (k.word target) operand)) :
    PhaseAt fab k target part f operand i (cycles ++ [(s, rule)]) (service ++ [(s, rule)])
      (s.exec rule).1 := by
  obtain ⟨same, reqs⟩ := contents_silent fab served.fabric cycles
  rw [PhaseAt, same, changed, reqs, responses_concat, start, List.nil_append]
  rcases served.reply with ⟨silent, curReq, reqCore, state, amoResp⟩ | ⟨reply, state⟩
  · rw [silent]
    exact .posted curReq timer reqCore state amoResp
  · rw [reply]
    exact .idle state ((outcome_timer timer).mpr ⟨rfl, rfl⟩)

/-- The answers of the cores to the posts end the service. -/
theorem PhaseAt.waitDone (timer : isTimer target = true) (start : responses service = [])
    (reqCore : s.reqCore = i) (amoResp : s.amoResp = amoResult part (k.word target))
    (written : contents fab cycles s =
      k.replace target (amoWord part f (k.word target) operand))
    (wait : rule = .waitMTimeDone ∨ rule = .waitMTimeCmpDone) :
    PhaseAt fab k target part f operand i (cycles ++ [(s, rule)]) (service ++ [(s, rule)])
      (s.exec rule).1 := by
  have responds : s.exec rule = s.respondData (amoResult part (k.word target)) := by
    rw [← amoResp]
    rcases wait with rfl | rfl <;> rfl
  have silent : (s.exec rule).2.fabric = none := by rw [responds]; rfl
  obtain ⟨same, reqs⟩ := contents_silent fab silent cycles
  rw [PhaseAt, same, reqs, responses_concat, start, List.nil_append, responds]
  refine .idle rfl ((outcome_timer timer).mpr ⟨written, ?_⟩)
  rw [← reqCore]
  rfl

/-- The load of an AMO on the fabric. -/
theorem PhaseAt.toFabric {addr : Addr} (fabric : target = .mmioFabricAdapter addr)
    (recorded : Recorded target part f operand i s) (start : responses service = [])
    (untouched : contents fab cycles s = k) :
    PhaseAt fab k target part f operand i (cycles ++ [(s, .toFabricAmoReq)])
      (service ++ [(s, .toFabricAmoReq)]) (s.exec .toFabricAmoReq).1 := by
  have cur : s.curReq = .mmioFabricAdapter addr := recorded.curReq.trans fabric
  have sends : s.exec .toFabricAmoReq = s.toFabricAmoReq addr := by
    simp only [Platform.exec, cur]
  have memory : fab.memory (cycles ++ [(s, .toFabricAmoReq)]) = fab.memory cycles := by
    rw [memory_concat, sends]
    rfl
  have kept : contents fab (cycles ++ [(s, .toFabricAmoReq)]) (s.exec .toFabricAmoReq).1 = k := by
    rw [contents, memory, sends]
    exact untouched
  rw [PhaseAt, kept, responses_concat, start, fabricReqs_concat, sends]
  have last : (fabricReqs cycles ++ (s.toFabricAmoReq addr).2.fabric.toList).getLast? =
      some (Platform.fabricLoad addr) := by
    simp [Platform.toFabricAmoReq]
  rw [last]
  obtain ⟨curReq, reqCore, reqFunc, reqAmofunc, reqBE, reqSz, reqData⟩ := recorded
  exact .load ⟨curReq, reqCore, reqFunc, reqAmofunc, reqBE, reqSz, reqData⟩ fabric rfl rfl

theorem stored_replace (k : Contents c) (addr : Addr) (be : ByteEn) (data : Data) :
    (⟨k.mtime, k.mtimecmp, Fabric.put k.memory ⟨addr, .st, be, data⟩⟩ : Contents c) =
      k.replace (.mmioFabricAdapter addr)
        (updateBytes be (k.word (.mmioFabricAdapter addr)) data) := rfl

/-- The answer to the load: a fault, or the store with the response. -/
theorem PhaseAt.fromFabric {addr : Addr} {dprs : MMIODataPRs}
    (fabric : target = .mmioFabricAdapter addr) (lsbs : addrLsbs addr = part.lsbs)
    (recorded : Recorded target part f operand i s) (start : responses service = [])
    (state : s.state = .waitResp) (first : s.amoWaitWriteResp = false)
    (untouched : contents fab cycles s = k)
    (last : (fabricReqs cycles).getLast? = some (Platform.fabricLoad addr))
    (answers : fab.Answers cycles (.fromFabricAmoRsp dprs : Rule c)) :
    PhaseAt fab k target part f operand i (cycles ++ [(s, .fromFabricAmoRsp dprs)])
      (service ++ [(s, .fromFabricAmoRsp dprs)]) (s.exec (.fromFabricAmoRsp dprs)).1 := by
  obtain ⟨valid, data⟩ := answers dprs _ rfl last rfl
  change dprs.valid = fab.readable (getDataAlignedAddr addr) at valid
  change dprs.valid = true → dprs.data = fab.memory cycles (getDataAlignedAddr addr) at data
  have cur : s.curReq = .mmioFabricAdapter addr := recorded.curReq.trans fabric
  have takes : s.exec (.fromFabricAmoRsp dprs) = s.fromFabricAmoRsp addr dprs := by
    simp only [Platform.exec, cur]
  have memory : fab.memory cycles = k.memory := congrArg Contents.memory untouched
  cases reads : dprs.valid with
  | false =>
      have fault : s.fromFabricAmoRsp addr dprs = s.respond (.dataAccess dprs) := by
        simp [Platform.fromFabricAmoRsp, first, reads]
      have silent : (s.exec (.fromFabricAmoRsp dprs)).2.fabric = none := by
        rw [takes, fault]
        rfl
      obtain ⟨same, reqs⟩ := contents_silent fab silent cycles
      rw [PhaseAt, same, reqs, responses_concat, start, takes, fault]
      refine .idle rfl ?_
      have invalid : dprs = ⟨false, dprs.data⟩ := by rw [← reads]
      change outcome fab k target part f operand i
        (contents fab cycles s, [(s.reqCore, .dataAccess dprs)])
      rw [untouched, recorded.reqCore, invalid]
      exact outcome_fault fabric (valid.symm.trans reads) dprs.data
  | true =>
      have word : dprs.data = k.word target := by
        rw [data reads, memory, fabric]
        rfl
      have store : s.fromFabricAmoRsp addr dprs =
          ({ s with amoWaitWriteResp := true },
            { response := some (i, .dataAccess ⟨true, k.word target⟩)
              fabric := some ⟨addr, .st, part.byteEn,
                fnAmoOp szD f addr (k.word target) operand⟩ }) := by
        simp [Platform.fromFabricAmoRsp, first, reads, word, recorded.reqCore, recorded.reqBE,
          recorded.reqSz, recorded.reqAmofunc, recorded.reqData]
      have served : outcome fab k target part f operand i
          (k.replace target (keptWord part (k.word target) operand),
            [(i, .dataAccess ⟨true, k.word target⟩)]) :=
        (outcome_fabric fabric (valid.symm.trans reads)).mpr ⟨rfl, rfl⟩
      rw [PhaseAt, contents, memory_concat, responses_concat, start, takes, store]
      refine .store addr ?_ ?_ ?_ ?_ ?_
      · exact cur
      · exact recorded.reqFunc
      · exact state
      · rfl
      rw [← fabricWord_eq lsbs f] at served
      change outcome fab k target part f operand i
        (⟨s.mtime, s.mtimecmp, Fabric.put (fab.memory cycles)
            ⟨addr, .st, part.byteEn, fnAmoOp szD f addr (k.word target) operand⟩⟩,
          [(i, .dataAccess ⟨true, k.word target⟩)])
      rw [memory, show s.mtime = k.mtime from congrArg Contents.mtime untouched,
        show s.mtimecmp = k.mtimecmp from congrArg Contents.mtimecmp untouched, stored_replace,
        ← fabric]
      exact served

/-- The answer to the store, whose fault bit nothing looks at. -/
theorem PhaseAt.stored {addr : Addr} {dprs : MMIODataPRs} (cur : s.curReq = .mmioFabricAdapter addr)
    (second : s.amoWaitWriteResp = true)
    (served : outcome fab k target part f operand i (contents fab cycles s, responses service)) :
    PhaseAt fab k target part f operand i (cycles ++ [(s, .fromFabricAmoRsp dprs)])
      (service ++ [(s, .fromFabricAmoRsp dprs)]) (s.exec (.fromFabricAmoRsp dprs)).1 := by
  have ends : s.exec (.fromFabricAmoRsp dprs) = ({ s with state := .selectReq }, {}) := by
    simp only [Platform.exec, cur, Platform.fromFabricAmoRsp, second, if_true]
  have silent : (s.exec (.fromFabricAmoRsp dprs)).2.fabric = none := by rw [ends]
  obtain ⟨same, reqs⟩ := contents_silent fab silent cycles
  rw [PhaseAt, same, reqs, responses_concat, ends]
  refine .idle rfl ?_
  simpa [contents] using served

theorem PhaseAt.next (fits : Fits c target part)
    (phase : PhaseAt fab k target part f operand i cycles service s)
    (busy : s.state ≠ .selectReq) (enabled : s.guard rule = true)
    (answers : fab.Answers cycles rule) :
    PhaseAt fab k target part f operand i (cycles ++ [(s, rule)]) (service ++ [(s, rule)])
      (s.exec rule).1 := by
  have calm : rule.quiet = true → _ := PhaseAt.quiet phase
  rw [PhaseAt] at phase
  generalize now : contents fab cycles s = after at phase
  generalize sent : responses service = rs at phase
  generalize asked : (fabricReqs cycles).getLast? = last at phase
  cases phase with
  | process recorded state =>
      rcases rule_of_process recorded state fits.takes enabled with
        quiet | ⟨rfl, rfl⟩ | ⟨offset, rfl, rfl⟩ | ⟨addr, rfl, rfl⟩
      · exact calm quiet
      · obtain ⟨served, mtime, mtimecmp⟩ := processMTime_served recorded
        subst now
        refine PhaseAt.timer rfl sent served ?_
        change (⟨s.processMTime.1.mtime, s.processMTime.1.mtimecmp, _⟩ : Contents c) = _
        rw [mtime, mtimecmp]
        rfl
      · obtain ⟨served, mtime, mtimecmp⟩ :=
          processMTimeCmp_served (fits.inside offset rfl) recorded
        have takes : s.exec .processMTimeCmp = s.processMTimeCmp offset := by
          simp only [Platform.exec, recorded.curReq]
        subst now
        rw [← takes] at served mtime mtimecmp
        refine PhaseAt.timer rfl sent served ?_
        rw [mtime, mtimecmp]
        rfl
      · exact PhaseAt.toFabric rfl recorded sent now
  | posted curReq timer reqCore state amoResp =>
      rcases rule_of_wait state (curReq ▸ timer) enabled with quiet | wait
      · exact calm quiet
      · exact PhaseAt.waitDone timer sent reqCore amoResp now wait
  | @load addr _ recorded fabric state first_ =>
      rcases rule_of_fabric state (recorded.curReq.trans fabric) recorded.reqFunc enabled with
        quiet | ⟨dprs, rfl⟩
      · exact calm quiet
      · exact PhaseAt.fromFabric fabric (fits.lsbs addr fabric) recorded sent state first_ now asked
          answers
  | store addr curReq func state second served =>
      rcases rule_of_fabric state curReq func enabled with quiet | ⟨dprs, rfl⟩
      · exact calm quiet
      · subst now sent
        exact PhaseAt.stored curReq second served
  | idle state _ => exact absurd state busy

end Next

end Steps

/-! ### Runs -/

section Runs

variable {fab : Fabric} {start s₀ s : Platform c} {before during : History c}
  {cRq : CoreId c → Option MMIOCRq} {i : CoreId c} {req : MMIOCRq} {part : Part} {f : AmoFunc}

theorem phase_of_run (selects : Selects s₀ cRq i req) (func : req.func = .amo f)
    (legal : part.Legal req) (takes : TakesAmo (s₀.classify req.addr))
    (run : (machine fab start).Run (before ++ (s₀, .selectReq cRq) :: during) s)
    (busy : ∀ cycle ∈ during, cycle.1.state ≠ .selectReq) :
    PhaseAt fab (contents fab before s₀) (s₀.classify req.addr) part f req.data i
      (before ++ (s₀, .selectReq cRq) :: during) ((s₀, .selectReq cRq) :: during) s := by
  induction during using List.reverseRecOn generalizing s with
  | nil =>
      obtain ⟨_, _, rfl⟩ := run.of_append_singleton
      have silent : (s₀.exec (.selectReq cRq)).2.fabric = none := by rw [selects.exec]
      obtain ⟨same, reqs⟩ := contents_silent fab silent before
      have quiet : responses [(s₀, .selectReq cRq)] = [] := by
        simp only [responses, List.filterMap_cons, selects.exec, List.filterMap_nil]
      change PhaseAt fab _ _ part f _ i _ _ (s₀.exec (.selectReq cRq)).1
      rw [PhaseAt, same, reqs, quiet, selects.exec]
      refine .process ⟨rfl, rfl, func, ?_, legal.1, rfl, rfl⟩ rfl
      simp only [Platform.record, func]
  | append_singleton rest last ih =>
      rw [← List.cons_append, ← List.append_assoc] at run ⊢
      obtain ⟨earlier, allowed, rfl⟩ := run.of_append_singleton
      have phase := ih earlier fun cycle inside => busy cycle (List.mem_append_left _ inside)
      have working := busy last (by simp)
      exact phase.next (classify_fits legal takes) working allowed.1 allowed.2

end Runs

/-! ## The ISA -/

section Isa

variable (fab : Fabric) (k : Contents c) (target : MMIOPlatformReq) (part : Part) (f : AmoFunc)
  (operand : Data) (i : CoreId c)

/-- The word is replaced by the result of the ISA and returned, or a fault is. -/
def Served : Contents c × List (CoreId c × MMIOPRs) → Prop
  | (after, rs) =>
      if fab.reads target then
        after = k.replace target (amoWord part f (k.word target) operand) ∧
          rs = [(i, .dataAccess ⟨true, amoResult part (k.word target)⟩)]
      else after = k ∧ ∃ data, rs = [(i, .dataAccess ⟨false, data⟩)]

/-- The words for which it does not matter that the fabric keeps the operand, clears the
upper word and returns the whole old word. -/
def Coincides (old : Data) : Prop :=
  match part with
  | .double => OperandWins f old operand
  | .lower => OperandWins f (lower old) (lower operand) ∧ old = (lower old).signExtend 64
  | .upper => ResultZero f (upper old) (lower operand) ∧ (old = 0 ∨ old = BitVec.allOnes 64)

end Isa

section Words

variable {part : Part} {f : AmoFunc} {old operand : Data}

theorem upper_append (a b : BitVec 32) : upper (a ++ b) = a := BitVec.extractLsb'_append_eq_left

/-- A word is the extension of its upper half when all its bits are the same. -/
theorem upper_extended : old = (upper old).signExtend 64 ↔ old = 0 ∨ old = BitVec.allOnes 64 := by
  constructor
  · intro extended
    have bit : ∀ k < 32, old.getLsbD (32 + k) = (upper old).msb := by
      intro k below
      have same := congrArg (BitVec.getLsbD · (32 + k)) extended
      have inside : 32 + k < 64 := by omega
      have above : ¬32 + k < 32 := by omega
      simp only [BitVec.getLsbD_signExtend, inside, above, decide_true, if_false,
        Bool.true_and] at same
      exact same
    cases sign : (upper old).msb with
    | false =>
        left
        have high : upper old = 0 := by
          apply BitVec.eq_of_getLsbD_eq
          intro k below
          have inside : k < 63 - 32 + 1 := below
          rw [BitVec.getLsbD_extractLsb, decide_eq_true inside, Bool.true_and, bit k below, sign]
          exact BitVec.getLsbD_zero.symm
        rw [extended, high]
        decide
    | true =>
        right
        have high : upper old = BitVec.allOnes 32 := by
          apply BitVec.eq_of_getLsbD_eq
          intro k below
          have inside : k < 63 - 32 + 1 := below
          rw [BitVec.getLsbD_extractLsb, decide_eq_true inside, Bool.true_and, bit k below, sign,
            BitVec.getLsbD_allOnes, decide_eq_true below]
        rw [extended, high]
        decide
  · rintro (rfl | rfl) <;> decide

theorem kept_iff : keptWord part old operand = amoWord part f old operand ∧
    old = amoResult part old ↔ Coincides part f operand old := by
  cases part with
  | double =>
      rw [keptWord, amoWord, Coincides, ← riscvAmo_eq_operand, eq_comm]
      exact and_iff_left rfl
  | lower =>
      rw [keptWord, amoWord, Coincides, ← riscvAmo_eq_operand, BitVec.append_right_inj,
        eq_comm (a := lower operand)]
      exact Iff.rfl
  | upper =>
      rw [keptWord, amoWord, Coincides, ← riscvAmo_eq_zero, BitVec.append_left_inj,
        eq_comm (a := 0#32)]
      exact and_congr Iff.rfl upper_extended

end Words

/-! ## Services -/

section Served

variable {fab : Fabric} {k : Contents c} {target : MMIOPlatformReq} {part : Part} {f : AmoFunc}
  {operand : Data} {i : CoreId c}

theorem replace_inj {w w' : Data} (takes : TakesAmo target) :
    k.replace target w = k.replace target w' ↔ w = w' := by
  refine ⟨fun same => ?_, fun same => same ▸ rfl⟩
  cases target with
  | mTime => exact congrArg Contents.mtime same
  | mTimeCmp offset =>
      have at_ := congrFun (congrArg Contents.mtimecmp same) (core c offset)
      simpa [Contents.replace] using at_
  | mmioFabricAdapter addr =>
      have at_ := congrFun (congrArg Contents.memory same) (getDataAlignedAddr addr)
      simpa [Contents.replace] using at_
  | invalid | timerInterrupt | msip | toHost | fromHost => exact takes.elim

theorem served_iff {after : Contents c} {rs : List (CoreId c × MMIOPRs)} (takes : TakesAmo target)
    (made : outcome fab k target part f operand i (after, rs)) :
    Served fab k target part f operand i (after, rs) ↔
      ∀ addr, target = .mmioFabricAdapter addr →
        fab.readable (getDataAlignedAddr addr) = true →
          Coincides part f operand (k.word target) := by
  cases target with
  | mTime | mTimeCmp =>
      rw [outcome_timer rfl] at made
      exact iff_of_true made nofun
  | mmioFabricAdapter addr =>
      cases reads : fab.readable (getDataAlignedAddr addr) with
      | false =>
          rw [outcome, if_neg (by rw [Fabric.reads, reads]; decide)] at made
          rw [Served, if_neg (by rw [Fabric.reads, reads]; decide)]
          refine iff_of_true made ?_
          rintro _ ⟨rfl⟩ readable
          rw [reads] at readable
          cases readable
      | true =>
          obtain ⟨written, answered⟩ := (outcome_fabric rfl reads).mp made
          rw [Served, if_pos (show fab.reads (.mmioFabricAdapter addr) = true from reads),
            written, answered, replace_inj takes, List.singleton_inj]
          simp only [Prod.mk.injEq, true_and, MMIOPRs.dataAccess.injEq, MMIODataPRs.mk.injEq]
          rw [kept_iff]
          exact ⟨fun holds _ _ _ => holds, fun holds => holds addr rfl reads⟩
  | invalid | timerInterrupt | msip | toHost | fromHost => exact takes.elim

end Served

section Runs

variable {fab : Fabric} {start s₀ s : Platform c} {before during : History c}
  {cRq : CoreId c → Option MMIOCRq} {i : CoreId c} {req : MMIOCRq} {part : Part} {f : AmoFunc}

/-- The service of a request ends in `s`. -/
theorem amo_served_iff (selects : Selects s₀ cRq i req) (func : req.func = .amo f)
    (legal : part.Legal req) (takes : TakesAmo (s₀.classify req.addr))
    (run : (machine fab start).Run (before ++ (s₀, .selectReq cRq) :: during) s)
    (busy : ∀ cycle ∈ during, cycle.1.state ≠ .selectReq) (idle : s.state = .selectReq) :
    Served fab (contents fab before s₀) (s₀.classify req.addr) part f req.data i
        (contents fab (before ++ (s₀, .selectReq cRq) :: during) s,
          responses ((s₀, .selectReq cRq) :: during)) ↔
      ∀ addr, s₀.classify req.addr = .mmioFabricAdapter addr →
        fab.readable (getDataAlignedAddr addr) = true →
        Coincides part f req.data ((contents fab before s₀).word (s₀.classify req.addr)) := by
  have phase := phase_of_run selects func legal takes run busy
  rw [PhaseAt] at phase
  generalize contents fab _ s = after at phase ⊢
  generalize responses _ = rs at phase ⊢
  generalize (fabricReqs _).getLast? = last at phase
  cases phase with
  | process _ state | posted _ _ _ state | load _ _ state | store _ _ _ state =>
      rw [state] at idle
      cases idle
  | idle _ served => exact served_iff takes served

instance (fab : Fabric) (start : Platform c) (cycles : History c) (s : Platform c)
    (rule : Rule c) : Decidable ((machine fab start).allowed cycles s rule) :=
  decidable_of_iff
    (s.guard rule = true ∧ rule.fabricRsp.all fun dprs =>
      (fabricReqs cycles).getLast?.all fun req =>
      decide (req.func = .ld →
        dprs.valid = fab.readable (getDataAlignedAddr req.addr) ∧
          (dprs.valid = true → dprs.data = fab.memory cycles (getDataAlignedAddr req.addr)))) (by
    apply and_congr Iff.rfl
    simp only [Fabric.Answers, Option.all_eq_true, decide_eq_true_eq]
    constructor
    · intro holds dprs req rsp last
      exact holds dprs rsp req last
    · intro holds dprs rsp req last
      exact holds dprs req rsp last)

private def clint : PlatformCfg where
  coreNum := 1
  someCore := Nat.one_pos
  supSizeX2 := 4
  cyclesPerTimeInc := 100
  ticksPerTimeInc := 1
  msipBaseAddr := 0x400000
  mtimecmpBaseAddr := 0x400800
  mtimeBaseAddr := 0x4017FF

private def hart : CoreId clint := ⟨0, by decide⟩

private def resetPlatform : Platform clint where
  mtimecmp _ := 0
  mtime := 0
  toHostQ := none
  fromHostQ := none
  toHostAddr := 0
  fromHostAddr := 0
  state := .init
  curReq := .invalid
  reqCore := hart
  reqFunc := .ld
  reqAmofunc := .none
  reqBE := 0
  reqSz := 0
  reqData := 0
  instSel := 0
  fetchingWay := 0
  fetchedInsts := []
  waitMTIPCRs _ := false
  waitLowerMSIPCRs := none
  waitUpperMSIPCRs := none
  amoResp := 0
  amoWaitWriteResp := false
  cycle := 0
  mtip _ := true

private def started : Platform clint := (resetPlatform.exec (.start 0 0)).1

private def fives : Fabric := ⟨fun _ => true, fun _ => 5⟩

private def asks (req : MMIOCRq) : CoreId clint → Option MMIOCRq := fun _ => some req

/-- The run of one request, and the part of it after `selectReq`. -/
private def serviceOf (req : MMIOCRq) (rules : List (Rule clint)) : History clint :=
  (machine fives resetPlatform).cyclesOf (started.record hart req) rules

private def platformAfter (req : MMIOCRq) (rules : List (Rule clint)) : Platform clint :=
  (machine fives resetPlatform).after (started.record hart req) rules

/-- Adds 3 to the low word of `mtimecmp`. -/
private def addToTimeCmp : MMIOCRq := ⟨0x2004000, .amo .add, 0x0F, 3⟩

private theorem addToTimeCmp_device : started.classify addToTimeCmp.addr = .mTimeCmp 0 := by
  decide

theorem amo_served_mtimecmp :
    Served fives (contents fives [(resetPlatform, .start 0 0)] started)
      (started.classify addToTimeCmp.addr) .lower .add 3 hart
      (contents fives
          ([(resetPlatform, .start 0 0)] ++ (started, .selectReq (asks addToTimeCmp)) ::
            serviceOf addToTimeCmp [.processMTimeCmp, .waitMTimeCmpDone])
          (platformAfter addToTimeCmp [.processMTimeCmp, .waitMTimeCmpDone]),
        responses ((started, .selectReq (asks addToTimeCmp)) ::
            serviceOf addToTimeCmp [.processMTimeCmp, .waitMTimeCmpDone])) :=
  (amo_served_iff ⟨by decide, by decide, rfl⟩ rfl ⟨rfl, by decide⟩
    (by rw [addToTimeCmp_device]; trivial)
    (Clocked.Machine.run_of_accepts (m := machine fives resetPlatform)
      [.start 0 0, .selectReq (asks addToTimeCmp), .processMTimeCmp, .waitMTimeCmpDone]
      (by decide +kernel))
    (by decide +kernel) (by decide +kernel)).mpr
    (by rw [addToTimeCmp_device]; exact nofun)

/-- Adds 3 to a double word of the fabric. -/
private def addToFabric : MMIOCRq := ⟨0x80000000, .amo .add, 0xFF, 3⟩

private def fabricRules : List (Rule clint) :=
  [.toFabricAmoReq, .fromFabricAmoRsp ⟨true, 5⟩, .fromFabricAmoRsp ⟨true, 0⟩]

private theorem addToFabric_device :
    started.classify addToFabric.addr = .mmioFabricAdapter 0x80000000 := by decide

/-- 5 + 3 is stored as 3. -/
theorem fabric_amo_dropped :
    ¬∀ {c : PlatformCfg} {fab : Fabric} {start s₀ s : Platform c} {before during : History c}
        {cRq : CoreId c → Option MMIOCRq} {i : CoreId c} {req : MMIOCRq} {part : Part}
        {f : AmoFunc},
      Selects s₀ cRq i req → req.func = .amo f → part.Legal req →
      TakesAmo (s₀.classify req.addr) →
      (machine fab start).Run (before ++ (s₀, .selectReq cRq) :: during) s →
      (∀ cycle ∈ during, cycle.1.state ≠ .selectReq) → s.state = .selectReq →
      Served fab (contents fab before s₀) (s₀.classify req.addr) part f req.data i
        (contents fab (before ++ (s₀, .selectReq cRq) :: during) s,
          responses ((s₀, .selectReq cRq) :: during)) := by
  intro claim
  have selects : Selects started (asks addToFabric) hart addToFabric :=
    ⟨by decide, by decide, rfl⟩
  have legal : Part.double.Legal addToFabric := ⟨rfl, by decide⟩
  have run : (machine fives resetPlatform).Run
      ([(resetPlatform, .start 0 0)] ++ (started, .selectReq (asks addToFabric)) ::
        serviceOf addToFabric fabricRules) (platformAfter addToFabric fabricRules) :=
    Clocked.Machine.run_of_accepts (m := machine fives resetPlatform)
      (.start 0 0 :: .selectReq (asks addToFabric) :: fabricRules) (by decide +kernel)
  have served := claim selects rfl legal (by rw [addToFabric_device]; trivial) run
    (by decide +kernel) (by decide +kernel)
  rw [addToFabric_device, Served, if_pos (by decide)] at served
  have stored := congrFun (congrArg Contents.memory served.1) 0x10000000
  revert stored
  decide +kernel

end Runs

end Toooba.MMIOPlatform
