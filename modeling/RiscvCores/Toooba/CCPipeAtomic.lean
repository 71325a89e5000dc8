import RiscvCores.Lib.ForwardSimulation
import RiscvCores.Toooba.CCPipe

/-!
# The cache pipelines are atomic

The abstract cache has a plain array and one command at a time between its tag
match and its last write.  Both pipelines are simulated by it: what a tag match
sees and what `first` shows is the content of the plain array, to which every
`deqWrite` before was applied in turn.
-/

set_option autoImplicit false

namespace Toooba.CachePipes

open Toooba.RWBramCore ForwardSimulation

variable {t : PipeTypes}

/-! ## The abstract cache -/

/-- A line that was never written is unknown. -/
structure PlainArray (t : PipeTypes) where
  info : t.Way → t.Index → CacheInfo t
  rep : t.Index → t.Rep
  line : t.Way → t.Index → Option t.Line

/-- A command behind its tag match. -/
structure Placed (t : PipeTypes) where
  req : EnqReq t
  way : t.Way
  pRqMiss : Bool
  chance : t.Chance

structure Atomic (t : PipeTypes) where
  array : PlainArray t
  waiting : List (EnqReq t)
  placed : Option (Placed t)

def Atomic.start (array : PlainArray t) : Atomic t := ⟨array, [], none⟩

/-- What the pipeline does in a cycle, with the values that it computes. -/
inductive Event (t : PipeTypes) where
  | enq (req : EnqReq t)
  | tagMatch (chance : t.Chance) (cmd : t.Cmd) (infoVec : t.Way → CacheInfo t) (repInfo : t.Rep)
  | first (out : Option (PipeOut t))
  | deqWrite (d : DeqWrite t)

section Abstract

variable [DecidableEq t.Index] (f : PipeFunctions t)

def PlainArray.write (array : PlainArray t) (b : BypassInfo t) : PlainArray t where
  info w index := if b.way = w ∧ b.index = index then b.ram.info else array.info w index
  rep index := if b.index = index then b.repInfo else array.rep index
  line w index := if b.way = w ∧ b.index = index then some b.ram.line else array.line w index

/-- The array behind the write of a cycle. -/
def PlainArray.behind (array : PlainArray t) : Option (BypassInfo t) → PlainArray t
  | some b => array.write b
  | none => array

/-- A placed command shows its way of the array with its own data and state merged in. -/
structure Shows (array : PlainArray t) (p : Placed t) (out : PipeOut t) : Prop where
  cmd : out.cmd = p.req.cmd
  way : out.way = p.way
  pRqMiss : out.pRqMiss = p.pRqMiss
  info : out.ram.info =
    mergeInfo f p.chance p.req (array.info p.way (f.getIndex p.req.cmd))
  repInfo : out.repInfo = array.rep (f.getIndex p.req.cmd)
  respLine : ∀ line, p.req.respLine = some line → out.ram.line = line
  line : p.req.respLine = none → ∀ line, array.line p.way (f.getIndex p.req.cmd) = some line →
    out.ram.line = line

/-- The command that takes the place of another keeps the way. -/
def Placed.swap (p : Placed t) (d : DeqWrite t) : Option (Placed t) :=
  d.newCmd.map fun cmd =>
    { req := { cmd := cmd, respLine := none, toState := .invalid }
      way := p.way
      pRqMiss := false
      chance := d.chance }

/-- What a placed command writes back. -/
def Placed.write (array : PlainArray t) (p : Placed t) (d : DeqWrite t) : BypassInfo t where
  index := f.getIndex p.req.cmd
  way := p.way
  ram := d.wrRam
  repInfo :=
    if d.updateRep then f.updateRepInfo d.chance (array.rep (f.getIndex p.req.cmd)) p.way
    else array.rep (f.getIndex p.req.cmd)

/-- The tag match places a command in a way of its set. -/
def Placed.ofMatch (array : PlainArray t) (chance : t.Chance) (req : EnqReq t) : Placed t :=
  let index := f.getIndex req.cmd
  let tmRes := tagMatch f chance req.cmd (fun w => array.info w index) (array.rep index)
  { req := req, way := tmRes.way, pRqMiss := tmRes.pRqMiss, chance := chance }

inductive Step : Atomic t → Event t → Atomic t → Prop
  | enq (a : Atomic t) (req : EnqReq t) :
      Step a (.enq req) { a with waiting := a.waiting ++ [req] }
  | tagMatch {a : Atomic t} {req : EnqReq t} {rest : List (EnqReq t)} (chance : t.Chance)
      (next : a.waiting = req :: rest) (free : a.placed = none) :
      Step a
        (.tagMatch chance req.cmd (fun w => a.array.info w (f.getIndex req.cmd))
          (a.array.rep (f.getIndex req.cmd)))
        { a with waiting := rest, placed := some (.ofMatch f a.array chance req) }
  | first {a : Atomic t} {p : Placed t} {out : PipeOut t} (placed : a.placed = some p)
      (shows : Shows f a.array p out) : Step a (.first (some out)) a
  | deqWrite {a : Atomic t} {p : Placed t} (d : DeqWrite t) (placed : a.placed = some p) :
      Step a (.deqWrite d)
        { a with array := a.array.write (p.write f a.array d), placed := p.swap d }

/-- The tag match of the only command that waits. -/
theorem Step.tagMatch_one {array : PlainArray t} {req : EnqReq t} {waiting : List (EnqReq t)}
    {placed : Option (Placed t)} (chance : t.Chance) (only : waiting = [req])
    (free : placed = none) :
    Step f ⟨array, waiting, placed⟩
      (.tagMatch chance req.cmd (fun w => array.info w (f.getIndex req.cmd))
        (array.rep (f.getIndex req.cmd)))
      ⟨array, [], some (.ofMatch f array chance req)⟩ :=
  .tagMatch chance only free

end Abstract

/-! ## Writes -/

section Writes

variable [DecidableEq t.Index] {array : PlainArray t}

theorem written_info (array : PlainArray t) (b : Option (BypassInfo t)) (w : t.Way) :
    written (fun index => some (array.info w index)) (BypassInfo.toWay b RamData.info w) =
      fun index => some ((array.behind b).info w index) := by
  cases b with
  | none => rfl
  | some b =>
      funext index
      simp only [BypassInfo.toWay, Option.bind_some, PlainArray.behind, PlainArray.write]
      by_cases here : b.way = w
      · rw [if_pos here, written, Function.update_apply]
        simp only [here, true_and, eq_comm]
        split <;> rfl
      · rw [if_neg here, written, if_neg fun both => here both.1]

theorem written_line (array : PlainArray t) (b : Option (BypassInfo t)) (w : t.Way) :
    written (array.line w) (BypassInfo.toWay b RamData.line w) = (array.behind b).line w := by
  cases b with
  | none => rfl
  | some b =>
      funext index
      simp only [BypassInfo.toWay, Option.bind_some, PlainArray.behind, PlainArray.write]
      by_cases here : b.way = w
      · rw [if_pos here, written, Function.update_apply]
        simp only [here, true_and, eq_comm]
      · rw [if_neg here, written, if_neg fun both => here both.1]

theorem written_rep (array : PlainArray t) (b : Option (BypassInfo t)) :
    written (fun index => some (array.rep index)) (BypassInfo.toRep b) =
      fun index => some ((array.behind b).rep index) := by
  cases b with
  | none => rfl
  | some b =>
      funext index
      simp only [BypassInfo.toRep, Option.map_some, written, Function.update_apply,
        PlainArray.behind, PlainArray.write, eq_comm]
      split <;> rfl

theorem written_data (array : PlainArray t) (b : Option (BypassInfo t)) :
    written (fun at_ : t.Way × t.Index => array.line at_.1 at_.2)
        (b.map fun b => ((b.way, b.index), b.ram.line)) =
      fun at_ => (array.behind b).line at_.1 at_.2 := by
  cases b with
  | none => rfl
  | some b =>
      funext ⟨w, index⟩
      simp only [Option.map_some, written, Function.update_apply, PlainArray.behind,
        PlainArray.write, Prod.mk.injEq, eq_comm]

end Writes

/-! ## The output -/

section Output

variable [DecidableEq t.Index] {f : PipeFunctions t} {array : PlainArray t} {p : Placed t}
  {m2o : Match2Out t}

omit [DecidableEq t.Index] in
/-- The write of the output is that of the placed command. -/
theorem ramWrite_eq {out : PipeOut t} (shows : Shows f array p out) (d : DeqWrite t)
    (cmd : m2o.cmd = out.cmd) (way : m2o.way = out.way) (repInfo : m2o.repInfo = out.repInfo) :
    ramWrite f m2o d = p.write f array d := by
  simp only [ramWrite, Placed.write, cmd, way, repInfo, shows.cmd, shows.way, shows.repInfo]

/-- A command swapped in shows what the command before it wrote. -/
theorem swapIn_shows (d : DeqWrite t) (cmd : m2o.cmd = p.req.cmd) (way : m2o.way = p.way)
    (write : ramWrite f m2o d = p.write f array d)
    (inherits : ∀ cmd, d.newCmd = some cmd → f.getIndex cmd = f.getIndex m2o.cmd)
    (rdResp : t.Line) {after : Match2Out t} (swapped : swapIn f m2o d = some after) :
    ∃ q, p.swap d = some q ∧ after.line = some d.wrRam.line ∧
      Shows f (array.write (p.write f array d)) q (CCPipe.firstOut rdResp after) := by
  obtain ⟨new, called, rfl⟩ := Option.map_eq_some_iff.mp swapped
  have index : f.getIndex p.req.cmd = f.getIndex new := by rw [← cmd, inherits new called]
  refine ⟨_, by rw [Placed.swap, called, Option.map_some], rfl, ?_⟩
  constructor
  · rfl
  · exact way
  · rfl
  · simp only [CCPipe.firstOut, mergeInfo, PlainArray.write, Placed.write, index, and_self,
      if_true]
  · simp only [CCPipe.firstOut, PlainArray.write, write, Placed.write, index, if_true]
  · intro line none_
    cases none_
  · intro _ line known
    simp only [PlainArray.write, Placed.write, index, and_self, if_true, Option.some.injEq]
      at known
    exact known

omit [DecidableEq t.Index] in
/-- A tag match that saw the array shows it, if its line is the one of the array. -/
theorem match2Out_shows (f : PipeFunctions t) (chance : t.Chance) (e2m : Enq2Match t)
    {infoVec : t.Way → CacheInfo t} {repInfo : t.Rep}
    (info : ∀ w, infoVec w = array.info w (f.getIndex e2m.cmd))
    (rep : repInfo = array.rep (f.getIndex e2m.cmd)) (lines : t.Way → Option t.Line)
    (rdResp : t.Way → t.Line)
    (line : ∀ w line, array.line w (f.getIndex e2m.cmd) = some line →
      (lines w).getD (rdResp w) = line) :
    let m2o := match2Out f chance e2m infoVec repInfo lines
    Shows f array (.ofMatch f array chance e2m.req) (CCPipe.firstOut (rdResp m2o.way) m2o) := by
  obtain rfl : infoVec = fun w => array.info w (f.getIndex e2m.cmd) := funext info
  obtain rfl := rep
  intro m2o
  constructor
  · rfl
  · rfl
  · rfl
  · rfl
  · rfl
  · intro brought called
    have resp : e2m.respLine = some brought := called
    simp only [CCPipe.firstOut, m2o, match2Out, resp]
    rfl
  · intro none_ known found
    have resp : e2m.respLine = none := none_
    simp only [CCPipe.firstOut, m2o, match2Out, resp]
    exact line m2o.way known found

end Output

/-- The output register against the placed command. -/
def Shown [DecidableEq t.Index] (f : PipeFunctions t) (array : PlainArray t) (rdResp : t.Line) :
    Option (Match2Out t) → Option (Placed t) → Prop
  | some m2o, placed => ∃ p, placed = some p ∧ Shows f array p (CCPipe.firstOut rdResp m2o)
  | none, placed => placed = none

/-! ## `mkCCPipe` -/

namespace CCPipe

variable [DecidableEq t.Index] {f : PipeFunctions t} {s : CCPipe t} {i : Input t} {a : Atomic t}
  {array : PlainArray t}

/-- The answers of the RAMs with the bypasses of the register are the set of the array. -/
structure Sees (f : PipeFunctions t) (array : PlainArray t) (infoOut : t.Way → CacheInfo t)
    (repOut : t.Rep) (e2m : Enq2Match t) : Prop where
  info : ∀ w, (e2m.infoVec w).getD (infoOut w) = array.info w (f.getIndex e2m.cmd)
  rep : e2m.repInfo.getD repOut = array.rep (f.getIndex e2m.cmd)

theorem getBypass_req (b : Option (BypassInfo t)) (e2m : Enq2Match t) :
    (getBypass f b e2m).req = e2m.req := by
  unfold getBypass
  cases b with
  | none => rfl
  | some b =>
      dsimp only
      split <;> rfl

theorem Sees.getBypass {infoOut : t.Way → CacheInfo t} {repOut : t.Rep} {e2m : Enq2Match t}
    (sees : Sees f array infoOut repOut e2m) (b : Option (BypassInfo t)) :
    Sees f (array.behind b) infoOut repOut (getBypass f b e2m) := by
  cases b with
  | none => exact sees
  | some b =>
      simp only [CCPipe.getBypass, PlainArray.behind]
      split
      · next same =>
          constructor
          · intro w
            rcases eq_or_ne w b.way with rfl | other
            · simp [PlainArray.write, same]
            · simp [PlainArray.write, other, other.symm, sees.info w]
          · simp [PlainArray.write, same]
      · next apart =>
          constructor
          · intro w
            simp [PlainArray.write, apart, sees.info w]
          · simp [PlainArray.write, apart, sees.rep]

/-- The request register against the waiting commands. -/
def Waits (f : PipeFunctions t) (array : PlainArray t) (infoOut : t.Way → CacheInfo t)
    (repOut : t.Rep) : Option (Enq2Match t) → List (EnqReq t) → Prop
  | some e2m, waiting => waiting = [e2m.req] ∧ Sees f array infoOut repOut e2m
  | none, waiting => waiting = []

structure Holds (s : CCPipe t) (array : PlainArray t) : Prop where
  info : ∀ w, (s.infoRam w).Holds fun index => some (array.info w index)
  rep : s.repRam.Holds fun index => some (array.rep index)
  line : s.dataRam.Holds fun at_ => array.line at_.1 at_.2

/-- Empty registers over RAMs with the content of the array. -/
structure Initialized (s : CCPipe t) (array : PlainArray t) : Prop where
  enq2Mat : s.enq2Mat = none
  mat2Out : s.mat2Out = none
  holds : Holds s array

structure Sim (f : PipeFunctions t) (s : CCPipe t) (a : Atomic t) : Prop where
  holds : Holds s a.array
  waits : Waits f a.array (fun w => (s.infoRam w).out) s.repRam.out s.enq2Mat a.waiting
  shown : Shown f a.array s.dataRam.out s.mat2Out a.placed
  answer : s.mat2Out.isSome = true → s.dataRam.rdReqQ = true

theorem Initialized.sim (ready : Initialized s array) : Sim f s (.start array) := by
  constructor
  · exact ready.holds
  · rw [ready.enq2Mat]
    rfl
  · rw [ready.mat2Out]
    rfl
  · intro valid
    rw [ready.mat2Out] at valid
    cases valid

theorem Holds.next (holds : Holds s array) : Holds (next f s i) (array.behind (s.bypass f i)) := by
  constructor
  · intro w
    rw [← written_info]
    exact (holds.info w).next (s.infoCalls f i w)
  · rw [← written_rep]
    exact holds.rep.next (s.repCalls f i)
  · rw [← written_data]
    exact holds.line.next (s.dataCalls f i)

/-! ### The events of a cycle -/

def tagMatchEvent (f : PipeFunctions t) (s : CCPipe t) (i : Input t) : Option (Event t) :=
  match s.enq2MatMatch f i, i.doTagMatch with
  | some e2m, some chance => some (.tagMatch chance e2m.cmd (s.infoVec e2m) (s.repInfo e2m))
  | _, _ => none

/-- `deqWrite` comes before `doTagMatch`, and that before `enq`. -/
def events (f : PipeFunctions t) (s : CCPipe t) (i : Input t) : List (Event t) :=
  (s.mat2Out.map fun m2o => .first (s.first m2o)).toList ++
    ((i.deqWrite.map .deqWrite).toList ++
      ((tagMatchEvent f s i).toList ++ (i.enq.map .enq).toList))

theorem first_steps (sim : Sim f s a) :
    Steps (Step f) a (s.mat2Out.map fun m2o => Event.first (s.first m2o)).toList a := by
  cases out : s.mat2Out with
  | none => exact .nil a
  | some m2o =>
      have shown := sim.shown
      rw [out] at shown
      obtain ⟨p, placed, shows⟩ := shown
      have answer : s.dataRam.rdReqQ = true := sim.answer (by rw [out]; rfl)
      have value : s.first m2o = some (firstOut s.dataRam.out m2o) := if_pos answer
      apply Steps.one
      change Step f a (.first (s.first m2o)) a
      rw [value]
      exact .first placed shows

/-- The write reaches the array; what is swapped in is placed. -/
theorem deq_steps (sim : Sim f s a) (env : Environment f s i) :
    ∃ placed, Steps (Step f) a (i.deqWrite.map Event.deqWrite).toList
        ⟨a.array.behind (s.bypass f i), a.waiting, placed⟩ ∧
      Shown f (a.array.behind (s.bypass f i)) s.dataRam.out (s.mat2OutMatch f i) placed := by
  cases called : i.deqWrite with
  | none =>
      have quiet : s.bypass f i = none := by
        rw [bypass, called]
        cases s.mat2Out <;> rfl
      have stays : s.mat2OutMatch f i = s.mat2Out := by
        rw [mat2OutMatch, called]
        cases s.mat2Out <;> rfl
      rw [quiet, stays]
      exact ⟨a.placed, .nil a, sim.shown⟩
  | some d =>
      obtain ⟨m2o, out⟩ := Option.isSome_iff_exists.mp (env.deqWrite (by rw [called]; rfl)).1
      have shown := sim.shown
      rw [out] at shown
      obtain ⟨p, placed, shows⟩ := shown
      have write : ramWrite f m2o d = p.write f a.array d := ramWrite_eq shows d rfl rfl rfl
      have wire : s.bypass f i = some (p.write f a.array d) := by
        rw [← write, bypass, out, called]
      have leaves : s.mat2OutMatch f i = swapIn f m2o d := by
        rw [mat2OutMatch, out, called]
      rw [wire, leaves]
      refine ⟨p.swap d, .one (.deqWrite d placed), ?_⟩
      cases swapped : swapIn f m2o d with
      | none =>
          have none_ : d.newCmd = none := Option.map_eq_none_iff.mp swapped
          rw [Shown, Placed.swap, none_]
          rfl
      | some after =>
          obtain ⟨q, new, -, showsNew⟩ := swapIn_shows d shows.cmd shows.way write
            (fun cmd call => env.newCmd m2o d cmd out called call) s.dataRam.out swapped
          exact ⟨q, new, showsNew⟩

/-- The request register behind the bypass sees the array behind the write. -/
theorem waits_match (sim : Sim f s a) (i : Input t) :
    Waits f (a.array.behind (s.bypass f i)) (fun w => (s.infoRam w).out) s.repRam.out
      (s.enq2MatMatch f i) a.waiting := by
  have waits := sim.waits
  cases stored : s.enq2Mat with
  | none =>
      rw [stored] at waits
      rw [enq2MatMatch, stored]
      exact waits
  | some e2m =>
      rw [stored] at waits
      rw [enq2MatMatch, stored]
      refine ⟨?_, waits.2.getBypass _⟩
      rw [getBypass_req]
      exact waits.1

/-- A line that was asked for in this cycle comes with the answer or over the bypass. -/
theorem line_behind (holds : Holds s array) (e2m : Enq2Match t) (w : t.Way) (line : t.Line)
    (known : (array.behind (s.bypass f i)).line w (f.getIndex e2m.cmd) = some line) :
    (s.lineBypass f i e2m w).getD (s.dataRam.ram (w, f.getIndex e2m.cmd)) = line := by
  unfold lineBypass
  cases wire : s.bypass f i with
  | none =>
      rw [wire] at known
      exact holds.line _ _ known
  | some b =>
      rw [wire] at known
      simp only [PlainArray.behind, PlainArray.write] at known
      rw [Option.bind_some]
      split at known
      · next hit =>
          rw [if_pos hit.symm]
          exact Option.some.inj known
      · next miss =>
          rw [if_neg fun hit => miss hit.symm]
          exact holds.line _ _ known

theorem match_steps (sim : Sim f s a) (env : Environment f s i) {placed : Option (Placed t)}
    (shown : Shown f (a.array.behind (s.bypass f i)) s.dataRam.out (s.mat2OutMatch f i) placed) :
    ∃ waiting placed', Steps (Step f) ⟨a.array.behind (s.bypass f i), a.waiting, placed⟩
        (tagMatchEvent f s i).toList ⟨a.array.behind (s.bypass f i), waiting, placed'⟩ ∧
      Waits f (a.array.behind (s.bypass f i)) (fun w => (s.infoRam w).out) s.repRam.out
        (s.enq2MatEnq f i) waiting ∧
      Shown f (a.array.behind (s.bypass f i)) (next f s i).dataRam.out (next f s i).mat2Out
        placed' := by
  have waits := waits_match sim i
  cases fires : i.doTagMatch with
  | none =>
      have none_ : s.matched f i = none := by
        rw [matched, fires]
        cases s.enq2MatMatch f i <;> rfl
      have quiet : tagMatchEvent f s i = none := by
        rw [tagMatchEvent, fires]
        cases s.enq2MatMatch f i <;> rfl
      rw [quiet]
      refine ⟨a.waiting, placed, .nil _, ?_, ?_⟩
      · rw [enq2MatEnq, fires]
        exact waits
      · simp only [next, none_, Bram.next, dataCalls, Option.map_none]
        exact shown
  | some chance =>
      obtain ⟨valid, free, -⟩ := env.doTagMatch (by rw [fires]; rfl)
      obtain ⟨e2m, stored⟩ : ∃ e2m, s.enq2MatMatch f i = some e2m := by
        obtain ⟨e2m, stored⟩ := Option.isSome_iff_exists.mp valid
        exact ⟨_, by rw [enq2MatMatch, stored, Option.map_some]⟩
      rw [stored] at waits
      rw [Option.isNone_iff_eq_none.mp free] at shown
      obtain ⟨waiting, sees⟩ := waits
      have infoVec : s.infoVec e2m =
          fun w => (a.array.behind (s.bypass f i)).info w (f.getIndex e2m.cmd) := funext sees.info
      have result : s.matched f i = some (match2Out f chance e2m (s.infoVec e2m) (s.repInfo e2m)
          (s.lineBypass f i e2m)) := by
        rw [matched, stored, fires]
      have event : tagMatchEvent f s i =
          some (.tagMatch chance e2m.cmd (s.infoVec e2m) (s.repInfo e2m)) := by
        rw [tagMatchEvent, stored, fires]
      rw [event]
      refine ⟨[], some (.ofMatch f (a.array.behind (s.bypass f i)) chance e2m.req),
        Steps.one ?_, ?_, ?_⟩
      · rw [infoVec, show s.repInfo e2m = _ from sees.rep]
        exact Step.tagMatch_one f chance waiting shown
      · rw [enq2MatEnq, fires]
        rfl
      · simp only [next, result, Bram.next, dataCalls, Option.map_some]
        refine ⟨_, rfl, ?_⟩
        exact match2Out_shows f chance e2m sees.info sees.rep (s.lineBypass f i e2m)
          (fun w => s.dataRam.ram (w, f.getIndex e2m.cmd)) (line_behind sim.holds e2m)

theorem enq_steps (holds : Holds s array) (env : Environment f s i)
    (placed : Option (Placed t)) {waiting : List (EnqReq t)}
    (waits : Waits f (array.behind (s.bypass f i)) (fun w => (s.infoRam w).out) s.repRam.out
      (s.enq2MatEnq f i) waiting) :
    ∃ waiting', Steps (Step f) ⟨array.behind (s.bypass f i), waiting, placed⟩
        (i.enq.map Event.enq).toList ⟨array.behind (s.bypass f i), waiting', placed⟩ ∧
      Waits f (array.behind (s.bypass f i)) (fun w => ((next f s i).infoRam w).out)
        (next f s i).repRam.out (next f s i).enq2Mat waiting' := by
  cases called : i.enq with
  | none =>
      refine ⟨waiting, .nil _, ?_⟩
      simp only [next, called, Bram.next, infoCalls, repCalls, Option.map_none]
      exact waits
  | some req =>
      have empty := (env.enq (by rw [called]; rfl)).1
      rw [Option.isNone_iff_eq_none.mp empty] at waits
      obtain rfl : waiting = [] := waits
      refine ⟨[req], .one (.enq _ req), ?_⟩
      simp only [next, called, Bram.next, infoCalls, repCalls, Option.map_some]
      refine ⟨?_, ?_⟩
      · rw [getBypass_req]
        rfl
      · apply Sees.getBypass
        constructor
        · intro w
          exact holds.info w _ _ rfl
        · exact holds.rep _ _ rfl

/-- The data RAM has an answer for what is at the output. -/
theorem answer_next (sim : Sim f s a) (valid : (next f s i).mat2Out.isSome = true) :
    (next f s i).dataRam.rdReqQ = true := by
  cases result : s.matched f i with
  | some m2o => simp [next, Bram.next, rdReqQD, dataCalls, result]
  | none =>
      have stays : (s.mat2OutMatch f i).isSome = true := by
        simpa only [next, result] using valid
      have kept : s.mat2Out.isSome = true ∧ dataDeq i = false := by
        unfold mat2OutMatch at stays
        unfold dataDeq
        cases out : s.mat2Out <;> cases called : i.deqWrite <;> simp_all [swapIn]
      simp [next, Bram.next, rdReqQD, dataCalls, kept.2, sim.answer kept.1]

/-- Every cycle is a run of the abstract cache. -/
theorem Sim.next (sim : Sim f s a) (env : Environment f s i) :
    ∃ a', Steps (Step f) a (events f s i) a' ∧ Sim f (next f s i) a' := by
  obtain ⟨placed, deq, shown⟩ := deq_steps sim env
  obtain ⟨waiting, placed', tagMatch, waits, shown'⟩ := match_steps sim env shown
  obtain ⟨waiting', enq, waits'⟩ := enq_steps sim.holds env placed' waits
  refine ⟨_, (first_steps sim).append (deq.append (tagMatch.append enq)), ?_⟩
  exact ⟨sim.holds.next, waits', shown', answer_next sim⟩

end CCPipe

/-! ## `mkCCPipeSingleCycle` -/

namespace CCPipeSingleCycle

variable [DecidableEq t.Index] {f : PipeFunctions t} {s : CCPipeSingleCycle t} {i : Input t}
  {a : Atomic t} {array : PlainArray t}

/-- All RAMs answer for one set. -/
structure Reads (s : CCPipeSingleCycle t) (index : t.Index) : Prop where
  info : ∀ w, (s.infoRam w).readAddr = index
  rep : s.repRam.readAddr = index
  data : ∀ w, (s.dataRam w).readAddr = index

def Waits (f : PipeFunctions t) (s : CCPipeSingleCycle t) :
    Option (Enq2Match t) → List (EnqReq t) → Prop
  | some e2m, waiting =>
      waiting = [e2m.req] ∧ e2m = e2m.req.toMatch ∧ Reads s (f.getIndex e2m.cmd)
  | none, waiting => waiting = []

/-- The output register has the line. -/
def ShownLine (f : PipeFunctions t) (array : PlainArray t) :
    Option (Match2Out t) → Option (Placed t) → Prop
  | some m2o, placed => ∃ p line, placed = some p ∧ m2o.line = some line ∧
      Shows f array p (CCPipe.firstOut line m2o)
  | none, placed => placed = none

structure Holds (s : CCPipeSingleCycle t) (array : PlainArray t) : Prop where
  info : ∀ w, (s.infoRam w).Holds fun index => some (array.info w index)
  rep : s.repRam.Holds fun index => some (array.rep index)
  line : ∀ w, (s.dataRam w).Holds (array.line w)

structure Initialized (s : CCPipeSingleCycle t) (array : PlainArray t) : Prop where
  enq2Mat : s.enq2Mat = none
  mat2Out : s.mat2Out = none
  holds : Holds s array

structure Sim (f : PipeFunctions t) (s : CCPipeSingleCycle t) (a : Atomic t) : Prop where
  holds : Holds s a.array
  waits : Waits f s s.enq2Mat a.waiting
  shown : ShownLine f a.array s.mat2Out a.placed

omit [DecidableEq t.Index] in
theorem Initialized.sim (ready : Initialized s array) : Sim f s (.start array) := by
  constructor
  · exact ready.holds
  · rw [ready.enq2Mat]
    rfl
  · rw [ready.mat2Out]
    rfl

theorem Holds.next (holds : Holds s array) : Holds (next f s i) (array.behind (s.write f i)) := by
  constructor
  · intro w
    rw [← written_info]
    exact (holds.info w).next (calls f i _)
  · rw [← written_rep]
    exact holds.rep.next (calls f i _)
  · intro w
    rw [← written_line]
    exact (holds.line w).next (calls f i _)

/-! ### The events of a cycle -/

def tagMatchEvent (s : CCPipeSingleCycle t) (i : Input t) : Option (Event t) :=
  match s.enq2Mat, i.doTagMatch with
  | some e2m, some chance => some (.tagMatch chance e2m.cmd (s.infoVec e2m) (s.repInfo e2m))
  | _, _ => none

/-- `doTagMatch` comes before `first` and `deqWrite`. -/
def events (f : PipeFunctions t) (s : CCPipeSingleCycle t) (i : Input t) : List (Event t) :=
  (tagMatchEvent s i).toList ++
    (((s.mat2OutOut f i).map fun m2o => .first (first m2o)).toList ++
      ((i.deqWrite.map .deqWrite).toList ++ (i.enq.map .enq).toList))

/-- The RAMs answer with the set of the array. -/
theorem Reads.sees (holds : Holds s array) (req : EnqReq t)
    (reads : Reads s (f.getIndex req.cmd)) :
    s.infoVec req.toMatch = (fun w => array.info w (f.getIndex req.cmd)) ∧
      s.repInfo req.toMatch = array.rep (f.getIndex req.cmd) ∧
      ∀ w line, array.line w (f.getIndex req.cmd) = some line → (s.dataRam w).rdResp = line := by
  refine ⟨funext fun w => ?_, ?_, ?_⟩
  · apply (holds.info w).rdResp
    rw [reads.info w]
  · apply holds.rep.rdResp
    rw [reads.rep]
  · intro w line known
    apply (holds.line w).rdResp
    rw [reads.data w]
    exact known

theorem match_steps (sim : Sim f s a) (env : Environment f s i) :
    ∃ waiting placed, Steps (Step f) a (tagMatchEvent s i).toList ⟨a.array, waiting, placed⟩ ∧
      Waits f s (s.enq2MatEnq i) waiting ∧ ShownLine f a.array (s.mat2OutOut f i) placed := by
  cases fires : i.doTagMatch with
  | none =>
      have none_ : s.matched f i = none := by
        rw [matched, fires]
        cases s.enq2Mat <;> rfl
      have quiet : tagMatchEvent s i = none := by
        rw [tagMatchEvent, fires]
        cases s.enq2Mat <;> rfl
      rw [quiet]
      refine ⟨a.waiting, a.placed, .nil a, ?_, ?_⟩
      · rw [enq2MatEnq, fires]
        exact sim.waits
      · rw [mat2OutOut, none_]
        exact sim.shown
  | some chance =>
      obtain ⟨valid, free, -⟩ := env.doTagMatch (by rw [fires]; rfl)
      obtain ⟨e2m, stored⟩ := Option.isSome_iff_exists.mp valid
      have waits := sim.waits
      have shown := sim.shown
      rw [stored] at waits
      rw [Option.isNone_iff_eq_none.mp free] at shown
      obtain ⟨waiting, plain, reads⟩ := waits
      obtain ⟨infoVec, repInfo, line⟩ := Reads.sees sim.holds e2m.req reads
      rw [← plain] at infoVec repInfo
      have result : s.matched f i = some (match2Out f chance e2m (s.infoVec e2m) (s.repInfo e2m)
          fun w => some (s.dataRam w).rdResp) := by
        rw [matched, stored, fires]
      have event : tagMatchEvent s i =
          some (.tagMatch chance e2m.cmd (s.infoVec e2m) (s.repInfo e2m)) := by
        rw [tagMatchEvent, stored, fires]
      rw [event]
      refine ⟨[], some (.ofMatch f a.array chance e2m.req), Steps.one ?_, ?_, ?_⟩
      · rw [infoVec, repInfo]
        exact Step.tagMatch_one f chance waiting shown
      · rw [enq2MatEnq, fires]
        rfl
      · rw [mat2OutOut, result]
        have shows := match2Out_shows f chance e2m (congrFun infoVec) repInfo
          (fun w => some (s.dataRam w).rdResp) (fun w => (s.dataRam w).rdResp) line
        cases resp : e2m.respLine with
        | none =>
            refine ⟨_, (s.dataRam
              (tagMatch f chance e2m.cmd (s.infoVec e2m) (s.repInfo e2m)).way).rdResp,
              rfl, ?_, shows⟩
            simp only [match2Out, resp]
            rfl
        | some brought =>
            refine ⟨_, brought, rfl, ?_, ?_⟩
            · simp only [match2Out, resp]
              rfl
            · simp only [CCPipe.firstOut, match2Out, resp] at shows ⊢
              exact shows

theorem first_steps {waiting : List (EnqReq t)} {placed : Option (Placed t)}
    (shown : ShownLine f array (s.mat2OutOut f i) placed) :
    Steps (Step f) ⟨array, waiting, placed⟩
      ((s.mat2OutOut f i).map fun m2o => Event.first (first m2o)).toList
      ⟨array, waiting, placed⟩ := by
  cases out : s.mat2OutOut f i with
  | none => exact .nil _
  | some m2o =>
      rw [out] at shown
      obtain ⟨p, line, rfl, here, shows⟩ := shown
      have value : first m2o = some (CCPipe.firstOut line m2o) := by
        rw [first, here, CCPipe.firstOut, here]
        rfl
      apply Steps.one
      change Step f _ (.first (first m2o)) _
      rw [value]
      exact .first rfl shows

theorem deq_steps (env : Environment f s i) (waiting : List (EnqReq t))
    {placed : Option (Placed t)} (shown : ShownLine f array (s.mat2OutOut f i) placed) :
    ∃ placed', Steps (Step f) ⟨array, waiting, placed⟩ (i.deqWrite.map Event.deqWrite).toList
        ⟨array.behind (s.write f i), waiting, placed'⟩ ∧
      ShownLine f (array.behind (s.write f i)) (next f s i).mat2Out placed' := by
  cases called : i.deqWrite with
  | none =>
      have quiet : s.write f i = none := by
        rw [write, called]
        cases s.mat2OutOut f i <;> rfl
      rw [quiet]
      refine ⟨placed, .nil _, ?_⟩
      have stays : (next f s i).mat2Out = s.mat2OutOut f i := by
        simp only [next, called]
        cases s.mat2OutOut f i <;> rfl
      rw [stays]
      exact shown
  | some d =>
      obtain ⟨m2o, out⟩ := Option.isSome_iff_exists.mp (env.deqWrite (by rw [called]; rfl))
      rw [out] at shown
      obtain ⟨p, line, rfl, -, shows⟩ := shown
      have same : ramWrite f m2o d = p.write f array d := ramWrite_eq shows d rfl rfl rfl
      have wire : s.write f i = some (p.write f array d) := by
        rw [← same, write, out, called]
      rw [wire]
      refine ⟨p.swap d, .one (.deqWrite d rfl), ?_⟩
      simp only [next, out, called]
      cases swapped : swapIn f m2o d with
      | none =>
          have none_ : d.newCmd = none := Option.map_eq_none_iff.mp swapped
          rw [ShownLine, Placed.swap, none_]
          rfl
      | some after =>
          obtain ⟨q, new, here, showsNew⟩ := swapIn_shows d shows.cmd shows.way same
            (fun cmd call => env.newCmd m2o d cmd out called call) line swapped
          refine ⟨q, d.wrRam.line, new, here, ?_⟩
          rw [CCPipe.firstOut, here] at showsNew ⊢
          exact showsNew

theorem enq_steps (env : Environment f s i) (array : PlainArray t)
    (placed : Option (Placed t)) {waiting : List (EnqReq t)}
    (waits : Waits f s (s.enq2MatEnq i) waiting) :
    ∃ waiting', Steps (Step f) ⟨array, waiting, placed⟩ (i.enq.map Event.enq).toList
        ⟨array, waiting', placed⟩ ∧
      Waits f (next f s i) (next f s i).enq2Mat waiting' := by
  cases called : i.enq with
  | none =>
      refine ⟨waiting, .nil _, ?_⟩
      have kept : (next f s i).enq2Mat = s.enq2MatEnq i := by
        rw [next, called]
      rw [kept]
      cases stored : s.enq2MatEnq i with
      | none =>
          rw [stored] at waits
          exact waits
      | some e2m =>
          rw [stored] at waits
          obtain ⟨same, plain, reads⟩ := waits
          refine ⟨same, plain, ?_⟩
          constructor <;>
            simp only [next, Forwarded.next, Forwarded.readAddrD, calls, called, Option.map_none,
              Option.getD_none]
          · exact reads.info
          · exact reads.rep
          · exact reads.data
  | some req =>
      have empty := (env.enq (by rw [called]; rfl)).1
      rw [Option.isNone_iff_eq_none.mp empty] at waits
      obtain rfl : waiting = [] := waits
      refine ⟨[req], .one (.enq _ req), ?_⟩
      have stored : (next f s i).enq2Mat = some req.toMatch := by
        rw [next, called]
      rw [stored]
      refine ⟨rfl, rfl, ?_⟩
      constructor <;>
        simp only [next, Forwarded.next, Forwarded.readAddrD, calls, called, Option.map_some,
          Option.getD_some, EnqReq.toMatch, implies_true]

/-- Every cycle is a run of the abstract cache. -/
theorem Sim.next (sim : Sim f s a) (env : Environment f s i) :
    ∃ a', Steps (Step f) a (events f s i) a' ∧ Sim f (next f s i) a' := by
  obtain ⟨waiting, placed, tagMatch, waits, shown⟩ := match_steps sim env
  obtain ⟨placed', deq, shown'⟩ := deq_steps env waiting shown
  obtain ⟨waiting', enq, waits'⟩ :=
    enq_steps env (a.array.behind (s.write f i)) placed' waits
  refine ⟨_, tagMatch.append ((first_steps shown).append (deq.append enq)), ?_⟩
  exact ⟨sim.holds.next, waits', shown'⟩

end CCPipeSingleCycle

/-! ## Runs -/

section Runs

variable [DecidableEq t.Index]

/-- Whatever the methods of the cycles are, the abstract cache does what either pipeline does:
every tag match sees, and `first` always shows, the array behind all writes before. -/
theorem pipelines_atomic (f : PipeFunctions t) (array : PlainArray t) :
    (∀ start : CCPipe t, CCPipe.Initialized start array → ∀ cycles s,
      (CCPipe.machine f start).Run cycles s →
        ∃ a, Steps (Step f) (.start array) (log (CCPipe.events f) cycles) a) ∧
    (∀ start : CCPipeSingleCycle t, CCPipeSingleCycle.Initialized start array → ∀ cycles s,
      (CCPipeSingleCycle.machine f start).Run cycles s →
        ∃ a, Steps (Step f) (.start array) (log (CCPipeSingleCycle.events f) cycles) a) := by
  constructor
  · intro start ready cycles s run
    obtain ⟨a, steps, -⟩ := Steps.of_run (CCPipe.Sim f) ready.sim
      (fun _ _ _ _ env sim => CCPipe.Sim.next sim env) run
    exact ⟨a, steps⟩
  · intro start ready cycles s run
    obtain ⟨a, steps, -⟩ := Steps.of_run (CCPipeSingleCycle.Sim f) ready.sim
      (fun _ _ _ _ env sim => CCPipeSingleCycle.Sim.next sim env) run
    exact ⟨a, steps⟩

end Runs

section Example

variable [DecidableEq t.Index] (f : PipeFunctions t) (i : Input t)

instance (m2o : Option (Match2Out t)) : Decidable (Inherits f m2o i) :=
  decidable_of_iff ((m2o.all fun m => i.deqWrite.all fun d => d.newCmd.all fun cmd =>
      decide (f.getIndex cmd = f.getIndex m.cmd)) = true) <| by
    simp only [Option.all_eq_true, decide_eq_true_eq]
    constructor
    · intro all m d cmd out called new
      exact all m out d called cmd new
    · intro inherits m out d called cmd new
      exact inherits m d cmd out called new

instance (s : CCPipe t) : Decidable (CCPipe.Environment f s i) :=
  let _ : Decidable (s.DeqGuard i) := inferInstanceAs (Decidable (_ ∧ _))
  let _ : Decidable (s.MatchGuard f i) := inferInstanceAs (Decidable (_ ∧ _))
  let _ : Decidable (s.EnqGuard f i) := inferInstanceAs (Decidable (_ ∧ _))
  decidable_of_iff ((i.deqWrite.isSome = true → s.DeqGuard i) ∧
      (i.doTagMatch.isSome = true → s.MatchGuard f i) ∧ (i.enq.isSome = true → s.EnqGuard f i) ∧
      Inherits f s.mat2Out i)
    ⟨fun ⟨deqWrite, doTagMatch, enq, newCmd⟩ => ⟨deqWrite, doTagMatch, enq, newCmd⟩,
      fun ⟨deqWrite, doTagMatch, enq, newCmd⟩ => ⟨deqWrite, doTagMatch, enq, newCmd⟩⟩

instance (s : CCPipeSingleCycle t) : Decidable (CCPipeSingleCycle.Environment f s i) :=
  let _ : Decidable s.MatchGuard := inferInstanceAs (Decidable (_ ∧ _))
  let _ : Decidable (s.EnqGuard i) := inferInstanceAs (Decidable (_ ∧ _))
  decidable_of_iff ((i.deqWrite.isSome = true → (s.mat2OutOut f i).isSome = true) ∧
      (i.doTagMatch.isSome = true → s.MatchGuard) ∧ (i.enq.isSome = true → s.EnqGuard i) ∧
      Inherits f (s.mat2OutOut f i) i)
    ⟨fun ⟨deqWrite, doTagMatch, enq, newCmd⟩ => ⟨deqWrite, doTagMatch, enq, newCmd⟩,
      fun ⟨deqWrite, doTagMatch, enq, newCmd⟩ => ⟨deqWrite, doTagMatch, enq, newCmd⟩⟩

instance (start s : CCPipe t) (cycles : List (CCPipe t × Input t)) :
    Decidable ((CCPipe.machine f start).allowed cycles s i) :=
  inferInstanceAs (Decidable (CCPipe.Environment f s i))

instance (start s : CCPipeSingleCycle t) (cycles : List (CCPipeSingleCycle t × Input t)) :
    Decidable ((CCPipeSingleCycle.machine f start).allowed cycles s i) :=
  inferInstanceAs (Decidable (CCPipeSingleCycle.Environment f s i))

/-- Two ways; a command is its set and a number. -/
private abbrev smallTypes : PipeTypes where
  wayNum := 2
  Index := Bool
  Tag := Nat
  Msi := Nat
  Dir := Unit
  Owner := Unit
  Other := Unit
  Rep := Nat
  Line := Nat
  Cmd := Bool × Nat
  Chance := Unit

private def smallCache : PipeFunctions smallTypes where
  getIndex cmd := cmd.1
  tagMatch _ cmd tagVec _ _ _ := { way := if tagVec 1 = cmd.2 then 1 else 0, pRqMiss := false }
  updateByUpCs _ _ toState _ _ := toState
  updateByDownDir _ _ toState _ _ dir := { cs := toState, dir := dir }
  updateRepInfo _ rep _ := rep + 1

private def emptyArray : PlainArray smallTypes where
  info _ _ := { tag := 0, cs := 0, dir := (), owner := (), other := () }
  rep _ := 0
  line _ _ := none

private def swapping (newCmd : Option (Bool × Nat)) (tag line : Nat) : DeqWrite smallTypes where
  newCmd := newCmd
  wrRam := { info := { tag := tag, cs := 1, dir := (), owner := (), other := () }, line := line }
  updateRep := true
  chance := ()

private def request (cmd : Nat) : EnqReq smallTypes where
  cmd := (false, cmd)
  respLine := none
  toState := .upCs 2

private def emptyPipe : CCPipe smallTypes where
  enq2Mat := none
  mat2Out := none
  infoRam w := { ram := emptyArray.info w, out := emptyArray.info w true, rdReqQ := false }
  repRam := { ram := emptyArray.rep, out := 7, rdReqQ := false }
  dataRam := { ram := fun _ => 7, out := 7, rdReqQ := false }

private def emptySingleCycle : CCPipeSingleCycle smallTypes where
  enq2Mat := none
  mat2Out := none
  infoRam w :=
    { ram := emptyArray.info w, out := emptyArray.info w true, rdReqQ := false, readAddr := true
      currentWriteAddr := true, currentWriteData := emptyArray.info w true }
  repRam :=
    { ram := emptyArray.rep, out := 0, rdReqQ := false, readAddr := true
      currentWriteAddr := true, currentWriteData := 0 }
  dataRam _ :=
    { ram := fun _ => 7, out := 7, rdReqQ := false, readAddr := true
      currentWriteAddr := true, currentWriteData := 8 }

/-- The first command is replaced by another while two more wait for the same set. -/
private def pipeCalls : List (Input smallTypes) :=
  [{ enq := some (request 1) },
    { doTagMatch := some (), enq := some (request 2) },
    { deqWrite := some (swapping (some (false, 3)) 1 10) },
    { deqWrite := some (swapping none 1 30), doTagMatch := some (), enq := some (request 4) },
    { deqWrite := some (swapping none 2 20), doTagMatch := some () },
    { deqWrite := some (swapping none 4 40) }]

/-- The same with the tag match and the write of a command in one cycle. -/
private def singleCycleCalls : List (Input smallTypes) :=
  [{ enq := some (request 1) },
    { doTagMatch := some (), deqWrite := some (swapping (some (false, 3)) 1 10)
      enq := some (request 2) },
    { deqWrite := some (swapping none 1 30) },
    { doTagMatch := some (), deqWrite := some (swapping none 2 20), enq := some (request 4) },
    { doTagMatch := some (), deqWrite := some (swapping none 4 40) }]

theorem pipelines_atomic_swapping :
    (∃ a, Steps (Step smallCache) (.start emptyArray) (log (CCPipe.events smallCache)
      ((CCPipe.machine smallCache emptyPipe).cyclesOf emptyPipe pipeCalls)) a) ∧
    ∃ a, Steps (Step smallCache) (.start emptyArray) (log (CCPipeSingleCycle.events smallCache)
      ((CCPipeSingleCycle.machine smallCache emptySingleCycle).cyclesOf emptySingleCycle
        singleCycleCalls)) a := by
  obtain ⟨pipe, singleCycle⟩ := pipelines_atomic smallCache emptyArray
  constructor
  · refine pipe emptyPipe ⟨rfl, rfl, ?_⟩ _ _
      (Clocked.Machine.run_of_accepts pipeCalls (by decide +kernel))
    constructor
    · intro w index info known
      exact Option.some.inj known
    · intro index rep known
      exact Option.some.inj known
    · intro at_ line known
      cases known
  · refine singleCycle emptySingleCycle ⟨rfl, rfl, ?_⟩ _ _
      (Clocked.Machine.run_of_accepts singleCycleCalls (by decide +kernel))
    constructor
    · intro w
      exact ⟨fun _ _ known => Option.some.inj known, fun _ known => Option.some.inj known,
        fun apart => absurd rfl apart⟩
    · exact ⟨fun _ _ known => Option.some.inj known, fun _ known => Option.some.inj known,
        fun apart => absurd rfl apart⟩
    · intro w
      exact ⟨nofun, nofun, fun apart => absurd rfl apart⟩

end Example

end Toooba.CachePipes
