import RiscvCores.Lib.Clocked
import RiscvCores.Toooba.RWBramCore

/-!
# The cache pipelines

`mkCCPipe` and `mkCCPipeSingleCycle` after the initialization of their RAMs.  A
command is enqueued, matched against the tags of its set and then stays at the
output until it writes its way back; a command swapped in takes its place there.
A cycle calls the methods that its input names; every guard is a predicate.

The functions of the cache are actions and may look at state of their own, so
each call comes with a `Chance`.
-/

set_option autoImplicit false

namespace Toooba.CachePipes

open Toooba.RWBramCore

/-! ## Data -/

structure PipeTypes where
  wayNum : Nat
  Index : Type
  Tag : Type
  Msi : Type
  Dir : Type
  Owner : Type
  Other : Type
  Rep : Type
  Line : Type
  Cmd : Type
  Chance : Type

abbrev PipeTypes.Way (t : PipeTypes) : Type := Fin t.wayNum

variable {t : PipeTypes}

structure CacheInfo (t : PipeTypes) where
  tag : t.Tag
  cs : t.Msi
  dir : t.Dir
  owner : t.Owner
  other : t.Other

structure RamData (t : PipeTypes) where
  info : CacheInfo t
  line : t.Line

inductive RespState (t : PipeTypes) where
  | invalid
  | downDir (toState : t.Msi)
  | upCs (toState : t.Msi)

structure PipeOut (t : PipeTypes) where
  cmd : t.Cmd
  way : t.Way
  pRqMiss : Bool
  ram : RamData t
  repInfo : t.Rep

structure Enq2Match (t : PipeTypes) where
  cmd : t.Cmd
  infoVec : t.Way → Option (CacheInfo t)
  repInfo : Option t.Rep
  respLine : Option t.Line
  toState : RespState t

structure Match2Out (t : PipeTypes) where
  cmd : t.Cmd
  way : t.Way
  pRqMiss : Bool
  info : CacheInfo t
  repInfo : t.Rep
  line : Option t.Line

structure BypassInfo (t : PipeTypes) where
  index : t.Index
  way : t.Way
  ram : RamData t
  repInfo : t.Rep

structure TagMatchResult (t : PipeTypes) where
  way : t.Way
  pRqMiss : Bool

structure UpdateByDownDir (t : PipeTypes) where
  cs : t.Msi
  dir : t.Dir

/-- What a cache instantiates the pipeline with. -/
structure PipeFunctions (t : PipeTypes) where
  getIndex : t.Cmd → t.Index
  tagMatch : t.Chance → t.Cmd → (t.Way → t.Tag) → (t.Way → t.Msi) → (t.Way → t.Owner) → t.Rep →
    TagMatchResult t
  updateByUpCs : t.Chance → t.Cmd → t.Msi → Bool → t.Msi → t.Msi
  updateByDownDir : t.Chance → t.Cmd → t.Msi → Bool → t.Msi → t.Dir → UpdateByDownDir t
  updateRepInfo : t.Chance → t.Rep → t.Way → t.Rep

/-- The arguments of `enq`. -/
structure EnqReq (t : PipeTypes) where
  cmd : t.Cmd
  respLine : Option t.Line
  toState : RespState t

/-- The arguments of `deqWrite`. -/
structure DeqWrite (t : PipeTypes) where
  newCmd : Option t.Cmd
  wrRam : RamData t
  updateRep : Bool
  chance : t.Chance

/-- The methods and the rule that a cycle runs. -/
structure Input (t : PipeTypes) where
  deqWrite : Option (DeqWrite t) := none
  doTagMatch : Option t.Chance := none
  enq : Option (EnqReq t) := none

/-! ## Steps that both pipelines share -/

section Shared

variable (f : PipeFunctions t)

def tagMatch (chance : t.Chance) (cmd : t.Cmd) (infoVec : t.Way → CacheInfo t) (repInfo : t.Rep) :
    TagMatchResult t :=
  f.tagMatch chance cmd (fun w => (infoVec w).tag) (fun w => (infoVec w).cs)
    (fun w => (infoVec w).owner) repInfo

/-- The state of a way with what the command brings. -/
def mergeInfo (chance : t.Chance) (req : EnqReq t) (info : CacheInfo t) : CacheInfo t :=
  match req.toState with
  | .invalid => info
  | .upCs s => { info with cs := f.updateByUpCs chance req.cmd s req.respLine.isSome info.cs }
  | .downDir s =>
      let upd := f.updateByDownDir chance req.cmd s req.respLine.isSome info.cs info.dir
      { info with cs := upd.cs, dir := upd.dir }

def Enq2Match.req (e2m : Enq2Match t) : EnqReq t := ⟨e2m.cmd, e2m.respLine, e2m.toState⟩

/-- `e2m` without a bypass. -/
def EnqReq.toMatch (req : EnqReq t) : Enq2Match t where
  cmd := req.cmd
  infoVec _ := none
  repInfo := none
  respLine := req.respLine
  toState := req.toState

/-- The result of `doTagMatch` for what it saw of the RAMs. -/
def match2Out (chance : t.Chance) (e2m : Enq2Match t) (infoVec : t.Way → CacheInfo t)
    (repInfo : t.Rep) (line : t.Way → Option t.Line) : Match2Out t :=
  let tmRes := tagMatch f chance e2m.cmd infoVec repInfo
  { cmd := e2m.cmd
    way := tmRes.way
    pRqMiss := tmRes.pRqMiss
    info := mergeInfo f chance e2m.req (infoVec tmRes.way)
    repInfo := repInfo
    line := e2m.respLine <|> line tmRes.way }

variable (m2o : Match2Out t) (d : DeqWrite t)

/-- What `deqWrite` writes. -/
def ramWrite : BypassInfo t where
  index := f.getIndex m2o.cmd
  way := m2o.way
  ram := d.wrRam
  repInfo := if d.updateRep then f.updateRepInfo d.chance m2o.repInfo m2o.way else m2o.repInfo

/-- What stays at the output after `deqWrite`. -/
def swapIn : Option (Match2Out t) :=
  d.newCmd.map fun cmd =>
    { cmd := cmd
      way := m2o.way
      pRqMiss := false
      info := d.wrRam.info
      repInfo := (ramWrite f m2o d).repInfo
      line := some d.wrRam.line }

variable [DecidableEq t.Index]

/-- A cache gives a command that it swaps in the address of the one whose place it takes. -/
def Inherits (m2o : Option (Match2Out t)) (i : Input t) : Prop :=
  ∀ m d cmd, m2o = some m → i.deqWrite = some d → d.newCmd = some cmd →
    f.getIndex cmd = f.getIndex m.cmd

/-- What a write puts into the RAM of one way. -/
def BypassInfo.toWay {D : Type} (b : Option (BypassInfo t)) (data : RamData t → D) (w : t.Way) :
    Option (t.Index × D) :=
  b.bind fun b => if b.way = w then some (b.index, data b.ram) else none

def BypassInfo.toRep (b : Option (BypassInfo t)) : Option (t.Index × t.Rep) :=
  b.map fun b => (b.index, b.repInfo)

end Shared

/-! ## `mkCCPipe` -/

structure CCPipe (t : PipeTypes) where
  enq2Mat : Option (Enq2Match t)
  mat2Out : Option (Match2Out t)
  infoRam : t.Way → Bram t.Index (CacheInfo t)
  repRam : Bram t.Index t.Rep
  dataRam : Bram (t.Way × t.Index) t.Line

namespace CCPipe

variable [DecidableEq t.Index] (f : PipeFunctions t) (s : CCPipe t) (i : Input t)

/-- The wire `bypass`. -/
def bypass : Option (BypassInfo t) :=
  match s.mat2Out, i.deqWrite with
  | some m2o, some d => some (ramWrite f m2o d)
  | _, _ => none

/-- Port 1 of `mat2Out`, behind `deqWrite`. -/
def mat2OutMatch : Option (Match2Out t) :=
  match s.mat2Out, i.deqWrite with
  | some m2o, some d => swapIn f m2o d
  | m2o, _ => m2o

/-- `doMatch_bypass`, and the bypass in `enq`. -/
def getBypass (b : Option (BypassInfo t)) (e2m : Enq2Match t) : Enq2Match t :=
  match b with
  | some b =>
      if b.index = f.getIndex e2m.cmd then
        { e2m with
          infoVec := Function.update e2m.infoVec b.way (some b.ram.info)
          repInfo := some b.repInfo }
      else e2m
  | none => e2m

/-- Port 1 of `enq2Mat`, behind `doMatch_bypass`. -/
def enq2MatMatch : Option (Enq2Match t) := s.enq2Mat.map (getBypass f (s.bypass f i))

def infoVec (e2m : Enq2Match t) (w : t.Way) : CacheInfo t := (e2m.infoVec w).getD (s.infoRam w).out

def repInfo (e2m : Enq2Match t) : t.Rep := e2m.repInfo.getD s.repRam.out

/-- The line that `deqWrite` writes to a way of the set in the same cycle. -/
def lineBypass (e2m : Enq2Match t) (w : t.Way) : Option t.Line :=
  (s.bypass f i).bind fun b =>
    if b.index = f.getIndex e2m.cmd ∧ b.way = w then some b.ram.line else none

/-- What `doTagMatch` puts into `mat2Out`. -/
def matched : Option (Match2Out t) :=
  match s.enq2MatMatch f i, i.doTagMatch with
  | some e2m, some chance =>
      some (match2Out f chance e2m (s.infoVec e2m) (s.repInfo e2m) (s.lineBypass f i e2m))
  | _, _ => none

/-- Port 2 of `enq2Mat`, behind `doTagMatch`. -/
def enq2MatEnq : Option (Enq2Match t) :=
  if i.doTagMatch.isSome then none else s.enq2MatMatch f i

def firstOut (rdResp : t.Line) (m2o : Match2Out t) : PipeOut t where
  cmd := m2o.cmd
  way := m2o.way
  pRqMiss := m2o.pRqMiss
  ram := { info := m2o.info, line := m2o.line.getD rdResp }
  repInfo := m2o.repInfo

/-- `first`, if the answer of the data RAM is there. -/
def first (m2o : Match2Out t) : Option (PipeOut t) :=
  if s.dataRam.rdReqQ then some (firstOut s.dataRam.out m2o) else none

/-- `deqWrite` without a new command takes the answer of the data RAM. -/
def dataDeq : Bool := i.deqWrite.any fun d => d.newCmd.isNone

def DeqGuard : Prop := s.mat2Out.isSome = true ∧ (dataDeq i = true → s.dataRam.rdReqQ = true)

def MatchGuard : Prop :=
  s.enq2Mat.isSome = true ∧ (s.mat2OutMatch f i).isNone = true ∧
    (∀ w, (s.infoRam w).rdReqQ = true) ∧ s.repRam.rdReqQ = true ∧
    s.dataRam.rdReqGuard (dataDeq i) = true

def EnqGuard : Prop :=
  (s.enq2MatEnq f i).isNone = true ∧
    (∀ w, (s.infoRam w).rdReqGuard i.doTagMatch.isSome = true) ∧
    s.repRam.rdReqGuard i.doTagMatch.isSome = true

def infoCalls (w : t.Way) : Calls t.Index (CacheInfo t) where
  wrReq := BypassInfo.toWay (s.bypass f i) RamData.info w
  deqRdResp := i.doTagMatch.isSome
  rdReq := i.enq.map fun req => f.getIndex req.cmd

def repCalls : Calls t.Index t.Rep where
  wrReq := BypassInfo.toRep (s.bypass f i)
  deqRdResp := i.doTagMatch.isSome
  rdReq := i.enq.map fun req => f.getIndex req.cmd

/-- The index of the data RAM is the way and the index of the set. -/
def dataCalls : Calls (t.Way × t.Index) t.Line where
  wrReq := (s.bypass f i).map fun b => ((b.way, b.index), b.ram.line)
  deqRdResp := dataDeq i
  rdReq := (s.matched f i).map fun m2o => (m2o.way, f.getIndex m2o.cmd)

def next : CCPipe t where
  enq2Mat := match i.enq with
    | some req => some (getBypass f (s.bypass f i) req.toMatch)
    | none => s.enq2MatEnq f i
  mat2Out := match s.matched f i with
    | some m2o => some m2o
    | none => s.mat2OutMatch f i
  infoRam w := (s.infoRam w).next (s.infoCalls f i w)
  repRam := s.repRam.next (s.repCalls f i)
  dataRam := s.dataRam.next (s.dataCalls f i)

/-- Methods are called when their guards hold. -/
structure Environment : Prop where
  deqWrite : i.deqWrite.isSome = true → s.DeqGuard i
  doTagMatch : i.doTagMatch.isSome = true → s.MatchGuard f i
  enq : i.enq.isSome = true → s.EnqGuard f i
  newCmd : Inherits f s.mat2Out i

def machine (start : CCPipe t) : Clocked.Machine (CCPipe t) (Input t) where
  reset := start
  next := next f
  allowed _ s i := Environment f s i

end CCPipe

/-! ## `mkCCPipeSingleCycle` -/

structure CCPipeSingleCycle (t : PipeTypes) where
  enq2Mat : Option (Enq2Match t)
  mat2Out : Option (Match2Out t)
  infoRam : t.Way → Forwarded t.Index (CacheInfo t)
  repRam : Forwarded t.Index t.Rep
  dataRam : t.Way → Forwarded t.Index t.Line

namespace CCPipeSingleCycle

variable [DecidableEq t.Index] (f : PipeFunctions t) (s : CCPipeSingleCycle t) (i : Input t)

def infoVec (e2m : Enq2Match t) (w : t.Way) : CacheInfo t :=
  (e2m.infoVec w).getD (s.infoRam w).rdResp

def repInfo (e2m : Enq2Match t) : t.Rep := e2m.repInfo.getD s.repRam.rdResp

def matched : Option (Match2Out t) :=
  match s.enq2Mat, i.doTagMatch with
  | some e2m, some chance =>
      some (match2Out f chance e2m (s.infoVec e2m) (s.repInfo e2m)
        fun w => some (s.dataRam w).rdResp)
  | _, _ => none

/-- Port 1 of `mat2Out`, behind `doTagMatch`. -/
def mat2OutOut : Option (Match2Out t) :=
  match s.matched f i with
  | some m2o => some m2o
  | none => s.mat2Out

/-- Port 1 of `enq2Mat`, behind `doTagMatch`. -/
def enq2MatEnq : Option (Enq2Match t) := if i.doTagMatch.isSome then none else s.enq2Mat

/-- `first`, which takes the line of the register for granted. -/
def first (m2o : Match2Out t) : Option (PipeOut t) :=
  m2o.line.map fun line =>
    { cmd := m2o.cmd
      way := m2o.way
      pRqMiss := m2o.pRqMiss
      ram := { info := m2o.info, line := line }
      repInfo := m2o.repInfo }

/-- The write of `deqWrite`. -/
def write : Option (BypassInfo t) :=
  match s.mat2OutOut f i, i.deqWrite with
  | some m2o, some d => some (ramWrite f m2o d)
  | _, _ => none

def MatchGuard : Prop :=
  s.enq2Mat.isSome = true ∧ s.mat2Out.isNone = true ∧
    (∀ w, (s.infoRam w).rdReqQ = true ∧ (s.dataRam w).rdReqQ = true) ∧ s.repRam.rdReqQ = true

def EnqGuard : Prop :=
  (s.enq2MatEnq i).isNone = true ∧
    (∀ w, (s.infoRam w).rdReqGuard i.doTagMatch.isSome = true ∧
      (s.dataRam w).rdReqGuard i.doTagMatch.isSome = true) ∧
    s.repRam.rdReqGuard i.doTagMatch.isSome = true

/-- The calls to a RAM; all of them are read for `enq`. -/
def calls {D : Type} (wrReq : Option (t.Index × D)) : Calls t.Index D where
  wrReq := wrReq
  deqRdResp := i.doTagMatch.isSome
  rdReq := i.enq.map fun req => f.getIndex req.cmd

def next : CCPipeSingleCycle t where
  enq2Mat := match i.enq with
    | some req => some req.toMatch
    | none => s.enq2MatEnq i
  mat2Out := match s.mat2OutOut f i, i.deqWrite with
    | some m2o, some d => swapIn f m2o d
    | m2o, _ => m2o
  infoRam w :=
    (s.infoRam w).next (calls f i (BypassInfo.toWay (s.write f i) RamData.info w))
  repRam := s.repRam.next (calls f i (BypassInfo.toRep (s.write f i)))
  dataRam w :=
    (s.dataRam w).next (calls f i (BypassInfo.toWay (s.write f i) RamData.line w))

/-- As for `mkCCPipe`; the output is the one behind `doTagMatch`. -/
structure Environment : Prop where
  deqWrite : i.deqWrite.isSome = true → (s.mat2OutOut f i).isSome = true
  doTagMatch : i.doTagMatch.isSome = true → s.MatchGuard
  enq : i.enq.isSome = true → s.EnqGuard i
  newCmd : Inherits f (s.mat2OutOut f i) i

def machine (start : CCPipeSingleCycle t) : Clocked.Machine (CCPipeSingleCycle t) (Input t) where
  reset := start
  next := next f
  allowed _ s i := Environment f s i

end CCPipeSingleCycle

end Toooba.CachePipes
