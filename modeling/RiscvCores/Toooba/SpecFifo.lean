import Mathlib.Tactic.MkIffOfInductiveProp
import RiscvCores.Lib.Clocked
import RiscvCores.Lib.HoledRing

/-!
# `mkSpecFifo`, `mkSpecFifoCF` and `mkSpecFifoCF2`

Three FIFOs whose elements carry speculation bits.  `mkSpecFifo` kills and resolves in the cycle
of the call, with the ports of its registers given by the schedule; `mkSpecFifoCF` does both in
the next cycle; `mkSpecFifoCF2` kills in the cycle of the call and resolves in the next.
-/

set_option autoImplicit false

namespace Toooba.SpecFifos

open Clocked

abbrev SpecBits (numSpecTags : Nat) : Type := BitVec numSpecTags

abbrev SpecTag (numSpecTags : Nat) : Type := Fin numSpecTags

variable {size numSpecTags : Nat} [NeZero size] {t : Type}

structure ToSpecFifo (numSpecTags : Nat) (t : Type) where
  data : t
  spec_bits : SpecBits numSpecTags

structure IncorrectSpeculation (numSpecTags : Nat) where
  kill_all : Bool
  specTag : SpecTag numSpecTags

def IncorrectSpeculation.kills (k : IncorrectSpeculation numSpecTags)
    (sb : SpecBits numSpecTags) : Bool :=
  k.kill_all || sb.getLsbD k.specTag.val

/-- The methods called in a cycle, and whether the rule `canon_deqP` fires. -/
structure Input (numSpecTags : Nat) (t : Type) where
  enq : Option (ToSpecFifo numSpecTags t)
  deq : Bool
  canon_deqP : Bool
  correctSpeculation : Option (SpecBits numSpecTags)
  incorrectSpeculation : Option (IncorrectSpeculation numSpecTags)

def Input.idle : Input numSpecTags t where
  enq := none
  deq := false
  canon_deqP := false
  correctSpeculation := none
  incorrectSpeculation := none

/-- The registers all three have. -/
structure State (size numSpecTags : Nat) (t : Type) where
  valid : Fin size → Bool
  row : Fin size → t
  specBits : Fin size → SpecBits numSpecTags
  enqP : Fin size
  deqP : Fin size

def getNextPtr (p : Fin size) : Fin size :=
  if p.val = size - 1 then 0 else p + 1

def allFalse (valid : Fin size → Bool) : Bool := decide (∀ k, valid k = false)

/-- Registers after reset; those without a reset value hold anything. -/
def State.initial (row : Fin size → t) (specBits : Fin size → SpecBits numSpecTags) :
    State size numSpecTags t where
  valid _ := false
  row := row
  specBits := specBits
  enqP := 0
  deqP := 0

namespace State

variable (s : State size numSpecTags t) (i : Input numSpecTags t)

/-- `deqP_ehr[1]`, after `deq` or `canon_deqP`. -/
def deqP_ehr1 : Fin size := if i.deq || i.canon_deqP then getNextPtr s.deqP else s.deqP

def next_enqP : Fin size := if i.enq.isSome then getNextPtr s.enqP else s.enqP

def next_row : Fin size → t :=
  match i.enq with
  | some x => Function.update s.row s.enqP x.data
  | none => s.row

end State

/-- A slot's element, when it is valid. -/
def elements (valid : Fin size → Bool) (row : Fin size → t)
    (specBits : Fin size → SpecBits numSpecTags) (k : Fin size) :
    Option (ToSpecFifo numSpecTags t) :=
  if valid k then some { data := row k, spec_bits := specBits k } else none

/-! ## The interface -/

/-- The methods with their guards, the guard of `canon_deqP`, the asserted bit `valid_for_enq`
and the slots as the methods of a cycle see them. -/
structure SpecFifo (S : Type) (size numSpecTags : Nat) (t : Type) where
  reset : S
  next : S → Input numSpecTags t → S
  enq : S → Input numSpecTags t → Bool
  deq : S → Input numSpecTags t → Bool
  canon_deqP : S → Input numSpecTags t → Bool
  notFull : S → Input numSpecTags t → Bool
  notEmpty : S → Input numSpecTags t → Bool
  first : S → Input numSpecTags t → Option (ToSpecFifo numSpecTags t)
  valid_for_enq : S → Input numSpecTags t → Bool
  slots : S → Fin size → Option (ToSpecFifo numSpecTags t)
  head : S → Fin size

/-- The guards hold, and no tag is resolved both ways in one cycle. -/
@[mk_iff]
structure SpecFifo.Allowed {S : Type} (fifo : SpecFifo S size numSpecTags t) (s : S)
    (i : Input numSpecTags t) : Prop where
  enq : i.enq.isSome = true → fifo.enq s i = true
  deq : i.deq = true → fifo.deq s i = true
  canon_deqP : i.canon_deqP = true → fifo.canon_deqP s i = true
  resolved : ∀ k ∈ i.incorrectSpeculation, ∀ mask ∈ i.correctSpeculation,
    k.kill_all = true ∨ mask.getLsbD k.specTag.val = true

def SpecFifo.machine {S : Type} (fifo : SpecFifo S size numSpecTags t) :
    Machine S (Input numSpecTags t) where
  reset := fifo.reset
  next := fifo.next
  allowed _ s i := fifo.Allowed s i

/-! ## `mkSpecFifo` -/

structure SpecFifoSched where
  validDeqPort : Nat
  validEnqPort : Nat
  validWrongSpecPort : Nat
  sbDeqPort : Nat
  sbEnqPort : Nat
  sbWrongSpecPort : Nat
  wrongSpec_conflict_enq : Bool
  wrongSpec_conflict_deq : Bool
  wrongSpec_conflict_canon : Bool

/-- The parameters of the module, with those of its interface. -/
structure Params where
  sched : SpecFifoSched
  validPortNum : Nat
  sbPortNum : Nat
  lazyEnq : Bool

namespace MkSpecFifo

variable (p : Params) (s : State size numSpecTags t) (i : Input numSpecTags t)

/-- The last port. -/
def sbCorrectSpecPort : Nat := p.sbPortNum - 1

/-- What is written to `specBits` at one of its ports. -/
def writeSpecBits (specBits : Fin size → SpecBits numSpecTags) (port : Nat) :
    Fin size → SpecBits numSpecTags :=
  let enqueued := match i.enq with
    | some x =>
        if p.sched.sbEnqPort = port then Function.update specBits s.enqP x.spec_bits
        else specBits
    | none => specBits
  match i.correctSpeculation with
  | some mask =>
      if sbCorrectSpecPort p = port then fun k => enqueued k &&& mask else enqueued
  | none => enqueued

/-- `specBits` as read at a port, after the writes of the ports before it. -/
def specBitsAt (port : Nat) : Fin size → SpecBits numSpecTags :=
  (List.range port).foldl (writeSpecBits p s i) s.specBits

/-- What is written to `valid` at one of its ports. -/
def writeValid (valid : Fin size → Bool) (port : Nat) : Fin size → Bool :=
  let dequeued :=
    if i.deq = true ∧ p.sched.validDeqPort = port then Function.update valid s.deqP false
    else valid
  let enqueued :=
    if i.enq.isSome = true ∧ p.sched.validEnqPort = port then
      Function.update dequeued s.enqP true
    else dequeued
  match i.incorrectSpeculation with
  | some incSpec =>
      if p.sched.validWrongSpecPort = port then
        fun k => enqueued k && !incSpec.kills (specBitsAt p s i p.sched.sbWrongSpecPort k)
      else enqueued
  | none => enqueued

def validAt (port : Nat) : Fin size → Bool :=
  (List.range port).foldl (writeValid p s i) s.valid

/-- `incorrectSpeculation` is called and conflicts. -/
def conflict (declared : Bool) : Bool := declared && i.incorrectSpeculation.isSome

def canon_deqP : Bool :=
  !validAt p s i p.sched.validDeqPort s.deqP &&
    (s.enqP != s.deqP || !allFalse (validAt p s i p.sched.validDeqPort)) &&
    !conflict i p.sched.wrongSpec_conflict_canon

def deqP_for_enq : Fin size := if p.lazyEnq then s.deqP else s.deqP_ehr1 i

def empty_for_enq : Bool :=
  if p.lazyEnq then allFalse (validAt p s i 0) else allFalse (validAt p s i p.sched.validEnqPort)

def valid_for_enq : Bool :=
  if p.lazyEnq then validAt p s i 0 s.enqP else validAt p s i p.sched.validEnqPort s.enqP

def notFull : Bool := empty_for_enq p s i || s.enqP != deqP_for_enq p s i

def enq : Bool := notFull p s i && !conflict i p.sched.wrongSpec_conflict_enq

def notEmpty : Bool := validAt p s i p.sched.validDeqPort s.deqP

def deq : Bool := notEmpty p s i && !conflict i p.sched.wrongSpec_conflict_deq

def first : Option (ToSpecFifo numSpecTags t) :=
  if notEmpty p s i then
    some { data := s.row s.deqP, spec_bits := specBitsAt p s i p.sched.sbDeqPort s.deqP }
  else none

def next : State size numSpecTags t where
  valid := validAt p s i p.validPortNum
  row := s.next_row i
  specBits := specBitsAt p s i p.sbPortNum
  enqP := s.next_enqP i
  deqP := s.deqP_ehr1 i

end MkSpecFifo

def mkSpecFifo (p : Params) (row : Fin size → t) (specBits : Fin size → SpecBits numSpecTags) :
    SpecFifo (State size numSpecTags t) size numSpecTags t where
  reset := .initial row specBits
  next := MkSpecFifo.next p
  enq := MkSpecFifo.enq p
  deq := MkSpecFifo.deq p
  canon_deqP := MkSpecFifo.canon_deqP p
  notFull := MkSpecFifo.notFull p
  notEmpty := MkSpecFifo.notEmpty p
  first := MkSpecFifo.first p
  valid_for_enq := MkSpecFifo.valid_for_enq p
  slots s := elements s.valid s.row s.specBits
  head s := s.deqP

/-! ## `mkSpecFifoCF` -/

/-- The registers with the calls of the cycle before. -/
structure StateCF (size numSpecTags : Nat) (t : Type) extends State size numSpecTags t where
  correctSpec : Option (SpecBits numSpecTags)
  incorrectSpec : Option (IncorrectSpeculation numSpecTags)

namespace MkSpecFifoCF

variable (lazyEnq : Bool) (s : StateCF size numSpecTags t) (i : Input numSpecTags t)

/-- `specBits[1]`, after `canon_speculation`. -/
def newSpecBits : Fin size → SpecBits numSpecTags :=
  match s.correctSpec with
  | some mask => fun k => s.specBits k &&& mask
  | none => s.specBits

/-- `valid[1]`, after `canon_speculation`. -/
def newValid : Fin size → Bool :=
  match s.incorrectSpec with
  | some incSpec => fun k => s.valid k && !incSpec.kills (newSpecBits s k)
  | none => s.valid

/-- `valid[2]`, after `deq`. -/
def valid2 : Fin size → Bool :=
  if i.deq then Function.update (newValid s) s.deqP false else newValid s

/-- The emptiness is that before `canon_speculation`. -/
def canon_deqP : Bool := !newValid s s.deqP && (s.enqP != s.deqP || !allFalse s.valid)

def deqP_for_enq : Fin size := if lazyEnq then s.deqP else s.deqP_ehr1 i

def empty_for_enq : Bool := if lazyEnq then allFalse (newValid s) else allFalse (valid2 s i)

def valid_for_enq : Bool := if lazyEnq then newValid s s.enqP else valid2 s i s.enqP

def notFull : Bool := empty_for_enq lazyEnq s i || s.enqP != deqP_for_enq lazyEnq s i

def notEmpty : Bool := newValid s s.deqP

def first : Option (ToSpecFifo numSpecTags t) :=
  if notEmpty s then some { data := s.row s.deqP, spec_bits := newSpecBits s s.deqP } else none

def next : StateCF size numSpecTags t where
  valid := if i.enq.isSome then Function.update (valid2 s i) s.enqP true else valid2 s i
  row := s.next_row i
  specBits := match i.enq with
    | some x => Function.update (newSpecBits s) s.enqP x.spec_bits
    | none => newSpecBits s
  enqP := s.next_enqP i
  deqP := s.deqP_ehr1 i
  correctSpec := i.correctSpeculation
  incorrectSpec := i.incorrectSpeculation

end MkSpecFifoCF

def mkSpecFifoCF (lazyEnq : Bool) (row : Fin size → t)
    (specBits : Fin size → SpecBits numSpecTags) :
    SpecFifo (StateCF size numSpecTags t) size numSpecTags t where
  reset := { State.initial row specBits with correctSpec := none, incorrectSpec := none }
  next := MkSpecFifoCF.next
  enq := MkSpecFifoCF.notFull lazyEnq
  deq s _ := MkSpecFifoCF.notEmpty s
  canon_deqP s _ := MkSpecFifoCF.canon_deqP s
  notFull := MkSpecFifoCF.notFull lazyEnq
  notEmpty s _ := MkSpecFifoCF.notEmpty s
  first s _ := MkSpecFifoCF.first s
  valid_for_enq := MkSpecFifoCF.valid_for_enq lazyEnq
  slots s := elements (MkSpecFifoCF.newValid s) s.row (MkSpecFifoCF.newSpecBits s)
  head s := s.deqP

/-! ## `mkSpecFifoCF2` -/

/-- The registers with the resolution of the cycle before. -/
structure StateCF2 (size numSpecTags : Nat) (t : Type) extends State size numSpecTags t where
  correctSpec : Option (SpecBits numSpecTags)

namespace MkSpecFifoCF2

variable (lazyEnq : Bool) (s : StateCF2 size numSpecTags t) (i : Input numSpecTags t)

/-- `specBits[1]`, after `canon_speculation`. -/
def newSpecBits : Fin size → SpecBits numSpecTags :=
  match s.correctSpec with
  | some mask => fun k => s.specBits k &&& mask
  | none => s.specBits

/-- What `incorrectSpeculation` leaves.  It reads `specBits[0]`, before `canon_speculation`. -/
def newValid (incSpec : IncorrectSpeculation numSpecTags) : Fin size → Bool :=
  fun k => s.valid k && !incSpec.kills (s.specBits k)

/-- `valid[1]`, after `deq` or `incorrectSpeculation`. -/
def valid1 : Fin size → Bool :=
  match i.incorrectSpeculation with
  | some incSpec => newValid s incSpec
  | none => if i.deq then Function.update s.valid s.deqP false else s.valid

def wrongSpec_conflict : Bool := i.incorrectSpeculation.isSome

def canon_deqP : Bool :=
  !s.valid s.deqP && ((s.enqP != s.deqP || !allFalse s.valid) && !wrongSpec_conflict i)

def deqP_for_enq : Fin size := if lazyEnq then s.deqP else s.deqP_ehr1 i

def empty_for_enq : Bool := if lazyEnq then allFalse s.valid else allFalse (valid1 s i)

def valid_for_enq : Bool := if lazyEnq then s.valid s.enqP else valid1 s i s.enqP

def notFull : Bool := empty_for_enq lazyEnq s i || s.enqP != deqP_for_enq lazyEnq s i

def enq : Bool := notFull lazyEnq s i && !wrongSpec_conflict i

def notEmpty : Bool := s.valid s.deqP

def deq : Bool := notEmpty s && !wrongSpec_conflict i

def first : Option (ToSpecFifo numSpecTags t) :=
  if notEmpty s && !wrongSpec_conflict i then
    some { data := s.row s.deqP, spec_bits := newSpecBits s s.deqP }
  else none

def next : StateCF2 size numSpecTags t where
  valid := if i.enq.isSome then Function.update (valid1 s i) s.enqP true else valid1 s i
  row := s.next_row i
  specBits := match i.enq with
    | some x => Function.update (newSpecBits s) s.enqP x.spec_bits
    | none => newSpecBits s
  enqP := s.next_enqP i
  deqP := s.deqP_ehr1 i
  correctSpec := i.correctSpeculation

end MkSpecFifoCF2

def mkSpecFifoCF2 (lazyEnq : Bool) (row : Fin size → t)
    (specBits : Fin size → SpecBits numSpecTags) :
    SpecFifo (StateCF2 size numSpecTags t) size numSpecTags t where
  reset := { State.initial row specBits with correctSpec := none }
  next := MkSpecFifoCF2.next
  enq := MkSpecFifoCF2.enq lazyEnq
  deq := MkSpecFifoCF2.deq
  canon_deqP := MkSpecFifoCF2.canon_deqP
  notFull := MkSpecFifoCF2.notFull lazyEnq
  notEmpty s _ := MkSpecFifoCF2.notEmpty s
  first := MkSpecFifoCF2.first
  valid_for_enq := MkSpecFifoCF2.valid_for_enq lazyEnq
  slots s := elements s.valid s.row (MkSpecFifoCF2.newSpecBits s)
  head s := s.deqP

end Toooba.SpecFifos
