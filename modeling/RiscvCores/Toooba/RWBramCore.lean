import Mathlib.Logic.Function.Basic
import Mathlib.Tactic.Common

/-!
# Block RAMs behind a one element queue

`mkRWBramCore` answers a read with the content before the cycle of the request.
`mkRWBramCoreForwarded` reads its address again in every cycle and forwards the
last write, so its answer follows the content.

Words that nobody wrote are unknown: a plain array has `none` there.
-/

set_option autoImplicit false

namespace Toooba.RWBramCore

variable {A D : Type} [DecidableEq A]

/-- The methods called in a cycle. -/
structure Calls (A D : Type) where
  wrReq : Option (A × D) := none
  deqRdResp : Bool := false
  rdReq : Option A := none

def stored (ram : A → D) : Option (A × D) → A → D
  | some (a, d) => Function.update ram a d
  | none => ram

/-- The plain array after a write. -/
def written (plain : A → Option D) : Option (A × D) → A → Option D
  | some (a, d) => Function.update plain a (some d)
  | none => plain

/-- `rdReqQ`, of one element: a request may come in the cycle that takes the answer before. -/
def rdReqQD (rdReqQ : Bool) (c : Calls A D) : Bool := (rdReqQ && !c.deqRdResp) || c.rdReq.isSome

theorem stored_of_written {ram : A → D} {plain : A → Option D}
    (same : ∀ a d, plain a = some d → ram a = d) (wr : Option (A × D)) :
    ∀ a d, written plain wr a = some d → stored ram wr a = d := by
  intro a d known
  cases wr with
  | none => exact same a d known
  | some write =>
      obtain ⟨at_, value⟩ := write
      rcases eq_or_ne a at_ with rfl | other
      · rw [written, Function.update_self] at known
        rw [stored, Function.update_self]
        exact Option.some.inj known
      · rw [written, Function.update_of_ne other] at known
        rw [stored, Function.update_of_ne other]
        exact same a d known

/-! ## `mkRWBramCore` -/

structure Bram (A D : Type) where
  ram : A → D
  out : D
  rdReqQ : Bool

namespace Bram

variable (b : Bram A D) (c : Calls A D)

/-- A request needs room in the queue. -/
def rdReqGuard (deqRdResp : Bool) : Bool := !b.rdReqQ || deqRdResp

def next : Bram A D where
  ram := stored b.ram c.wrReq
  out := match c.rdReq with
    | some a => b.ram a
    | none => b.out
  rdReqQ := rdReqQD b.rdReqQ c

def Holds (plain : A → Option D) : Prop := ∀ a d, plain a = some d → b.ram a = d

theorem Holds.next {b : Bram A D} {plain : A → Option D} (holds : b.Holds plain)
    (c : Calls A D) : (b.next c).Holds (written plain c.wrReq) :=
  stored_of_written holds c.wrReq

end Bram

/-! ## `mkRWBramCoreForwarded` -/

structure Forwarded (A D : Type) where
  ram : A → D
  out : D
  rdReqQ : Bool
  readAddr : A
  currentWriteAddr : A
  currentWriteData : D

namespace Forwarded

variable (b : Forwarded A D) (c : Calls A D)

def rdReqGuard (deqRdResp : Bool) : Bool := !b.rdReqQ || deqRdResp

def rdResp : D := if b.readAddr = b.currentWriteAddr then b.currentWriteData else b.out

/-- `readAddr[1]`, which `doRead` reads. -/
def readAddrD : A := c.rdReq.getD b.readAddr

def next : Forwarded A D where
  ram := stored b.ram c.wrReq
  out := b.ram (b.readAddrD c)
  rdReqQ := rdReqQD b.rdReqQ c
  readAddr := b.readAddrD c
  currentWriteAddr := (c.wrReq.map Prod.fst).getD b.currentWriteAddr
  currentWriteData := (c.wrReq.map Prod.snd).getD b.currentWriteData

structure Holds (plain : A → Option D) : Prop where
  ram : ∀ a d, plain a = some d → b.ram a = d
  current : ∀ d, plain b.currentWriteAddr = some d → b.currentWriteData = d
  out : b.readAddr ≠ b.currentWriteAddr → ∀ d, plain b.readAddr = some d → b.out = d

variable {b} {plain : A → Option D}

theorem Holds.rdResp (holds : b.Holds plain) {d : D} (known : plain b.readAddr = some d) :
    b.rdResp = d := by
  unfold Forwarded.rdResp
  split
  · next forwards =>
      rw [forwards] at known
      exact holds.current d known
  · next apart => exact holds.out apart d known

theorem Holds.next (holds : b.Holds plain) (c : Calls A D) :
    (b.next c).Holds (written plain c.wrReq) := by
  constructor
  · exact stored_of_written holds.ram c.wrReq
  · intro d known
    cases wr : c.wrReq with
    | none =>
        simp only [Forwarded.next, wr, written, Option.map_none, Option.getD_none] at known ⊢
        exact holds.current d known
    | some write =>
        simpa [Forwarded.next, wr, written] using known
  · intro apart d known
    cases wr : c.wrReq with
    | none =>
        rw [wr] at known
        exact holds.ram _ d known
    | some write =>
        have other : b.readAddrD c ≠ write.1 := by
          simpa [Forwarded.next, wr] using apart
        rw [wr, written, Forwarded.next, Function.update_of_ne other] at known
        exact holds.ram _ d known

end Forwarded

end Toooba.RWBramCore
