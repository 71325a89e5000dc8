import Mathlib.Logic.Function.Basic
import Mathlib.Tactic.Common

/-!
# `tc_sram` with one port and a latency of one cycle

Words are written whole.  Without a read the output register follows the word at
the last address that was read.
-/

set_option autoImplicit false

namespace TechCells

variable {Addr Data : Type}

structure Sram (Addr Data : Type) where
  words : Addr → Data
  readAddr : Addr
  rdata : Data

structure SramPort (Addr Data : Type) where
  req : Bool
  we : Bool
  addr : Addr
  wdata : Data

def Sram.cycle [DecidableEq Addr] (m : Sram Addr Data) (port : SramPort Addr Data) :
    Sram Addr Data where
  words :=
    if port.req && port.we then Function.update m.words port.addr port.wdata else m.words
  readAddr := if port.req && !port.we then port.addr else m.readAddr
  rdata := if port.req && !port.we then m.words port.addr else m.words m.readAddr

section Cycle

variable [DecidableEq Addr] (m : Sram Addr Data) (port : SramPort Addr Data)

theorem Sram.words_of_write (req : port.req = true) (we : port.we = true) :
    (m.cycle port).words = Function.update m.words port.addr port.wdata := by
  simp [Sram.cycle, req, we]

theorem Sram.words_of_no_write (we : port.we = false) : (m.cycle port).words = m.words := by
  simp [Sram.cycle, we]

theorem Sram.words_cycle (a : Addr) : (m.cycle port).words a =
    if port.req && port.we && decide (a = port.addr) then port.wdata else m.words a := by
  unfold Sram.cycle
  cases write : port.req && port.we with
  | false => rfl
  | true => simp [Function.update_apply]

theorem Sram.rdata_of_read (req : port.req = true) (we : port.we = false) :
    (m.cycle port).rdata = m.words port.addr := by
  simp [Sram.cycle, req, we]

end Cycle

end TechCells
