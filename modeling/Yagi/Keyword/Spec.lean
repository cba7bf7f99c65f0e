import Mathlib.Data.List.Basic
import Yagi.Lib.Text
import Yagi.Lib.While
import Yagi.Print

/-!
# The keyword under the cursor (`_ComputeKeyword`)

Three loops move a pointer over a line: to the column that the viewer reports,
to the end of the text there, and back to the tag before it.
-/

open Text While

namespace Yagi

namespace Keyword

/-- A read of a character that is neither in the line nor its terminator. -/
structure OutOfLine where
  pos : Int
deriving DecidableEq, Repr

def charAt (line : Str) (pos : Int) : Except OutOfLine Byte :=
  if 0 ≤ pos ∧ pos ≤ line.length then .ok (line.getD pos.toNat 0) else .error ⟨pos⟩

def qisalnum (b : Byte) : Bool :=
  (48 ≤ b.toNat ∧ b.toNat ≤ 57) ∨ (65 ≤ b.toNat ∧ b.toNat ≤ 90) ∨ (97 ≤ b.toNat ∧ b.toNat ≤ 122)

variable (line : Str)

/-- The state is the columns left and the pointer `start`. -/
def columnStep (state : Nat × Int) : Except OutOfLine (Next (Nat × Int) Int) :=
  match state with
  | (0, start) => .ok (.done start)
  | (x + 1, start) => do
    if (← charAt line start) = colorOn then return .again (x + 1, start + 2)
    if (← charAt line start) = colorOff then return .again (x + 1, start + 2)
    return .again (x, start + 1)

def endStep (stop : Int) : Except OutOfLine (Next Int Int) := do
  if ¬ stop ≤ line.length then return .done stop
  let c ← charAt line stop
  if c ≠ colorOff ∧ c ≠ colorOn ∧ c ≠ 0 then return .again (stop + 1) else return .done stop

def startStep (start : Int) : Except OutOfLine (Next Int Int) := do
  if ¬ 0 ≤ start then return .done start
  if (← charAt line start) ≠ colorOn then return .again (start - 1)
  if qisalnum (← charAt line (start + 1)) then return .again (start - 1) else return .done start

def columnMeasure (state : Nat × Int) : Nat := state.1 + (line.length + 2 - state.2).toNat

def endMeasure (stop : Int) : Nat := (line.length + 1 - stop).toNat

def startMeasure (start : Int) : Nat := (start + 1).toNat

/-- `std::string(pos, count)` on the characters of the line. -/
def substr (pos count : Int) : Str := (line.drop pos.toNat).take count.toNat

end Keyword

open Keyword

/-- What a viewer gives: the column of the cursor, if there is a place, and the tagged line. -/
structure CustomViewer where
  place : Option Nat
  curline : Str

def computeKeyword (w : CustomViewer) : Except (Stop OutOfLine) (Option Str) :=
  match w.place with
  | none => .ok none
  | some x => do
    let result := c_str w.curline
    let start ← loop (columnStep result) (columnMeasure result) (x, 0)
    let stop ← loop (endStep result) (endMeasure result) start
    let start ← loop (startStep result) startMeasure start
    if start + 2 ≥ stop then return none
    if start ≥ result.length then return none
    return some (substr result (start + 2) (stop - start - 2))

end Yagi
