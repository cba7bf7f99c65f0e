import Yagi.Frame.Spec
import Yagi.VarSymbols

/-! # A double click on a symbol (`_DoubleClickCallback`) -/

open Text

namespace Yagi

structure Decompiler.Result where
  ea : UInt64
  symbolAddress : SymbolMap

/-- The function is read through a null pointer when it is gone. -/
inductive ClickError where
  | null_pointer
deriving DecidableEq, Repr

inductive Click where
  | unhandled
  | jumpto (ea : UInt64)
  | open_frame_window (offset : UInt64)
deriving DecidableEq, Repr

/-- Stack offsets of 32 bits can be negative, also where addresses have 64. -/
def extended (loc : MemoryLocation) : UInt64 :=
  if loc.addrSize = 4 ∧ loc.offset.toUInt32.toInt32 < 0 then 0xFFFFFFFF00000000 ||| loc.offset else loc.offset

def framePosition (frame : Frame) (loc : MemoryLocation) : UInt64 :=
  extended loc + (frame.frsize + frame.frregs.toUInt64)

def doubleClickCallback (get_func : UInt64 → Option Frame) (code : Decompiler.Result) (keyword : Option Str) :
    Except ClickError Click :=
  match keyword.bind code.symbolAddress with
  | none => .ok .unhandled
  | some loc =>
    if loc.spaceName = ascii "ram" then .ok (.jumpto loc.offset)
    else if loc.spaceName = ascii "stack" ∨ loc.spaceName = ascii "const" then
      match get_func code.ea with
      | none => .error .null_pointer
      | some idaFunc => .ok (.open_frame_window (framePosition idaFunc loc))
    else .ok .unhandled

end Yagi
