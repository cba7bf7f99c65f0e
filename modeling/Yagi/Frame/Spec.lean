import Yagi.Lib.Text

/-!
# The frame of a function (`findStackVar`)

IDA gives the members of a frame unsigned offsets, of which locals and saved
registers take the first ones. Ghidra counts from the return address on.
-/

open Text

namespace Yagi

structure FrameMember where
  name : Str
  get_soff : UInt64
deriving DecidableEq

structure Frame where
  frsize : UInt64
  frregs : UInt16
  members : List FrameMember

namespace IdaFunctionSymbolInfo

def sofset (frame : Frame) (member : FrameMember) : UInt64 :=
  member.get_soff - (frame.frsize + frame.frregs.toUInt64)

def isAt (frame : Frame) (offset : UInt64) (addrSize : UInt32) (member : FrameMember) : Bool :=
  sofset frame member = offset ∨ (addrSize = 4 ∧ (sofset frame member).toUInt32 = offset.toUInt32)

/-- The member without the name of its frame. -/
def memberName (member : FrameMember) : Str :=
  let name := c_str member.name
  match find (ch '.') name with
  | some pp => name.drop (pp + 1)
  | none => name

/-- The member that the loop of `findStackVar` stops at. -/
def findStackMember (frame : Frame) (offset : UInt64) (addrSize : UInt32) : Option FrameMember :=
  frame.members.find? (isAt frame offset addrSize)

def findStackVar (frame : Option Frame) (offset : UInt64) (addrSize : UInt32) : Option Str :=
  match frame with
  | none => none
  | some frame => (findStackMember frame offset addrSize).map memberName

end IdaFunctionSymbolInfo

end Yagi
