import Yagi.Lib.Text

/-! # Memory locations (`decompiler.hh`) -/

open Text

namespace Yagi

/-- Where a variable lives, and the addresses of the pcodes that define or use it. -/
structure MemoryLocation where
  spaceName : Str
  offset : UInt64
  addrSize : UInt32
  pc : List UInt64
deriving DecidableEq, Repr

end Yagi
