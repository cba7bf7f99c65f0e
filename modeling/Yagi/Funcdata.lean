import Yagi.Ghidra

/-! # Functions, as far as Yagi looks at them -/

open Text

namespace Yagi

structure PcodeOp where
  pc : UInt64
  inputs : List Address
deriving DecidableEq

/-- The varnode that names a high variable, with the address of the pcode that defines it. -/
structure NameRepresentative where
  addr : Address
  definition : Option UInt64
deriving DecidableEq

structure HighVariable (Sym : Type) where
  symbol : Option Sym
  nameRepresentative : Option NameRepresentative

/-- Asking for a high variable that is not there raises a `LowlevelError`. -/
structure Varnode (Sym : Type) where
  addr : Address
  high : Option (HighVariable Sym)

/-- `ops` are the pcodes from `beginOpAll`, and `body` those between the first and the last
address of the function. -/
structure Funcdata (Sym : Type) where
  defs : List (Varnode Sym)
  ops : List PcodeOp
  body : List PcodeOp
  body_sublist : body.Sublist ops

end Yagi
