import Yagi.Decompiler

/-! # Addresses of the decompiler -/

open Text

namespace Yagi

/-- Space names come from the XML of a processor, so they hold no NUL. -/
structure AddrSpace where
  name : Str
  addrSize : UInt32
  name_noNul : NoNul name
deriving DecidableEq

theorem ram_noNul : NoNul (ascii "ram") := by decide

theorem stack_noNul : NoNul (ascii "stack") := by decide

structure Address where
  space : AddrSpace
  offset : UInt64
deriving DecidableEq

/-- The location that `findVarSymbols` builds from the address of a name representative. -/
def Address.location (addr : Address) (pc : List UInt64) : MemoryLocation :=
  ⟨addr.space.name, addr.offset, addr.space.addrSize, pc⟩

end Yagi
