import Yagi.Funcdata
import Yagi.IdaSymbol
import Yagi.Lib.Loop
import Yagi.ScopeLocal

/-!
# Replaying saved names (`ActionRenameVar`)

Each pass reads, for every pcode of the function, the name saved under its space
at the address of the pcode.
-/

open Text Hex Loop

namespace Yagi

/-- What `YagiArchitecture` gives to the actions: its address spaces, by name. -/
structure Architecture where
  getSpaceByName : Str → AddrSpace

/-- Constants are kept on the stack. -/
def replaySpace (m_space : Str) : Str := if m_space = ascii "const" then ascii "stack" else m_space

namespace ActionRenameVar

variable {σ Sym D : Type} (S : ScopeLocal σ Sym D) (arch : Architecture) (func : UInt64) (nodes : NetNodes)

def lookup (m_space : Str) (st : σ) (op : PcodeOp) (offset : UInt64) : Option Sym :=
  S.findAddr st ⟨arch.getSpaceByName (replaySpace m_space), offset⟩ (some op.pc)

/-- Without a record the lookup uses an unset offset, and its result is ignored. -/
def applyOp (m_space : Str) (op : PcodeOp) : Body StdError σ := fun st =>
  match IdaFunctionSymbolInfo.findName func nodes op.pc m_space with
  | .error e => (.error e, st)
  | .ok none => (.ok (), st)
  | .ok (some (newName, offset)) => match lookup S arch m_space st op offset with
    | none => (.ok (), st)
    | some sym => (.ok (), S.setAttribute sym .namelock (S.renameSymbol sym newName st))

def apply (m_space : Str) (ops : List PcodeOp) : Body StdError σ := forEach (applyOp S arch func nodes m_space) ops

end ActionRenameVar

/-- The spaces of the rename passes that `buildAction` installs, in their order. -/
def renameSpaces : List Str := [ascii "register", ascii "stack", ascii "unique", ascii "const"]

def renamePasses {σ Sym D : Type} (S : ScopeLocal σ Sym D) (arch : Architecture) (func : UInt64) (nodes : NetNodes)
    (ops : List PcodeOp) : Body StdError σ :=
  forEach (fun m_space => ActionRenameVar.apply S arch func nodes m_space ops) renameSpaces

end Yagi
