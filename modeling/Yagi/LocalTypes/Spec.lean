import Yagi.Rename.Spec

/-!
# Loading saved types (`ActionLoadLocalScope`)

The pass reads, for every pcode of the function, the type saved at its address,
and adds a symbol where the local scope has none.
-/

open Text Hex Loop

namespace Yagi.ActionLoadLocalScope

variable {σ Sym D Ty : Type} (S : ScopeLocal σ Sym D) (arch : Architecture) (db : TypeDatabase Ty)
  (findByTypeInfo : Ty → D) (func : UInt64) (nodes : NetNodes)

/-- Stack symbols have no use point. -/
def opAddr (m_space : Str) (op : PcodeOp) : Option UInt64 :=
  if replaySpace m_space = ascii "stack" then none else some op.pc

def storage (m_space : Str) (offset : UInt64) : Address := ⟨arch.getSpaceByName (replaySpace m_space), offset⟩

/-- Without a record the lookup uses an unset offset, and its result is ignored. -/
def applyOp (m_space : Str) (op : PcodeOp) : Body StdError σ := fun st =>
  match IdaFunctionSymbolInfo.findType db func nodes op.pc m_space with
  | .error e => (.error e, st)
  | .ok none => (.ok (), st)
  | .ok (some (none, _)) => (.ok (), st)
  | .ok (some (some newType, offset)) =>
    match S.findAddr st (storage arch m_space offset) (opAddr m_space op) with
    | some _ => (.ok (), st)
    | none =>
      let (sym, st') := S.addSymbol [] (findByTypeInfo newType) (storage arch m_space offset) (opAddr m_space op) st
      (.ok (), S.setAttribute sym .typelock st')

def apply (m_space : Str) (ops : List PcodeOp) : Body StdError σ :=
  forEach (applyOp S arch db findByTypeInfo func nodes m_space) ops

end Yagi.ActionLoadLocalScope
