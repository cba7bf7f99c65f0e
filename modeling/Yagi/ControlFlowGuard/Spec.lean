import Yagi.Pcode
import Yagi.Scope.Spec

/-!
# Control Flow Guard (`RuleWindowsControlFlowGuard`)

Windows calls a wrapper that checks the target in RAX. The rule rewrites such a
call into a call of RAX.
-/

open Text

namespace Yagi

/-- What the rule works with: the pcodes, the global scope with its proxy, and the registers. -/
structure GuardContext (φ Op Vn Block σ Sym D Ty : Type) where
  graph : PcodeGraph φ Op Vn Block
  proxy : ScopeInternal σ Sym D
  getName : σ → Sym → Str
  archi : YagiArchitecture Ty Sym D
  getRegister : Str → Address

structure GuardState (φ σ : Type) where
  data : φ
  scope : σ

structure RuleWindowsControlFlowGuard where
  getGroup : Str
  m_cfgWrapperName : Str

namespace RuleWindowsControlFlowGuard

def getOpList : List OpCode := [.CPUI_CALLIND]

variable {φ Op Vn Block σ Sym D Ty : Type} (G : GuardContext φ Op Vn Block σ Sym D Ty)
  (rule : RuleWindowsControlFlowGuard)

/-- The symbol of the scope for the target of a call. The lookup can add it. -/
def findTarget (s : GuardState φ σ) (op : Op) : Option (Sym × MapEntry) × σ :=
  match (G.graph.pcode s.data op).inputs.head? with
  | none => (none, s.scope)  -- Every `CALLIND` has a target.
  | some target =>
    let addrSize := G.archi.getDefaultCodeSpace.addrSize.toInt32
    YagiScope.findContainer G.proxy G.archi (G.graph.getAddr target) addrSize (some (G.graph.pcode s.data op).addr) s.scope

def applyOp (s : GuardState φ σ) (op : Op) : GuardState φ σ :=
  let addrSize := G.archi.getDefaultCodeSpace.addrSize.toInt32
  match findTarget G s op with
  | (none, scope) => ⟨s.data, scope⟩
  | (some (sym, _), scope) =>
    if G.getName scope sym = rule.m_cfgWrapperName then
      let (raxVn, data) := G.graph.newVarnode addrSize (G.getRegister (ascii "RAX")) s.data
      let data := G.graph.opSetInput op raxVn 0 data
      ⟨G.graph.warningHeader (ascii "Yagi : Control Flow Guard patching") data, scope⟩
    else ⟨s.data, scope⟩

end RuleWindowsControlFlowGuard

end Yagi
