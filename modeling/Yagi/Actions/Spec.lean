import Yagi.Actions.Syscalls
import Yagi.LocalTypes.Spec
import Yagi.Pcode
import Yagi.Rename.Action
import Yagi.Scope.Internal
import Yagi.Types.Core
import Yagi.Types.Update

/-!
# Actions (`yagiaction.cc`)

Ghidra runs the actions of Yagi on a function, and clones them for the groups that it
derives.
-/

open Text Hex Loop

namespace Yagi

/-! ## What the actions work with -/

structure BaseTypes (D : Type) where
  getBase : Int32 → DatatypeMeta → D
  getTypePointer : Int32 → D → UInt32 → D
  getTypeVoid : D

/-- The prototypes of the functions in a scope. -/
structure FuncProtos (γ GSym D : Type) where
  getPieces : γ → GSym → PrototypePieces D
  setPieces : GSym → PrototypePieces D → γ → γ

/-- A function of the database, with the names of its frame. -/
structure FunctionSymbol where
  getAddress : UInt64
  findStackVar : UInt64 → UInt32 → Option Str

/-- The local scope and the pcodes of a function, and the proxy of the global scope. -/
structure FunctionState (σ γ φ : Type) where
  scope : σ
  proxy : γ
  data : φ
deriving DecidableEq

structure ActionContext (σ Sym γ GSym D Ty φ Op Vn Block : Type) where
  localScope : ScopeLocal σ Sym D
  entries : σ → List (SymbolEntry Sym)
  findHigh : φ → σ → Str → Option Sym
  graph : PcodeGraph φ Op Vn Block
  arch : Architecture
  getDefaultCodeSpace : AddrSpace
  getRegister : Str → Option Address
  find_function : UInt64 → Option FunctionSymbol
  db : TypeDatabase Ty
  nodes : NetNodes
  findByTypeInfo : Ty → D
  proxy : ScopeInternal γ GSym D
  protos : FuncProtos γ GSym D
  types : BaseTypes D

/-- What an action raises. Going past the last pcode counts as raising. -/
inductive ActionError where
  | std (e : StdError)
  | bad_optional_access
  | unknown_register
  | end_iterator
deriving DecidableEq, Repr

section

variable {σ Sym γ GSym D Ty φ Op Vn Block : Type} (A : ActionContext σ Sym γ GSym D Ty φ Op Vn Block)

/-- `value` raises where the database has no function, if it is reached at all. -/
def withFunction (reached : Bool) (body : FunctionSymbol → Body ActionError (FunctionState σ γ φ)) :
    Body ActionError (FunctionState σ γ φ) := fun st =>
  match A.find_function (A.graph.getAddress st.data).offset with
  | some funcSym => body funcSym st
  | none => (if reached then .error .bad_optional_access else .ok (), st)

def onScope (body : Body StdError σ) : Body ActionError (FunctionState σ γ φ) := fun st =>
  ((body st.scope).1.mapError .std, { st with scope := (body st.scope).2 })

/-! ## The actions -/

def ActionSyncStackVar.applyTo : Body ActionError (FunctionState σ γ φ) := fun st =>
  let reached := (A.entries st.scope).any fun entry => entry.addr.space.name = ascii "stack"
  withFunction A reached (fun funcSym st =>
    let F : StackSync σ Sym := ⟨A.entries, funcSym.findStackVar, A.findHigh st.data⟩
    (.ok (), { st with scope := ActionSyncStackVar.apply A.localScope F st.scope })) st

def ActionRenameVar.applyTo (m_space : Str) : Body ActionError (FunctionState σ γ φ) := fun st =>
  let ops := A.graph.allOps st.data
  withFunction A (!ops.isEmpty)
    (fun funcSym => onScope (ActionRenameVar.apply A.localScope A.arch funcSym.getAddress A.nodes m_space ops)) st

def ActionLoadLocalScope.applyTo (m_space : Str) : Body ActionError (FunctionState σ γ φ) := fun st =>
  let ops := A.graph.allOps st.data
  withFunction A (!ops.isEmpty)
    (fun funcSym => onScope (ActionLoadLocalScope.apply A.localScope A.arch A.db A.findByTypeInfo funcSym.getAddress
      A.nodes m_space ops)) st

/-- A pcode at the begin of the function, `t9 = funcAddr`. -/
def ActionMIPST9Optimization.applyTo : Body ActionError (FunctionState σ γ φ) := fun st =>
  let funcAddr := A.graph.getAddress st.data
  let addrSize := A.getDefaultCodeSpace.addrSize.toInt32
  match A.graph.beginOp st.data funcAddr with
  | none => (.error .end_iterator, st)
  | some beginPcode => match A.getRegister (ascii "t9") with
    | none => (.error .unknown_register, st)
    | some t9Addr =>
      let (t9Vn, data) := A.graph.newVarnode addrSize t9Addr st.data
      let (newPcode, data) := A.graph.newOp 1 funcAddr data
      let data := A.graph.opSetOpcode newPcode .CPUI_COPY data
      let (input, data) := A.graph.newConstant addrSize funcAddr.offset data
      let data := A.graph.opSetInput newPcode input 0 data
      let data := A.graph.opSetOutput newPcode t9Vn data
      let data := A.graph.opInsertBegin newPcode (A.graph.getParent data beginPcode) data
      let warning := ascii "Yagi : setting t9 register value with address of the current function"
      (.ok (), { st with data := A.graph.warningHeader warning data })

def SyscallType.datatype (types : BaseTypes D) : SyscallType → D
  | .INT => types.getBase 8 (.of .TYPE_INT)
  | .PTR => types.getTypePointer 8 types.getTypeVoid 8
  | .STR => types.getTypePointer 8 (types.getBase 1 (.of .TYPE_INT)) 8
  | .U16 => types.getBase 2 .TYPE_UINT
  | .U32 => types.getBase 4 .TYPE_UINT
  | .U64 => types.getBase 8 .TYPE_UINT
  | .S32 => types.getBase 4 (.of .TYPE_INT)
  | .S64 => types.getBase 8 (.of .TYPE_INT)
  | .VOID => types.getTypeVoid

def ActionAddeBPFSyscall.addSyscall (name : Str) (syscall_number : UInt32) (return_type : D) (params : List (Str × D))
    (dotdotdot : Bool) (proxy : γ) : γ :=
  let addr : Address := ⟨A.arch.getSpaceByName (ascii "syscall"), syscall_number.toUInt64⟩
  let (sym, proxy) := A.proxy.addFunction addr name proxy
  let proxy := (A.proxy.addMapPoint sym addr none proxy).2
  let pieces := A.protos.getPieces proxy sym
  let pieces := params.foldl (fun pieces param =>
    { pieces with innames := pieces.innames ++ [param.1], intypes := pieces.intypes ++ [param.2] }) pieces
  A.protos.setPieces sym { pieces with outtype := return_type, dotdotdot := dotdotdot } proxy

def ActionAddeBPFSyscall.applyTo : Body ActionError (FunctionState σ γ φ) := fun st =>
  let proxy := syscalls.foldl (fun proxy call =>
    let params := call.params.map fun (name, type) => (name, type.datatype A.types)
    addSyscall A call.name call.syscall_number (call.return_type.datatype A.types) params call.dotdotdot proxy) st.proxy
  (.ok (), { st with proxy := proxy })

end

/-! ## Groups of actions -/

structure ActionGroupList where
  list : List Str

def ActionGroupList.contains (grouplist : ActionGroupList) (group : Str) : Bool := group ∈ grouplist.list

inductive YagiAction where
  | ActionSyncStackVar (getGroup : Str)
  | ActionRenameVar (getGroup m_space : Str)
  | ActionLoadLocalScope (getGroup m_space : Str)
  | ActionMIPST9Optimization (getGroup : Str)
  | ActionAddeBPFSyscall (getGroup : Str)
deriving DecidableEq, Repr

namespace YagiAction

def getGroup : YagiAction → Str
  | .ActionSyncStackVar g => g
  | .ActionRenameVar g _ => g
  | .ActionLoadLocalScope g _ => g
  | .ActionMIPST9Optimization g => g
  | .ActionAddeBPFSyscall g => g

/-- `ActionLoadLocalScope` makes an `ActionSyncStackVar`. -/
def clone (action : YagiAction) (grouplist : ActionGroupList) : Option YagiAction :=
  if grouplist.contains action.getGroup then
    some (match action with
      | .ActionSyncStackVar g => .ActionSyncStackVar g
      | .ActionRenameVar g m_space => .ActionRenameVar g m_space
      | .ActionLoadLocalScope g _ => .ActionSyncStackVar g
      | .ActionMIPST9Optimization g => .ActionMIPST9Optimization g
      | .ActionAddeBPFSyscall g => .ActionAddeBPFSyscall g)
  else none

def apply {σ Sym γ GSym D Ty φ Op Vn Block : Type} (A : ActionContext σ Sym γ GSym D Ty φ Op Vn Block) :
    YagiAction → Body ActionError (FunctionState σ γ φ)
  | .ActionSyncStackVar _ => ActionSyncStackVar.applyTo A
  | .ActionRenameVar _ m_space => ActionRenameVar.applyTo A m_space
  | .ActionLoadLocalScope _ m_space => ActionLoadLocalScope.applyTo A m_space
  | .ActionMIPST9Optimization _ => ActionMIPST9Optimization.applyTo A
  | .ActionAddeBPFSyscall _ => ActionAddeBPFSyscall.applyTo A

end YagiAction

end Yagi
