import Yagi.Actions.Spec
import Yagi.LocalTypes.Latest
import Yagi.Rename.Sync
import Yagi.Scope.Cache

/-!
# Clones

An action is cloned as what it is, with one exception. The clone of
`ActionLoadLocalScope` gives the names of the frame, and loads no type.
-/

open Text Hex Loop

namespace Yagi

section

variable {σ Sym γ GSym D Ty φ Op Vn Block : Type} [DecidableEq Sym]

theorem ActionSyncStackVar.symbols_apply (S : ScopeLocal σ Sym D) (F : StackSync σ Sym) (hS : S.RenameLaws) (st : σ) :
    S.symbols (ActionSyncStackVar.apply S F st) = S.symbols st := by
  unfold ActionSyncStackVar.apply
  generalize F.entries st = entries
  induction entries generalizing st with
  | nil => rfl
  | cons entry entries ih => rw [List.foldl_cons, ih, ActionSyncStackVar.symbols_applyEntry hS]

theorem ActionSyncStackVar.symbols_applyTo (A : ActionContext σ Sym γ GSym D Ty φ Op Vn Block)
    (hS : A.localScope.RenameLaws) (st : FunctionState σ γ φ) :
    A.localScope.symbols (ActionSyncStackVar.applyTo A st).2.scope = A.localScope.symbols st.scope := by
  unfold ActionSyncStackVar.applyTo withFunction
  simp only
  split
  · exact ActionSyncStackVar.symbols_apply A.localScope _ hS st.scope
  · rfl

end

namespace YagiAction

/-- On every function both leave the same state, and raise alike. -/
def SameBehaviour (a b : YagiAction) : Prop :=
  ∀ {σ Sym γ GSym D Ty φ Op Vn Block : Type} (A : ActionContext σ Sym γ GSym D Ty φ Op Vn Block)
    (st : FunctionState σ γ φ), a.apply A st = b.apply A st

theorem clone_load (group m_space : Str) (grouplist : ActionGroupList) (hgroup : grouplist.contains group = true) :
    (ActionLoadLocalScope group m_space).clone grouplist = some (.ActionSyncStackVar group) := if_pos hgroup

theorem clone_eq_self (action : YagiAction) (grouplist : ActionGroupList)
    (hgroup : grouplist.contains action.getGroup = true)
    (hload : ∀ group m_space, action ≠ .ActionLoadLocalScope group m_space) :
    action.clone grouplist = some action := by
  unfold clone
  rw [if_pos hgroup]
  cases action with
  | ActionLoadLocalScope group m_space => exact absurd rfl (hload group m_space)
  | ActionSyncStackVar group => rfl
  | ActionRenameVar group m_space => rfl
  | ActionMIPST9Optimization group => rfl
  | ActionAddeBPFSyscall group => rfl

/-! ## A function with one saved type -/

/-- The pcode at `0x401fa7` has a saved `int`, whatever the space is. -/
def oneType (m_space : Str) :
    ActionContext (SymbolTable Int32) Nat SymbolCache Nat Int32 Unit PcodeTable Nat (Address × Int32) Unit where
  localScope := SymbolTable.scope 0
  entries table := table.mapIdx fun i sym => ⟨sym.storage, i⟩
  findHigh _ table n := table.findIdx? fun sym => sym.name = n
  graph := PcodeTable.graph
  arch := onlySpace registerSpace
  getDefaultCodeSpace := ramSpace
  getRegister _ := none
  find_function _ := some ⟨0x401fa0, fun _ _ => none⟩
  db := intDatabase
  nodes := IdaFunctionSymbolInfo.saveType intDatabase 0x401fa0 ⟨m_space, 0, 4, [0x401fa7]⟩ () fun _ => none
  findByTypeInfo _ := 4
  proxy := SymbolCache.scope
  protos := ⟨fun _ _ => ⟨[], 0, [], [], false⟩, fun _ _ table => table⟩
  types := ⟨fun size _ => size, fun size _ _ => size, 1⟩

def oneOp : FunctionState (SymbolTable Int32) SymbolCache PcodeTable where
  scope := []
  proxy := []
  data := ⟨⟨ramSpace, 0x401fa0⟩, [⟨.CPUI_COPY, ⟨ramSpace, 0x401fa7⟩, [(⟨registerSpace, 0⟩, 4)], none⟩], []⟩

theorem load_adds (group m_space : Str) :
    ∃ sym, sym ∈ (oneType m_space).localScope.symbols
      ((ActionLoadLocalScope group m_space).apply (oneType m_space) oneOp).2.scope := by
  have hrecord := rawRecord_apply_self intDatabase (.saveType 0x401fa0 ⟨m_space, 0, 4, [0x401fa7]⟩ ())
    (fun _ => none) 0x401fa7 List.mem_cons_self
  have hread := findType_of_readsBack intDatabase 0x401fa0 _ 0x401fa7 m_space 0 () ⟨by decide, by decide⟩ hrecord
  obtain ⟨sym, st', happly, hadded, -, -⟩ := applyOp_free (oneType m_space).localScope (onlySpace registerSpace)
    intDatabase (oneType m_space).findByTypeInfo 0x401fa0 (SymbolTable.scope_addLaws 0) (oneType m_space).nodes m_space
    ⟨0x401fa7, [⟨registerSpace, 0⟩]⟩ [] 0 () hread rfl
  refine ⟨sym, ?_⟩
  have hloop := forEach_cons_ok _ _ [] _ _ happly
  have hload : ((ActionLoadLocalScope group m_space).apply (oneType m_space) oneOp).2.scope = st' :=
    congrArg Prod.snd hloop
  rw [hload]
  exact ((hadded sym).mpr rfl).1

/-- **Clones.** A clone behaves as its original exactly when that is no `ActionLoadLocalScope`. -/
theorem clone_preserves_iff (action : YagiAction) (grouplist : ActionGroupList)
    (hgroup : grouplist.contains action.getGroup = true) :
    (∃ copy, action.clone grouplist = some copy ∧ SameBehaviour action copy) ↔
      ∀ group m_space, action ≠ .ActionLoadLocalScope group m_space := by
  constructor
  · rintro ⟨copy, hcopy, hsame⟩ group m_space rfl
    rw [clone_load group m_space grouplist hgroup] at hcopy
    obtain rfl := Option.some.inj hcopy
    obtain ⟨sym, hsym⟩ := load_adds group m_space
    -- The same function, without the symbol.
    rw [hsame (oneType m_space) oneOp] at hsym
    have hnone := ActionSyncStackVar.symbols_applyTo (oneType m_space) (SymbolTable.scope_renameLaws 0) oneOp
    exact List.not_mem_nil (hnone ▸ hsym)
  · intro hload
    exact ⟨action, clone_eq_self action grouplist hgroup hload, fun _ _ => rfl⟩

theorem clone_preserves_iff_rename :
    (∃ copy, (ActionRenameVar (ascii "yagi") (ascii "register")).clone ⟨[ascii "yagi"]⟩ = some copy ∧
      SameBehaviour (.ActionRenameVar (ascii "yagi") (ascii "register")) copy) ↔
    ∀ group m_space, ActionRenameVar (ascii "yagi") (ascii "register") ≠ .ActionLoadLocalScope group m_space :=
  clone_preserves_iff (.ActionRenameVar (ascii "yagi") (ascii "register")) ⟨[ascii "yagi"]⟩ (by decide)

/-- The original adds a symbol for the saved type. Its clone leaves the scope empty. -/
theorem clone_loads_nothing :
    let load := ActionLoadLocalScope (ascii "yagi") (ascii "register")
    let groups : ActionGroupList := ⟨[ascii "yagi"]⟩
    groups.contains load.getGroup = true ∧ load.clone groups = some (.ActionSyncStackVar (ascii "yagi")) ∧
      (load.apply (oneType (ascii "register")) oneOp).2.scope =
        [⟨[], ⟨registerSpace, 0⟩, some [0x401fa7], 4, [.typelock]⟩] ∧
      ((ActionSyncStackVar (ascii "yagi")).apply (oneType (ascii "register")) oneOp).2.scope = [] ∧
      ¬ ∃ copy, load.clone groups = some copy ∧ SameBehaviour load copy := by
  refine ⟨by decide, by decide, by decide, by decide, ?_⟩
  rintro ⟨copy, hcopy, hsame⟩
  obtain rfl := Option.some.inj hcopy
  have hstate := congrArg (fun result => result.2.scope) (hsame (oneType (ascii "register")) oneOp)
  exact absurd hstate (by decide)

end YagiAction

end Yagi
