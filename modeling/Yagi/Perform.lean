import Yagi.Actions.Proofs
import Yagi.Lib.Effect
import Yagi.Rename.Names
import Yagi.Session.Replays

/-!
# The actions of a decompilation (`yagiarchitecture.cc`)

The saved types are loaded when Ghidra has built the control flow. The saved names
are replayed when it has finished.
-/

open Text Hex Loop FirstWins Effect

namespace Yagi

/-! ## Groups -/

/-- What leaves `performActions`: a `LowlevelError` of Ghidra, or what an action of Yagi raises. -/
inductive PerformError where
  | lowlevel
  | action (e : ActionError)
deriving DecidableEq, Repr

abbrev Perform (σ γ φ α : Type) := EStateM PerformError (FunctionState σ γ φ) α

/-- The groups of actions that Yagi adds to those of Ghidra. -/
structure ActionGroups where
  initAction : List YagiAction
  archSpecific : List YagiAction
  retypeAction : List YagiAction
  renameAction : List YagiAction
deriving DecidableEq

def ActionGroups.addArchAction (action : YagiAction) (groups : ActionGroups) : ActionGroups :=
  { groups with archSpecific := groups.archSpecific ++ [action] }

def ActionGroups.addInitAction (action : YagiAction) (groups : ActionGroups) : ActionGroups :=
  { groups with initAction := groups.initAction ++ [action] }

def ActionGroups.buildAction (groups : ActionGroups) : ActionGroups :=
  { groups with
    renameAction := groups.renameAction ++ .ActionSyncStackVar (ascii "yagi") ::
      renameSpaces.map (.ActionRenameVar (ascii "yagi"))
    retypeAction := groups.retypeAction ++ retypeSpaces.map (.ActionLoadLocalScope (ascii "yagi")) }

/-- The current action of Ghidra, up to the break at `constbase`, and from there on. -/
structure CurrentAction (σ γ φ : Type) where
  toBreak : Perform σ γ φ Int32
  fromBreak : Perform σ γ φ Int32

section

variable {σ Sym γ GSym D Ty φ Op Vn Block : Type} (A : ActionContext σ Sym γ GSym D Ty φ Op Vn Block)
  (current : CurrentAction σ γ φ) (groups : ActionGroups)

/-- A group returns what its actions have counted. Those of Yagi count nothing. -/
def perform (actions : List YagiAction) : Perform σ γ φ Int32 := fun st =>
  match forEach (YagiAction.apply A) actions st with
  | (.ok (), st) => .ok 0 st
  | (.error e, st) => .error (.action e) st

def performActions : Perform σ γ φ Int32 := do
  let _ ← perform A groups.initAction
  let _ ← current.toBreak
  let _ ← perform A groups.archSpecific
  let _ ← perform A groups.retypeAction
  let res ← current.fromBreak
  if res < 0 then
    return res
  let count ← perform A groups.renameAction
  return res + count

/-! ## The passes as groups -/

theorem perform_ok (actions : List YagiAction) (st st' : FunctionState σ γ φ) (res : Int32) :
    perform A actions st = .ok res st' ↔ res = 0 ∧ forEach (YagiAction.apply A) actions st = (.ok (), st') := by
  unfold perform
  cases hrun : forEach (YagiAction.apply A) actions st with
  | mk result after =>
    cases result with
    | ok u => simp [eq_comm]
    | error e => simp

theorem onScope_ok (body : Body StdError σ) (st st' : FunctionState σ γ φ) :
    onScope body st = (.ok (), st') ↔ ∃ scope, body st.scope = (.ok (), scope) ∧ st' = { st with scope := scope } := by
  unfold onScope
  cases hbody : body st.scope with
  | mk result scope =>
    cases result with
    | ok u => simp [Except.mapError, eq_comm]
    | error e => simp [Except.mapError]

theorem forEach_onScope {E : Type} (step : E → Body ActionError (FunctionState σ γ φ)) (body : E → Body StdError σ)
    (es : List E) (st : FunctionState σ γ φ)
    (h : ∀ e ∈ es, ∀ scope, step e { st with scope := scope } = onScope (body e) { st with scope := scope }) :
    forEach step es st = onScope (forEach body es) st := by
  induction es generalizing st with
  | nil => rfl
  | cons e es ih =>
    have hfirst := h e List.mem_cons_self st.scope
    have hrest := fun scope => ih { st with scope := scope } fun x hx => h x (List.mem_cons_of_mem _ hx)
    cases hbody : body e st.scope with
    | mk result scope =>
      cases result with
      | ok u =>
        have hstep : step e st = (.ok (), { st with scope := scope }) := by
          rw [show step e st = onScope (body e) st from hfirst, onScope, hbody]
          rfl
        rw [forEach_cons_ok _ _ _ _ _ hstep, hrest scope]
        unfold onScope
        rw [forEach_cons_ok _ _ _ _ _ hbody]
      | error err =>
        have hstep : step e st = (.error (.std err), { st with scope := scope }) := by
          rw [show step e st = onScope (body e) st from hfirst, onScope, hbody]
          rfl
        rw [forEach_cons_error _ _ _ _ _ _ hstep]
        unfold onScope
        rw [forEach_cons_error _ _ _ _ _ _ hbody]
        rfl

variable (funcSym : FunctionSymbol) (st : FunctionState σ γ φ)

theorem withFunction_found (hfunc : A.find_function (A.graph.getAddress st.data).offset = some funcSym) (reached : Bool)
    (body : FunctionSymbol → Body ActionError (FunctionState σ γ φ)) : withFunction A reached body st = body funcSym st := by
  unfold withFunction
  rw [hfunc]

theorem retype_group (hfunc : A.find_function (A.graph.getAddress st.data).offset = some funcSym) :
    forEach (YagiAction.apply A) (retypeSpaces.map (.ActionLoadLocalScope (ascii "yagi"))) st =
      onScope (retypeAction A.localScope A.arch A.db A.findByTypeInfo funcSym.getAddress A.nodes
        (A.graph.allOps st.data)) st := by
  rw [forEach_map]
  apply forEach_onScope
  intro m_space _ scope
  show ActionLoadLocalScope.applyTo A m_space { st with scope := scope } = _
  unfold ActionLoadLocalScope.applyTo
  simp only [withFunction_found A funcSym { st with scope := scope } hfunc]

/-- What `ActionSyncStackVar` sees of the function. -/
def frameOf (data : φ) : StackSync σ Sym := ⟨A.entries, funcSym.findStackVar, A.findHigh data⟩

theorem rename_group (hfunc : A.find_function (A.graph.getAddress st.data).offset = some funcSym) :
    forEach (YagiAction.apply A)
        (.ActionSyncStackVar (ascii "yagi") :: renameSpaces.map (.ActionRenameVar (ascii "yagi"))) st =
      onScope (renameAction A.localScope (frameOf A funcSym st.data) A.arch funcSym.getAddress A.nodes
        (A.graph.allOps st.data)) st := by
  have hsync : YagiAction.apply A (.ActionSyncStackVar (ascii "yagi")) st =
      (.ok (), { st with scope := ActionSyncStackVar.apply A.localScope (frameOf A funcSym st.data) st.scope }) := by
    show ActionSyncStackVar.applyTo A st = _
    unfold ActionSyncStackVar.applyTo
    rw [withFunction_found A funcSym st hfunc]
    rfl
  rw [forEach_cons_ok _ _ _ _ _ hsync, forEach_map]
  let synced := ActionSyncStackVar.apply A.localScope (frameOf A funcSym st.data) st.scope
  refine forEach_onScope _ _ renameSpaces ⟨synced, st.proxy, st.data⟩ ?_
  intro m_space _ scope
  show ActionRenameVar.applyTo A m_space { st with scope := scope } = _
  unfold ActionRenameVar.applyTo
  simp only [withFunction_found A funcSym { st with scope := scope } hfunc]

end

/-! ## The function under work -/

section

variable {σ Sym γ GSym D Ty φ Op Vn Block : Type} (A : ActionContext σ Sym γ GSym D Ty φ Op Vn Block)

theorem apply_getAddress (hG : A.graph.AddressLaws) (action : YagiAction) (st : FunctionState σ γ φ) :
    A.graph.getAddress (action.apply A st).2.data = A.graph.getAddress st.data := by
  have hwith : ∀ reached body, (∀ funcSym st, (body funcSym st).2.data = st.data) →
      (withFunction A reached body st).2.data = st.data := by
    intro reached body hbody
    unfold withFunction
    cases A.find_function (A.graph.getAddress st.data).offset with
    | none => rfl
    | some funcSym => exact hbody funcSym st
  cases action with
  | ActionSyncStackVar group => exact congrArg _ (hwith _ _ fun _ _ => rfl)
  | ActionRenameVar group m_space => exact congrArg _ (hwith _ _ fun _ _ => rfl)
  | ActionLoadLocalScope group m_space => exact congrArg _ (hwith _ _ fun _ _ => rfl)
  | ActionAddeBPFSyscall group => rfl
  | ActionMIPST9Optimization group =>
    show A.graph.getAddress (ActionMIPST9Optimization.applyTo A st).2.data = _
    unfold ActionMIPST9Optimization.applyTo
    simp only
    cases hbegin : A.graph.beginOp st.data (A.graph.getAddress st.data) with
    | none => simp only
    | some beginPcode =>
      cases hregister : A.getRegister (ascii "t9") with
      | none => simp only
      | some t9Addr =>
        simp only [hG.newVarnode, hG.newConstant, hG.newOp, hG.opSetOpcode, hG.opSetInput, hG.opSetOutput,
          hG.opInsertBegin, hG.warningHeader]

theorem perform_getAddress (hG : A.graph.AddressLaws) (actions : List YagiAction) (st st' : FunctionState σ γ φ)
    (res : Int32) (h : perform A actions st = .ok res st') :
    A.graph.getAddress st'.data = A.graph.getAddress st.data := by
  obtain ⟨-, hrun⟩ := (perform_ok A actions st st' res).mp h
  clear h
  induction actions generalizing st with
  | nil =>
    cases hrun
    rfl
  | cons action actions ih =>
    have hmoved := apply_getAddress A hG action st
    cases hstep : action.apply A st with
    | mk result t =>
      rw [hstep] at hmoved
      cases result with
      | ok u =>
        rw [forEach_cons_ok _ _ _ _ _ hstep] at hrun
        exact (ih t hrun).trans hmoved
      | error e =>
        rw [forEach_cons_error _ _ _ _ _ _ hstep] at hrun
        simp at hrun

end

/-! ## What has been saved is applied -/

section

variable {σ Sym γ GSym D Ty φ Op Vn Block : Type} [DecidableEq Sym]
  (A : ActionContext σ Sym γ GSym D Ty φ Op Vn Block) (current : CurrentAction σ γ φ)
  (hasAttribute : σ → Sym → Attribute → Prop)

/-- Ghidra works on the function that it was given. It keeps the symbols with a locked type where they are. -/
structure CurrentAction.Laws : Prop where
  getAddress_toBreak : ∀ st res st', current.toBreak st = .ok res st' →
    A.graph.getAddress st'.data = A.graph.getAddress st.data
  getAddress_fromBreak : ∀ st res st', current.fromBreak st = .ok res st' →
    A.graph.getAddress st'.data = A.graph.getAddress st.data
  typelock : ∀ st res st', current.fromBreak st = .ok res st' → ∀ (k : ScopeKey A.arch) sym,
    findScope A.localScope st.scope k = some sym → hasAttribute st.scope sym .typelock →
      findScope A.localScope st'.scope k = some sym ∧
        A.localScope.datatype st'.scope sym = A.localScope.datatype st.scope sym ∧ hasAttribute st'.scope sym .typelock

/-- Up to the break, where the control flow has been built. -/
def toTypes (groups : ActionGroups) : Perform σ γ φ Unit := do
  let _ ← perform A groups.initAction
  let _ ← current.toBreak
  let _ ← perform A groups.archSpecific

/-- Up to where Ghidra has finished. -/
def toNames (groups : ActionGroups) : Perform σ γ φ Int32 := do
  toTypes A current groups
  let _ ← perform A groups.retypeAction
  current.fromBreak

omit [DecidableEq Sym] in
theorem toTypes_getAddress (hG : A.graph.AddressLaws) (hcurrent : current.Laws A hasAttribute) (groups : ActionGroups)
    (st broken : FunctionState σ γ φ) (h : toTypes A current groups st = .ok () broken) :
    A.graph.getAddress broken.data = A.graph.getAddress st.data := by
  unfold toTypes at h
  obtain ⟨_, started, hinit, h⟩ := (bind_ok _ _ _ _ _).mp h
  obtain ⟨_, stopped, hbreak, h⟩ := (bind_ok _ _ _ _ _).mp h
  obtain ⟨_, specific, hspecific, h⟩ := (bind_ok _ _ _ _ _).mp h
  obtain ⟨-, rfl⟩ := (pure_ok _ _ _ _).mp h
  calc A.graph.getAddress specific.data
      _ = A.graph.getAddress stopped.data := perform_getAddress A hG _ stopped specific _ hspecific
      _ = A.graph.getAddress started.data := hcurrent.getAddress_toBreak started _ stopped hbreak
      _ = A.graph.getAddress st.data := perform_getAddress A hG _ st started _ hinit

/-- `broken` is the function at the break, and `after` the one that Ghidra has finished. -/
structure Stages (groups : ActionGroups) (st broken after : FunctionState σ γ φ) (res : Int32) : Prop where
  broken : toTypes A current groups st = .ok () broken
  after : toNames A current groups st = .ok res after

structure Annotated (F : StackSync σ Sym) (records : List (ScopeKey A.arch × Ty)) (named : List (Sym × Str))
    (broken after st' : FunctionState σ γ φ) (res : Int32) : Prop where
  types : ∀ (k : ScopeKey A.arch) newType, findScope A.localScope broken.scope k = none →
    first records k = some newType → ∃ sym, findScope A.localScope st'.scope k = some sym ∧
      A.localScope.datatype st'.scope sym = A.findByTypeInfo newType ∧ hasAttribute st'.scope sym .typelock
  names : 0 ≤ res → ∀ sym, A.localScope.name st'.scope sym =
    (lastName named sym).getD (A.localScope.name (ActionSyncStackVar.apply A.localScope F after.scope) sym)
  stopped : res < 0 → st' = after

omit [DecidableEq Sym] in
theorem performActions_ok (groups : ActionGroups) (st st' : FunctionState σ γ φ) (res : Int32)
    (h : performActions A current groups st = .ok res st') : ∃ broken loaded after,
      Stages A current groups st broken after res ∧
      forEach (YagiAction.apply A) groups.retypeAction broken = (.ok (), loaded) ∧
      current.fromBreak loaded = .ok res after ∧
      (res < 0 → st' = after) ∧
      (0 ≤ res → forEach (YagiAction.apply A) groups.renameAction after = (.ok (), st')) := by
  have hsplit : performActions A current groups = (do
      toTypes A current groups
      let _ ← perform A groups.retypeAction
      let res ← current.fromBreak
      if res < 0 then
        return res
      let count ← perform A groups.renameAction
      return res + count) := by
    unfold performActions toTypes
    simp only [bind_assoc, pure_bind]
  rw [hsplit, bind_ok] at h
  obtain ⟨⟨⟩, broken, hbroken, h⟩ := h
  obtain ⟨_, loaded, hload, h⟩ := (bind_ok _ _ _ _ _).mp h
  obtain ⟨r, after, hfrom, h⟩ := (bind_ok _ _ _ _ _).mp h
  have hafter : toNames A current groups st = .ok r after :=
    (bind_ok _ _ _ _ _).mpr ⟨(), broken, hbroken, (bind_ok _ _ _ _ _).mpr ⟨_, loaded, hload, hfrom⟩⟩
  obtain ⟨-, hload⟩ := (perform_ok A _ _ _ _).mp hload
  by_cases hneg : r < 0
  · rw [if_pos hneg, pure_ok] at h
    obtain ⟨rfl, rfl⟩ := h
    exact ⟨broken, loaded, after, ⟨hbroken, hafter⟩, hload, hfrom, fun _ => rfl,
      fun hnot => absurd hneg (Int32.not_lt.mpr hnot)⟩
  · rw [if_neg hneg] at h
    obtain ⟨count, s, hpasses, h⟩ := (bind_ok _ _ _ _ _).mp h
    obtain ⟨rfl, hrename⟩ := (perform_ok A _ _ _ _).mp hpasses
    obtain ⟨hres, rfl⟩ := (pure_ok _ _ _ _).mp h
    rw [Int32.add_zero] at hres
    subst hres
    exact ⟨broken, loaded, after, ⟨hbroken, hafter⟩, hload, hfrom, fun hlt => absurd hlt hneg, fun _ => hrename⟩

variable {hasAttribute}

omit [DecidableEq Sym] in
theorem loaded_retypes (hS : A.localScope.OnceLaws hasAttribute) (hfinds : A.localScope.FindsSymbols)
    (harch : A.arch.NamesSpaces) (funcSym : FunctionSymbol) (broken loaded : FunctionState σ γ φ)
    (hfunc : A.find_function (A.graph.getAddress broken.data).offset = some funcSym)
    (hload : forEach (YagiAction.apply A) (retypeSpaces.map (.ActionLoadLocalScope (ascii "yagi"))) broken =
      (.ok (), loaded)) :
    loaded.data = broken.data ∧ Retypes A.localScope A.findByTypeInfo hasAttribute
      (savedRecords A.arch A.db funcSym.getAddress A.nodes (A.graph.allOps broken.data)) broken.scope loaded.scope := by
  rw [retype_group A funcSym broken hfunc] at hload
  obtain ⟨scope, haction, rfl⟩ := (onScope_ok _ _ _).mp hload
  have hread := (retypeAction_return A.localScope A.arch A.db A.findByTypeInfo A.nodes funcSym.getAddress
    (A.graph.allOps broken.data) broken.scope).mp (by rw [haction])
  have hretypes : ∃ scope', retypeAction A.localScope A.arch A.db A.findByTypeInfo funcSym.getAddress A.nodes
        (A.graph.allOps broken.data) broken.scope = (.ok (), scope') ∧
      Retypes A.localScope A.findByTypeInfo hasAttribute
        (savedRecords A.arch A.db funcSym.getAddress A.nodes (A.graph.allOps broken.data)) broken.scope scope' := by
    refine retypeAction_retypes A.db funcSym.getAddress A.nodes hS hfinds harch _ ?_ broken.scope
    intro m_space hspace op hop e he
    obtain ⟨found, hfound⟩ := hread m_space hspace op hop
    rw [he] at hfound
    simp at hfound
  obtain ⟨scope', haction', hretypes⟩ := hretypes
  obtain rfl : scope' = scope := (Prod.mk.inj (haction'.symm.trans haction)).2
  exact ⟨rfl, hretypes⟩

theorem renamed_renames (hN : A.localScope.NameLaws hasAttribute) (funcSym : FunctionSymbol)
    (after st' : FunctionState σ γ φ)
    (hfunc : A.find_function (A.graph.getAddress after.data).offset = some funcSym)
    (hrename : forEach (YagiAction.apply A)
      (.ActionSyncStackVar (ascii "yagi") :: renameSpaces.map (.ActionRenameVar (ascii "yagi"))) after = (.ok (), st')) :
    Renames A.localScope hasAttribute
      (savedNames A.localScope A.arch funcSym.getAddress A.nodes after.scope (A.graph.allOps after.data))
      (ActionSyncStackVar.apply A.localScope (frameOf A funcSym after.data) after.scope) st'.scope := by
  rw [rename_group A funcSym after hfunc] at hrename
  obtain ⟨scope, haction, rfl⟩ := (onScope_ok _ _ _).mp hrename
  have hread := (renamePasses_return A.localScope A.arch A.nodes funcSym.getAddress (A.graph.allOps after.data)
    (ActionSyncStackVar.apply A.localScope (frameOf A funcSym after.data) after.scope)).mp
    (congrArg Prod.fst haction)
  obtain ⟨scope', haction', hrenames⟩ := renameAction_renames A.arch funcSym.getAddress A.nodes hN
    (frameOf A funcSym after.data) (A.graph.allOps after.data) (fun m_space hspace op hop e he => by
      obtain ⟨found, hfound⟩ := hread m_space hspace op hop
      rw [he] at hfound
      simp at hfound) after.scope
  obtain rfl : scope' = scope := (Prod.mk.inj (haction'.symm.trans haction)).2
  exact hrenames

theorem renamed_keeps (hN : A.localScope.NameLaws hasAttribute) (F : StackSync σ Sym) (named : List (Sym × Str))
    (scope scope' : σ) (h : Renames A.localScope hasAttribute named (ActionSyncStackVar.apply A.localScope F scope) scope') :
    A.localScope.findAddr scope' = A.localScope.findAddr scope ∧
      A.localScope.datatype scope' = A.localScope.datatype scope ∧
      ∀ sym a, hasAttribute scope sym a → hasAttribute scope' sym a := by
  have hsync := sync_sameButNames hN F scope
  refine ⟨h.findAddr.trans hsync.findAddr, h.datatype.trans hsync.datatype, ?_⟩
  intro sym a ha
  rw [h.locked, hsync.attributes]
  exact Or.inr ha

/-- **Annotations.** When a decompilation returns, a storage that had no symbol at the break has one with the first
type that was saved for it, locked. Each symbol has the last name saved for it, else the name of the frame or its own. -/
theorem performActions_annotated (hS : A.localScope.OnceLaws hasAttribute) (hN : A.localScope.NameLaws hasAttribute)
    (harch : A.arch.NamesSpaces) (hcurrent : current.Laws A hasAttribute) (groups : ActionGroups)
    (hretype : groups.retypeAction = []) (hrename : groups.renameAction = []) (st st' : FunctionState σ γ φ)
    (res : Int32) (h : performActions A current groups.buildAction st = .ok res st') :
    ∃ broken after, Stages A current groups.buildAction st broken after res ∧
      ∀ funcSym, A.find_function (A.graph.getAddress broken.data).offset = some funcSym →
        Annotated A hasAttribute (frameOf A funcSym after.data)
          (savedRecords A.arch A.db funcSym.getAddress A.nodes (A.graph.allOps broken.data))
          (savedNames A.localScope A.arch funcSym.getAddress A.nodes after.scope (A.graph.allOps after.data))
          broken after st' res := by
  obtain ⟨broken, loaded, after, hstages, hload, hfrom, hneg, hpos⟩ := performActions_ok A current _ st st' res h
  refine ⟨broken, after, hstages, ?_⟩
  intro funcSym hfunc
  simp only [ActionGroups.buildAction, hretype, hrename, List.nil_append] at hload hpos
  obtain ⟨hdata, hretypes⟩ := loaded_retypes A hS hN.findAddr_mem harch funcSym broken loaded hfunc hload
  have hafter : A.find_function (A.graph.getAddress after.data).offset = some funcSym := by
    rw [hcurrent.getAddress_fromBreak loaded res after hfrom, hdata]
    exact hfunc
  refine ⟨?_, ?_, hneg⟩
  · intro k newType hfree hfirst
    have htype : typeAt A.localScope loaded.scope k = some (A.findByTypeInfo newType) := by
      rw [hretypes.types, (typeAt_none broken.scope k).mpr hfree, hfirst]
      rfl
    obtain ⟨sym, hsym, hdatatype⟩ := Option.map_eq_some_iff.mp htype
    have hlock := hretypes.locked sym (hretypes.new k sym hfree hsym)
    obtain ⟨hfound, hkept, hlocked⟩ := hcurrent.typelock loaded res after hfrom k sym hsym hlock
    refine ⟨sym, ?_⟩
    by_cases hstop : res < 0
    · rw [hneg hstop]
      exact ⟨hfound, hkept.trans hdatatype, hlocked⟩
    · obtain ⟨hfind, htypes, hattributes⟩ := renamed_keeps A hN _ _ _ _
        (renamed_renames A hN funcSym after st' hafter (hpos (Int32.not_lt.mp hstop)))
      refine ⟨?_, ?_, hattributes sym .typelock hlocked⟩
      · unfold findScope
        rw [hfind]
        exact hfound
      · rw [htypes]
        exact hkept.trans hdatatype
  · intro hnonneg
    exact (renamed_renames A hN funcSym after st' hafter (hpos hnonneg)).names

end

end Yagi
