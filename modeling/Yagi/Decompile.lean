import Yagi.Build
import Yagi.Database
import Yagi.Rename.Others
import Yagi.Scope.Imports
import Yagi.Scope.Once
import Yagi.Session.Shown
import Yagi.Viewer

/-!
# A decompilation (`GhidraDecompiler::decompile`)

The scope is cleared and the function is looked up in it. Then Ghidra and the actions
work on it, its symbols are collected, and it is printed.
-/

open Text Effect

namespace Yagi

/-- What `catch` does not stop: `back()` of an empty vector, and a function that is a null pointer. -/
inductive DecompileCrash where
  | empty_vector
  | null_pointer
deriving DecidableEq, Repr

/-- The result, with the name of the function and its text. It can be shown in a window. -/
structure Decompiler.Printed extends Decompiler.Result where
  name : Str
  cCode : Str
  noNul : ∀ key loc, symbolAddress key = some loc → NoNul loc.spaceName

def Decompiler.Printed.window (code : Decompiler.Printed) : Window := ⟨code.toResult, code.noNul⟩

/-- What `decompile` works with. `clearAnalysis` gives the function of a symbol, with nothing done yet. -/
structure DecompileContext (σ Sym γ GSym D Ty φ Op Vn Block : Type) extends
    ActionContext σ Sym γ GSym D Ty φ Op Vn Block where
  archi : YagiArchitecture Ty GSym D
  program : Program
  current : CurrentAction σ γ φ
  groups : ActionGroups
  clearAnalysis : GSym → γ → FunctionState σ γ φ
  decompiled : FunctionState σ γ φ → DecompiledFunc Sym
  docFunction : FunctionState σ γ φ → Except Raised Str

section

variable {σ Sym γ GSym D Ty φ Op Vn Block : Type} (C : DecompileContext σ Sym γ GSym D Ty φ Op Vn Block)
  (db : Database Ty)

/-- Whatever raises is caught, and there is no result. -/
def decompile (funcAddress : UInt64) (st : γ) : Except DecompileCrash (Option Decompiler.Printed) × γ :=
  match IdaSymbolInfoFactory.find_function db funcAddress with
  | .error _ => (.error .empty_vector, st)
  | .ok none => (.ok none, st)
  | .ok (some funcSym) =>
    let addr : Address := ⟨C.archi.getDefaultCodeSpace, funcSym.getAddress⟩
    match YagiScope.findFunction C.proxy C.archi addr (C.proxy.clear st) with
    | (.error _, st) => (.ok none, st)
    | (.ok none, st) => (.error .null_pointer, st)
    | (.ok (some func), st) =>
      match performActions C.toActionContext C.current C.groups (C.clearAnalysis func st) with
      | .error _ st => (.ok none, st.proxy)
      | .ok _ st =>
        match C.docFunction st with
        | .error _ => (.ok none, st.proxy)
        | .ok cCode =>
          let name := (IdaSymbolInfo.mk funcSym.getAddress funcSym.getName).getName C.program
          let symbols := findSymbols (C.localScope.name st.scope) (C.decompiled st)
          (.ok (some ⟨⟨funcSym.getAddress, symbols⟩, name, cCode, findSymbols_noNul _ _⟩), st.proxy)

theorem findFunction_missed [DecidableEq GSym] (hS : C.proxy.Laws) (addr : Address) (st : γ) :
    C.proxy.findFunction (C.proxy.clear st) addr = none := by
  rw [hS.findFunction]
  intro sym hsym
  rw [hS.clear] at hsym
  exact absurd hsym List.not_mem_nil

theorem findFunction_cleared [DecidableEq GSym] (hS : C.proxy.Laws) (addr : Address) (st : γ) :
    (YagiScope.findFunction C.proxy C.archi addr (C.proxy.clear st)).1 = .ok none ↔ C.archi.find addr.offset = none := by
  unfold YagiScope.findFunction
  rw [findFunction_missed C hS]
  cases hfind : C.archi.find addr.offset with
  | none => simp
  | some data =>
    simp only [reduceCtorEq, iff_false]
    cases C.archi.inject (C.proxy.addFunction addr data.getName (C.proxy.clear st)).1 with
    | error e => simp [bind, Except.bind]
    | ok u =>
      cases C.archi.update (C.proxy.addFunction addr data.getName (C.proxy.clear st)).1 with
      | error e => simp [bind, Except.bind]
      | ok u => simp [bind, Except.bind, pure, Except.pure]

/-! ## What a decompilation does -/

/-- How a result came about: from the function that contains the address, by the actions on a cleared scope. -/
structure Decompiled (funcAddress : UInt64) (st : γ) (result : Decompiler.Printed) (funcSym : FunctionSymbolInfo)
    (func : GSym) (scope : γ) (res : Int32) (st' : FunctionState σ γ φ) : Prop where
  function : IdaSymbolInfoFactory.find_function db funcAddress = .ok (some funcSym)
  found : YagiScope.findFunction C.proxy C.archi ⟨C.archi.getDefaultCodeSpace, funcSym.getAddress⟩
    (C.proxy.clear st) = (.ok (some func), scope)
  performed : performActions C.toActionContext C.current C.groups (C.clearAnalysis func scope) = .ok res st'
  printed : C.docFunction st' = .ok result.cCode
  ea : result.ea = funcSym.getAddress
  name : result.name = (IdaSymbolInfo.mk funcSym.getAddress funcSym.getName).getName C.program
  symbols : result.symbolAddress = findSymbols (C.localScope.name st'.scope) (C.decompiled st')

theorem decompile_some (funcAddress : UInt64) (st : γ) (result : Decompiler.Printed)
    (h : (decompile C db funcAddress st).1 = .ok (some result)) :
    ∃ funcSym func scope res st', Decompiled C db funcAddress st result funcSym func scope res st' := by
  unfold decompile at h
  cases hfunction : IdaSymbolInfoFactory.find_function db funcAddress with
  | error e => simp [hfunction] at h
  | ok found =>
    cases found with
    | none => simp [hfunction] at h
    | some funcSym =>
      simp only [hfunction] at h
      cases hfound : YagiScope.findFunction C.proxy C.archi ⟨C.archi.getDefaultCodeSpace, funcSym.getAddress⟩
          (C.proxy.clear st) with
      | mk answer scope =>
        rw [hfound] at h
        match answer with
        | .error e => simp at h
        | .ok none => simp at h
        | .ok (some func) =>
          simp only at h
          cases hperformed : performActions C.toActionContext C.current C.groups (C.clearAnalysis func scope) with
          | error e st' => simp [hperformed] at h
          | ok res st' =>
            simp only [hperformed] at h
            cases hprinted : C.docFunction st' with
            | error e => simp [hprinted] at h
            | ok cCode =>
              simp only [hprinted, Except.ok.injEq, Option.some.injEq] at h
              subst h
              exact ⟨funcSym, func, scope, res, st', hfunction, hfound, hperformed, hprinted, rfl, rfl, rfl⟩

theorem find_eq_none (ea : UInt64) : IdaSymbolInfoFactory.find db ea = none ↔ db.get_name ea = [] := by
  unfold IdaSymbolInfoFactory.find
  split <;> simp_all

theorem FindsSymbols.eq_none {C : DecompileContext σ Sym γ GSym D Ty φ Op Vn Block} {db : Database Ty}
    (h : FindsSymbols C.program db C.archi) (ea : UInt64) : C.archi.find ea = none ↔ db.get_name ea = [] := by
  rw [h, IdaSymbolInfoFactory.symbolAt, Option.map_eq_none_iff, find_eq_none]

theorem decompile_crash_iff [DecidableEq GSym] (hS : C.proxy.Laws) (hfind : FindsSymbols C.program db C.archi)
    (funcAddress : UInt64) (st : γ) (funcSym : FunctionSymbolInfo)
    (hfunction : IdaSymbolInfoFactory.find_function db funcAddress = .ok (some funcSym)) :
    (∃ crash, (decompile C db funcAddress st).1 = .error crash) ↔ db.get_name funcSym.getAddress = [] := by
  have hmissed := findFunction_cleared C hS ⟨C.archi.getDefaultCodeSpace, funcSym.getAddress⟩ st
  rw [← hfind.eq_none, ← hmissed]
  unfold decompile
  simp only [hfunction]
  cases hfound : YagiScope.findFunction C.proxy C.archi ⟨C.archi.getDefaultCodeSpace, funcSym.getAddress⟩
      (C.proxy.clear st) with
  | mk answer scope =>
    match answer with
    | .error e => simp
    | .ok none => simp
    | .ok (some func) =>
      simp only [Except.ok.injEq, reduceCtorEq, iff_false, not_exists]
      intro crash
      cases performActions C.toActionContext C.current C.groups (C.clearAnalysis func scope) with
      | error e st' => simp
      | ok res st' => cases hprinted : C.docFunction st' <;> simp [hprinted]

/-- The function at the address, if there is one, has a name and a short name with a token. -/
def Decompilable (funcAddress : UInt64) : Prop :=
  ∀ start ∈ db.get_func funcAddress,
    IdaSymbolInfoFactory.HasToken (db.get_short_name start) ∧ db.get_name start ≠ []

theorem decompile_returns_iff [DecidableEq GSym] (hS : C.proxy.Laws) (hfind : FindsSymbols C.program db C.archi)
    (funcAddress : UInt64) (st : γ) :
    (∃ result, (decompile C db funcAddress st).1 = .ok result) ↔ Decompilable db funcAddress := by
  unfold Decompilable
  cases hfunc : db.get_func funcAddress with
  | none =>
    have hnone : IdaSymbolInfoFactory.find_function db funcAddress = .ok none := by
      unfold IdaSymbolInfoFactory.find_function
      rw [hfunc]
    unfold decompile
    simp [hnone]
  | some start =>
    have hfunction := IdaSymbolInfoFactory.find_function_eq db funcAddress start hfunc
    simp only [Option.mem_some_iff, forall_eq']
    by_cases htoken : IdaSymbolInfoFactory.HasToken (db.get_short_name start)
    · rw [if_pos htoken] at hfunction
      obtain ⟨functionName, hfunction⟩ := hfunction
      have hcrash : (∃ crash, (decompile C db funcAddress st).1 = .error crash) ↔ db.get_name start = [] :=
        decompile_crash_iff C db hS hfind funcAddress st _ hfunction
      rw [and_iff_right htoken, ne_eq, ← hcrash]
      cases (decompile C db funcAddress st).1 <;> simp
    · rw [if_neg htoken] at hfunction
      unfold decompile
      simp [hfunction, htoken]

/-- **Safety.** A decompilation returns, with or without a result, exactly when the function at the address, if there
is one, has a name and a short name with a token. -/
theorem decompile_safe_iff [DecidableEq GSym] (hS : C.proxy.Laws) (hfind : FindsSymbols C.program db C.archi)
    (funcAddress : UInt64) (st : γ) :
    (∃ result, (decompile C db funcAddress st).1 = .ok result) ↔
      ∀ start ∈ db.get_func funcAddress,
        IdaSymbolInfoFactory.HasToken (db.get_short_name start) ∧ db.get_name start ≠ [] :=
  decompile_returns_iff C db hS hfind funcAddress st

end

section

variable {σ Sym γ GSym D Ty φ Op Vn Block : Type} [DecidableEq Sym]
  (C : DecompileContext σ Sym γ GSym D Ty φ Op Vn Block) (hasAttribute : σ → Sym → Attribute → Prop) (ida : Ida Ty)
  (db : Database Ty) (events : List (SessionEvent Ty))

/-- What a decompiler of Yagi is built from, whatever the compiler, and sees of a database. The function of a symbol
lies where the symbol was mapped first. -/
structure DecompileContext.Laws [DecidableEq GSym] (compilerType : Compiler) : Prop where
  nodes : C.nodes = db.nodes
  types : C.db = ida.types
  groups : C.groups = (GhidraDecompiler.build compilerType).groups
  functions : ∀ ea funcSym, IdaSymbolInfoFactory.find_function db ea = .ok (some funcSym) →
    (C.find_function ea).map (·.getAddress) = some funcSym.getAddress
  proxy : C.proxy.Laws
  clearAnalysis : ∀ sym st entry, (C.proxy.mapEntries st sym).head? = some entry →
    C.graph.getAddress (C.clearAnalysis sym st).data = entry.addr
  graph : C.graph.AddressLaws
  once : C.localScope.OnceLaws hasAttribute
  names : C.localScope.NameLaws hasAttribute
  spaces : C.arch.NamesSpaces
  current : C.current.Laws C.toActionContext hasAttribute

/-- The result is about a function of the database, and its symbols have these types and names. -/
def Decompiler.Printed.Shows (result : Decompiler.Printed) (records : List PcodeOp → List (ScopeKey C.arch × Ty))
    (named : List PcodeOp → σ → List (Sym × Str)) (funcAddress : UInt64) (st : γ) : Prop :=
  ∃ function, C.find_function result.ea = some function ∧ function.getAddress = result.ea ∧
    ∃ funcSym func scope res st' broken after,
      Decompiled C db funcAddress st result funcSym func scope res st' ∧
      Stages C.toActionContext C.current C.groups (C.clearAnalysis func scope) broken after res ∧
      Annotated C.toActionContext hasAttribute (frameOf C.toActionContext function after.data)
        (records (C.graph.allOps broken.data)) (named (C.graph.allOps after.data) after.scope) broken after st' res

/-- The symbols of the result have the names and types that were given last for their pcodes. -/
def Decompiler.Printed.ShowsGiven (result : Decompiler.Printed) (funcAddress : UInt64) (st : γ) : Prop :=
  result.Shows C hasAttribute (session ida db events) (givenTypes C.arch ida db events result.ea)
    (givenNames C.localScope C.arch ida db events result.ea) funcAddress st

variable {C hasAttribute ida db}

omit [DecidableEq Sym] in
theorem findFunction_entries [DecidableEq GSym] (hS : C.proxy.Laws) (addr : Address) (st scope : γ) (func : GSym)
    (h : YagiScope.findFunction C.proxy C.archi addr (C.proxy.clear st) = (.ok (some func), scope)) :
    C.proxy.mapEntries scope func = [⟨addr, none⟩] := by
  unfold YagiScope.findFunction at h
  rw [findFunction_missed C hS] at h
  cases hfind : C.archi.find addr.offset with
  | none => simp [hfind] at h
  | some data =>
    have hadded := hS.addFunction addr data.getName (C.proxy.clear st)
    simp only [hfind, Prod.mk.injEq] at h
    obtain ⟨hfunc, rfl⟩ := h
    cases hinject : C.archi.inject (C.proxy.addFunction addr data.getName (C.proxy.clear st)).1 with
    | error e => simp [hinject, bind, Except.bind] at hfunc
    | ok u =>
      cases hupdate : C.archi.update (C.proxy.addFunction addr data.getName (C.proxy.clear st)).1 with
      | error e => simp [hinject, hupdate, bind, Except.bind] at hfunc
      | ok u =>
        simp only [hinject, hupdate, bind, Except.bind, pure, Except.pure, Except.ok.injEq, Option.some.injEq] at hfunc
        subst hfunc
        exact hadded.entries_new

omit [DecidableEq Sym] in
theorem decompile_function (hstart : db.FuncsStart) (funcAddress : UInt64) (st : γ) (result : Decompiler.Printed)
    (h : (decompile C db funcAddress st).1 = .ok (some result)) :
    db.get_func funcAddress = some result.ea ∧ ∃ funcSym, funcSym.getAddress = result.ea ∧
      IdaSymbolInfoFactory.find_function db result.ea = .ok (some funcSym) := by
  obtain ⟨funcSym, func, scope, res, st', hdecompiled⟩ := decompile_some C _ funcAddress st result h
  have hfunc : db.get_func funcAddress = some result.ea := by
    rw [hdecompiled.ea]
    exact (IdaSymbolInfoFactory.find_function_address _ funcAddress _ hdecompiled.function).symm
  refine ⟨hfunc, funcSym, hdecompiled.ea.symm, ?_⟩
  rw [← hdecompiled.function]
  exact IdaSymbolInfoFactory.find_function_congr db _ _ ((hstart _ _ hfunc).trans hfunc.symm)

/-- A decompilation replays what is saved for the function that contains the address. -/
theorem decompile_shows [DecidableEq GSym] (compilerType : Compiler) (hC : C.Laws hasAttribute ida db compilerType)
    (hstart : db.FuncsStart) (funcAddress : UInt64) (st : γ) (result : Decompiler.Printed)
    (h : (decompile C db funcAddress st).1 = .ok (some result)) :
    db.get_func funcAddress = some result.ea ∧
      result.Shows C hasAttribute db (savedRecords C.arch ida.types result.ea db.nodes)
        (fun ops st => savedNames C.localScope C.arch result.ea db.nodes st ops) funcAddress st := by
  obtain ⟨funcSym, func, scope, res, st', hdecompiled⟩ := decompile_some C _ funcAddress st result h
  obtain ⟨groups, hbuilt, hretype, hrename⟩ := GhidraDecompiler.build_groups compilerType
  have hgroups : C.groups = groups.buildAction := hC.groups.trans hbuilt
  have hperformed := hdecompiled.performed
  rw [hgroups] at hperformed
  obtain ⟨hfunc, found, hfound, hsame⟩ := decompile_function hstart funcAddress st result h
  obtain ⟨function, hfunction, haddress⟩ := Option.map_eq_some_iff.mp (hC.functions _ _ hsame)
  rw [hfound] at haddress
  obtain ⟨broken, after, hstages, hshown⟩ := performActions_annotated C.toActionContext C.current hC.once hC.names
    hC.spaces hC.current groups hretype hrename _ st' res hperformed
  have hentries := findFunction_entries hC.proxy _ st scope func hdecompiled.found
  have hbroken : (C.graph.getAddress broken.data).offset = result.ea := by
    rw [toTypes_getAddress C.toActionContext C.current hasAttribute hC.graph hC.current _ _ broken hstages.broken,
      hC.clearAnalysis func scope _ (by rw [hentries]; rfl), hdecompiled.ea]
  have hannotated := hshown function (by rw [hbroken]; exact hfunction)
  rw [haddress, hC.types, hC.nodes] at hannotated
  rw [← hgroups] at hstages
  exact ⟨hfunc, function, hfunction, haddress, funcSym, func, scope, res, st', broken, after, hdecompiled, hstages,
    hannotated⟩

theorem session_shown [DecidableEq GSym] (compilerType : Compiler)
    (hC : C.Laws hasAttribute ida (session ida db events) compilerType) (hida : ida.KeepsNodes)
    (hstart : (session ida db events).FuncsStart) (hlegible : Legible ida (edits ida db events)) (funcAddress : UInt64)
    (st : γ) (result : Decompiler.Printed)
    (h : (decompile C (session ida db events) funcAddress st).1 = .ok (some result)) :
    (session ida db events).get_func funcAddress = some result.ea ∧
      result.ShowsGiven C hasAttribute ida db events funcAddress st := by
  obtain ⟨hfunc, hshows⟩ := decompile_shows compilerType hC hstart funcAddress st result h
  have htypes : savedRecords C.arch ida.types result.ea (session ida db events).nodes =
      givenTypes C.arch ida db events result.ea := by
    funext ops
    exact savedRecords_session C.arch result.ea ops hida hlegible
  have hnames : (fun ops st => savedNames C.localScope C.arch result.ea (session ida db events).nodes st ops) =
      givenNames C.localScope C.arch ida db events result.ea := by
    funext ops scope
    exact savedNames_session C.localScope C.arch result.ea ops hida hlegible scope
  rw [htypes, hnames] at hshows
  exact ⟨hfunc, hshows⟩

variable (C hasAttribute ida db)

end

/-! ## `main` after a session -/

/-- Ghidra makes the variable `v1` in `EAX` where there is no symbol. -/
def nameEax (table : SymbolTable Int32) : SymbolTable Int32 :=
  if ((SymbolTable.scope 0).findAddr table eax (some 0x401004)).isSome then table
  else ((SymbolTable.scope 0).addSymbol (ascii "v1") 4 eax (some 0x401004) table).2

def naming : CurrentAction (SymbolTable Int32) SymbolCache PcodeTable where
  toBreak := pure 0
  fromBreak := do
    modify fun st => { st with scope := nameEax st.scope }
    return 0

/-- `EAX` is read at `0x401004`. -/
def mainFunction : DecompiledFunc Nat where
  defs := [⟨eax, some ⟨some 0, some ⟨eax, none⟩⟩⟩]
  ops := [⟨0x401004, [eax]⟩]
  body := [⟨0x401004, [eax]⟩]
  body_sublist := List.Sublist.refl _
  getName := ascii "main"
  getAddress := codeAt 0x401000
  calls := []

def printMain (v : Str) : Str :=
  lineBytes [.token mainToken] ++ [ch '\n'] ++ ascii " " ++ IdaEmit.colorGuard colorDref v

def mainContext (db : Database Unit) :
    DecompileContext (SymbolTable Int32) Nat SymbolCache Nat Int32 Unit PcodeTable Nat (Address × Int32) Unit where
  toActionContext :=
    { YagiAction.oneType (ascii "register") with
      arch := namedSpaces
      nodes := db.nodes
      find_function := fun ea => (IdaSymbolInfoFactory.find_function db ea).toOption.join.map fun funcSym =>
        ⟨funcSym.getAddress, fun _ _ => none⟩ }
  archi := { smallProgram with find := IdaSymbolInfoFactory.symbolAt putsProgram db }
  program := putsProgram
  current := naming
  groups := (GhidraDecompiler.build ⟨.X86_WINDOWS, .LE, .M32⟩).groups
  clearAnalysis sym proxy :=
    let entry := ((SymbolCache.scope.mapEntries proxy sym).head?.map (·.addr)).getD ⟨ramSpace, 0⟩
    ⟨[], proxy, ⟨entry, [⟨.CPUI_COPY, ⟨ramSpace, 0x401004⟩, [(eax, 4)], none⟩], []⟩⟩
  decompiled _ := mainFunction
  docFunction st := .ok (printMain ((SymbolTable.scope 0).name st.scope 0))

theorem decompile_safe_iff_main :
    (∃ result, (decompile (mainContext mainDatabase) mainDatabase 0x401004 []).1 = .ok result) ↔
      ∀ start ∈ mainDatabase.get_func 0x401004,
        IdaSymbolInfoFactory.HasToken (mainDatabase.get_short_name start) ∧ mainDatabase.get_name start ≠ [] :=
  decompile_safe_iff (mainContext mainDatabase) mainDatabase SymbolCache.scope_laws (fun _ => rfl) 0x401004 []

theorem nameEax_keeps (table : SymbolTable Int32) (addr : Address) (u : Option UInt64) (i : Nat)
    (h : (SymbolTable.scope 0).findAddr table addr u = some i) :
    (SymbolTable.scope 0).findAddr (nameEax table) addr u = some i ∧ (nameEax table)[i]? = table[i]? := by
  have hi := (SymbolTable.scope_renameLaws 0).findAddr_mem table addr u i h
  unfold nameEax
  split
  · exact ⟨h, rfl⟩
  · refine ⟨?_, SymbolTable.getElem?_old 0 _ _ _ _ table i hi⟩
    show List.findIdx? _ (table ++ [_]) = some i
    rw [List.findIdx?_append, show List.findIdx? _ table = some i from h]
    rfl

theorem naming_laws
    (A : ActionContext (SymbolTable Int32) Nat SymbolCache Nat Int32 Unit PcodeTable Nat (Address × Int32) Unit)
    (hA : A.localScope = SymbolTable.scope 0) : naming.Laws A SymbolTable.hasAttribute where
  getAddress_toBreak st res st' h := by
    obtain ⟨-, rfl⟩ := (pure_ok _ _ _ _).mp h
    rfl
  getAddress_fromBreak st res st' h := by
    cases h
    rfl
  typelock st res st' h k sym hfound hlocked := by
    cases h
    unfold findScope at hfound ⊢
    rw [hA] at hfound ⊢
    obtain ⟨hkept, hrow⟩ := nameEax_keeps st.scope k.addr k.usepoint sym hfound
    refine ⟨hkept, ?_, ?_⟩
    · exact congrArg (fun row => (row.map (·.datatype)).getD 0) hrow
    · unfold SymbolTable.hasAttribute at hlocked ⊢
      exact hrow ▸ hlocked

theorem mainContext_laws (ida : Ida Unit) (hida : ida.types = intDatabase) (db : Database Unit) :
    (mainContext db).Laws SymbolTable.hasAttribute ida db ⟨.X86_WINDOWS, .LE, .M32⟩ where
  nodes := rfl
  types := hida.symm
  groups := rfl
  functions ea funcSym h := by
    show ((IdaSymbolInfoFactory.find_function db ea).toOption.join.map _).map _ = _
    rw [h]
    rfl
  proxy := SymbolCache.scope_laws
  clearAnalysis sym st entry h := by
    show (((SymbolCache.scope.mapEntries st sym).head?.map (·.addr)).getD _) = _
    rw [show (SymbolCache.scope.mapEntries st sym).head? = some entry from h]
    rfl
  graph := PcodeTable.graph_addressLaws
  once := SymbolTable.scope_onceLaws 0
  names := SymbolTable.scope_nameLaws 0
  spaces := namedSpaces_names
  current := naming_laws _ rfl

/-- The database after the session. -/
def eaxDatabase : Database Unit := session intIda mainDatabase eaxEvents

theorem eaxDatabase_funcsStart : eaxDatabase.FuncsStart := fun _ _ h => h

theorem exists_result (answer : Except DecompileCrash (Option Decompiler.Printed)) (p : Decompiler.Printed → Bool)
    (h : answer.toOption.join.any p = true) : ∃ result, answer = .ok (some result) ∧ p result = true := by
  rcases answer with crash | _ | result
  · cases h
  · cases h
  · exact ⟨result, rfl, h⟩

theorem mainContext_decompiles :
    ∃ result, (decompile (mainContext eaxDatabase) eaxDatabase 0x401004 []).1 = .ok (some result) := by
  obtain ⟨result, h, -⟩ := exists_result (decompile (mainContext eaxDatabase) eaxDatabase 0x401004 []).1
    (fun _ => true) (by decide +kernel)
  exact ⟨result, h⟩

end Yagi
