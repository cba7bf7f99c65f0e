import Yagi.Scope.Coherence
import Yagi.SymbolNames

/-!
# Imports in the scope

The mark of an import goes from the database through the scope to the emitter and to
the symbol map, which both drop it.
-/

open Text Runs

namespace Yagi

/-! ## Plain names -/

/-- The emitter prints the plain name, coloured as an import where it is one, and a call is recorded under it. -/
structure ShownPlainly (name plain : Str) (imported : Bool) : Prop where
  printed : ∀ hl : SyntaxHighlight,
    IdaEmit.tagFuncName name hl = IdaEmit.colorGuard (if imported then colorImpname else hl.color) plain
  recorded : FuncCallSpecs.key ⟨name, none⟩ = plain

theorem shownPlainly_marked (plain : Str) : ShownPlainly (importPrefix ++ plain) plain true := by
  have himport : IdaEmit.isImport (importPrefix ++ plain) = true := (IdaEmit.isImport_iff _).mpr ⟨plain, rfl⟩
  constructor
  · intro hl
    rw [IdaEmit.tagFuncName, if_pos himport, IdaEmit.importedName_append]
    rfl
  · rw [funcCallSpecs_key, IdaEmit.importedName_append]

theorem shownPlainly_unmarked_iff (plain : Str) : ShownPlainly plain plain false ↔ IdaEmit.isImport plain = false := by
  constructor
  · intro h
    rw [← IdaEmit.importedName_eq_self, ← funcCallSpecs_key ⟨plain, none⟩]
    exact h.recorded
  · intro hplain
    constructor
    · intro hl
      rw [IdaEmit.tagFuncName, if_neg (by simp [hplain])]
      rfl
    · rw [funcCallSpecs_key, (IdaEmit.importedName_eq_self plain).mpr hplain]

theorem getName_shownPlainly_iff (program : Program) (info : IdaSymbolInfo) :
    ShownPlainly (info.getName program) (info.plainName program) (info.isImport program) ↔
      (info.isImport program = false → IdaEmit.isImport (info.plainName program) = false) := by
  unfold IdaSymbolInfo.getName
  cases himport : info.isImport program with
  | true =>
    simp only [if_true, Bool.true_eq_false, false_imp_iff, iff_true]
    exact shownPlainly_marked _
  | false =>
    simp only [Bool.false_eq_true, if_false, true_imp_iff]
    exact shownPlainly_unmarked_iff _

/-! ## Callees -/

section

variable {σ Sym D Ty : Type} (proxy : ScopeInternal σ Sym D) (Z : SymbolSizes σ Sym D) (getName : σ → Sym → Str)
  (program : Program) (db : Database Ty) (archi : YagiArchitecture Ty Sym D)

/-- The scope asks the database of IDA. -/
def FindsSymbols : Prop := ∀ ea, archi.find ea = IdaSymbolInfoFactory.symbolAt program db ea

/-- A function or an external reference of the scope stands for a symbol of the database that has a name. -/
structure Callee (st : σ) (sym : Sym) (info : IdaSymbolInfo) : Prop where
  mem : sym ∈ proxy.symbols st
  kind : proxy.kind st sym = .function ∨ proxy.kind st sym = .externalRef
  entry : ∃ entry ∈ proxy.mapEntries st sym, entry.addr.offset = info.m_ea
  found : IdaSymbolInfoFactory.find db info.m_ea = some info.m_name
  named : info.getName program ≠ []

theorem callee_name (hfind : FindsSymbols program db archi) (st : σ) (hst : Coherent proxy getName archi st) (sym : Sym)
    (info : IdaSymbolInfo) (h : Callee proxy program db st sym info) :
    getName st sym = info.getName program ∧ (proxy.kind st sym = .externalRef → info.isImport program = true) := by
  obtain ⟨entry, hentry, haddr⟩ := h.entry
  have hfound : archi.find entry.addr.offset = some (info.symbolInfo program db) := by
    rw [hfind, haddr, IdaSymbolInfoFactory.symbolAt, h.found]
    rfl
  have hknown := hst sym h.mem entry hentry
  rcases h.kind with hkind | hkind
  · rw [hkind] at hknown ⊢
    rcases hknown with ⟨data, hdata, hname⟩ | ⟨hdata, -⟩
    · obtain rfl := Option.some.inj (hfound.symm.trans hdata)
      exact ⟨hname h.named, by simp⟩
    · simp at hdata
  · rw [hkind] at hknown ⊢
    rcases hknown with ⟨data, hdata, hname⟩ | ⟨hdata, -⟩
    · obtain ⟨hdata, himport⟩ := Option.filter_eq_some_iff.mp hdata
      obtain rfl := Option.some.inj (hfound.symm.trans hdata)
      exact ⟨hname h.named, fun _ => himport⟩
    · simp at hdata

/-- **Imports.** After any run from a cleared scope, each external reference is listed as an import. What is called
is printed under its plain name, coloured as an import where it is one, and its calls are recorded under that,
exactly when nothing else that is called bears the mark. -/
theorem callees_shown_plainly_iff [DecidableEq Sym] (hS : proxy.Laws) (hR : proxy.RangeLaws Z)
    (hN : proxy.NameLaws getName) (hfind : FindsSymbols program db archi) (st : σ) (events : List (ScopeEvent D)) :
    (∀ sym info, Callee proxy program db (run (ScopeEvent.apply proxy archi) (proxy.clear st) events) sym info →
      proxy.kind (run (ScopeEvent.apply proxy archi) (proxy.clear st) events) sym = .externalRef →
      info.Listed program) ∧
    ((∀ sym info, Callee proxy program db (run (ScopeEvent.apply proxy archi) (proxy.clear st) events) sym info →
        ShownPlainly (getName (run (ScopeEvent.apply proxy archi) (proxy.clear st) events) sym)
          (info.plainName program) (info.isImport program)) ↔
      ∀ sym info, Callee proxy program db (run (ScopeEvent.apply proxy archi) (proxy.clear st) events) sym info →
        info.isImport program = false → IdaEmit.isImport (info.plainName program) = false) := by
  have hclear : Coherent proxy getName archi (proxy.clear st) := by
    intro sym hsym
    rw [hS.clear] at hsym
    simp at hsym
  have hrun := run_coherent proxy Z getName archi hS hR hN _ events hclear
  constructor
  · intro sym info h hkind
    exact (info.isImport_iff program).mp ((callee_name proxy getName program db archi hfind _ hrun sym info h).2 hkind)
  · refine forall_congr' fun sym => forall_congr' fun info => forall_congr' fun h => ?_
    rw [(callee_name proxy getName program db archi hfind _ hrun sym info h).1]
    exact getName_shownPlainly_iff program info

end

/-! ## A program that calls `puts` -/

/-- `puts` is the only import. Names are cleaned of its mark, and not demangled. -/
def putsProgram : Program where
  import_modules := [none, some [none, some (ascii "puts")]]
  xrefs_to _ := []
  getseg _ := ⟨ascii ".text", SEGPERM_READ + SEGPERM_EXEC⟩
  cleanup_name _ name := if IdaEmit.isImport name then some (IdaEmit.importedName name) else none
  demangle_name _ := []

def putsDatabase : Database Unit where
  get_func ea := if ea = 0x401000 then some 0x401000 else none
  get_short_name _ := ascii "main"
  get_name ea := if ea = 0x401000 then ascii "main" else if ea = 0x402000 then ascii "__imp_puts" else []
  get_tinfo _ := none
  nodes _ := none

def putsArchitecture : YagiArchitecture Unit Nat Int32 :=
  { smallProgram with find := IdaSymbolInfoFactory.symbolAt putsProgram putsDatabase }

def putsEvents : List (ScopeEvent Int32) :=
  [.query (.findFunction ⟨ramSpace, 0x401000⟩), .query (.findExternalRef ⟨ramSpace, 0x402000⟩)]

theorem callees_shown_plainly_iff_puts :
    (∀ sym info, Callee SymbolCache.scope putsProgram putsDatabase
        (run (ScopeEvent.apply SymbolCache.scope putsArchitecture) (SymbolCache.scope.clear []) putsEvents) sym info →
      SymbolCache.scope.kind
          (run (ScopeEvent.apply SymbolCache.scope putsArchitecture) (SymbolCache.scope.clear []) putsEvents) sym =
        .externalRef →
      info.Listed putsProgram) ∧
    ((∀ sym info, Callee SymbolCache.scope putsProgram putsDatabase
          (run (ScopeEvent.apply SymbolCache.scope putsArchitecture) (SymbolCache.scope.clear []) putsEvents) sym
          info →
        ShownPlainly (SymbolCache.getName
            (run (ScopeEvent.apply SymbolCache.scope putsArchitecture) (SymbolCache.scope.clear []) putsEvents) sym)
          (info.plainName putsProgram) (info.isImport putsProgram)) ↔
      ∀ sym info, Callee SymbolCache.scope putsProgram putsDatabase
          (run (ScopeEvent.apply SymbolCache.scope putsArchitecture) (SymbolCache.scope.clear []) putsEvents) sym
          info →
        info.isImport putsProgram = false → IdaEmit.isImport (info.plainName putsProgram) = false) :=
  callees_shown_plainly_iff SymbolCache.scope SymbolCache.sizes SymbolCache.getName putsProgram putsDatabase
    putsArchitecture SymbolCache.scope_laws SymbolCache.scope_rangeLaws SymbolCache.scope_nameLaws (fun _ => rfl) [] _

-- The external reference at `0x402000` is named `__imp_puts` in the database.
example : (run (ScopeEvent.apply SymbolCache.scope putsArchitecture) [] putsEvents).map (·.name) =
    [ascii "main", ascii "__imp_puts"] := by decide

end Yagi
