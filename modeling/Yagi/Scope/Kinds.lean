import Yagi.Scope.Container

/-!
# The kind of an address

A lookup makes a symbol of the kind that it is asked for, and later lookups find
that symbol. The kind is the one of the database as long as no symbol is made over
an address of another kind.
-/

open Text Runs

namespace Yagi

variable {σ Sym D Ty : Type} (proxy : ScopeInternal σ Sym D) (Z : SymbolSizes σ Sym D)
  (archi : YagiArchitecture Ty Sym D)

/-- Every symbol has the kind of each symbol of the database that it covers. -/
def Classified (st : σ) : Prop :=
  ∀ sym ∈ proxy.symbols st, ∀ entry ∈ proxy.mapEntries st sym, ∀ addr, entry.Covers (Z.size st sym) addr 1 →
    ∀ data ∈ YagiScope.codeSymbol archi addr, proxy.kind st sym = data.getType.symbolKind

/-- The symbol that the query makes, if any, has the kind of each symbol of the database that it covers. -/
def ScopeQuery.Classifies (st : σ) (q : ScopeQuery) : Prop :=
  ∀ source ∈ q.source proxy archi st, ∀ addr, (⟨q.addr, none⟩ : MapEntry).Covers (q.size Z archi source) addr 1 →
    ∀ data ∈ YagiScope.codeSymbol archi addr, q.kind source = data.getType.symbolKind

theorem apply_classified_iff [DecidableEq Sym] (hS : proxy.Laws) (hR : proxy.RangeLaws Z) (st : σ) (q : ScopeQuery)
    (hst : Classified proxy Z archi st) :
    Classified proxy Z archi (q.apply proxy archi st) ↔ q.Classifies proxy Z archi st := by
  unfold ScopeQuery.Classifies
  cases hsource : q.source proxy archi st with
  | none =>
    rw [ScopeQuery.apply_of_source_none proxy archi st q hsource]
    simp [hst]
  | some source =>
    have hc := ScopeQuery.create_creates proxy archi hS st q source
    have hz := ScopeQuery.create_sizes proxy Z archi hR st q source
    rw [ScopeQuery.apply_of_source_some proxy archi st q source hsource]
    simp only [Option.mem_some, forall_eq']
    constructor
    · intro h addr hcovers data hdata
      obtain ⟨entry, hentry⟩ := ScopeQuery.entries_ne_nil q source
      have haddr := ScopeQuery.entries_addr q source entry hentry
      rw [← hc.entries_new] at hentry
      rw [← hc.kind_new]
      refine h _ ((hc.symbols _).mpr (Or.inr rfl)) entry hentry addr ?_ data hdata
      rw [hz.1]
      unfold MapEntry.Covers at hcovers ⊢
      rw [haddr]
      exact hcovers
    · intro h sym hsym entry hentry addr hcovers data hdata
      rcases (hc.symbols sym).mp hsym with hold | rfl
      · rw [hc.entries_old sym hold] at hentry
        rw [hz.2 sym hold] at hcovers
        rw [hc.kind_old sym hold]
        exact hst sym hold entry hentry addr hcovers data hdata
      · rw [hc.entries_new] at hentry
        rw [hz.1] at hcovers
        rw [hc.kind_new]
        refine h addr ?_ data hdata
        unfold MapEntry.Covers at hcovers ⊢
        rw [ScopeQuery.entries_addr q source entry hentry] at hcovers
        exact hcovers

theorem run_classified [DecidableEq Sym] (hS : proxy.Laws) (hR : proxy.RangeLaws Z) (st : σ)
    (queries : List ScopeQuery)
    (h : AllMeet (ScopeQuery.apply proxy archi) (ScopeQuery.Classifies proxy Z archi) (proxy.clear st) queries) :
    Classified proxy Z archi (run (ScopeQuery.apply proxy archi) (proxy.clear st) queries) := by
  have hclear : Classified proxy Z archi (proxy.clear st) := by
    intro sym hsym
    rw [hS.clear] at hsym
    simp at hsym
  have hkeeps := (keeps_iff_allMeet _ _ _ _ hclear
    (fun st q hst => apply_classified_iff proxy Z archi hS hR st q hst) queries).mpr h
  exact hkeeps queries [] (List.append_nil queries).symm

/-! ## The answer -/

def AnswersKind (addr : Address) (usepoint : Option Address) (k : SymbolKind) (st : σ) : Prop :=
  ∃ sym entry after, YagiScope.findContainer proxy archi addr 1 usepoint st = (some (sym, entry), after) ∧
    proxy.kind after sym = k

theorem answersKind_of_classified [DecidableEq Sym] (hS : proxy.Laws) (hR : proxy.RangeLaws Z) (st : σ)
    (addr : Address) (usepoint : Option Address) (data : SymbolInfo)
    (hdata : YagiScope.codeSymbol archi addr = some data) (hst : Classified proxy Z archi st) :
    AnswersKind proxy archi addr usepoint data.getType.symbolKind st := by
  cases hfind : proxy.findContainer st addr 1 usepoint with
  | some result =>
    obtain ⟨sym, entry⟩ := result
    obtain ⟨hsym, ⟨-, hcovers⟩, front, back, hsplit, -⟩ := hR.found st addr 1 usepoint sym entry hfind
    refine ⟨sym, entry, st, findContainer_cached proxy archi addr 1 usepoint st _ hfind, ?_⟩
    exact hst sym hsym entry (by rw [hsplit]; simp) addr hcovers data hdata
  | none =>
    have hc := ScopeQuery.create_creates proxy archi hS st (.findContainer addr 1 usepoint) data
    exact ⟨_, _, _, findContainer_made proxy Z archi hR addr 1 usepoint st data hfind hdata, hc.kind_new⟩

/-- **Kinds.** After any two runs in which no query makes a symbol over an address of another kind, an
address of the database is given the kind that the database gives it. -/
theorem same_kind_after_runs [DecidableEq Sym] (hS : proxy.Laws) (hR : proxy.RangeLaws Z) (st : σ) (addr : Address)
    (usepoint : Option Address) (data : SymbolInfo) (hspace : addr.space = archi.getDefaultCodeSpace)
    (hdata : archi.find addr.offset = some data) (queries queries' : List ScopeQuery)
    (h : AllMeet (ScopeQuery.apply proxy archi) (ScopeQuery.Classifies proxy Z archi) (proxy.clear st) queries)
    (h' : AllMeet (ScopeQuery.apply proxy archi) (ScopeQuery.Classifies proxy Z archi) (proxy.clear st) queries') :
    AnswersKind proxy archi addr usepoint data.getType.symbolKind
        (run (ScopeQuery.apply proxy archi) (proxy.clear st) queries) ∧
      AnswersKind proxy archi addr usepoint data.getType.symbolKind
        (run (ScopeQuery.apply proxy archi) (proxy.clear st) queries') := by
  have hcode : YagiScope.codeSymbol archi addr = some data := by
    rw [YagiScope.codeSymbol, if_pos hspace, hdata]
  exact ⟨answersKind_of_classified proxy Z archi hS hR _ addr usepoint data hcode
      (run_classified proxy Z archi hS hR st queries h),
    answersKind_of_classified proxy Z archi hS hR _ addr usepoint data hcode
      (run_classified proxy Z archi hS hR st queries' h')⟩

/-! ## A function and a variable -/

theorem covers_one (addr a : Address) (h : (⟨a, none⟩ : MapEntry).Covers 1 addr 1) : addr = a := by
  obtain ⟨hspace, hle, hend⟩ := h
  obtain ⟨space, offset⟩ := addr
  obtain ⟨space', offset'⟩ := a
  simp only at hspace hle hend
  have : offset = offset' := UInt64.toNat.inj (by omega)
  simp_all

theorem classifies_of_size_one (st : σ) (q : ScopeQuery)
    (h : ∀ source ∈ q.source proxy archi st, q.size Z archi source = 1 ∧
      ∀ data ∈ YagiScope.codeSymbol archi q.addr, q.kind source = data.getType.symbolKind) :
    q.Classifies proxy Z archi st := by
  intro source hsource addr hcovers data hdata
  obtain ⟨hsize, hkind⟩ := h source hsource
  rw [hsize] at hcovers
  rw [covers_one addr q.addr hcovers] at hdata
  exact hkind data hdata

theorem same_kind_after_runs_main :
    AnswersKind SymbolCache.scope smallProgram ⟨ramSpace, 0x401000⟩ none .function
        (run (ScopeQuery.apply SymbolCache.scope smallProgram) (SymbolCache.scope.clear [])
          [.findFunction ⟨ramSpace, 0x401000⟩]) ∧
      AnswersKind SymbolCache.scope smallProgram ⟨ramSpace, 0x401000⟩ none .function
        (run (ScopeQuery.apply SymbolCache.scope smallProgram) (SymbolCache.scope.clear [])
          [.findContainer ⟨ramSpace, 0x403000⟩ 1 none]) := by
  refine same_kind_after_runs SymbolCache.scope SymbolCache.sizes smallProgram SymbolCache.scope_laws
    SymbolCache.scope_rangeLaws [] ⟨ramSpace, 0x401000⟩ none ⟨ascii "main", true, false, false, true⟩ rfl rfl _ _ ?_ ?_
  · rw [allMeet_cons]
    exact ⟨classifies_of_size_one _ _ _ _ _ (by decide), allMeet_nil _ _ _⟩
  · rw [allMeet_cons]
    exact ⟨classifies_of_size_one _ _ _ _ _ (by decide), allMeet_nil _ _ _⟩

/-- Once `findFunction` has been asked for it, the variable `count` is a function. -/
theorem kind_depends_on_queries :
    YagiScope.codeSymbol smallProgram ⟨ramSpace, 0x403000⟩ = some ⟨ascii "count", false, false, false, false⟩ ∧
      AnswersKind SymbolCache.scope smallProgram ⟨ramSpace, 0x403000⟩ none .data
        (run (ScopeQuery.apply SymbolCache.scope smallProgram) (SymbolCache.scope.clear []) []) ∧
      AnswersKind SymbolCache.scope smallProgram ⟨ramSpace, 0x403000⟩ none .function
        (run (ScopeQuery.apply SymbolCache.scope smallProgram) (SymbolCache.scope.clear [])
          [.findFunction ⟨ramSpace, 0x403000⟩]) ∧
      ¬ AnswersKind SymbolCache.scope smallProgram ⟨ramSpace, 0x403000⟩ none .data
        (run (ScopeQuery.apply SymbolCache.scope smallProgram) (SymbolCache.scope.clear [])
          [.findFunction ⟨ramSpace, 0x403000⟩]) := by
  have hfunction : YagiScope.findContainer SymbolCache.scope smallProgram ⟨ramSpace, 0x403000⟩ 1 none
      (run (ScopeQuery.apply SymbolCache.scope smallProgram) (SymbolCache.scope.clear [])
        [.findFunction ⟨ramSpace, 0x403000⟩]) =
      (some (0, ⟨⟨ramSpace, 0x403000⟩, none⟩), [⟨.function, ascii "count", 1, [⟨⟨ramSpace, 0x403000⟩, none⟩], []⟩]) := by
    decide
  refine ⟨rfl, ⟨0, ⟨⟨ramSpace, 0x403000⟩, none⟩, _, rfl, rfl⟩, ⟨0, _, _, hfunction, rfl⟩, ?_⟩
  rintro ⟨sym, entry, after, hresult, hkind⟩
  rw [hfunction] at hresult
  obtain ⟨hfound, rfl⟩ := Prod.mk.inj hresult
  obtain ⟨rfl, rfl⟩ := Prod.mk.inj (Option.some.inj hfound)
  exact absurd hkind (by decide)

end Yagi
