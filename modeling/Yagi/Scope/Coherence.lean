import Yagi.Scope.Events

/-!
# The scope answers for the database

Whatever has been asked before, a symbol of the scope is one of the database, or a
global that Ghidra has named itself. A lookup answers as if there were no scope.
-/

open Text Runs

namespace Yagi

variable {σ Sym D Ty : Type} (proxy : ScopeInternal σ Sym D) (Z : SymbolSizes σ Sym D) (getName : σ → Sym → Str)
  (archi : YagiArchitecture Ty Sym D)

/-! ## Coherent scopes -/

/-- The symbol of the database that a symbol of the scope stands for. -/
def databaseSymbol (addr : Address) : SymbolKind → Option SymbolInfo
  | .function => archi.find addr.offset
  | .externalRef => (archi.find addr.offset).filter (·.isImport)
  | .label => (archi.find addr.offset).filter (·.isLabel)
  | .data => (YagiScope.codeSymbol archi addr).filter (·.getType = .Other)

def Known (k : SymbolKind) (addr : Address) (name : Str) : Prop :=
  (∃ data ∈ databaseSymbol archi addr k, Bears data.getName name) ∨
    k = .data ∧ name = YagiScope.buildVariableName addr

def Coherent (st : σ) : Prop :=
  ∀ sym ∈ proxy.symbols st, ∀ entry ∈ proxy.mapEntries st sym,
    Known archi (proxy.kind st sym) entry.addr (getName st sym)

theorem coherent_made (st st' : σ) (sym : Sym) (new : NewSymbol)
    (hmade : ScopeEvent.Made proxy Z getName st st' sym new)
    (hnew : ∀ entry ∈ new.entries, ∀ name, Bears new.name name → Known archi new.kind entry.addr name)
    (hst : Coherent proxy getName archi st) : Coherent proxy getName archi st' := by
  intro x hx entry hentry
  rcases (hmade.creates.symbols x).mp hx with hold | rfl
  · rw [hmade.creates.entries_old x hold] at hentry
    rw [hmade.creates.kind_old x hold, hmade.names.2 x hold]
    exact hst x hold entry hentry
  · rw [hmade.creates.entries_new] at hentry
    rw [hmade.creates.kind_new]
    exact hnew entry hentry _ hmade.names.1

theorem find_of_codeSymbol (addr : Address) (data : SymbolInfo) (h : YagiScope.codeSymbol archi addr = some data) :
    archi.find addr.offset = some data := by
  unfold YagiScope.codeSymbol at h
  split at h
  · exact h
  · simp at h

theorem isLabel_of_getType (data : SymbolInfo) (h : data.getType = .Label) : data.isLabel = true := by
  unfold SymbolInfo.getType at h
  split at h
  · simp at h
  · split at h
    · assumption
    · split at h <;> simp at h

theorem isImport_of_getType (data : SymbolInfo) (h : data.getType = .Import) : data.isImport = true := by
  unfold SymbolInfo.getType at h
  split at h
  · simp at h
  · split at h
    · simp at h
    · split at h
      · assumption
      · simp at h

theorem databaseSymbol_of_accepted (q : ScopeQuery) (data : SymbolInfo) (h : q.accepted archi = some data) :
    databaseSymbol archi q.addr (q.kind data) = some data := by
  cases q with
  | findFunction addr => exact h
  | findExternalRef addr => exact h
  | findCodeLabel addr => exact h
  | findContainer addr size usepoint =>
    have hcode : YagiScope.codeSymbol archi addr = some data := h
    have hfind := find_of_codeSymbol archi addr data hcode
    show databaseSymbol archi addr data.getType.symbolKind = some data
    cases htype : data.getType with
    | Function => exact hfind
    | Label => simp [SymbolInfo.Kind.symbolKind, databaseSymbol, hfind, isLabel_of_getType data htype]
    | Import => simp [SymbolInfo.Kind.symbolKind, databaseSymbol, hfind, isImport_of_getType data htype]
    | Other => simp [SymbolInfo.Kind.symbolKind, databaseSymbol, hcode, htype]

theorem makes_known (st : σ) (e : ScopeEvent D) (new : NewSymbol) (h : e.makes proxy Z archi st = some new) :
    ∀ entry ∈ new.entries, ∀ name, Bears new.name name → Known archi new.kind entry.addr name := by
  intro entry hentry name hname
  cases e with
  | query q =>
    obtain ⟨data, hsource, rfl⟩ := Option.map_eq_some_iff.mp h
    obtain ⟨-, hdata⟩ := (ScopeQuery.source_eq_some proxy archi st q data).mp hsource
    rw [show entry.addr = q.addr from ScopeQuery.entries_addr q data entry hentry]
    exact Or.inl ⟨data, databaseSymbol_of_accepted archi q data hdata, hname⟩
  | resolveExternalRefFunction sym =>
    obtain ⟨data, hdata, rfl⟩ := Option.map_eq_some_iff.mp h
    rw [List.mem_singleton.mp hentry]
    exact Or.inl ⟨data, hdata, hname⟩
  | addGlobal addr ct usepoint =>
    obtain rfl := Option.some.inj h
    rw [List.mem_singleton.mp hentry]
    exact Or.inr ⟨rfl, hname (YagiScope.buildVariableName_ne_nil addr)⟩

/-! ## Answers -/

namespace ScopeQuery

/-- The kind that a lookup is for. A container can be of any. -/
def asks : ScopeQuery → Option SymbolKind
  | .findFunction _ => some .function
  | .findContainer _ _ _ => none
  | .findExternalRef _ => some .externalRef
  | .findCodeLabel _ => some .label

def answer (st : σ) : ScopeQuery → Except Raised (Option Sym)
  | .findFunction addr => (YagiScope.findFunction proxy archi addr st).1
  | .findContainer addr size usepoint =>
    .ok ((YagiScope.findContainer proxy archi addr size usepoint st).1.map (·.1))
  | .findExternalRef addr => .ok (YagiScope.findExternalRef proxy archi addr st).1
  | .findCodeLabel addr => .ok (YagiScope.findCodeLabel proxy archi addr st).1

/-- The answer of the database, in the scope as it is afterwards. A container is any symbol of the scope. -/
def AsDatabase (after : σ) (q : ScopeQuery) : Option Sym → Prop
  | none => q.accepted archi = none
  | some sym => sym ∈ proxy.symbols after ∧ ∀ k ∈ q.asks, proxy.IsAt after k q.addr sym ∧
      ∃ data ∈ q.accepted archi, Bears data.getName (getName after sym)

theorem answer_none_iff (st : σ) (q : ScopeQuery) :
    q.answer proxy archi st = .ok none ↔ q.ReturnsNull proxy archi st := by
  cases q <;> simp [answer, ReturnsNull]

theorem isAt_create [DecidableEq Sym] (hS : proxy.Laws) (st : σ) (q : ScopeQuery) (data : SymbolInfo) (k : SymbolKind)
    (hk : q.asks = some k) :
    proxy.IsAt (q.create proxy archi st data).2 k q.addr (q.create proxy archi st data).1 := by
  have hc := create_creates proxy archi hS st q data
  obtain ⟨entry, hentry⟩ := entries_ne_nil q data
  refine ⟨(hc.symbols _).mpr (Or.inr rfl), ?_, entry, ?_, entries_addr q data entry hentry⟩
  · rw [hc.kind_new]
    cases q <;> simp_all [asks, kind]
  · rw [hc.entries_new]
    exact hentry

/-- The answer of the proxy. -/
def cached (st : σ) : ScopeQuery → Option Sym
  | .findFunction addr => proxy.findFunction st addr
  | .findContainer addr size usepoint => (proxy.findContainer st addr size usepoint).map (·.1)
  | .findExternalRef addr => proxy.findExternalRef st addr
  | .findCodeLabel addr => proxy.findCodeLabel st addr

theorem cached_isSome (st : σ) (q : ScopeQuery) : (q.cached proxy st).isSome = q.isCached proxy st := by
  cases q <;> simp [cached, isCached]

theorem answer_of_cached (st : σ) (q : ScopeQuery) (sym : Sym) (h : q.cached proxy st = some sym) :
    q.answer proxy archi st = .ok (some sym) := by
  cases q with
  | findFunction addr =>
    simp only [answer, YagiScope.findFunction, show proxy.findFunction st addr = some sym from h]
  | findContainer addr size usepoint =>
    obtain ⟨result, hresult, rfl⟩ := Option.map_eq_some_iff.mp h
    simp only [answer, YagiScope.findContainer, hresult, Option.map_some]
  | findExternalRef addr =>
    simp only [answer, YagiScope.findExternalRef, show proxy.findExternalRef st addr = some sym from h]
  | findCodeLabel addr =>
    simp only [answer, YagiScope.findCodeLabel, show proxy.findCodeLabel st addr = some sym from h]

theorem answer_of_source (st : σ) (q : ScopeQuery) (data : SymbolInfo) (sym : Sym)
    (hsource : q.source proxy archi st = some data) (h : q.answer proxy archi st = .ok (some sym)) :
    (q.create proxy archi st data).1 = sym := by
  obtain ⟨hcached, hdata⟩ := (source_eq_some proxy archi st q data).mp hsource
  cases q with
  | findFunction addr =>
    have hnone : proxy.findFunction st addr = none := by simpa [isCached] using hcached
    simp only [answer, YagiScope.findFunction, hnone, show archi.find addr.offset = some data from hdata] at h
    show (proxy.addFunction addr data.getName st).1 = sym
    revert h
    generalize (proxy.addFunction addr data.getName st).1 = x
    intro h
    cases hinject : archi.inject x <;> cases hupdate : archi.update x <;>
      simp_all [bind, Except.bind, pure, Except.pure]
  | findContainer addr size usepoint =>
    have hnone : proxy.findContainer st addr size usepoint = none := by simpa [isCached] using hcached
    simp only [answer, YagiScope.findContainer, hnone, show YagiScope.codeSymbol archi addr = some data from hdata] at h
    exact Option.some.inj (Except.ok.inj h)
  | findExternalRef addr =>
    have hnone : proxy.findExternalRef st addr = none := by simpa [isCached] using hcached
    obtain ⟨hfind, himport⟩ := Option.filter_eq_some_iff.mp hdata
    simp only [answer, YagiScope.findExternalRef, hnone, hfind, himport, if_true] at h
    exact Option.some.inj (Except.ok.inj h)
  | findCodeLabel addr =>
    have hnone : proxy.findCodeLabel st addr = none := by simpa [isCached] using hcached
    obtain ⟨hfind, hlabel⟩ := Option.filter_eq_some_iff.mp hdata
    simp only [answer, YagiScope.findCodeLabel, hnone, hfind, hlabel, if_true] at h
    exact Option.some.inj (Except.ok.inj h)

theorem answer_some (st : σ) (q : ScopeQuery) (sym : Sym) (h : q.answer proxy archi st = .ok (some sym)) :
    q.cached proxy st = some sym ∨
      ∃ data, q.source proxy archi st = some data ∧ (q.create proxy archi st data).1 = sym := by
  cases hcached : q.cached proxy st with
  | some found =>
    rw [answer_of_cached proxy archi st q found hcached] at h
    exact Or.inl (Except.ok.inj h)
  | none =>
    have hmissed : q.isCached proxy st = false := by rw [← cached_isSome, hcached]; rfl
    cases hdata : q.accepted archi with
    | none =>
      have hnull := (returnsNull_iff proxy archi st q).mpr ⟨hmissed, hdata⟩
      rw [(answer_none_iff proxy archi st q).mpr hnull] at h
      simp at h
    | some data =>
      have hsource := (source_eq_some proxy archi st q data).mpr ⟨hmissed, hdata⟩
      exact Or.inr ⟨data, hsource, answer_of_source proxy archi st q data sym hsource h⟩

theorem apply_of_cached (st : σ) (q : ScopeQuery) (h : q.isCached proxy st = true) : q.apply proxy archi st = st := by
  refine apply_of_source_none proxy archi st q ?_
  rw [source_eq_none, h]
  simp

theorem cached_mem (hR : proxy.RangeLaws Z) (hL : proxy.LookupLaws) (st : σ) (q : ScopeQuery) (sym : Sym)
    (h : q.cached proxy st = some sym) : sym ∈ proxy.symbols st ∧ ∀ k ∈ q.asks, proxy.IsAt st k q.addr sym := by
  cases q with
  | findFunction addr =>
    have hat := hL.findFunction st addr sym h
    refine ⟨hat.1, ?_⟩
    rintro k ⟨⟩
    exact hat
  | findContainer addr size usepoint =>
    obtain ⟨⟨x, entry⟩, hresult, rfl⟩ := Option.map_eq_some_iff.mp h
    exact ⟨(hR.found st addr size usepoint x entry hresult).1, by simp [asks]⟩
  | findExternalRef addr =>
    have hat := hL.findExternalRef st addr sym h
    refine ⟨hat.1, ?_⟩
    rintro k ⟨⟩
    exact hat
  | findCodeLabel addr =>
    have hat := hL.findCodeLabel st addr sym h
    refine ⟨hat.1, ?_⟩
    rintro k ⟨⟩
    exact hat

theorem accepted_of_asks (q : ScopeQuery) (k : SymbolKind) (h : q.asks = some k) :
    k ≠ .data ∧ databaseSymbol archi q.addr k = q.accepted archi := by
  cases q with
  | findContainer addr size usepoint => simp [asks] at h
  | findFunction addr => obtain rfl := Option.some.inj h; exact ⟨by simp, rfl⟩
  | findExternalRef addr => obtain rfl := Option.some.inj h; exact ⟨by simp, rfl⟩
  | findCodeLabel addr => obtain rfl := Option.some.inj h; exact ⟨by simp, rfl⟩

end ScopeQuery

section

variable [DecidableEq Sym] (hS : proxy.Laws) (hR : proxy.RangeLaws Z) (hN : proxy.NameLaws getName)

include hS hR hN

theorem apply_coherent (st : σ) (e : ScopeEvent D) (hst : Coherent proxy getName archi st) :
    Coherent proxy getName archi (e.apply proxy archi st) := by
  cases hmakes : e.makes proxy Z archi st with
  | none =>
    rw [ScopeEvent.apply_unmade proxy Z archi st e hmakes]
    exact hst
  | some new =>
    obtain ⟨sym, hmade⟩ := ScopeEvent.apply_made proxy Z getName archi hS hR hN st e new hmakes
    exact coherent_made proxy Z getName archi st _ sym new hmade (makes_known proxy Z archi st e new hmakes) hst

theorem run_coherent (st : σ) (events : List (ScopeEvent D)) (hst : Coherent proxy getName archi st) :
    Coherent proxy getName archi (run (ScopeEvent.apply proxy archi) st events) := by
  induction events generalizing st with
  | nil => exact hst
  | cons e events ih => exact ih _ (apply_coherent proxy Z getName archi hS hR hN st e hst)

theorem answer_asDatabase (hL : proxy.LookupLaws) (st : σ) (q : ScopeQuery) (result : Option Sym)
    (hst : Coherent proxy getName archi st) (h : q.answer proxy archi st = .ok result) :
    q.AsDatabase proxy getName archi (q.apply proxy archi st) result := by
  cases result with
  | none =>
    have hnull := (ScopeQuery.answer_none_iff proxy archi st q).mp h
    exact ((ScopeQuery.returnsNull_iff proxy archi st q).mp hnull).2
  | some sym =>
    have hmem : sym ∈ proxy.symbols (q.apply proxy archi st) ∧
        ∀ k ∈ q.asks, proxy.IsAt (q.apply proxy archi st) k q.addr sym := by
      rcases ScopeQuery.answer_some proxy archi st q sym h with hcached | ⟨data, hsource, rfl⟩
      · rw [ScopeQuery.apply_of_cached proxy archi st q (by rw [← ScopeQuery.cached_isSome, hcached]; rfl)]
        exact ScopeQuery.cached_mem proxy Z hR hL st q sym hcached
      · rw [ScopeQuery.apply_of_source_some proxy archi st q data hsource]
        have hc := ScopeQuery.create_creates proxy archi hS st q data
        exact ⟨(hc.symbols _).mpr (Or.inr rfl), fun k hk => ScopeQuery.isAt_create proxy archi hS st q data k hk⟩
    refine ⟨hmem.1, ?_⟩
    intro k hk
    have hat := hmem.2 k hk
    refine ⟨hat, ?_⟩
    obtain ⟨hsym, hkind, entry, hentry, haddr⟩ := hat
    have hknown := apply_coherent proxy Z getName archi hS hR hN st (.query q) hst sym hsym entry hentry
    obtain ⟨hne, hdatabase⟩ := ScopeQuery.accepted_of_asks archi q k hk
    rw [show proxy.kind (ScopeEvent.apply proxy archi st (.query q)) sym = k from hkind, haddr] at hknown
    rcases hknown with ⟨data, hdata, hname⟩ | ⟨hdata, -⟩
    · exact ⟨data, hdatabase ▸ hdata, hname⟩
    · exact absurd hdata hne

end

end Yagi
