import Yagi.Scope.Cache

/-!
# Queries

The four lookups that Ghidra makes. Each finds its symbol in the proxy, or makes at
most one symbol from what the database has at the offset that is asked for.
-/

open Text

namespace Yagi

inductive ScopeQuery where
  | findFunction (addr : Address)
  | findContainer (addr : Address) (size : Int32) (usepoint : Option Address)
  | findExternalRef (addr : Address)
  | findCodeLabel (addr : Address)

def SymbolInfo.Kind.symbolKind : SymbolInfo.Kind → SymbolKind
  | .Function => .function
  | .Label => .label
  | .Import => .externalRef
  | .Other => .data

namespace ScopeQuery

variable {σ Sym D Ty : Type} (proxy : ScopeInternal σ Sym D) (archi : YagiArchitecture Ty Sym D)

def call : ScopeQuery → ScopeCall
  | .findFunction addr => .findFunction addr
  | .findContainer addr size usepoint => .findContainer addr size usepoint
  | .findExternalRef addr => .findExternalRef addr
  | .findCodeLabel addr => .findCodeLabel addr

def apply (st : σ) (q : ScopeQuery) : σ := q.call.apply proxy archi st

def addr : ScopeQuery → Address
  | .findFunction addr => addr
  | .findContainer addr _ _ => addr
  | .findExternalRef addr => addr
  | .findCodeLabel addr => addr

def ReturnsNull (st : σ) : ScopeQuery → Prop
  | .findFunction addr => (YagiScope.findFunction proxy archi addr st).1 = .ok none
  | .findContainer addr size usepoint => (YagiScope.findContainer proxy archi addr size usepoint st).1 = none
  | .findExternalRef addr => (YagiScope.findExternalRef proxy archi addr st).1 = none
  | .findCodeLabel addr => (YagiScope.findCodeLabel proxy archi addr st).1 = none

/-- The proxy has the answer. -/
def isCached (st : σ) : ScopeQuery → Bool
  | .findFunction addr => (proxy.findFunction st addr).isSome
  | .findContainer addr size usepoint => (proxy.findContainer st addr size usepoint).isSome
  | .findExternalRef addr => (proxy.findExternalRef st addr).isSome
  | .findCodeLabel addr => (proxy.findCodeLabel st addr).isSome

/-- What the database has for a query. Only `findContainer` asks for the space, and only the last two
for the kind. -/
def accepted : ScopeQuery → Option SymbolInfo
  | .findFunction addr => archi.find addr.offset
  | .findContainer addr _ _ => YagiScope.codeSymbol archi addr
  | .findExternalRef addr => (archi.find addr.offset).filter (·.isImport)
  | .findCodeLabel addr => (archi.find addr.offset).filter (·.isLabel)

/-- The symbol of the database that a query makes a symbol of. -/
def source (st : σ) (q : ScopeQuery) : Option SymbolInfo := if q.isCached proxy st then none else q.accepted archi

def kind (data : SymbolInfo) : ScopeQuery → SymbolKind
  | .findFunction _ => .function
  | .findContainer _ _ _ => data.getType.symbolKind
  | .findExternalRef _ => .externalRef
  | .findCodeLabel _ => .label

def entries (data : SymbolInfo) : ScopeQuery → List MapEntry
  | .findFunction addr => [⟨addr, none⟩]
  | .findContainer addr _ usepoint => (containerEntries addr data).2 ++ [⟨addr, usepoint⟩]
  | .findExternalRef addr => [⟨addr, none⟩]
  | .findCodeLabel addr => [⟨addr, none⟩]

theorem containerEntries_kind (addr : Address) (data : SymbolInfo) :
    (containerEntries addr data).1 = data.getType.symbolKind := by
  unfold containerEntries
  cases data.getType <;> rfl

theorem entries_addr (q : ScopeQuery) (data : SymbolInfo) : ∀ entry ∈ q.entries data, entry.addr = q.addr := by
  cases q with
  | findContainer addr size usepoint =>
    intro entry hentry
    have hfirst : ∀ e ∈ (containerEntries addr data).2, e.addr = addr := by
      unfold containerEntries
      cases data.getType <;> simp
    rcases List.mem_append.mp hentry with h | h
    · exact hfirst entry h
    · rw [List.mem_singleton.mp h]; rfl
  | findFunction addr => simp [entries, ScopeQuery.addr]
  | findExternalRef addr => simp [entries, ScopeQuery.addr]
  | findCodeLabel addr => simp [entries, ScopeQuery.addr]

theorem entries_ne_nil (q : ScopeQuery) (data : SymbolInfo) : ∃ entry, entry ∈ q.entries data := by
  cases q <;> simp [entries]

/-! ## What a query does -/

theorem source_eq_none (st : σ) (q : ScopeQuery) :
    q.source proxy archi st = none ↔ (q.isCached proxy st = false → q.accepted archi = none) := by
  unfold source
  cases q.isCached proxy st <;> simp

theorem apply_of_source_none (st : σ) (q : ScopeQuery) (h : q.source proxy archi st = none) :
    q.apply proxy archi st = st := by
  rw [source_eq_none] at h
  cases q with
  | findFunction addr =>
    show (YagiScope.findFunction proxy archi addr st).2 = st
    unfold YagiScope.findFunction
    cases hfind : proxy.findFunction st addr with
    | some result => rfl
    | none => rw [show archi.find addr.offset = none from h (by simp [isCached, hfind])]
  | findContainer addr size usepoint =>
    show (YagiScope.findContainer proxy archi addr size usepoint st).2 = st
    unfold YagiScope.findContainer
    cases hfind : proxy.findContainer st addr size usepoint with
    | some result => rfl
    | none => rw [show YagiScope.codeSymbol archi addr = none from h (by simp [isCached, hfind])]
  | findExternalRef addr =>
    show (YagiScope.findExternalRef proxy archi addr st).2 = st
    unfold YagiScope.findExternalRef
    cases hfind : proxy.findExternalRef st addr with
    | some result => rfl
    | none =>
      have hnone := h (by simp [isCached, hfind])
      cases hdata : archi.find addr.offset with
      | none => rfl
      | some data =>
        simp only [accepted, hdata, Option.filter_some] at hnone
        cases himport : data.isImport <;> simp_all
  | findCodeLabel addr =>
    show (YagiScope.findCodeLabel proxy archi addr st).2 = st
    unfold YagiScope.findCodeLabel
    cases hfind : proxy.findCodeLabel st addr with
    | some result => rfl
    | none =>
      have hnone := h (by simp [isCached, hfind])
      cases hdata : archi.find addr.offset with
      | none => rfl
      | some data =>
        simp only [accepted, hdata, Option.filter_some] at hnone
        cases hlabel : data.isLabel <;> simp_all

theorem source_eq_some (st : σ) (q : ScopeQuery) (data : SymbolInfo) :
    q.source proxy archi st = some data ↔ q.isCached proxy st = false ∧ q.accepted archi = some data := by
  unfold source
  cases q.isCached proxy st <;> simp

def create (st : σ) (data : SymbolInfo) : ScopeQuery → Sym × σ
  | .findFunction addr => proxy.addFunction addr data.getName st
  | .findContainer addr size usepoint =>
    let (sym, st) := YagiScope.addOfType proxy archi addr size data st
    (sym, (proxy.addMapPoint sym addr usepoint (YagiScope.markReadOnly proxy data sym st)).2)
  | .findExternalRef addr => proxy.addExternalRef addr addr data.getName st
  | .findCodeLabel addr => proxy.addCodeLabel addr data.getName st

theorem apply_of_source_some (st : σ) (q : ScopeQuery) (data : SymbolInfo)
    (h : q.source proxy archi st = some data) : q.apply proxy archi st = (q.create proxy archi st data).2 := by
  obtain ⟨hcached, hdata⟩ := (source_eq_some proxy archi st q data).mp h
  cases q with
  | findFunction addr =>
    show (YagiScope.findFunction proxy archi addr st).2 = _
    simp only [isCached, Option.isSome_eq_false_iff, Option.isNone_iff_eq_none] at hcached
    unfold YagiScope.findFunction
    rw [hcached, show archi.find addr.offset = some data from hdata]
    rfl
  | findContainer addr size usepoint =>
    show (YagiScope.findContainer proxy archi addr size usepoint st).2 = _
    simp only [isCached, Option.isSome_eq_false_iff, Option.isNone_iff_eq_none] at hcached
    unfold YagiScope.findContainer
    rw [hcached, show YagiScope.codeSymbol archi addr = some data from hdata]
    rfl
  | findExternalRef addr =>
    show (YagiScope.findExternalRef proxy archi addr st).2 = _
    simp only [isCached, Option.isSome_eq_false_iff, Option.isNone_iff_eq_none] at hcached
    obtain ⟨hfind, himport⟩ := Option.filter_eq_some_iff.mp hdata
    unfold YagiScope.findExternalRef
    rw [hcached, hfind]
    simp only [himport, if_true]
    rfl
  | findCodeLabel addr =>
    show (YagiScope.findCodeLabel proxy archi addr st).2 = _
    simp only [isCached, Option.isSome_eq_false_iff, Option.isNone_iff_eq_none] at hcached
    obtain ⟨hfind, hlabel⟩ := Option.filter_eq_some_iff.mp hdata
    unfold YagiScope.findCodeLabel
    rw [hcached, hfind]
    simp only [hlabel, if_true]
    rfl

theorem create_creates [DecidableEq Sym] (hS : proxy.Laws) (st : σ) (q : ScopeQuery) (data : SymbolInfo) :
    proxy.Creates st (q.create proxy archi st data).2 (q.create proxy archi st data).1 (q.kind data)
      (q.entries data) := by
  cases q with
  | findFunction addr => exact hS.addFunction addr _ st
  | findContainer addr size usepoint =>
    rw [kind, ← containerEntries_kind addr]
    exact creates_addMapPoint proxy hS st _ _ _ _ addr usepoint
      (creates_markReadOnly proxy hS data st _ _ _ _ (addOfType_creates proxy archi hS addr size data st))
  | findExternalRef addr => exact hS.addExternalRef addr addr _ st
  | findCodeLabel addr => exact hS.addCodeLabel addr _ st

theorem returnsNull_iff (st : σ) (q : ScopeQuery) :
    q.ReturnsNull proxy archi st ↔ q.isCached proxy st = false ∧ q.accepted archi = none := by
  cases q with
  | findFunction addr =>
    simp only [ReturnsNull, isCached, accepted, YagiScope.findFunction]
    cases proxy.findFunction st addr with
    | some result => simp
    | none => cases archi.find addr.offset with
      | none => simp
      | some data =>
        -- Where the injection or the update raises, nothing is returned.
        simp only
        generalize (proxy.addFunction addr data.getName st).1 = sym
        cases archi.inject sym <;> cases archi.update sym <;>
          simp [bind, Except.bind, pure, Except.pure]
  | findContainer addr size usepoint =>
    simp only [ReturnsNull, isCached, accepted, YagiScope.findContainer]
    cases proxy.findContainer st addr size usepoint with
    | some result => simp
    | none => cases YagiScope.codeSymbol archi addr <;> simp
  | findExternalRef addr =>
    simp only [ReturnsNull, isCached, accepted, YagiScope.findExternalRef]
    cases proxy.findExternalRef st addr with
    | some result => simp
    | none => cases archi.find addr.offset with
      | none => simp
      | some data => cases himport : data.isImport <;> simp [himport]
  | findCodeLabel addr =>
    simp only [ReturnsNull, isCached, accepted, YagiScope.findCodeLabel]
    cases proxy.findCodeLabel st addr with
    | some result => simp
    | none => cases archi.find addr.offset with
      | none => simp
      | some data => cases hlabel : data.isLabel <;> simp [hlabel]

end ScopeQuery

end Yagi
