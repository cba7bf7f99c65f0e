import Yagi.Base
import Yagi.Scope.Ranges

/-!
# What happens to the scope

A decompilation clears the scope. Then Ghidra looks symbols up, and adds globals by
itself. Each event makes at most one symbol, and takes none away.
-/

open Text Table

namespace Yagi

/-! ## Names and lookups of the proxy -/

/-- A symbol has the name that it was given. Ghidra makes one up where none is given. -/
def Bears (given name : Str) : Prop := given ≠ [] → name = given

instance (given name : Str) : Decidable (Bears given name) := inferInstanceAs (Decidable (_ → _))

namespace ScopeInternal

variable {σ Sym D : Type} (S : ScopeInternal σ Sym D) (getName : σ → Sym → Str)

/-- The new symbol is named `n`, and the others keep their names. -/
def Names (st st' : σ) (sym : Sym) (n : Str) : Prop :=
  Bears n (getName st' sym) ∧ ∀ x ∈ S.symbols st, getName st' x = getName st x

structure NameLaws : Prop where
  addFunction : ∀ addr n st, S.Names getName st (S.addFunction addr n st).2 (S.addFunction addr n st).1 n
  addExternalRef : ∀ addr refaddr n st,
    S.Names getName st (S.addExternalRef addr refaddr n st).2 (S.addExternalRef addr refaddr n st).1 n
  addCodeLabel : ∀ addr n st, S.Names getName st (S.addCodeLabel addr n st).2 (S.addCodeLabel addr n st).1 n
  addSymbol : ∀ n ty st, S.Names getName st (S.addSymbol n ty st).2 (S.addSymbol n ty st).1 n
  name_mapPoint : ∀ sym addr u st, getName (S.addMapPoint sym addr u st).2 = getName st
  name_attribute : ∀ sym a st, getName (S.setAttribute sym a st) = getName st

def IsAt (st : σ) (k : SymbolKind) (addr : Address) (sym : Sym) : Prop :=
  sym ∈ S.symbols st ∧ S.kind st sym = k ∧ ∃ entry ∈ S.mapEntries st sym, entry.addr = addr

/-- What is found is a symbol of the kind that was asked for, at the address. -/
structure LookupLaws : Prop where
  findFunction : ∀ st addr sym, S.findFunction st addr = some sym → S.IsAt st .function addr sym
  findExternalRef : ∀ st addr sym, S.findExternalRef st addr = some sym → S.IsAt st .externalRef addr sym
  findCodeLabel : ∀ st addr sym, S.findCodeLabel st addr = some sym → S.IsAt st .label addr sym

end ScopeInternal

/-! ## Globals of Ghidra -/

namespace YagiScope

variable {σ Sym D : Type} (proxy : ScopeInternal σ Sym D)

def buildVariableName (addr : Address) : Str := ascii "unk_" ++ to_hex addr.offset

def addSymbol (name : Str) (ct : D) (addr : Address) (usepoint : Option Address) (st : σ) : (Sym × MapEntry) × σ :=
  let (symbol, st) := proxy.addSymbol name ct st
  let (entry, st) := proxy.addMapPoint symbol addr usepoint st
  ((symbol, entry), st)

theorem buildVariableName_ne_nil (addr : Address) : buildVariableName addr ≠ [] := by
  have hpre : ascii "unk_" = [ch 'u', ch 'n', ch 'k', ch '_'] := by decide
  simp [buildVariableName, hpre]

theorem addSymbol_creates [DecidableEq Sym] (hS : proxy.Laws) (name : Str) (ct : D) (addr : Address)
    (usepoint : Option Address) (st : σ) :
    proxy.Creates st (addSymbol proxy name ct addr usepoint st).2 (addSymbol proxy name ct addr usepoint st).1.1 .data
      [⟨addr, usepoint⟩] :=
  creates_addMapPoint proxy hS st _ _ .data [] addr usepoint (hS.addSymbol name ct st)

end YagiScope

/-! ## Events -/

/-- Ghidra asks the scope, or maps a global that no symbol contains. -/
inductive ScopeEvent (D : Type) where
  | query (q : ScopeQuery)
  | resolveExternalRefFunction (sym : ExternRefSymbol)
  | addGlobal (addr : Address) (ct : D) (usepoint : Option Address)

structure NewSymbol where
  kind : SymbolKind
  entries : List MapEntry
  name : Str
  size : Int

namespace ScopeEvent

variable {σ Sym D Ty : Type} (proxy : ScopeInternal σ Sym D) (Z : SymbolSizes σ Sym D) (getName : σ → Sym → Str)
  (archi : YagiArchitecture Ty Sym D)

def apply (st : σ) : ScopeEvent D → σ
  | query q => q.apply proxy archi st
  | resolveExternalRefFunction sym => (YagiScope.resolveExternalRefFunction proxy archi sym st).2
  | addGlobal addr ct usepoint =>
    (YagiScope.addSymbol proxy (YagiScope.buildVariableName addr) ct addr usepoint st).2

def ofQuery (q : ScopeQuery) (data : SymbolInfo) : NewSymbol :=
  ⟨q.kind data, q.entries data, data.getName, q.size Z archi data⟩

/-- The symbol that an event makes, if any. -/
def makes (st : σ) : ScopeEvent D → Option NewSymbol
  | query q => (q.source proxy archi st).map (ofQuery Z archi q)
  | resolveExternalRefFunction sym => (archi.find sym.getRefAddr.offset).map fun data =>
    ⟨.function, [⟨sym.getRefAddr, none⟩], data.getName, Z.fixed .function⟩
  | addGlobal addr ct usepoint => some ⟨.data, [⟨addr, usepoint⟩], YagiScope.buildVariableName addr, Z.data ct⟩

/-- `st'` is `st` with the new symbol. -/
structure Made (st st' : σ) (sym : Sym) (new : NewSymbol) : Prop where
  creates : proxy.Creates st st' sym new.kind new.entries
  names : proxy.Names getName st st' sym new.name
  sizes : proxy.Sizes Z st st' sym new.size

theorem create_names (hN : proxy.NameLaws getName) (st : σ) (q : ScopeQuery) (data : SymbolInfo) :
    proxy.Names getName st (q.create proxy archi st data).2 (q.create proxy archi st data).1 data.getName := by
  cases q with
  | findFunction addr => exact hN.addFunction addr _ st
  | findContainer addr size usepoint =>
    have hname : getName (ScopeQuery.create proxy archi st data (.findContainer addr size usepoint)).2 =
        getName (YagiScope.addOfType proxy archi addr size data st).2 := by
      rw [ScopeQuery.create, hN.name_mapPoint, YagiScope.markReadOnly]
      split
      · exact hN.name_attribute _ _ _
      · rfl
    unfold ScopeInternal.Names
    rw [hname]
    simp only [ScopeQuery.create, YagiScope.addOfType]
    cases data.getType with
    | Function => exact hN.addFunction addr _ st
    | Import => exact hN.addExternalRef addr addr _ st
    | Label => exact hN.addCodeLabel addr _ st
    | Other => cases archi.build addr.offset <;> exact hN.addSymbol _ _ st
  | findExternalRef addr => exact hN.addExternalRef addr addr _ st
  | findCodeLabel addr => exact hN.addCodeLabel addr _ st

section

variable [DecidableEq Sym] (hS : proxy.Laws) (hR : proxy.RangeLaws Z) (hN : proxy.NameLaws getName)

include hS hR hN

theorem query_made (st : σ) (q : ScopeQuery) (data : SymbolInfo) (h : q.source proxy archi st = some data) :
    ∃ sym, Made proxy Z getName st (q.apply proxy archi st) sym (ofQuery Z archi q data) := by
  rw [ScopeQuery.apply_of_source_some proxy archi st q data h]
  exact ⟨_, ScopeQuery.create_creates proxy archi hS st q data, create_names proxy getName archi hN st q data,
    ScopeQuery.create_sizes proxy Z archi hR st q data⟩

theorem addGlobal_made (st : σ) (addr : Address) (ct : D) (usepoint : Option Address) :
    ∃ sym, Made proxy Z getName st ((addGlobal addr ct usepoint).apply proxy archi st) sym
      ⟨.data, [⟨addr, usepoint⟩], YagiScope.buildVariableName addr, Z.data ct⟩ := by
  have hn := hN.addSymbol (YagiScope.buildVariableName addr) ct st
  have hz := hR.addSymbol (YagiScope.buildVariableName addr) ct st
  refine ⟨_, YagiScope.addSymbol_creates proxy hS _ ct addr usepoint st, ?_, ?_⟩
  · unfold ScopeInternal.Names
    simp only [apply, YagiScope.addSymbol, hN.name_mapPoint]
    exact hn
  · unfold ScopeInternal.Sizes
    simp only [apply, YagiScope.addSymbol, hR.size_mapPoint]
    exact hz

theorem apply_made (st : σ) (e : ScopeEvent D) (new : NewSymbol) (h : e.makes proxy Z archi st = some new) :
    ∃ sym, Made proxy Z getName st (e.apply proxy archi st) sym new := by
  cases e with
  | query q =>
    obtain ⟨data, hsource, rfl⟩ := Option.map_eq_some_iff.mp h
    exact query_made proxy Z getName archi hS hR hN st q data hsource
  | resolveExternalRefFunction sym =>
    obtain ⟨data, hdata, rfl⟩ := Option.map_eq_some_iff.mp h
    show ∃ x, Made proxy Z getName st (YagiScope.resolveExternalRefFunction proxy archi sym st).2 x _
    rw [resolveExternalRefFunction_snd, hdata]
    exact ⟨_, hS.addFunction _ _ st, hN.addFunction _ _ st, hR.addFunction _ _ st⟩
  | addGlobal addr ct usepoint =>
    obtain rfl := Option.some.inj h
    exact addGlobal_made proxy Z getName archi hS hR hN st addr ct usepoint

end

theorem apply_unmade (st : σ) (e : ScopeEvent D) (h : e.makes proxy Z archi st = none) : e.apply proxy archi st = st := by
  cases e with
  | query q => exact ScopeQuery.apply_of_source_none proxy archi st q (Option.map_eq_none_iff.mp h)
  | resolveExternalRefFunction sym =>
    show (YagiScope.resolveExternalRefFunction proxy archi sym st).2 = st
    rw [resolveExternalRefFunction_snd, Option.map_eq_none_iff.mp h]
  | addGlobal addr ct usepoint => simp [makes] at h

end ScopeEvent

/-! ## The table with names -/

namespace SymbolCache

def getName (table : SymbolCache) (i : Nat) : Str := (table[i]?.map (·.name)).getD []

theorem names_add (sym : CachedSymbol) (table : SymbolCache) :
    scope.Names getName table (add sym table).2 (add sym table).1 sym.name := by
  constructor
  · intro _
    show (((table ++ [sym])[table.length]?).map _).getD _ = _
    rw [getElem?_add]; rfl
  · intro i hi
    show (((table ++ [sym])[i]?).map _).getD _ = _
    rw [getElem?_add_old _ _ _ (List.mem_range.mp hi)]; rfl

theorem name_modify (table : SymbolCache) (i : Nat) (f : CachedSymbol → CachedSymbol) (hf : ∀ sym, (f sym).name = sym.name) :
    getName (table.modify i f) = getName table := by
  funext j
  exact congrArg (Option.getD · _) (map_getElem?_modify _ i j f table hf)

theorem scope_nameLaws : scope.NameLaws getName where
  addFunction _ _ table := names_add _ table
  addExternalRef _ _ _ table := names_add _ table
  addCodeLabel _ _ table := names_add _ table
  addSymbol _ _ table := names_add _ table
  name_mapPoint i _ _ table := name_modify table i _ fun _ => rfl
  name_attribute i _ table := name_modify table i _ fun _ => rfl

theorem isAt_of_findIdx? (table : SymbolCache) (k : SymbolKind) (addr : Address) (i : Nat)
    (h : table.findIdx? (isAt k addr) = some i) : scope.IsAt table k addr i := by
  obtain ⟨hlt, hat, -⟩ := List.findIdx?_eq_some_iff_getElem.mp h
  simp only [isAt, Bool.and_eq_true, decide_eq_true_eq, List.any_eq_true] at hat
  obtain ⟨hkind, entry, hentry, haddr⟩ := hat
  refine ⟨List.mem_range.mpr hlt, ?_, entry, ?_, haddr⟩
  · simp [scope, List.getElem?_eq_getElem hlt, hkind]
  · simp [scope, List.getElem?_eq_getElem hlt, hentry]

theorem scope_lookupLaws : scope.LookupLaws where
  findFunction table addr i := isAt_of_findIdx? table .function addr i
  findExternalRef table addr i := isAt_of_findIdx? table .externalRef addr i
  findCodeLabel table addr i := isAt_of_findIdx? table .label addr i

end SymbolCache

end Yagi
