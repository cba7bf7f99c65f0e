import Yagi.Scope.Queries

/-!
# The bytes of a symbol

A symbol takes a number of bytes from each place where it is mapped. The container
that the proxy finds is mapped over the whole range that is asked for.
-/

open Text Table

namespace Yagi

/-- How many bytes a symbol takes. All kinds but data have a size of their own. -/
structure SymbolSizes (σ Sym D : Type) where
  size : σ → Sym → Int
  fixed : SymbolKind → Int
  data : D → Int

namespace ScopeInternal

variable {σ Sym D : Type} (S : ScopeInternal σ Sym D) (Z : SymbolSizes σ Sym D)

def Answers (st : σ) (addr : Address) (size : Int32) (usepoint : Option Address) (sym : Sym) (entry : MapEntry) : Prop :=
  entry.Visible (S.mapEntries st sym) usepoint ∧ entry.Covers (Z.size st sym) addr size.toInt

/-- The new symbol has size `z`, and the others keep theirs. -/
def Sizes (st st' : σ) (sym : Sym) (z : Int) : Prop :=
  Z.size st' sym = z ∧ ∀ x ∈ S.symbols st, Z.size st' x = Z.size st x

/-- Of the entries of one symbol that answer, the one mapped last is found. -/
structure RangeLaws : Prop where
  found : ∀ st addr size u sym entry, S.findContainer st addr size u = some (sym, entry) →
    sym ∈ S.symbols st ∧ S.Answers Z st addr size u sym entry ∧
    ∃ front back, S.mapEntries st sym = front ++ entry :: back ∧ ∀ e ∈ back, ¬ S.Answers Z st addr size u sym e
  missed : ∀ st addr size u, S.findContainer st addr size u = none → ∀ sym ∈ S.symbols st,
    ∀ entry ∈ S.mapEntries st sym, ¬ S.Answers Z st addr size u sym entry
  addFunction : ∀ addr n st,
    S.Sizes Z st (S.addFunction addr n st).2 (S.addFunction addr n st).1 (Z.fixed .function)
  addExternalRef : ∀ addr refaddr n st, S.Sizes Z st (S.addExternalRef addr refaddr n st).2
    (S.addExternalRef addr refaddr n st).1 (Z.fixed .externalRef)
  addCodeLabel : ∀ addr n st,
    S.Sizes Z st (S.addCodeLabel addr n st).2 (S.addCodeLabel addr n st).1 (Z.fixed .label)
  addSymbol : ∀ n ty st, S.Sizes Z st (S.addSymbol n ty st).2 (S.addSymbol n ty st).1 (Z.data ty)
  size_mapPoint : ∀ sym addr u st, Z.size (S.addMapPoint sym addr u st).2 = Z.size st
  mapPoint_entry : ∀ sym addr u st, (S.addMapPoint sym addr u st).1 = ⟨addr, u⟩
  size_attribute : ∀ sym a st, Z.size (S.setAttribute sym a st) = Z.size st

end ScopeInternal

/-! ## The size of a new symbol -/

namespace ScopeQuery

variable {σ Sym D Ty : Type} (proxy : ScopeInternal σ Sym D) (Z : SymbolSizes σ Sym D)
  (archi : YagiArchitecture Ty Sym D)

/-- The size of the symbol that a query makes. Only data without a type gets the size that is asked for. -/
def size (data : SymbolInfo) : ScopeQuery → Int
  | .findFunction _ => Z.fixed .function
  | .findContainer addr size _ => match data.getType with
    | .Other => match archi.build addr.offset with
      | some type => Z.data (archi.findByTypeInfo type)
      | none => Z.data (archi.getBase size)
    | type => Z.fixed type.symbolKind
  | .findExternalRef _ => Z.fixed .externalRef
  | .findCodeLabel _ => Z.fixed .label

theorem addOfType_sizes (hR : proxy.RangeLaws Z) (addr : Address) (size : Int32) (usepoint : Option Address)
    (data : SymbolInfo) (st : σ) :
    proxy.Sizes Z st (YagiScope.addOfType proxy archi addr size data st).2
      (YagiScope.addOfType proxy archi addr size data st).1
      ((ScopeQuery.findContainer addr size usepoint).size Z archi data) := by
  unfold YagiScope.addOfType
  simp only [ScopeQuery.size]
  cases data.getType with
  | Function => exact hR.addFunction addr _ st
  | Import => exact hR.addExternalRef addr addr _ st
  | Label => exact hR.addCodeLabel addr _ st
  | Other => cases archi.build addr.offset <;> exact hR.addSymbol _ _ st

theorem create_sizes (hR : proxy.RangeLaws Z) (st : σ) (q : ScopeQuery) (data : SymbolInfo) :
    proxy.Sizes Z st (q.create proxy archi st data).2 (q.create proxy archi st data).1 (q.size Z archi data) := by
  cases q with
  | findFunction addr => exact hR.addFunction addr _ st
  | findContainer addr size usepoint =>
    have hsize : Z.size (create proxy archi st data (.findContainer addr size usepoint)).2 =
        Z.size (YagiScope.addOfType proxy archi addr size data st).2 := by
      rw [create, hR.size_mapPoint, YagiScope.markReadOnly]
      split
      · exact hR.size_attribute _ _ _
      · rfl
    unfold ScopeInternal.Sizes
    rw [hsize]
    exact addOfType_sizes proxy Z archi hR addr size usepoint data st
  | findExternalRef addr => exact hR.addExternalRef addr addr _ st
  | findCodeLabel addr => exact hR.addCodeLabel addr _ st

end ScopeQuery

/-! ## The table with sizes -/

namespace SymbolCache

def sizes : SymbolSizes SymbolCache Nat Int32 where
  size table i := (table[i]?.map fun sym => (sym.size : Int)).getD 0
  fixed _ := 1
  data ty := ty.toInt.toNat

theorem answers_iff (table : SymbolCache) (i : Nat) (sym : CachedSymbol) (h : table[i]? = some sym) (addr : Address)
    (size : Int32) (usepoint : Option Address) (entry : MapEntry) :
    scope.Answers sizes table addr size usepoint i entry ↔ answers addr size usepoint sym entry = true := by
  simp [ScopeInternal.Answers, scope, sizes, answers, h]

theorem sizes_add (sym : CachedSymbol) (table : SymbolCache) :
    scope.Sizes sizes table (add sym table).2 (add sym table).1 sym.size := by
  constructor
  · show (((table ++ [sym])[table.length]?).map _).getD _ = _
    rw [getElem?_add]; rfl
  · intro i hi
    show (((table ++ [sym])[i]?).map _).getD _ = _
    rw [getElem?_add_old _ _ _ (List.mem_range.mp hi)]; rfl

theorem sizes_modify (table : SymbolCache) (i : Nat) (f : CachedSymbol → CachedSymbol) (hf : ∀ sym, (f sym).size = sym.size) :
    sizes.size (table.modify i f) = sizes.size table := by
  funext j
  refine congrArg (Option.getD · _) (map_getElem?_modify _ i j f table fun sym => ?_)
  exact congrArg Nat.cast (hf sym)

theorem scope_rangeLaws : scope.RangeLaws sizes where
  found table addr size u i entry h := by
    obtain ⟨j, hj, hfind⟩ := List.exists_of_findSome?_eq_some h
    obtain ⟨sym, hsym, hfind⟩ := Option.bind_eq_some_iff.mp hfind
    obtain ⟨e, hlast, heq⟩ := Option.map_eq_some_iff.mp hfind
    obtain ⟨rfl, rfl⟩ := Prod.mk.inj heq
    obtain ⟨hanswer, later, earlier, hsplit, hlater⟩ := List.find?_eq_some_iff_append.mp hlast
    refine ⟨hj, (answers_iff table j sym hsym addr size u e).mpr hanswer, earlier.reverse, later.reverse, ?_, ?_⟩
    · have hentries : scope.mapEntries table j = sym.entries := by simp [scope, hsym]
      rw [hentries, ← List.reverse_reverse sym.entries, hsplit]
      simp
    · intro e' he' hanswer'
      have hnot := hlater e' (List.mem_reverse.mp he')
      rw [(answers_iff table j sym hsym addr size u e').mp hanswer'] at hnot
      exact absurd hnot (by decide)
  missed table addr size u h i hi entry hentry hanswer := by
    obtain ⟨sym, hsym⟩ : ∃ sym, table[i]? = some sym := ⟨_, List.getElem?_eq_getElem (List.mem_range.mp hi)⟩
    have hnone := List.findSome?_eq_none_iff.mp h i hi
    simp only [hsym, Option.bind_some, Option.map_eq_none_iff, List.find?_eq_none] at hnone
    have hmem : entry ∈ sym.entries.reverse := by
      rw [List.mem_reverse]
      simpa [scope, hsym] using hentry
    exact hnone entry hmem ((answers_iff table i sym hsym addr size u entry).mp hanswer)
  addFunction addr n table := sizes_add _ table
  addExternalRef addr refaddr n table := sizes_add _ table
  addCodeLabel addr n table := sizes_add _ table
  addSymbol n ty table := sizes_add _ table
  size_mapPoint i addr u table := sizes_modify table i _ fun _ => rfl
  mapPoint_entry _ _ _ _ := rfl
  size_attribute i a table := sizes_modify table i _ fun _ => rfl

end SymbolCache

end Yagi
