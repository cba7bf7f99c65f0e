import Yagi.Scope.Proofs

/-!
# A proxy that keeps its symbols in a table

Functions, labels and external references take one byte, data what its type takes.
-/

open Text Table Runs

namespace Yagi

structure CachedSymbol where
  kind : SymbolKind
  name : Str
  size : Nat
  entries : List MapEntry
  attributes : List Attribute
deriving DecidableEq

abbrev SymbolCache := List CachedSymbol

namespace SymbolCache

def isAt (k : SymbolKind) (addr : Address) (sym : CachedSymbol) : Bool :=
  sym.kind = k && sym.entries.any fun entry => entry.addr = addr

def answers (addr : Address) (size : Int32) (usepoint : Option Address) (sym : CachedSymbol) (entry : MapEntry) :
    Bool := decide (entry.Visible sym.entries usepoint ∧ entry.Covers sym.size addr size.toInt)

/-- The first symbol with an entry that answers. Of its entries the one mapped last is taken. -/
def findEntry (table : SymbolCache) (addr : Address) (size : Int32) (usepoint : Option Address) :
    Option (Nat × MapEntry) :=
  (List.range table.length).findSome? fun i => (table[i]?).bind fun sym =>
    (sym.entries.reverse.find? (answers addr size usepoint sym)).map fun entry => (i, entry)

def add (sym : CachedSymbol) (table : SymbolCache) : Nat × SymbolCache := (table.length, table ++ [sym])

/-- The table as a proxy scope. A datatype is its size. -/
def scope : ScopeInternal SymbolCache Nat Int32 where
  symbols table := List.range table.length
  kind table i := (table[i]?.map (·.kind)).getD .data
  mapEntries table i := (table[i]?.map (·.entries)).getD []
  clear _ := []
  findFunction table addr := table.findIdx? (isAt .function addr)
  findContainer := findEntry
  findExternalRef table addr := table.findIdx? (isAt .externalRef addr)
  findCodeLabel table addr := table.findIdx? (isAt .label addr)
  addFunction addr n := add ⟨.function, n, 1, [⟨addr, none⟩], []⟩
  addExternalRef addr _ n := add ⟨.externalRef, n, 1, [⟨addr, none⟩], []⟩
  addCodeLabel addr n := add ⟨.label, n, 1, [⟨addr, none⟩], []⟩
  addSymbol n ty := add ⟨.data, n, ty.toInt.toNat, [], []⟩
  addMapPoint i addr usepoint table :=
    (⟨addr, usepoint⟩, table.modify i fun sym => { sym with entries := sym.entries ++ [⟨addr, usepoint⟩] })
  setAttribute i a table := table.modify i fun sym => { sym with attributes := a :: sym.attributes }

theorem creates_add (sym : CachedSymbol) (table : SymbolCache) :
    scope.Creates table (add sym table).2 (add sym table).1 sym.kind sym.entries where
  new := by simp [scope, add]
  symbols i := by simp [scope, add]; omega
  kind_new := by
    show (((table ++ [sym])[table.length]?).map _).getD _ = _
    rw [getElem?_add]; rfl
  entries_new := by
    show (((table ++ [sym])[table.length]?).map _).getD _ = _
    rw [getElem?_add]; rfl
  kind_old i hi := by
    show (((table ++ [sym])[i]?).map _).getD _ = _
    rw [getElem?_add_old _ _ _ (List.mem_range.mp hi)]; rfl
  entries_old i hi := by
    show (((table ++ [sym])[i]?).map _).getD _ = _
    rw [getElem?_add_old _ _ _ (List.mem_range.mp hi)]; rfl

theorem findIdx?_isAt (table : SymbolCache) (k : SymbolKind) (addr : Address) :
    table.findIdx? (isAt k addr) = none ↔ scope.NoneAt table k addr := by
  rw [List.findIdx?_eq_none_iff]
  constructor
  · intro h i hi hkind entry hentry haddr
    have hlt : i < table.length := List.mem_range.mp hi
    have hnot := h table[i] (List.getElem_mem hlt)
    simp only [scope, List.getElem?_eq_getElem hlt, Option.map_some, Option.getD_some] at hkind hentry
    simp only [isAt, Bool.and_eq_false_imp, decide_eq_true_eq, List.any_eq_false] at hnot
    exact hnot hkind entry hentry haddr
  · intro h sym hsym
    obtain ⟨i, hlt, rfl⟩ := List.mem_iff_getElem.mp hsym
    simp only [isAt, Bool.and_eq_false_imp, decide_eq_true_eq, List.any_eq_false]
    intro hkind entry hentry
    apply h i (List.mem_range.mpr hlt)
    · simp [scope, List.getElem?_eq_getElem hlt, hkind]
    · simp [scope, List.getElem?_eq_getElem hlt, hentry]

theorem scope_laws : scope.Laws where
  clear _ := rfl
  findFunction table addr := findIdx?_isAt table .function addr
  findExternalRef table addr := findIdx?_isAt table .externalRef addr
  findCodeLabel table addr := findIdx?_isAt table .label addr
  addFunction _ _ table := creates_add _ table
  addExternalRef _ _ _ table := creates_add _ table
  addCodeLabel _ _ table := creates_add _ table
  addSymbol _ _ table := creates_add _ table
  symbols_mapPoint i addr u table := by simp [scope]
  kind_mapPoint i addr u table := by
    funext j
    exact congrArg (Option.getD · _) (map_getElem?_modify _ i j _ table fun _ => rfl)
  entries_mapPoint table i hi addr u j := by
    have hlt : i < table.length := List.mem_range.mp hi
    show (((table.modify i _)[j]?).map _).getD [] = _
    rw [getElem?_modify]
    by_cases h : j = i
    · subst h; simp [scope, List.getElem?_eq_getElem hlt]
    · simp only [if_neg h]; rfl
  symbols_attribute i a table := by simp [scope]
  kind_attribute i a table := by
    funext j
    exact congrArg (Option.getD · _) (map_getElem?_modify _ i j _ table fun _ => rfl)
  entries_attribute i a table := by
    funext j
    exact congrArg (Option.getD · _) (map_getElem?_modify _ i j _ table fun _ => rfl)

end SymbolCache

/-! ## A program with one function -/

def ramSpace : AddrSpace := ⟨ascii "ram", 4, by decide⟩

/-- `main` is a function at `0x401000`, and `count` a variable at `0x403000`. -/
def smallProgram : YagiArchitecture Unit Nat Int32 where
  getDefaultCodeSpace := ramSpace
  find addr :=
    if addr = 0x401000 then some ⟨ascii "main", true, false, false, true⟩
    else if addr = 0x403000 then some ⟨ascii "count", false, false, false, false⟩ else none
  build _ := none
  findByTypeInfo _ := 4
  getBase size := size
  inject _ := .ok ()
  update _ := .ok ()

theorem cache_no_duplicates_iff_small :
    Keeps (ScopeCall.apply SymbolCache.scope smallProgram) (NoDuplicates SymbolCache.scope)
        (SymbolCache.scope.clear []) [.findFunction ⟨ramSpace, 0x401000⟩, .findContainer ⟨ramSpace, 0x403000⟩ 4 none] ↔
      AllMeet (ScopeCall.apply SymbolCache.scope smallProgram) (ScopeCall.Meets SymbolCache.scope smallProgram)
        (SymbolCache.scope.clear []) [.findFunction ⟨ramSpace, 0x401000⟩, .findContainer ⟨ramSpace, 0x403000⟩ 4 none] :=
  cache_no_duplicates_iff SymbolCache.scope smallProgram SymbolCache.scope_laws [] _

/-- `findContainer` on the address of a function maps the function twice, and a variable that is used
at two points is added twice. -/
theorem cache_duplicates :
    (Runs.run (ScopeCall.apply SymbolCache.scope smallProgram) [] [.findContainer ⟨ramSpace, 0x401000⟩ 1 none] =
        [⟨.function, ascii "main", 1, [⟨⟨ramSpace, 0x401000⟩, none⟩, ⟨⟨ramSpace, 0x401000⟩, none⟩], [.readonly]⟩] ∧
      ¬ NoDuplicates SymbolCache.scope (Runs.run (ScopeCall.apply SymbolCache.scope smallProgram) []
        [.findContainer ⟨ramSpace, 0x401000⟩ 1 none])) ∧
    (Runs.run (ScopeCall.apply SymbolCache.scope smallProgram) []
          [.findContainer ⟨ramSpace, 0x403000⟩ 4 (some ⟨ramSpace, 0x401010⟩),
            .findContainer ⟨ramSpace, 0x403000⟩ 4 (some ⟨ramSpace, 0x401020⟩)] =
        [⟨.data, ascii "count", 4, [⟨⟨ramSpace, 0x403000⟩, some ⟨ramSpace, 0x401010⟩⟩], []⟩,
          ⟨.data, ascii "count", 4, [⟨⟨ramSpace, 0x403000⟩, some ⟨ramSpace, 0x401020⟩⟩], []⟩] ∧
      ¬ NoDuplicates SymbolCache.scope (Runs.run (ScopeCall.apply SymbolCache.scope smallProgram) []
          [.findContainer ⟨ramSpace, 0x403000⟩ 4 (some ⟨ramSpace, 0x401010⟩),
            .findContainer ⟨ramSpace, 0x403000⟩ 4 (some ⟨ramSpace, 0x401020⟩)])) := by
  refine ⟨⟨by decide, ?_⟩, ⟨by decide, ?_⟩⟩
  · intro h
    obtain ⟨entry, hentry⟩ := h.one_entry 0 (by decide)
    exact absurd (congrArg List.length hentry) (by simp only [List.length_singleton]; decide)
  · intro h
    have hsame := h.one_symbol 0 (by decide) 1 (by decide) (by decide) ⟨⟨ramSpace, 0x403000⟩, some ⟨ramSpace, 0x401010⟩⟩
      (by decide) ⟨⟨ramSpace, 0x403000⟩, some ⟨ramSpace, 0x401020⟩⟩ (by decide) rfl
    exact absurd hsame (by decide)

end Yagi
