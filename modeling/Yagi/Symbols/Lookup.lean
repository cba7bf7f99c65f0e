import Yagi.Symbols.Spec

/-!
# Where a click leads

A name of the map leads to one thing. It is the function that was clicked as long
as no other function, and no variable before it, goes by the same name.
-/

open Text FirstWins

namespace Yagi

variable {Sym : Type} (name : Sym → Str) (data : DecompiledFunc Sym)

def PointsTo (symbols : SymbolMap) (key : Str) (addr : Address) : Prop :=
  ∃ loc ∈ symbols key, loc.spaceName = ascii "ram" ∧ loc.offset = addr.offset

instance (symbols : SymbolMap) (key : Str) (addr : Address) : Decidable (PointsTo symbols key addr) :=
  inferInstanceAs (Decidable (∃ loc ∈ symbols key, _ ∧ _))

/-- The symbol of a varnode, with the storage of the varnode that names it. -/
def Varnode.variable (varnode : Varnode Sym) : Option (Sym × Address) := do
  let high ← varnode.high
  let sym ← high.symbol
  let nameRepr ← high.nameRepresentative
  return (sym, nameRepr.addr)

def firstVariable (key : Str) : Option Address :=
  first (data.defs.filterMap fun varnode => varnode.variable.map fun p => (name p.1, p.2)) key

theorem varLocation_place (varnode : Varnode Sym) :
    (varLocation data.toFuncdata varnode).map (fun p => (p.1, p.2.spaceName, p.2.offset)) =
      varnode.variable.map fun p => (p.1, p.2.space.name, p.2.offset) := by
  obtain ⟨addr, high⟩ := varnode
  match high with
  | none => rfl
  | some ⟨none, _⟩ => rfl
  | some ⟨some _, none⟩ => rfl
  | some ⟨some _, some _⟩ => rfl

theorem first_varEntries (key : Str) :
    (first (varEntries name data.toFuncdata) key).map (fun loc => (loc.spaceName, loc.offset)) =
      (firstVariable name data key).map fun addr => (addr.space.name, addr.offset) := by
  have hentries : (varEntries name data.toFuncdata).map (fun entry => (entry.1, entry.2.spaceName, entry.2.offset)) =
      (data.defs.filterMap fun varnode => varnode.variable.map fun p => (name p.1, p.2)).map
        fun entry => (entry.1, entry.2.space.name, entry.2.offset) := by
    simp only [varEntries, List.map_filterMap, Option.map_map]
    apply List.filterMap_congr
    intro varnode _
    have hplace := congrArg (Option.map fun p : Sym × Str × UInt64 => (name p.1, p.2)) (varLocation_place data varnode)
    rw [Option.map_map, Option.map_map] at hplace
    exact hplace
  rw [firstVariable, ← first_map, ← first_map, hentries]

/-! ## Functions -/

theorem mem_targets (target : Str × Address) : target ∈ targets data ↔
    target = (data.getName, data.getAddress) ∨
      ∃ call ∈ data.calls, ∃ entry ∈ call.getEntryAddress, target = (call.key, entry) := by
  unfold targets
  simp only [List.mem_cons, List.mem_filterMap, Option.map_eq_some_iff, Option.mem_def]
  refine or_congr_right ⟨?_, ?_⟩
  · rintro ⟨call, hcall, entry, hentry, rfl⟩; exact ⟨call, hcall, entry, hentry, rfl⟩
  · rintro ⟨call, hcall, entry, hentry, rfl⟩; exact ⟨call, hcall, entry, hentry, rfl⟩

theorem forall_targets (p : Str → Address → Prop) : (∀ target ∈ targets data, p target.1 target.2) ↔
    p data.getName data.getAddress ∧ ∀ call ∈ data.calls, ∀ entry ∈ call.getEntryAddress, p call.key entry := by
  simp only [mem_targets]
  constructor
  · intro h
    exact ⟨h _ (Or.inl rfl), fun call hcall entry hentry => h _ (Or.inr ⟨call, hcall, entry, hentry, rfl⟩)⟩
  · rintro ⟨hself, hcalls⟩ target (rfl | ⟨call, hcall, entry, hentry, rfl⟩)
    · exact hself
    · exact hcalls call hcall entry hentry

/-- Functions of one name have one address, and a variable of that name lives there as well. -/
def Unambiguous : Prop :=
  ∀ target ∈ targets data, (∀ other ∈ targets data, other.1 = target.1 → other.2.offset = target.2.offset) ∧
    ∀ addr ∈ firstVariable name data target.1, addr.space.name = ascii "ram" ∧ addr.offset = target.2.offset

theorem pointsTo_variable (key : Str) (addr storage : Address) (h : firstVariable name data key = some storage) :
    PointsTo (findSymbols name data) key addr ↔ storage.space.name = ascii "ram" ∧ storage.offset = addr.offset := by
  have hplace := first_varEntries name data key
  rw [h, Option.map_some] at hplace
  obtain ⟨loc, hloc, hsame⟩ := Option.map_eq_some_iff.mp hplace
  obtain ⟨hspace, hoffset⟩ := Prod.mk.inj hsame
  unfold PointsTo
  rw [findSymbols_apply, hloc, ← hspace, ← hoffset]
  simp

theorem pointsTo_function (key : Str) (addr : Address) (h : firstVariable name data key = none) :
    PointsTo (findSymbols name data) key addr ↔ ∃ entry, first (targets data) key = some entry ∧
      entry.offset = addr.offset := by
  have hplace := first_varEntries name data key
  rw [h, Option.map_none, Option.map_eq_none_iff] at hplace
  unfold PointsTo
  rw [findSymbols_apply, hplace, Option.none_or, funcEntries, first_map]
  constructor
  · rintro ⟨loc, hloc, -, hoffset⟩
    obtain ⟨entry, hentry, rfl⟩ := Option.map_eq_some_iff.mp hloc
    exact ⟨entry, hentry, hoffset⟩
  · rintro ⟨entry, hentry, hoffset⟩
    exact ⟨ramLocation entry, by rw [hentry]; rfl, rfl, hoffset⟩

theorem targets_pointsTo_iff :
    (∀ target ∈ targets data, PointsTo (findSymbols name data) target.1 target.2) ↔ Unambiguous name data := by
  constructor
  · intro h target htarget
    refine ⟨?_, ?_⟩
    · -- Both addresses are the offset that the shared name leads to.
      intro other hother hname
      obtain ⟨loc, hloc, -, hoffset⟩ := h target htarget
      obtain ⟨loc', hloc', -, hoffset'⟩ := h other hother
      rw [hname, hloc] at hloc'
      cases hloc'
      rw [← hoffset, ← hoffset']
    · intro storage hstorage
      exact (pointsTo_variable name data target.1 target.2 storage hstorage).mp (h target htarget)
  · intro h target htarget
    obtain ⟨hothers, hvariable⟩ := h target htarget
    cases hfirst : firstVariable name data target.1 with
    | some storage => exact (pointsTo_variable name data _ _ storage hfirst).mpr (hvariable storage hfirst)
    | none =>
      rw [pointsTo_function name data _ _ hfirst]
      cases hentry : first (targets data) target.1 with
      | none => exact absurd rfl ((first_eq_none _ _).mp hentry target htarget)
      | some entry => exact ⟨entry, rfl, hothers _ (mem_of_first _ _ _ hentry) rfl⟩

/-- **Clicks.** The function and each of its calls are found under their names exactly when functions of one
name have one address and no variable elsewhere takes such a name first. -/
theorem findSymbols_pointsTo_iff :
    (PointsTo (findSymbols name data) data.getName data.getAddress ∧
        ∀ call ∈ data.calls, ∀ entry ∈ call.getEntryAddress, PointsTo (findSymbols name data) call.key entry) ↔
      Unambiguous name data := by
  rw [← targets_pointsTo_iff, forall_targets]

/-! ## Two functions and a variable of one name -/

def codeAt (offset : UInt64) : Address := ⟨⟨ascii "ram", 8, ram_noNul⟩, offset⟩

def stackAt (offset : UInt64) : Address := ⟨⟨ascii "stack", 8, stack_noNul⟩, offset⟩

/-- `main` calls `puts` and, through the import table, `__imp_puts`. A local variable is called `main`. -/
def collidingNames : DecompiledFunc Str where
  defs := [⟨stackAt 8, some ⟨some (ascii "main"), some ⟨stackAt 8, some 0x401004⟩⟩⟩]
  ops := []
  body := []
  body_sublist := List.Sublist.refl []
  getName := ascii "main"
  getAddress := codeAt 0x401000
  calls := [⟨ascii "puts", some (codeAt 0x401100)⟩, ⟨ascii "__imp_puts", some (codeAt 0x404018)⟩]

/-- The import leads to the function `puts`, and `main` to the variable. -/
theorem findSymbols_collision :
    (findSymbols id collidingNames (ascii "puts")).map (·.offset) = some 0x401100 ∧
      ¬ PointsTo (findSymbols id collidingNames) (⟨ascii "__imp_puts", some (codeAt 0x404018)⟩ : FuncCallSpecs).key
        (codeAt 0x404018) ∧
      (findSymbols id collidingNames (ascii "main")).map (·.spaceName) = some (ascii "stack") ∧
      ¬ PointsTo (findSymbols id collidingNames) (ascii "main") (codeAt 0x401000) := by
  decide

end Yagi
