import Yagi.Scope.Queries

/-!
# Symbols outside the code space

The database is asked by offset alone. A query for another space that reaches it
attaches the symbol at that offset to an address where it does not live.
-/

open Text Runs

namespace Yagi

variable {σ Sym D Ty : Type} (proxy : ScopeInternal σ Sym D) (archi : YagiArchitecture Ty Sym D)

def InCodeSpace (st : σ) : Prop :=
  ∀ sym ∈ proxy.symbols st, ∀ entry ∈ proxy.mapEntries st sym, entry.addr.space = archi.getDefaultCodeSpace

namespace ScopeQuery

/-- Outside the code space a query returns only what is cached. -/
def NullElsewhere (st : σ) (q : ScopeQuery) : Prop :=
  q.addr.space ≠ archi.getDefaultCodeSpace → q.isCached proxy st = false → q.ReturnsNull proxy archi st

/-- `findFunction`, `findExternalRef` and `findCodeLabel` ask for another space only what is cached, or where
the database has nothing for them. -/
def Local (st : σ) : ScopeQuery → Prop
  | .findFunction addr => addr.space = archi.getDefaultCodeSpace ∨ proxy.findFunction st addr ≠ none ∨
      archi.find addr.offset = none
  | .findContainer _ _ _ => True
  | .findExternalRef addr => addr.space = archi.getDefaultCodeSpace ∨ proxy.findExternalRef st addr ≠ none ∨
      ∀ data ∈ archi.find addr.offset, data.isImport = false
  | .findCodeLabel addr => addr.space = archi.getDefaultCodeSpace ∨ proxy.findCodeLabel st addr ≠ none ∨
      ∀ data ∈ archi.find addr.offset, data.isLabel = false

theorem local_iff (st : σ) (q : ScopeQuery) :
    q.Local proxy archi st ↔ q.addr.space = archi.getDefaultCodeSpace ∨ q.source proxy archi st = none := by
  rw [source_eq_none]
  cases q with
  | findFunction addr =>
    show _ ↔ addr.space = _ ∨ ((proxy.findFunction st addr).isSome = false → archi.find addr.offset = none)
    simp only [Local]
    cases proxy.findFunction st addr <;> simp
  | findContainer addr size usepoint =>
    refine iff_of_true trivial ?_
    by_cases h : addr.space = archi.getDefaultCodeSpace
    · exact Or.inl h
    · exact Or.inr fun _ => if_neg h
  | findExternalRef addr =>
    show _ ↔ addr.space = _ ∨ ((proxy.findExternalRef st addr).isSome = false →
      (archi.find addr.offset).filter (·.isImport) = none)
    simp only [Local]
    cases proxy.findExternalRef st addr <;> simp
  | findCodeLabel addr =>
    show _ ↔ addr.space = _ ∨ ((proxy.findCodeLabel st addr).isSome = false →
      (archi.find addr.offset).filter (·.isLabel) = none)
    simp only [Local]
    cases proxy.findCodeLabel st addr <;> simp

theorem apply_inCodeSpace_iff [DecidableEq Sym] (hS : proxy.Laws) (st : σ) (q : ScopeQuery)
    (hst : InCodeSpace proxy archi st) :
    InCodeSpace proxy archi (q.apply proxy archi st) ↔ q.Local proxy archi st := by
  rw [local_iff]
  cases hsource : q.source proxy archi st with
  | none =>
    rw [apply_of_source_none proxy archi st q hsource]
    simp [hst]
  | some data =>
    have hc := create_creates proxy archi hS st q data
    rw [apply_of_source_some proxy archi st q data hsource]
    simp only [reduceCtorEq, or_false]
    constructor
    · intro h
      obtain ⟨entry, hentry⟩ := entries_ne_nil q data
      rw [← entries_addr q data entry hentry]
      rw [← hc.entries_new] at hentry
      exact h _ ((hc.symbols _).mpr (Or.inr rfl)) entry hentry
    · intro hspace sym hsym entry hentry
      rcases (hc.symbols sym).mp hsym with hsym | rfl
      · rw [hc.entries_old sym hsym] at hentry
        exact hst sym hsym entry hentry
      · rw [hc.entries_new] at hentry
        rw [entries_addr q data entry hentry, hspace]

theorem nullElsewhere_of_local (st : σ) (q : ScopeQuery) (h : q.Local proxy archi st) :
    q.NullElsewhere proxy archi st := by
  intro hspace hcached
  rw [local_iff, source_eq_none] at h
  exact (returnsNull_iff proxy archi st q).mpr ⟨hcached, h.resolve_left hspace hcached⟩

end ScopeQuery

/-! ## Runs -/

/-- **Code space.** In a run from a cleared scope all symbols stay in the code space, and nothing new is found
elsewhere, exactly when no query takes a symbol of the database to another space. -/
theorem code_space_iff [DecidableEq Sym] (hS : proxy.Laws) (st : σ) (queries : List ScopeQuery) :
    (Keeps (ScopeQuery.apply proxy archi) (InCodeSpace proxy archi) (proxy.clear st) queries ∧
        AllMeet (ScopeQuery.apply proxy archi) (ScopeQuery.NullElsewhere proxy archi) (proxy.clear st) queries) ↔
      AllMeet (ScopeQuery.apply proxy archi) (ScopeQuery.Local proxy archi) (proxy.clear st) queries := by
  have hclear : InCodeSpace proxy archi (proxy.clear st) := by
    intro sym hsym
    rw [hS.clear] at hsym
    simp at hsym
  rw [keeps_iff_allMeet _ _ _ _ hclear
    (fun st q hst => ScopeQuery.apply_inCodeSpace_iff proxy archi hS st q hst) queries]
  constructor
  · exact fun h => h.1
  · intro h
    exact ⟨h, fun before q after hq => ScopeQuery.nullElsewhere_of_local proxy archi _ q (h before q after hq)⟩

def syscallSpace : AddrSpace := ⟨ascii "syscall", 8, by decide⟩

theorem code_space_iff_small :
    let queries : List ScopeQuery := [.findFunction ⟨ramSpace, 0x401000⟩, .findContainer ⟨syscallSpace, 0x401000⟩ 1 none,
      .findFunction ⟨syscallSpace, 6⟩]
    (Keeps (ScopeQuery.apply SymbolCache.scope smallProgram) (InCodeSpace SymbolCache.scope smallProgram)
        (SymbolCache.scope.clear []) queries ∧
      AllMeet (ScopeQuery.apply SymbolCache.scope smallProgram)
        (ScopeQuery.NullElsewhere SymbolCache.scope smallProgram) (SymbolCache.scope.clear []) queries) ↔
    AllMeet (ScopeQuery.apply SymbolCache.scope smallProgram) (ScopeQuery.Local SymbolCache.scope smallProgram)
      (SymbolCache.scope.clear []) queries :=
  code_space_iff SymbolCache.scope smallProgram SymbolCache.scope_laws [] _

/-- A call of the syscall whose number is the address of `main` finds `main`. -/
theorem code_space_syscall :
    let q : ScopeQuery := .findFunction ⟨syscallSpace, 0x401000⟩
    q.apply SymbolCache.scope smallProgram [] =
        [⟨.function, ascii "main", 1, [⟨⟨syscallSpace, 0x401000⟩, none⟩], []⟩] ∧
      ¬ InCodeSpace SymbolCache.scope smallProgram (q.apply SymbolCache.scope smallProgram []) ∧
      ¬ q.NullElsewhere SymbolCache.scope smallProgram [] := by
  refine ⟨by decide, ?_, ?_⟩
  · intro h
    exact absurd (h 0 (by decide) ⟨⟨syscallSpace, 0x401000⟩, none⟩ (by decide)) (by decide)
  · intro h
    have hnull := (ScopeQuery.returnsNull_iff _ _ _ _).mp (h (by decide) (by decide))
    exact absurd hnull.2 (by decide)

end Yagi
