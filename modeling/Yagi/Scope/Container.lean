import Yagi.Scope.Ranges

/-!
# Asking for a container twice

A symbol of the database is made whatever the size that is asked for, and the next
lookup asks for the size again.
-/

open Text

namespace Yagi

variable {σ Sym D Ty : Type} (proxy : ScopeInternal σ Sym D) (Z : SymbolSizes σ Sym D)
  (archi : YagiArchitecture Ty Sym D)

/-- The entry returned covers the range, and the next call returns it again and makes no symbol. -/
def Settles (addr : Address) (size : Int32) (usepoint : Option Address) (st : σ) : Prop :=
  ∀ sym entry after, YagiScope.findContainer proxy archi addr size usepoint st = (some (sym, entry), after) →
    entry.Covers (Z.size after sym) addr size.toInt ∧
      (YagiScope.findContainer proxy archi addr size usepoint after).1 = some (sym, entry) ∧
      proxy.symbols (YagiScope.findContainer proxy archi addr size usepoint after).2 = proxy.symbols after

/-! ## One call -/

theorem findContainer_cached (addr : Address) (size : Int32) (usepoint : Option Address) (st : σ)
    (result : Sym × MapEntry) (h : proxy.findContainer st addr size usepoint = some result) :
    YagiScope.findContainer proxy archi addr size usepoint st = (some result, st) := by
  unfold YagiScope.findContainer
  rw [h]

theorem findContainer_unknown (addr : Address) (size : Int32) (usepoint : Option Address) (st : σ)
    (h : proxy.findContainer st addr size usepoint = none) (hdata : YagiScope.codeSymbol archi addr = none) :
    YagiScope.findContainer proxy archi addr size usepoint st = (none, st) := by
  unfold YagiScope.findContainer
  rw [h, hdata]

theorem findContainer_made (hR : proxy.RangeLaws Z) (addr : Address) (size : Int32) (usepoint : Option Address)
    (st : σ) (data : SymbolInfo) (h : proxy.findContainer st addr size usepoint = none)
    (hdata : YagiScope.codeSymbol archi addr = some data) :
    YagiScope.findContainer proxy archi addr size usepoint st =
      (some (((ScopeQuery.findContainer addr size usepoint).create proxy archi st data).1, ⟨addr, usepoint⟩),
        ((ScopeQuery.findContainer addr size usepoint).create proxy archi st data).2) := by
  unfold YagiScope.findContainer
  rw [h, hdata]
  simp only [hR.mapPoint_entry]
  rfl

/-! ## The next call -/

theorem eq_last_of_split {α : Type} (xs front back : List α) (x y : α) (h : xs ++ [x] = front ++ y :: back)
    (hx : x ∉ back) : y = x := by
  rcases List.eq_nil_or_concat back with rfl | ⟨back', z, rfl⟩
  · exact (List.cons.inj (List.append_inj' h rfl).2).1.symm
  · have hz : xs ++ [x] = (front ++ y :: back') ++ [z] := by
      rw [h, List.concat_eq_append, List.append_assoc, List.cons_append]
    obtain rfl : x = z := (List.cons.inj (List.append_inj' hz rfl).2).1
    simp at hx

theorem answers_old (st st' : σ) (sym : Sym) (k : SymbolKind) (entries : List MapEntry) (z : Int)
    (hc : proxy.Creates st st' sym k entries) (hz : proxy.Sizes Z st st' sym z) (addr : Address) (size : Int32)
    (usepoint : Option Address) (x : Sym) (entry : MapEntry) (hx : x ∈ proxy.symbols st) :
    proxy.Answers Z st' addr size usepoint x entry ↔ proxy.Answers Z st addr size usepoint x entry := by
  unfold ScopeInternal.Answers
  rw [hc.entries_old x hx, hz.2 x hx]

theorem findContainer_next (hR : proxy.RangeLaws Z) (st st' : σ) (sym : Sym) (k : SymbolKind)
    (entries : List MapEntry) (z : Int) (addr : Address) (size : Int32) (usepoint : Option Address)
    (hc : proxy.Creates st st' sym k (entries ++ [⟨addr, usepoint⟩])) (hz : proxy.Sizes Z st st' sym z)
    (hsize : size.toInt ≤ z) (hmissed : proxy.findContainer st addr size usepoint = none) :
    proxy.findContainer st' addr size usepoint = some (sym, ⟨addr, usepoint⟩) := by
  have hself : sym ∈ proxy.symbols st' := (hc.symbols sym).mpr (Or.inr rfl)
  have hanswers : proxy.Answers Z st' addr size usepoint sym ⟨addr, usepoint⟩ := by
    refine ⟨Or.inl rfl, rfl, Nat.le_refl _, ?_⟩
    rw [hz.1]
    simp only
    omega
  cases hfound : proxy.findContainer st' addr size usepoint with
  | none =>
    refine absurd hanswers (hR.missed st' addr size usepoint hfound sym hself _ ?_)
    rw [hc.entries_new]
    simp
  | some result =>
    obtain ⟨x, entry⟩ := result
    obtain ⟨hx, hanswer, front, back, hsplit, hlast⟩ := hR.found st' addr size usepoint x entry hfound
    rcases (hc.symbols x).mp hx with hold | rfl
    · -- An old symbol would have been found before.
      rw [answers_old proxy Z st st' sym k _ z hc hz addr size usepoint x entry hold] at hanswer
      rw [hc.entries_old x hold] at hsplit
      refine absurd hanswer (hR.missed st addr size usepoint hmissed x hold entry ?_)
      rw [hsplit]
      simp
    · rw [hc.entries_new] at hsplit
      have hback : (⟨addr, usepoint⟩ : MapEntry) ∉ back := fun hmem => hlast _ hmem hanswers
      rw [eq_last_of_split entries front back ⟨addr, usepoint⟩ entry hsplit hback]

/-- **Containers.** Asking again gives the entry that was returned, over the whole range, exactly when the
symbol was in the proxy, or is none of the database, or is made at least as large as the range. -/
theorem findContainer_settles_iff [DecidableEq Sym] (hS : proxy.Laws) (hR : proxy.RangeLaws Z) (addr : Address)
    (size : Int32) (usepoint : Option Address) (st : σ) :
    Settles proxy Z archi addr size usepoint st ↔
      (proxy.findContainer st addr size usepoint = none → ∀ data ∈ YagiScope.codeSymbol archi addr,
        size.toInt ≤ (ScopeQuery.findContainer addr size usepoint).size Z archi data) := by
  unfold Settles
  cases hfind : proxy.findContainer st addr size usepoint with
  | some result =>
    rw [findContainer_cached proxy archi addr size usepoint st result hfind]
    refine iff_of_true ?_ (by simp)
    intro sym entry after heq
    obtain ⟨hresult, rfl⟩ := Prod.mk.inj heq
    obtain rfl := Option.some.inj hresult
    obtain ⟨-, ⟨-, hcovers⟩, -⟩ := hR.found st addr size usepoint sym entry hfind
    rw [findContainer_cached proxy archi addr size usepoint st _ hfind]
    exact ⟨hcovers, rfl, rfl⟩
  | none => cases hdata : YagiScope.codeSymbol archi addr with
    | none =>
      rw [findContainer_unknown proxy archi addr size usepoint st hfind hdata]
      simp
    | some data =>
      have hc := ScopeQuery.create_creates proxy archi hS st (.findContainer addr size usepoint) data
      have hz := ScopeQuery.create_sizes proxy Z archi hR st (.findContainer addr size usepoint) data
      rw [findContainer_made proxy Z archi hR addr size usepoint st data hfind hdata]
      simp only [Option.mem_some, forall_const, forall_eq']
      constructor
      · intro h
        obtain ⟨⟨-, -, hcovers⟩, -⟩ := h _ _ _ rfl
        rw [hz.1] at hcovers
        simp only at hcovers
        omega
      · intro hsize sym entry after heq
        obtain ⟨hresult, rfl⟩ := Prod.mk.inj heq
        obtain ⟨rfl, rfl⟩ := Prod.mk.inj (Option.some.inj hresult)
        have hnext := findContainer_next proxy Z hR st _ _ _ _ _ addr size usepoint hc hz hsize hfind
        rw [findContainer_cached proxy archi addr size usepoint _ _ hnext]
        refine ⟨⟨rfl, Nat.le_refl _, ?_⟩, rfl, rfl⟩
        rw [hz.1]
        simp only
        omega

theorem findContainer_settles_iff_count :
    Settles SymbolCache.scope SymbolCache.sizes smallProgram ⟨ramSpace, 0x403000⟩ 4 (some ⟨ramSpace, 0x401010⟩) [] ↔
      (SymbolCache.scope.findContainer [] ⟨ramSpace, 0x403000⟩ 4 (some ⟨ramSpace, 0x401010⟩) = none →
        ∀ data ∈ YagiScope.codeSymbol smallProgram ⟨ramSpace, 0x403000⟩, (4 : Int32).toInt ≤
          (ScopeQuery.findContainer ⟨ramSpace, 0x403000⟩ 4 (some ⟨ramSpace, 0x401010⟩)).size SymbolCache.sizes
            smallProgram data) :=
  findContainer_settles_iff SymbolCache.scope SymbolCache.sizes smallProgram SymbolCache.scope_laws
    SymbolCache.scope_rangeLaws _ _ _ _

/-- A function takes one byte. Asked for with the size of an address it is returned, and made once more. -/
theorem findContainer_function_twice :
    let main : CachedSymbol :=
      ⟨.function, ascii "main", 1, [⟨⟨ramSpace, 0x401000⟩, none⟩, ⟨⟨ramSpace, 0x401000⟩, none⟩], [.readonly]⟩
    YagiScope.findContainer SymbolCache.scope smallProgram ⟨ramSpace, 0x401000⟩ 8 none [] =
        (some (0, ⟨⟨ramSpace, 0x401000⟩, none⟩), [main]) ∧
      YagiScope.findContainer SymbolCache.scope smallProgram ⟨ramSpace, 0x401000⟩ 8 none [main] =
        (some (1, ⟨⟨ramSpace, 0x401000⟩, none⟩), [main, main]) ∧
      ¬ Settles SymbolCache.scope SymbolCache.sizes smallProgram ⟨ramSpace, 0x401000⟩ 8 none [] := by
  have hmade : YagiScope.findContainer SymbolCache.scope smallProgram ⟨ramSpace, 0x401000⟩ 8 none [] =
      (some (0, ⟨⟨ramSpace, 0x401000⟩, none⟩), [⟨.function, ascii "main", 1,
        [⟨⟨ramSpace, 0x401000⟩, none⟩, ⟨⟨ramSpace, 0x401000⟩, none⟩], [.readonly]⟩]) := by decide
  refine ⟨hmade, by decide, ?_⟩
  intro h
  exact absurd (h _ _ _ hmade).1 (by decide)

end Yagi
