import Yagi.Lib.Firing
import Yagi.Scope.Container
import Yagi.Scope.Coherence

/-!
# Made once, injected once

No event takes a symbol away, so what has been found is found again. A function is
injected when the lookup for functions is the first to make it.
-/

open Text Runs Firing

namespace Yagi

variable {σ Sym D Ty : Type} (proxy : ScopeInternal σ Sym D) (Z : SymbolSizes σ Sym D) (getName : σ → Sym → Str)
  (archi : YagiArchitecture Ty Sym D)

/-! ## What stays -/

theorem noneAt_made_iff (st st' : σ) (sym : Sym) (new : NewSymbol) (k : SymbolKind) (addr : Address)
    (hmade : ScopeEvent.Made proxy Z getName st st' sym new) :
    proxy.NoneAt st' k addr ↔
      proxy.NoneAt st k addr ∧ (new.kind = k → ∀ entry ∈ new.entries, entry.addr ≠ addr) := by
  have hc := hmade.creates
  constructor
  · intro h
    constructor
    · intro x hx hkind entry hentry
      refine h x ((hc.symbols x).mpr (Or.inl hx)) ?_ entry ?_
      · rw [hc.kind_old x hx, hkind]
      · rw [hc.entries_old x hx]
        exact hentry
    · intro hkind entry hentry
      refine h sym ((hc.symbols sym).mpr (Or.inr rfl)) (hc.kind_new.trans hkind) entry ?_
      rw [hc.entries_new]
      exact hentry
  · rintro ⟨hold, hnew⟩ x hx hkind entry hentry
    rcases (hc.symbols x).mp hx with hx | rfl
    · rw [hc.kind_old x hx] at hkind
      rw [hc.entries_old x hx] at hentry
      exact hold x hx hkind entry hentry
    · rw [hc.kind_new] at hkind
      rw [hc.entries_new] at hentry
      exact hnew hkind entry hentry

namespace ScopeQuery

theorem isCached_eq_false [DecidableEq Sym] (hS : proxy.Laws) (st : σ) (q : ScopeQuery) (k : SymbolKind)
    (hk : q.asks = some k) : q.isCached proxy st = false ↔ proxy.NoneAt st k q.addr := by
  cases q with
  | findContainer addr size usepoint => simp [asks] at hk
  | findFunction addr =>
    obtain rfl := Option.some.inj hk
    rw [← hS.findFunction]
    simp [isCached, ScopeQuery.addr]
  | findExternalRef addr =>
    obtain rfl := Option.some.inj hk
    rw [← hS.findExternalRef]
    simp [isCached, ScopeQuery.addr]
  | findCodeLabel addr =>
    obtain rfl := Option.some.inj hk
    rw [← hS.findCodeLabel]
    simp [isCached, ScopeQuery.addr]

/-- The symbol that the query makes contains what it asks for. -/
def Fits : ScopeQuery → Prop
  | .findContainer addr size usepoint => ∀ data ∈ YagiScope.codeSymbol archi addr,
      size.toInt ≤ (ScopeQuery.findContainer addr size usepoint).size Z archi data
  | _ => True

instance : (q : ScopeQuery) → Decidable (q.Fits Z archi)
  | .findContainer addr size usepoint => inferInstanceAs (Decidable (∀ data ∈ YagiScope.codeSymbol archi addr,
      size.toInt ≤ (ScopeQuery.findContainer addr size usepoint).size Z archi data))
  | .findFunction _ => inferInstanceAs (Decidable True)
  | .findExternalRef _ => inferInstanceAs (Decidable True)
  | .findCodeLabel _ => inferInstanceAs (Decidable True)

theorem cached_stays [DecidableEq Sym] (hS : proxy.Laws) (hR : proxy.RangeLaws Z) (st st' : σ) (sym : Sym)
    (new : NewSymbol) (hmade : ScopeEvent.Made proxy Z getName st st' sym new) (q : ScopeQuery)
    (h : q.isCached proxy st = true) : q.isCached proxy st' = true := by
  cases hk : q.asks with
  | some k =>
    by_contra hnot
    rw [Bool.not_eq_true, isCached_eq_false proxy hS st' q k hk,
      noneAt_made_iff proxy Z getName st st' sym new k q.addr hmade] at hnot
    rw [(isCached_eq_false proxy hS st q k hk).mpr hnot.1] at h
    exact Bool.false_ne_true h
  | none => cases q with
    | findContainer addr size usepoint =>
      obtain ⟨⟨x, entry⟩, hresult⟩ := Option.isSome_iff_exists.mp h
      obtain ⟨hx, hanswers, front, back, hsplit, -⟩ := hR.found st addr size usepoint x entry hresult
      by_contra hnot
      have hmissed : proxy.findContainer st' addr size usepoint = none := by simpa [isCached] using hnot
      refine hR.missed st' addr size usepoint hmissed x ((hmade.creates.symbols x).mpr (Or.inl hx)) entry ?_ ?_
      · rw [hmade.creates.entries_old x hx, hsplit]
        simp
      · exact (answers_old proxy Z st st' sym _ _ _ hmade.creates hmade.sizes addr size usepoint x entry hx).mpr hanswers
    | findFunction addr => simp [asks] at hk
    | findExternalRef addr => simp [asks] at hk
    | findCodeLabel addr => simp [asks] at hk

theorem cached_of_made [DecidableEq Sym] (hS : proxy.Laws) (hR : proxy.RangeLaws Z) (st st' : σ) (sym : Sym)
    (q : ScopeQuery) (data : SymbolInfo) (hsource : q.source proxy archi st = some data) (hfits : q.Fits Z archi)
    (hmade : ScopeEvent.Made proxy Z getName st st' sym (ScopeEvent.ofQuery Z archi q data)) :
    q.isCached proxy st' = true := by
  obtain ⟨hmissed, hdata⟩ := (source_eq_some proxy archi st q data).mp hsource
  cases hk : q.asks with
  | some k =>
    by_contra hnot
    rw [Bool.not_eq_true, isCached_eq_false proxy hS st' q k hk,
      noneAt_made_iff proxy Z getName st st' sym _ k q.addr hmade] at hnot
    obtain ⟨entry, hentry⟩ := entries_ne_nil q data
    refine hnot.2 ?_ entry hentry (entries_addr q data entry hentry)
    cases q <;> simp_all [asks, ScopeEvent.ofQuery, kind]
  | none => cases q with
    | findContainer addr size usepoint =>
      have hnone : proxy.findContainer st addr size usepoint = none := by simpa [isCached] using hmissed
      have hnext := findContainer_next proxy Z hR st st' sym _ (containerEntries addr data).2 _ addr size usepoint
        hmade.creates hmade.sizes (hfits data hdata) hnone
      simp [isCached, hnext]
    | findFunction addr => simp [asks] at hk
    | findExternalRef addr => simp [asks] at hk
    | findCodeLabel addr => simp [asks] at hk

end ScopeQuery

/-! ## Made once -/

namespace ScopeEvent

/-- The event is a query that makes a symbol, and one that contains what is asked for. -/
def makesFitting (st : σ) : ScopeEvent D → Bool
  | query q => (q.source proxy archi st).isSome && decide (q.Fits Z archi)
  | _ => false

def Cached (st : σ) : ScopeEvent D → Prop
  | query q => q.isCached proxy st = true
  | _ => False

/-- The injection of a function is reached. -/
def injects (st : σ) : ScopeEvent D → Bool
  | query (.findFunction addr) => ((ScopeQuery.findFunction addr).source proxy archi st).isSome
  | _ => false

theorem makesFitting_of_injects (st : σ) (e : ScopeEvent D) (h : e.injects proxy archi st = true) :
    e.makesFitting proxy Z archi st = true := by
  cases e with
  | query q => cases q with
    | findFunction addr =>
      rw [makesFitting, Bool.and_eq_true, decide_eq_true_eq]
      exact ⟨h, trivial⟩
    | findContainer addr size usepoint => simp [injects] at h
    | findExternalRef addr => simp [injects] at h
    | findCodeLabel addr => simp [injects] at h
  | resolveExternalRefFunction sym => simp [injects] at h
  | addGlobal addr ct usepoint => simp [injects] at h

section

variable [DecidableEq Sym] (hS : proxy.Laws) (hR : proxy.RangeLaws Z) (hN : proxy.NameLaws getName)

include hS hR hN

theorem apply_cached (st : σ) (e : ScopeEvent D) (q : ScopeQuery) (h : q.isCached proxy st = true) :
    q.isCached proxy (e.apply proxy archi st) = true := by
  cases hmakes : e.makes proxy Z archi st with
  | none =>
    rw [apply_unmade proxy Z archi st e hmakes]
    exact h
  | some new =>
    obtain ⟨sym, hmade⟩ := apply_made proxy Z getName archi hS hR hN st e new hmakes
    exact ScopeQuery.cached_stays proxy Z getName hS hR st _ sym new hmade q h

theorem makesFitting_once :
    Once (ScopeEvent.apply proxy archi) (makesFitting proxy Z archi) (fun _ => True) (Cached proxy) where
  keeps _ _ _ := trivial
  done st e _ h := by
    cases e with
    | query q =>
      rw [makesFitting, Bool.and_eq_true, decide_eq_true_eq] at h
      obtain ⟨data, hsource⟩ := Option.isSome_iff_exists.mp h.1
      obtain ⟨sym, hmade⟩ := query_made proxy Z getName archi hS hR hN st q data hsource
      exact ScopeQuery.cached_of_made proxy Z getName archi hS hR st _ sym q data hsource h.2 hmade
    | resolveExternalRefFunction sym => simp [makesFitting] at h
    | addGlobal addr ct usepoint => simp [makesFitting] at h
  stays st e d _ h := by
    cases d with
    | query q => exact apply_cached proxy Z getName archi hS hR hN st e q h
    | resolveExternalRefFunction sym => exact h
    | addGlobal addr ct usepoint => exact h
  disabled st e _ h := by
    cases e with
    | query q =>
      have hcached : q.isCached proxy st = true := h
      simp [makesFitting, ScopeQuery.source, hcached]
    | resolveExternalRefFunction sym => rfl
    | addGlobal addr ct usepoint => rfl

theorem cached_of_asked (st : σ) (q : ScopeQuery) (hfits : q.Fits Z archi) (hdata : (q.accepted archi).isSome) :
    q.isCached proxy (ScopeEvent.apply proxy archi st (.query q)) = true := by
  by_cases hcached : q.isCached proxy st = true
  · exact apply_cached proxy Z getName archi hS hR hN st (.query q) q hcached
  · obtain ⟨data, hdata⟩ := Option.isSome_iff_exists.mp hdata
    have hsource := (ScopeQuery.source_eq_some proxy archi st q data).mpr ⟨by simpa using hcached, hdata⟩
    obtain ⟨sym, hmade⟩ := query_made proxy Z getName archi hS hR hN st q data hsource
    exact ScopeQuery.cached_of_made proxy Z getName archi hS hR st _ sym q data hsource hfits hmade

/-- **Made once.** A query whose symbol contains what it asks for makes one symbol at most in a run, and once
it has been made it changes nothing, however the run goes on. -/
theorem makes_once (st : σ) (events : List (ScopeEvent D)) :
    (fired (ScopeEvent.apply proxy archi) (makesFitting proxy Z archi) st events).Nodup ∧
      ∀ q, .query q ∈ events → (q.accepted archi).isSome → q.Fits Z archi →
        q.apply proxy archi (run (ScopeEvent.apply proxy archi) st events) =
          run (ScopeEvent.apply proxy archi) st events := by
  have honce := makesFitting_once proxy Z getName archi hS hR hN
  refine ⟨honce.fired_nodup st events trivial, ?_⟩
  intro q hmem hdata hfits
  obtain ⟨before, after, rfl⟩ := List.append_of_mem hmem
  rw [← List.singleton_append, run_append, run_append, run_singleton]
  have hasked := cached_of_asked proxy Z getName archi hS hR hN
    (run (ScopeEvent.apply proxy archi) st before) q hfits hdata
  exact ScopeQuery.apply_of_cached proxy archi _ q (honce.done_run _ (.query q) after trivial hasked)

end

/-- Four lookups of `main` and of the variable `count`, the second pair of which makes nothing. -/
def lookups : List (ScopeEvent Int32) :=
  [.query (.findFunction ⟨ramSpace, 0x401000⟩), .query (.findContainer ⟨ramSpace, 0x403000⟩ 4 none),
    .query (.findFunction ⟨ramSpace, 0x401000⟩), .query (.findContainer ⟨ramSpace, 0x403000⟩ 4 none)]

theorem makes_once_small :
    (fired (ScopeEvent.apply SymbolCache.scope smallProgram)
        (makesFitting SymbolCache.scope SymbolCache.sizes smallProgram) [] lookups).Nodup ∧
      ∀ q, .query q ∈ lookups → (q.accepted smallProgram).isSome → q.Fits SymbolCache.sizes smallProgram →
        q.apply SymbolCache.scope smallProgram (run (ScopeEvent.apply SymbolCache.scope smallProgram) [] lookups) =
          run (ScopeEvent.apply SymbolCache.scope smallProgram) [] lookups :=
  makes_once SymbolCache.scope SymbolCache.sizes SymbolCache.getName smallProgram SymbolCache.scope_laws
    SymbolCache.scope_rangeLaws SymbolCache.scope_nameLaws [] lookups

/-! ## Injected once -/

/-- In a run from `st`, an event has made a function that is mapped at the address. -/
def FunctionMade (st : σ) (events : List (ScopeEvent D)) (addr : Address) : Prop :=
  ∃ before e after, events = before ++ e :: after ∧
    ∃ new ∈ e.makes proxy Z archi (run (ScopeEvent.apply proxy archi) st before),
      new.kind = .function ∧ ∃ entry ∈ new.entries, entry.addr = addr

theorem injects_iff (st : σ) (addr : Address) :
    injects (D := D) proxy archi st (.query (.findFunction addr)) = true ↔
      (ScopeQuery.findFunction addr).isCached proxy st = false ∧ (archi.find addr.offset).isSome := by
  unfold injects
  simp only [Option.isSome_iff_exists, ScopeQuery.source_eq_some]
  exact exists_and_left

theorem findFunction_of_not_injects (st : σ) (addr : Address) (inject update : Sym → Except Raised Unit)
    (h : injects (D := D) proxy archi st (.query (.findFunction addr)) = false) :
    YagiScope.findFunction proxy { archi with inject := inject, update := update } addr st =
      YagiScope.findFunction proxy archi addr st := by
  unfold YagiScope.findFunction
  cases hfound : proxy.findFunction st addr with
  | some found => rfl
  | none =>
    have hnone : archi.find addr.offset = none := by
      by_contra hsome
      have hinjects := (injects_iff proxy archi st addr).mpr
        ⟨by simp [ScopeQuery.isCached, hfound], Option.isSome_iff_ne_none.mpr hsome⟩
      rw [hinjects] at h
      exact absurd h (by simp)
    simp only [hnone]

section

variable [DecidableEq Sym] (hS : proxy.Laws) (hR : proxy.RangeLaws Z) (hN : proxy.NameLaws getName)

include hS hR hN

theorem noneAt_apply_iff (st : σ) (e : ScopeEvent D) (k : SymbolKind) (addr : Address) :
    ¬ proxy.NoneAt (e.apply proxy archi st) k addr ↔ ¬ proxy.NoneAt st k addr ∨
      ∃ new ∈ e.makes proxy Z archi st, new.kind = k ∧ ∃ entry ∈ new.entries, entry.addr = addr := by
  cases hmakes : e.makes proxy Z archi st with
  | none =>
    rw [apply_unmade proxy Z archi st e hmakes]
    simp
  | some new =>
    obtain ⟨sym, hmade⟩ := apply_made proxy Z getName archi hS hR hN st e new hmakes
    rw [noneAt_made_iff proxy Z getName st _ sym new k addr hmade, not_and_or]
    simp

theorem functionMade_iff (st : σ) (events : List (ScopeEvent D)) (addr : Address) :
    FunctionMade proxy Z archi (proxy.clear st) events addr ↔
      ¬ proxy.NoneAt (run (ScopeEvent.apply proxy archi) (proxy.clear st) events) .function addr := by
  have hclear : proxy.NoneAt (proxy.clear st) .function addr := by
    intro sym hsym
    rw [hS.clear] at hsym
    simp at hsym
  rw [holds_run_iff _ (fun s => ¬ proxy.NoneAt s .function addr) _
    (fun s e => noneAt_apply_iff proxy Z getName archi hS hR hN s e .function addr)]
  exact (or_iff_right (not_not.mpr hclear)).symm

end

end ScopeEvent

end Yagi
