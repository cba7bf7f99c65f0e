import Yagi.Lib.Runs
import Yagi.Scope.Spec

/-!
# The cache without duplicates

What each call adds to the proxy, and when that keeps one symbol of a kind per
address and one map entry per symbol.
-/

open Text Runs

namespace Yagi

variable {σ Sym D Ty : Type} (proxy : ScopeInternal σ Sym D) (archi : YagiArchitecture Ty Sym D)

/-! ## The invariant -/

structure NoDuplicates (st : σ) : Prop where
  one_entry : ∀ sym ∈ proxy.symbols st, ∃ entry, proxy.mapEntries st sym = [entry]
  one_symbol : ∀ sym ∈ proxy.symbols st, ∀ sym' ∈ proxy.symbols st, proxy.kind st sym = proxy.kind st sym' →
    ∀ entry ∈ proxy.mapEntries st sym, ∀ entry' ∈ proxy.mapEntries st sym', entry.addr = entry'.addr → sym = sym'

theorem creates_noDuplicates_iff (st st' : σ) (sym : Sym) (k : SymbolKind) (entries : List MapEntry)
    (hc : proxy.Creates st st' sym k entries) (hst : NoDuplicates proxy st) :
    NoDuplicates proxy st' ↔ ∃ entry, entries = [entry] ∧ proxy.NoneAt st k entry.addr := by
  have hold := fun x => (hc.symbols x).mpr ∘ Or.inl
  have hself : sym ∈ proxy.symbols st' := (hc.symbols sym).mpr (Or.inr rfl)
  constructor
  · intro h
    obtain ⟨entry, hentry⟩ := h.one_entry sym hself
    rw [hc.entries_new] at hentry
    refine ⟨entry, hentry, ?_⟩
    intro x hx hkind e he haddr
    have hsame := h.one_symbol x (hold x hx) sym hself (by rw [hc.kind_old x hx, hc.kind_new, hkind]) e
      (by rw [hc.entries_old x hx]; exact he) entry (by rw [hc.entries_new, hentry]; simp) haddr
    exact hc.new (hsame ▸ hx)
  · rintro ⟨entry, rfl, hnone⟩
    constructor
    · intro x hx
      rcases (hc.symbols x).mp hx with hx | rfl
      · rw [hc.entries_old x hx]; exact hst.one_entry x hx
      · exact ⟨entry, hc.entries_new⟩
    · intro x hx y hy hkind e he e' he' haddr
      rcases (hc.symbols x).mp hx with hx | rfl
      · rw [hc.kind_old x hx] at hkind
        rw [hc.entries_old x hx] at he
        rcases (hc.symbols y).mp hy with hy | rfl
        · rw [hc.kind_old y hy] at hkind
          rw [hc.entries_old y hy] at he'
          exact hst.one_symbol x hx y hy hkind e he e' he' haddr
        · rw [hc.kind_new] at hkind
          rw [hc.entries_new, List.mem_singleton] at he'
          subst he'
          exact absurd haddr (hnone x hx hkind e he)
      · rw [hc.kind_new] at hkind
        rw [hc.entries_new, List.mem_singleton] at he
        subst he
        rcases (hc.symbols y).mp hy with hy | rfl
        · rw [hc.kind_old y hy] at hkind
          rw [hc.entries_old y hy] at he'
          exact absurd haddr.symm (hnone y hy hkind.symm e' he')
        · rfl

/-! ## One call -/

variable [DecidableEq Sym]

theorem markReadOnly_frame (hS : proxy.Laws) (data : SymbolInfo) (sym : Sym) (st : σ) :
    proxy.symbols (YagiScope.markReadOnly proxy data sym st) = proxy.symbols st ∧
      proxy.kind (YagiScope.markReadOnly proxy data sym st) = proxy.kind st ∧
      proxy.mapEntries (YagiScope.markReadOnly proxy data sym st) = proxy.mapEntries st := by
  unfold YagiScope.markReadOnly
  split
  · exact ⟨hS.symbols_attribute _ _ _, hS.kind_attribute _ _ _, hS.entries_attribute _ _ _⟩
  · exact ⟨rfl, rfl, rfl⟩

theorem creates_markReadOnly (hS : proxy.Laws) (data : SymbolInfo) (st st' : σ) (sym : Sym) (k : SymbolKind)
    (entries : List MapEntry) (hc : proxy.Creates st st' sym k entries) :
    proxy.Creates st (YagiScope.markReadOnly proxy data sym st') sym k entries := by
  obtain ⟨hsymbols, hkind, hentries⟩ := markReadOnly_frame proxy hS data sym st'
  constructor
  · exact hc.new
  · intro x
    rw [hsymbols]
    exact hc.symbols x
  · rw [hkind]
    exact hc.kind_new
  · rw [hentries]
    exact hc.entries_new
  · intro x hx
    rw [hkind]
    exact hc.kind_old x hx
  · intro x hx
    rw [hentries]
    exact hc.entries_old x hx

theorem creates_addMapPoint (hS : proxy.Laws) (st st' : σ) (sym : Sym) (k : SymbolKind) (entries : List MapEntry)
    (addr : Address) (usepoint : Option Address) (hc : proxy.Creates st st' sym k entries) :
    proxy.Creates st (proxy.addMapPoint sym addr usepoint st').2 sym k (entries ++ [⟨addr, usepoint⟩]) := by
  have hmap := hS.entries_mapPoint st' sym ((hc.symbols sym).mpr (Or.inr rfl)) addr usepoint
  constructor
  · exact hc.new
  · intro x
    rw [hS.symbols_mapPoint]
    exact hc.symbols x
  · rw [hS.kind_mapPoint]
    exact hc.kind_new
  · rw [hmap, if_pos rfl, hc.entries_new]
  · intro x hx
    rw [hS.kind_mapPoint]
    exact hc.kind_old x hx
  · intro x hx
    have hne : x ≠ sym := fun h => hc.new (h ▸ hx)
    rw [hmap, if_neg hne]
    exact hc.entries_old x hx

/-- What a name of the database becomes in `findContainer`: its kind, and its entries before the map point. -/
def containerEntries (addr : Address) (data : SymbolInfo) : SymbolKind × List MapEntry :=
  match data.getType with
  | .Function => (.function, [⟨addr, none⟩])
  | .Import => (.externalRef, [⟨addr, none⟩])
  | .Label => (.label, [⟨addr, none⟩])
  | .Other => (.data, [])

theorem addOfType_creates (hS : proxy.Laws) (addr : Address) (size : Int32) (data : SymbolInfo) (st : σ) :
    proxy.Creates st (YagiScope.addOfType proxy archi addr size data st).2
      (YagiScope.addOfType proxy archi addr size data st).1 (containerEntries addr data).1
      (containerEntries addr data).2 := by
  unfold YagiScope.addOfType containerEntries
  cases data.getType with
  | Function => exact hS.addFunction addr _ st
  | Import => exact hS.addExternalRef addr addr _ st
  | Label => exact hS.addCodeLabel addr _ st
  | Other => cases archi.build addr.offset <;> exact hS.addSymbol _ _ st

/-- The calls that add nothing twice: they find what they need, or nothing is there yet to be doubled. -/
def ScopeCall.Meets (st : σ) : ScopeCall → Prop
  | .findFunction _ => True
  | .findContainer addr size usepoint => proxy.findContainer st addr size usepoint = none →
      ∀ data ∈ YagiScope.codeSymbol archi addr, data.getType = .Other ∧ proxy.NoneAt st .data addr
  | .findExternalRef _ => True
  | .findCodeLabel _ => True
  | .resolveExternalRefFunction sym =>
      (archi.find sym.getRefAddr.offset).isSome → proxy.NoneAt st .function sym.getRefAddr

theorem findContainer_noDuplicates_iff (hS : proxy.Laws) (addr : Address) (size : Int32) (usepoint : Option Address)
    (st : σ) (hst : NoDuplicates proxy st) :
    NoDuplicates proxy (YagiScope.findContainer proxy archi addr size usepoint st).2 ↔
      ScopeCall.Meets proxy archi st (.findContainer addr size usepoint) := by
  unfold YagiScope.findContainer ScopeCall.Meets
  cases hfind : proxy.findContainer st addr size usepoint with
  | some result => simp [hst, hfind]
  | none =>
    cases hdata : YagiScope.codeSymbol archi addr with
    | none => simp [hst, hdata]
    | some data =>
      have hc := creates_addMapPoint proxy hS st _ _ _ _ addr usepoint
        (creates_markReadOnly proxy hS data st _ _ _ _ (addOfType_creates proxy archi hS addr size data st))
      simp only
      rw [creates_noDuplicates_iff proxy _ _ _ _ _ hc hst]
      unfold containerEntries
      cases htype : data.getType <;> simp [hfind, hdata, htype]

omit [DecidableEq Sym] in
theorem resolveExternalRefFunction_snd (sym : ExternRefSymbol) (st : σ) :
    (YagiScope.resolveExternalRefFunction proxy archi sym st).2 = match archi.find sym.getRefAddr.offset with
      | none => st
      | some data => (proxy.addFunction sym.getRefAddr data.getName st).2 := by
  unfold YagiScope.resolveExternalRefFunction
  cases archi.find sym.getRefAddr.offset with
  | none => rfl
  | some data =>
    simp only
    split <;> rfl

omit [DecidableEq Sym] in
theorem add_noDuplicates (st st' : σ) (sym : Sym) (k : SymbolKind) (addr : Address)
    (hc : proxy.Creates st st' sym k [⟨addr, none⟩]) (hnone : proxy.NoneAt st k addr) (hst : NoDuplicates proxy st) :
    NoDuplicates proxy st' :=
  (creates_noDuplicates_iff proxy st st' sym k _ hc hst).mpr ⟨_, rfl, hnone⟩

theorem findFunction_noDuplicates (hS : proxy.Laws) (addr : Address) (st : σ) (hst : NoDuplicates proxy st) :
    NoDuplicates proxy (YagiScope.findFunction proxy archi addr st).2 := by
  unfold YagiScope.findFunction
  split
  · exact hst
  · rename_i hfind
    split
    · exact hst
    · exact add_noDuplicates proxy _ _ _ _ _ (hS.addFunction addr _ st) ((hS.findFunction st addr).mp hfind) hst

theorem findExternalRef_noDuplicates (hS : proxy.Laws) (addr : Address) (st : σ) (hst : NoDuplicates proxy st) :
    NoDuplicates proxy (YagiScope.findExternalRef proxy archi addr st).2 := by
  unfold YagiScope.findExternalRef
  split
  · exact hst
  · rename_i hfind
    split
    · exact hst
    · split
      · exact add_noDuplicates proxy _ _ _ _ _ (hS.addExternalRef addr addr _ st)
          ((hS.findExternalRef st addr).mp hfind) hst
      · exact hst

theorem findCodeLabel_noDuplicates (hS : proxy.Laws) (addr : Address) (st : σ) (hst : NoDuplicates proxy st) :
    NoDuplicates proxy (YagiScope.findCodeLabel proxy archi addr st).2 := by
  unfold YagiScope.findCodeLabel
  split
  · exact hst
  · rename_i hfind
    split
    · exact hst
    · split
      · exact add_noDuplicates proxy _ _ _ _ _ (hS.addCodeLabel addr _ st) ((hS.findCodeLabel st addr).mp hfind) hst
      · exact hst

theorem resolveExternalRefFunction_noDuplicates_iff (hS : proxy.Laws) (sym : ExternRefSymbol) (st : σ)
    (hst : NoDuplicates proxy st) :
    NoDuplicates proxy (YagiScope.resolveExternalRefFunction proxy archi sym st).2 ↔
      ScopeCall.Meets proxy archi st (.resolveExternalRefFunction sym) := by
  show _ ↔ ((archi.find sym.getRefAddr.offset).isSome → proxy.NoneAt st .function sym.getRefAddr)
  rw [resolveExternalRefFunction_snd]
  cases archi.find sym.getRefAddr.offset with
  | none => simp [hst]
  | some data =>
    simp only
    rw [creates_noDuplicates_iff proxy _ _ _ _ _ (hS.addFunction sym.getRefAddr data.getName st) hst]
    simp

theorem step_noDuplicates_iff (hS : proxy.Laws) (st : σ) (c : ScopeCall) (hst : NoDuplicates proxy st) :
    NoDuplicates proxy (c.apply proxy archi st) ↔ c.Meets proxy archi st := by
  cases c with
  | findFunction addr => exact iff_of_true (findFunction_noDuplicates proxy archi hS addr st hst) trivial
  | findContainer addr size usepoint => exact findContainer_noDuplicates_iff proxy archi hS addr size usepoint st hst
  | findExternalRef addr => exact iff_of_true (findExternalRef_noDuplicates proxy archi hS addr st hst) trivial
  | findCodeLabel addr => exact iff_of_true (findCodeLabel_noDuplicates proxy archi hS addr st hst) trivial
  | resolveExternalRefFunction sym => exact resolveExternalRefFunction_noDuplicates_iff proxy archi hS sym st hst

/-! ## Runs -/

/-- **No duplicates.** From a cleared scope a run keeps one symbol per kind and address, and one entry per
symbol, exactly when each of its calls creates only what is not there yet. -/
theorem cache_no_duplicates_iff (hS : proxy.Laws) (st : σ) (calls : List ScopeCall) :
    Keeps (ScopeCall.apply proxy archi) (NoDuplicates proxy) (proxy.clear st) calls ↔
      AllMeet (ScopeCall.apply proxy archi) (ScopeCall.Meets proxy archi) (proxy.clear st) calls := by
  have hclear : NoDuplicates proxy (proxy.clear st) := by
    constructor <;> intro sym hsym <;> rw [hS.clear] at hsym <;> simp at hsym
  exact keeps_iff_allMeet _ _ _ _ hclear (fun st c hst => step_noDuplicates_iff proxy archi hS st c hst) calls

end Yagi
