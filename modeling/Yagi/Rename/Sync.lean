import Yagi.Frame.Proofs
import Yagi.Lib.Runs
import Yagi.Rename.Action

/-!
# The names of the frame (`ActionSyncStackVar`)

The loop finds a symbol again by its name, while it gives names to symbols. A
symbol before may have received the name that a later one still has.
-/

open Text Runs

namespace Yagi

variable {σ Sym D : Type} (S : ScopeLocal σ Sym D) (F : StackSync σ Sym)

/-- Each symbol has one entry, and a high variable is found by the name that its symbol bears. -/
structure StackSync.Laws : Prop where
  entries_mem : ∀ st, ∀ entry ∈ F.entries st, entry.symbol ∈ S.symbols st
  entries_nodup : ∀ st, ((F.entries st).map (·.symbol)).Nodup
  findHigh_bears : ∀ st n sym, F.findHigh st n = some sym → sym ∈ S.symbols st ∧ S.name st sym = n
  findHigh_names : ∀ st st', S.symbols st = S.symbols st' → S.name st = S.name st' → F.findHigh st = F.findHigh st'

namespace ActionSyncStackVar

/-- The name of the frame for the storage of an entry. -/
def frameName (entry : SymbolEntry Sym) : Option Str :=
  if entry.addr.space.name = ascii "stack" then F.findStackVar entry.addr.offset entry.addr.space.addrSize else none

/-- The symbol that the loop renames for an entry. -/
def target (entry : SymbolEntry Sym) (st : σ) : Sym :=
  (F.findHigh st (S.name st entry.symbol)).getD entry.symbol

def ownStep (st : σ) (entry : SymbolEntry Sym) : σ :=
  match frameName F entry with
  | none => st
  | some name => S.renameSymbol entry.symbol name st

/-- The loop finds the entry's own symbol, unless it bears the name already. -/
def FindsOwn (st : σ) (entry : SymbolEntry Sym) : Prop :=
  ∀ name, frameName F entry = some name → S.name st entry.symbol = name ∨ target S F entry st = entry.symbol

/-- Every symbol on the stack with a name in the frame bears that name, and every other one keeps its own. -/
structure Synced (entries : List (SymbolEntry Sym)) (st st' : σ) : Prop where
  named : ∀ entry ∈ entries, ∀ name, frameName F entry = some name → S.name st' entry.symbol = name
  kept : ∀ sym, (∀ entry ∈ entries, entry.symbol = sym → frameName F entry = none) → S.name st' sym = S.name st sym

/-! ## A step -/

theorem applyEntry_eq (entry : SymbolEntry Sym) (st : σ) :
    applyEntry S F entry st = match frameName F entry with
      | none => st
      | some name => S.renameSymbol (target S F entry st) name st := by
  unfold applyEntry frameName target
  split
  · cases F.findStackVar entry.addr.offset entry.addr.space.addrSize with
    | none => rfl
    | some name => cases F.findHigh st (S.name st entry.symbol) <;> rfl
  · rfl

variable {S F} [DecidableEq Sym]

omit [DecidableEq Sym] in
theorem target_mem (hF : F.Laws S) (entry : SymbolEntry Sym) (st : σ) (hentry : entry.symbol ∈ S.symbols st) :
    target S F entry st ∈ S.symbols st := by
  unfold target
  cases hhigh : F.findHigh st (S.name st entry.symbol) with
  | none => exact hentry
  | some sym => exact (hF.findHigh_bears st _ sym hhigh).1

omit [DecidableEq Sym] in
theorem name_target (hF : F.Laws S) (entry : SymbolEntry Sym) (st : σ) :
    S.name st (target S F entry st) = S.name st entry.symbol := by
  unfold target
  cases hhigh : F.findHigh st (S.name st entry.symbol) with
  | none => rfl
  | some sym => exact (hF.findHigh_bears st _ sym hhigh).2

theorem symbols_applyEntry (hS : S.RenameLaws) (entry : SymbolEntry Sym) (st : σ) :
    S.symbols (applyEntry S F entry st) = S.symbols st := by
  rw [applyEntry_eq]
  split
  · rfl
  · exact hS.symbols_rename _ _ _

theorem name_applyEntry (hS : S.RenameLaws) (hF : F.Laws S) (entry : SymbolEntry Sym) (st : σ) (name : Str)
    (hentry : entry.symbol ∈ S.symbols st) (hname : frameName F entry = some name) (sym : Sym) :
    S.name (applyEntry S F entry st) sym = if sym = target S F entry st then name else S.name st sym := by
  rw [applyEntry_eq, hname]
  exact hS.name_rename st _ (target_mem hF entry st hentry) name sym

theorem name_applyEntry_own (hS : S.RenameLaws) (hF : F.Laws S) (entry : SymbolEntry Sym) (st : σ) (name : Str)
    (hentry : entry.symbol ∈ S.symbols st) (hname : frameName F entry = some name) (hown : FindsOwn S F st entry)
    (sym : Sym) :
    S.name (applyEntry S F entry st) sym = if sym = entry.symbol then name else S.name st sym := by
  rw [name_applyEntry hS hF entry st name hentry hname]
  rcases hown name hname with hbears | htarget
  · -- The symbol found bears the name as well, so that nothing changes.
    have hfound := name_target hF entry st
    by_cases h : sym = target S F entry st
    · subst h
      rw [if_pos rfl, hfound, hbears, ite_self]
    · rw [if_neg h]
      split
      · rename_i hsym
        rw [hsym, hbears]
      · rfl
  · rw [htarget]

theorem name_applyEntry_wrong (hS : S.RenameLaws) (hF : F.Laws S) (entry : SymbolEntry Sym) (st : σ) (name : Str)
    (hentry : entry.symbol ∈ S.symbols st) (hname : frameName F entry = some name)
    (hwrong : target S F entry st ≠ entry.symbol) :
    S.name (applyEntry S F entry st) entry.symbol = S.name st entry.symbol := by
  rw [name_applyEntry hS hF entry st name hentry hname, if_neg (Ne.symm hwrong)]

omit [DecidableEq Sym] in
theorem applyEntry_unnamed (entry : SymbolEntry Sym) (st : σ) (hname : frameName F entry = none) :
    applyEntry S F entry st = st := by
  rw [applyEntry_eq, hname]

theorem name_findsOwn (hS : S.RenameLaws) (hF : F.Laws S) (entry : SymbolEntry Sym) (st : σ)
    (hentry : entry.symbol ∈ S.symbols st) (hown : FindsOwn S F st entry) (sym : Sym) :
    S.name (applyEntry S F entry st) sym =
      (if sym = entry.symbol then frameName F entry else none).getD (S.name st sym) := by
  cases hname : frameName F entry with
  | none => rw [applyEntry_unnamed entry st hname, ite_self, Option.getD_none]
  | some name =>
    rw [name_applyEntry_own hS hF entry st name hentry hname hown]
    split <;> rfl

/-! ## The loop -/

variable (S F) in
omit [DecidableEq Sym] in
theorem apply_eq_run (st : σ) :
    apply S F st = run (fun st entry => applyEntry S F entry st) st (F.entries st) := rfl

theorem synced_of_findsOwn (hS : S.RenameLaws) (hF : F.Laws S) (entries : List (SymbolEntry Sym)) (st : σ)
    (hmem : ∀ entry ∈ entries, entry.symbol ∈ S.symbols st) (hnodup : (entries.map (·.symbol)).Nodup)
    (hown : AllMeet (fun st entry => applyEntry S F entry st) (FindsOwn S F) st entries) :
    Synced S F entries st (run (fun st entry => applyEntry S F entry st) st entries) := by
  induction entries generalizing st with
  | nil => exact ⟨fun entry hentry => absurd hentry List.not_mem_nil, fun sym _ => rfl⟩
  | cons entry entries ih =>
    rw [allMeet_cons] at hown
    rw [List.map_cons, List.nodup_cons] at hnodup
    have hstep := name_findsOwn hS hF entry st (hmem entry List.mem_cons_self) hown.1
    have hrest := ih (applyEntry S F entry st)
      (by rw [symbols_applyEntry hS]; exact fun e he => hmem e (List.mem_cons_of_mem _ he)) hnodup.2 hown.2
    constructor
    · intro e he name hname
      rcases List.mem_cons.mp he with rfl | he
      · -- No later entry is about the same symbol.
        have hkept := hrest.kept e.symbol fun e' he' hsym =>
          absurd (List.mem_map.mpr ⟨e', he', hsym⟩) hnodup.1
        rw [hstep, if_pos rfl, hname] at hkept
        exact hkept
      · exact hrest.named e he name hname
    · intro sym hsym
      have hkept := hrest.kept sym fun e he => hsym e (List.mem_cons_of_mem _ he)
      rw [hstep] at hkept
      refine hkept.trans ?_
      split
      · rename_i heq
        rw [hsym entry List.mem_cons_self heq.symm, Option.getD_none]
      · rfl

theorem findsOwn_of_named (hS : S.RenameLaws) (hF : F.Laws S) (entries : List (SymbolEntry Sym)) (st : σ)
    (hmem : ∀ entry ∈ entries, entry.symbol ∈ S.symbols st) (hnodup : (entries.map (·.symbol)).Nodup)
    (hnamed : ∀ entry ∈ entries, ∀ name, frameName F entry = some name →
      S.name (run (fun st entry => applyEntry S F entry st) st entries) entry.symbol = name) :
    AllMeet (fun st entry => applyEntry S F entry st) (FindsOwn S F) st entries := by
  induction entries generalizing st with
  | nil => exact allMeet_nil _ _ st
  | cons entry entries ih =>
    have hentry := hmem entry List.mem_cons_self
    have hmem' : ∀ e ∈ entries, e.symbol ∈ S.symbols (applyEntry S F entry st) := by
      rw [symbols_applyEntry hS]
      exact fun e he => hmem e (List.mem_cons_of_mem _ he)
    rw [List.map_cons, List.nodup_cons] at hnodup
    have hrest := ih (applyEntry S F entry st) hmem' hnodup.2 fun e he => hnamed e (List.mem_cons_of_mem _ he)
    rw [allMeet_cons]
    refine ⟨fun name hname => or_iff_not_imp_right.mpr fun hwrong => ?_, hrest⟩
    -- The later steps leave the symbol of this one alone.
    have hkept := (synced_of_findsOwn hS hF entries _ hmem' hnodup.2 hrest).kept entry.symbol fun e he hsym =>
      absurd (List.mem_map.mpr ⟨e, he, hsym⟩) hnodup.1
    rw [name_applyEntry_wrong hS hF entry st name hentry hname hwrong] at hkept
    exact hkept.symm.trans (hnamed entry List.mem_cons_self name hname)

omit [DecidableEq Sym] in
theorem findsOwn_congr (hF : F.Laws S) (st st' : σ) (entry : SymbolEntry Sym)
    (hsymbols : S.symbols st = S.symbols st') (hnames : S.name st = S.name st') :
    FindsOwn S F st entry ↔ FindsOwn S F st' entry := by
  unfold FindsOwn target
  rw [hF.findHigh_names st st' hsymbols hnames, hnames]

theorem name_ownStep (hS : S.RenameLaws) (entry : SymbolEntry Sym) (st : σ)
    (hentry : entry.symbol ∈ S.symbols st) (sym : Sym) :
    S.name (ownStep S F st entry) sym =
      (if sym = entry.symbol then frameName F entry else none).getD (S.name st sym) := by
  unfold ownStep
  cases frameName F entry with
  | none => rw [ite_self, Option.getD_none]
  | some name =>
    simp only [hS.name_rename st _ hentry]
    split <;> rfl

theorem symbols_ownStep (hS : S.RenameLaws) (entry : SymbolEntry Sym) (st : σ) :
    S.symbols (ownStep S F st entry) = S.symbols st := by
  unfold ownStep
  split
  · rfl
  · exact hS.symbols_rename _ _ _

variable (S F)

/-- **Names of the frame.** Every symbol ends with its own name exactly when each symbol that has to change its
name is found by it, or no symbol is, after the symbols before it have received their names. -/
theorem sync_own_names_iff (hS : S.RenameLaws) (hF : F.Laws S) (st : σ) :
    Synced S F (F.entries st) st (apply S F st) ↔ AllMeet (ownStep S F) (FindsOwn S F) st (F.entries st) := by
  have hmem := hF.entries_mem st
  have hnodup := hF.entries_nodup st
  -- As long as own symbols are found, the loop gives the names that `ownStep` gives.
  have hmatched : AllMeet (fun st entry => applyEntry S F entry st) (FindsOwn S F) st (F.entries st) ↔
      AllMeet (ownStep S F) (FindsOwn S F) st (F.entries st) := by
    refine allMeet_matched
      (fun st₁ st₂ => S.symbols st₁ = S.symbols st ∧ S.symbols st₂ = S.symbols st ∧ S.name st₁ = S.name st₂)
      _ _ _ _ _ st st ⟨rfl, rfl, rfl⟩ ?_ ?_
    · rintro st₁ st₂ entry - ⟨hsymbols₁, hsymbols₂, hnames⟩
      exact findsOwn_congr hF st₁ st₂ entry (hsymbols₁.trans hsymbols₂.symm) hnames
    · rintro st₁ st₂ entry hentry ⟨hsymbols₁, hsymbols₂, hnames⟩ hown
      refine ⟨(symbols_applyEntry hS entry st₁).trans hsymbols₁,
        (symbols_ownStep hS entry st₂).trans hsymbols₂, ?_⟩
      funext sym
      rw [name_findsOwn hS hF entry st₁ (by rw [hsymbols₁]; exact hmem entry hentry) hown,
        name_ownStep hS entry st₂ (by rw [hsymbols₂]; exact hmem entry hentry), hnames]
  rw [← hmatched, apply_eq_run]
  constructor
  · intro h
    exact findsOwn_of_named hS hF _ st hmem hnodup h.named
  · exact synced_of_findsOwn hS hF _ st hmem hnodup

/-! ## A scope that is searched in the order of its symbols -/

/-- A name belongs to the first symbol that bears it. Symbols that are not linked have no high variable. -/
def scopeSync (findStackVar : UInt64 → UInt32 → Option Str) (linked : Sym → Bool) : StackSync σ Sym where
  entries st := (S.symbols st).map fun sym => ⟨S.storage st sym, sym⟩
  findStackVar := findStackVar
  findHigh st n := ((S.symbols st).find? fun sym => S.name st sym = n).filter linked

omit [DecidableEq Sym] in
theorem scopeSync_laws (findStackVar : UInt64 → UInt32 → Option Str) (linked : Sym → Bool)
    (hnodup : ∀ st, (S.symbols st).Nodup) : (scopeSync S findStackVar linked).Laws S where
  entries_mem st entry hentry := by
    obtain ⟨sym, hsym, rfl⟩ := List.mem_map.mp hentry
    exact hsym
  entries_nodup st := by
    show (((S.symbols st).map _).map _).Nodup
    rw [List.map_map]
    exact (List.map_id (S.symbols st)).symm ▸ hnodup st
  findHigh_bears st n sym h := by
    obtain ⟨hfind, -⟩ := Option.filter_eq_some_iff.mp h
    have hbears := List.find?_some hfind
    exact ⟨List.mem_of_find?_eq_some hfind, by simpa using hbears⟩
  findHigh_names st st' hsymbols hnames := by
    funext n
    show Option.filter linked _ = Option.filter linked _
    rw [hsymbols, hnames]

/-- The names of `smallFrame` for a scope in which every symbol has a high variable. -/
def smallSync : StackSync (SymbolTable Unit) Nat :=
  scopeSync (SymbolTable.scope ()) (IdaFunctionSymbolInfo.findStackVar (some smallFrame)) fun _ => true

theorem smallSync_laws : smallSync.Laws (SymbolTable.scope ()) :=
  scopeSync_laws (SymbolTable.scope ()) _ _ fun _ => List.nodup_range

def stackSymbol (n : Str) (offset : UInt64) : TableSymbol Unit :=
  ⟨n, ⟨⟨ascii "stack", 4, stack_noNul⟩, offset⟩, none, (), []⟩

theorem sync_own_names_iff_two_locals :
    let table : SymbolTable Unit := [stackSymbol (ascii "x") 0xfffffffa, stackSymbol (ascii "y") 0xfffffffc]
    Synced (SymbolTable.scope ()) smallSync (smallSync.entries table) table (apply (SymbolTable.scope ()) smallSync table) ↔
      AllMeet (ownStep (SymbolTable.scope ()) smallSync) (FindsOwn (SymbolTable.scope ()) smallSync) table
        (smallSync.entries table) :=
  sync_own_names_iff (SymbolTable.scope ()) smallSync (SymbolTable.scope_renameLaws ()) smallSync_laws _

/-- The second local bears the name that the frame has for the first, so that the first gets both names. -/
theorem sync_collision :
    let table : SymbolTable Unit := [stackSymbol (ascii "x") 0xfffffffa, stackSymbol (ascii "var_6") 0xfffffffc]
    smallSync.Laws (SymbolTable.scope ()) ∧
      (smallSync.entries table).map (frameName smallSync) = [some (ascii "var_6"), some (ascii "var_4")] ∧
      (apply (SymbolTable.scope ()) smallSync table).map (·.name) = [ascii "var_4", ascii "var_6"] ∧
      ¬ Synced (SymbolTable.scope ()) smallSync (smallSync.entries table) table
        (apply (SymbolTable.scope ()) smallSync table) := by
  refine ⟨smallSync_laws, by decide, by decide, fun h => ?_⟩
  have hfirst := h.named _ (List.mem_map.mpr ⟨0, by decide, rfl⟩) (ascii "var_6") (by decide)
  exact absurd hfirst (by decide)

end ActionSyncStackVar

end Yagi
