import Yagi.LocalTypes.Once
import Yagi.Rename.Sync

/-!
# Which name is last

The passes come after the names of the frame, and each record that resolves gives
its name to the symbol. A symbol ends with the last name that it is given.
-/

open Text Hex Loop Store Runs

namespace Yagi

open IdaFunctionSymbolInfo

variable {σ Sym D : Type} [DecidableEq Sym] (S : ScopeLocal σ Sym D) (arch : Architecture) (func : UInt64)
  (nodes : NetNodes)

/-! ## Renames -/

/-- A name changes nothing but itself, and a flag nothing but itself. -/
structure ScopeLocal.NameLaws (hasAttribute : σ → Sym → Attribute → Prop) : Prop extends S.RenameLaws where
  storage_rename : ∀ sym n st, S.storage (S.renameSymbol sym n st) = S.storage st
  datatype_rename : ∀ sym n st, S.datatype (S.renameSymbol sym n st) = S.datatype st
  hasAttribute_rename : ∀ sym n st, hasAttribute (S.renameSymbol sym n st) = hasAttribute st
  storage_attribute : ∀ sym a st, S.storage (S.setAttribute sym a st) = S.storage st
  datatype_attribute : ∀ sym a st, S.datatype (S.setAttribute sym a st) = S.datatype st
  hasAttribute_set : ∀ st, ∀ sym ∈ S.symbols st, ∀ a sym' b,
    hasAttribute (S.setAttribute sym a st) sym' b ↔ (sym' = sym ∧ b = a) ∨ hasAttribute st sym' b

/-- The symbol that a pcode names, with the name. -/
def savedName (st : σ) (m_space : Str) (op : PcodeOp) : Option (Sym × Str) :=
  match findName func nodes op.pc m_space with
  | .ok (some (newName, offset)) =>
    (ActionRenameVar.lookup S arch m_space st op offset).map fun sym => (sym, newName)
  | _ => none

def savedNames (st : σ) (ops : List PcodeOp) : List (Sym × Str) :=
  renameSpaces.flatMap fun m_space => ops.flatMap fun op => (savedName S arch func nodes st m_space op).toList

/-- The last name that a symbol is given. -/
def lastName (named : List (Sym × Str)) (sym : Sym) : Option Str :=
  lastSome (fun entry => if entry.1 = sym then some entry.2 else none) named

/-- Each symbol has its last name and is locked if it has one, and nothing else changes. -/
structure Renames (hasAttribute : σ → Sym → Attribute → Prop) (named : List (Sym × Str)) (st st' : σ) : Prop where
  names : ∀ sym, S.name st' sym = (lastName named sym).getD (S.name st sym)
  locked : ∀ sym a, hasAttribute st' sym a ↔ (a = .namelock ∧ lastName named sym ≠ none) ∨ hasAttribute st sym a
  symbols : S.symbols st' = S.symbols st
  storage : S.storage st' = S.storage st
  datatype : S.datatype st' = S.datatype st
  findAddr : S.findAddr st' = S.findAddr st

theorem lastName_append (xs ys : List (Sym × Str)) (sym : Sym) :
    lastName (xs ++ ys) sym = (lastName ys sym).or (lastName xs sym) := lastSome_append _ xs ys

theorem lastName_singleton (entry : Sym × Str) (sym : Sym) :
    lastName [entry] sym = if entry.1 = sym then some entry.2 else none := lastSome_singleton _ entry

section

variable {S} {hasAttribute : σ → Sym → Attribute → Prop}

theorem Renames.nil (st : σ) : Renames S hasAttribute [] st st where
  names _ := rfl
  locked sym a := by simp [lastName]
  symbols := rfl
  storage := rfl
  datatype := rfl
  findAddr := rfl

theorem Renames.append (xs ys : List (Sym × Str)) (st st₁ st' : σ) (hxs : Renames S hasAttribute xs st st₁)
    (hys : Renames S hasAttribute ys st₁ st') : Renames S hasAttribute (xs ++ ys) st st' where
  names sym := by
    rw [hys.names, hxs.names, lastName_append]
    cases lastName ys sym <;> rfl
  locked sym a := by
    rw [hys.locked, hxs.locked, lastName_append, ← or_assoc, ← and_or_left]
    refine or_congr_left (and_congr_right fun _ => ?_)
    cases lastName ys sym <;> simp
  symbols := hys.symbols.trans hxs.symbols
  storage := hys.storage.trans hxs.storage
  datatype := hys.datatype.trans hxs.datatype
  findAddr := hys.findAddr.trans hxs.findAddr

theorem renames_one (hS : S.NameLaws hasAttribute) (sym : Sym) (newName : Str) (st : σ) (hsym : sym ∈ S.symbols st) :
    Renames S hasAttribute [(sym, newName)] st (S.setAttribute sym .namelock (S.renameSymbol sym newName st)) where
  names t := by
    rw [hS.name_attribute, hS.name_rename st sym hsym, lastName_singleton]
    by_cases h : t = sym
    · subst h
      simp
    · simp [h, Ne.symm h]
  locked t a := by
    rw [hS.hasAttribute_set _ sym (by rw [hS.symbols_rename]; exact hsym), hS.hasAttribute_rename, lastName_singleton]
    refine or_congr_left ?_
    by_cases h : t = sym
    · subst h
      simp
    · simp [h, Ne.symm h]
  symbols := by rw [hS.symbols_attribute, hS.symbols_rename]
  storage := by rw [hS.storage_attribute, hS.storage_rename]
  datatype := by rw [hS.datatype_attribute, hS.datatype_rename]
  findAddr := by rw [hS.findAddr_attribute, hS.findAddr_rename]

/-! ## The passes -/

theorem applyOp_renames (hS : S.NameLaws hasAttribute) (st₀ : σ) (m_space : Str) (op : PcodeOp)
    (hread : ∀ e, findName func nodes op.pc m_space ≠ .error e) (st : σ) :
    ∃ st', ActionRenameVar.applyOp S arch func nodes m_space op st = (.ok (), st') ∧
      (S.findAddr st = S.findAddr st₀ →
        Renames S hasAttribute (savedName S arch func nodes st₀ m_space op).toList st st') := by
  unfold ActionRenameVar.applyOp savedName ActionRenameVar.lookup
  cases hfind : findName func nodes op.pc m_space with
  | error e => exact absurd hfind (hread e)
  | ok found =>
    match found with
    | none => exact ⟨st, rfl, fun _ => .nil st⟩
    | some (newName, offset) =>
      simp only
      cases hlookup : S.findAddr st ⟨arch.getSpaceByName (replaySpace m_space), offset⟩ (some op.pc) with
      | none =>
        refine ⟨st, rfl, fun hsame => ?_⟩
        rw [← hsame, hlookup]
        exact .nil st
      | some sym =>
        refine ⟨_, rfl, fun hsame => ?_⟩
        rw [← hsame, hlookup]
        exact renames_one hS sym newName st (hS.findAddr_mem _ _ _ _ hlookup)

theorem renamePasses_renames (hS : S.NameLaws hasAttribute) (ops : List PcodeOp)
    (hread : ∀ m_space ∈ renameSpaces, ∀ op ∈ ops, ∀ e, findName func nodes op.pc m_space ≠ .error e) (st : σ) :
    ∃ st', renamePasses S arch func nodes ops st = (.ok (), st') ∧
      Renames S hasAttribute (savedNames S arch func nodes st ops) st st' := by
  have hnil : ∀ t, S.findAddr t = S.findAddr st → Renames S hasAttribute [] t t := fun t _ => .nil t
  have happend : ∀ xs ys s t u, (S.findAddr s = S.findAddr st → Renames S hasAttribute xs s t) →
      (S.findAddr t = S.findAddr st → Renames S hasAttribute ys t u) →
      S.findAddr s = S.findAddr st → Renames S hasAttribute (xs ++ ys) s u := by
    intro xs ys s t u hxs hys hs
    exact .append xs ys s t u (hxs hs) (hys ((hxs hs).findAddr.trans hs))
  obtain ⟨st', hpasses, hrenames⟩ := forEach_collects _ _
    (fun named s t => S.findAddr s = S.findAddr st → Renames S hasAttribute named s t) hnil happend renameSpaces
    (fun m_space hspace => forEach_collects _ _ _ hnil happend ops fun op hop =>
      applyOp_renames arch func nodes hS st m_space op (hread m_space hspace op hop)) st
  exact ⟨st', hpasses, hrenames rfl⟩

/-! ## The action -/

/-- The names of the frame come and go without a flag. -/
structure SameButNames (S : ScopeLocal σ Sym D) (hasAttribute : σ → Sym → Attribute → Prop) (st st' : σ) : Prop where
  symbols : S.symbols st' = S.symbols st
  storage : S.storage st' = S.storage st
  datatype : S.datatype st' = S.datatype st
  findAddr : S.findAddr st' = S.findAddr st
  attributes : hasAttribute st' = hasAttribute st

omit [DecidableEq Sym] in
theorem SameButNames.refl (st : σ) : SameButNames S hasAttribute st st := ⟨rfl, rfl, rfl, rfl, rfl⟩

omit [DecidableEq Sym] in
theorem SameButNames.trans (st st₁ st' : σ) (h : SameButNames S hasAttribute st st₁)
    (h' : SameButNames S hasAttribute st₁ st') : SameButNames S hasAttribute st st' :=
  ⟨h'.symbols.trans h.symbols, h'.storage.trans h.storage, h'.datatype.trans h.datatype, h'.findAddr.trans h.findAddr,
    h'.attributes.trans h.attributes⟩

theorem applyEntry_sameButNames (hS : S.NameLaws hasAttribute) (F : StackSync σ Sym) (entry : SymbolEntry Sym) (st : σ) :
    SameButNames S hasAttribute st (ActionSyncStackVar.applyEntry S F entry st) := by
  rw [ActionSyncStackVar.applyEntry_eq]
  split
  · exact .refl st
  · exact ⟨hS.symbols_rename _ _ _, hS.storage_rename _ _ _, hS.datatype_rename _ _ _, hS.findAddr_rename _ _ _,
      hS.hasAttribute_rename _ _ _⟩

theorem sync_sameButNames (hS : S.NameLaws hasAttribute) (F : StackSync σ Sym) (st : σ) :
    SameButNames S hasAttribute st (ActionSyncStackVar.apply S F st) := by
  unfold ActionSyncStackVar.apply
  generalize F.entries st = entries
  induction entries generalizing st with
  | nil => exact .refl st
  | cons entry entries ih => exact .trans st _ _ (applyEntry_sameButNames hS F entry st) (ih _)

omit [DecidableEq Sym] in
theorem savedNames_congr (st st' : σ) (h : S.findAddr st' = S.findAddr st) (ops : List PcodeOp) :
    savedNames S arch func nodes st' ops = savedNames S arch func nodes st ops := by
  unfold savedNames savedName ActionRenameVar.lookup
  rw [h]

variable (S) in
/-- A saved name comes before a name of the frame, and that before the symbol's own. -/
structure Prioritised (F : StackSync σ Sym) (named : List (Sym × Str)) (st st' : σ) : Prop where
  saved : ∀ sym n, lastName named sym = some n → S.name st' sym = n
  frame : AllMeet (fun st entry => ActionSyncStackVar.applyEntry S F entry st) (ActionSyncStackVar.FindsOwn S F) st
      (F.entries st) →
    ∀ entry ∈ F.entries st, ∀ n, ActionSyncStackVar.frameName F entry = some n → lastName named entry.symbol = none →
      S.name st' entry.symbol = n
  kept : AllMeet (fun st entry => ActionSyncStackVar.applyEntry S F entry st) (ActionSyncStackVar.FindsOwn S F) st
      (F.entries st) →
    ∀ sym, lastName named sym = none →
      (∀ entry ∈ F.entries st, entry.symbol = sym → ActionSyncStackVar.frameName F entry = none) →
      S.name st' sym = S.name st sym

theorem renameAction_renames (hS : S.NameLaws hasAttribute) (F : StackSync σ Sym) (ops : List PcodeOp)
    (hread : ∀ m_space ∈ renameSpaces, ∀ op ∈ ops, ∀ e, findName func nodes op.pc m_space ≠ .error e) (st : σ) :
    ∃ st', renameAction S F arch func nodes ops st = (.ok (), st') ∧
      Renames S hasAttribute (savedNames S arch func nodes st ops) (ActionSyncStackVar.apply S F st) st' := by
  obtain ⟨st', hpasses, hrenames⟩ := renamePasses_renames arch func nodes hS ops hread (ActionSyncStackVar.apply S F st)
  rw [savedNames_congr arch func nodes st _ (sync_sameButNames hS F st).findAddr ops] at hrenames
  exact ⟨st', hpasses, hrenames⟩

/-- **The rename action.** Each symbol ends with the last name saved for it, else with the name of the frame where
the frame finds its own symbols, else with its own. Nothing but names and their locks changes. -/
theorem renameAction_prioritised (hS : S.NameLaws hasAttribute) (F : StackSync σ Sym) (hF : F.Laws S)
    (ops : List PcodeOp)
    (hread : ∀ m_space ∈ renameSpaces, ∀ op ∈ ops, ∀ e, findName func nodes op.pc m_space ≠ .error e) (st : σ) :
    ∃ st', renameAction S F arch func nodes ops st = (.ok (), st') ∧
      Prioritised S F (savedNames S arch func nodes st ops) st st' ∧
      S.symbols st' = S.symbols st ∧ S.storage st' = S.storage st ∧ S.datatype st' = S.datatype st ∧
      ∀ sym a, hasAttribute st' sym a ↔
        (a = .namelock ∧ lastName (savedNames S arch func nodes st ops) sym ≠ none) ∨ hasAttribute st sym a := by
  have hsync := sync_sameButNames hS F st
  obtain ⟨st', happly, hrenames⟩ := renameAction_renames arch func nodes hS F ops hread st
  have hsynced := fun hown => ActionSyncStackVar.synced_of_findsOwn hS.toRenameLaws hF (F.entries st) st
    (hF.entries_mem st) (hF.entries_nodup st) hown
  refine ⟨st', happly, ⟨?_, ?_, ?_⟩, hrenames.symbols.trans hsync.symbols, hrenames.storage.trans hsync.storage,
    hrenames.datatype.trans hsync.datatype, ?_⟩
  · intro sym n hn
    rw [hrenames.names, hn, Option.getD_some]
  · intro hown entry hentry n hframe hnone
    rw [hrenames.names, hnone, Option.getD_none, ActionSyncStackVar.apply_eq_run]
    exact (hsynced hown).named entry hentry n hframe
  · intro hown sym hnone hframe
    rw [hrenames.names, hnone, Option.getD_none, ActionSyncStackVar.apply_eq_run]
    exact (hsynced hown).kept sym hframe
  · intro sym a
    rw [hrenames.locked, hsync.attributes]

end

/-! ## A table -/

theorem SymbolTable.scope_nameLaws (d : D) : (SymbolTable.scope d).NameLaws SymbolTable.hasAttribute where
  toRenameLaws := scope_renameLaws d
  storage_rename i n table := by
    funext j
    exact congrArg (Option.getD · _) (Table.map_getElem?_modify _ i j _ table fun _ => rfl)
  datatype_rename i n table := by
    funext j
    exact congrArg (Option.getD · _) (Table.map_getElem?_modify _ i j _ table fun _ => rfl)
  hasAttribute_rename i n table := by
    funext j a
    show (∃ row, (table.modify i _)[j]? = some row ∧ _) = _
    unfold hasAttribute
    rw [Table.getElem?_modify]
    split <;> simp
  storage_attribute := (scope_addLaws d).storage_attribute
  datatype_attribute := (scope_addLaws d).datatype_attribute
  hasAttribute_set := (scope_onceLaws d).hasAttribute_set

/-- The frame has names for both locals, and the user one for the second. -/
def twoLocals : SymbolTable Unit :=
  [ActionSyncStackVar.stackSymbol (ascii "x") 0xfffffffa, ActionSyncStackVar.stackSymbol (ascii "y") 0xfffffffc]

def secondSaved : NetNodes := savedOnce 0x401fa0 ⟨ascii "stack", 0xfffffffc, 4, [0x10]⟩ (ascii "n")

theorem renameAction_prioritised_two_locals :
    let S := SymbolTable.scope ()
    let saved := savedNames S (onlySpace stackSpace) 0x401fa0 secondSaved twoLocals [⟨0x10, []⟩]
    ∃ table, renameAction S ActionSyncStackVar.smallSync (onlySpace stackSpace) 0x401fa0 secondSaved [⟨0x10, []⟩]
        twoLocals = (.ok (), table) ∧
      Prioritised S ActionSyncStackVar.smallSync saved twoLocals table ∧ S.symbols table = S.symbols twoLocals ∧
      S.storage table = S.storage twoLocals ∧ S.datatype table = S.datatype twoLocals ∧
      ∀ i a, SymbolTable.hasAttribute table i a ↔
        (a = .namelock ∧ lastName saved i ≠ none) ∨ SymbolTable.hasAttribute twoLocals i a := by
  refine renameAction_prioritised _ 0x401fa0 _ (SymbolTable.scope_nameLaws ()) ActionSyncStackVar.smallSync
    ActionSyncStackVar.smallSync_laws [⟨0x10, []⟩] ?_ _
  intro m_space hspace op hop e
  revert m_space op
  cases e <;> decide

example : (renameAction (SymbolTable.scope ()) ActionSyncStackVar.smallSync (onlySpace stackSpace) 0x401fa0 secondSaved
    [⟨0x10, []⟩] twoLocals).2.map (·.name) = [ascii "var_6", ascii "n"] := by decide

end Yagi
