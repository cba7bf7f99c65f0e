import Yagi.Lib.FirstWins
import Yagi.LocalTypes.Once

/-!
# The type action (`buildAction`)

Four passes load the saved types, space by space. Constants are kept on the stack,
so that two passes share its storages.
-/

open Text Hex Loop FirstWins

namespace Yagi

open IdaFunctionSymbolInfo ActionLoadLocalScope

/-- The spaces of the type passes that `buildAction` installs, in their order. -/
def retypeSpaces : List Str := [ascii "register", ascii "stack", ascii "unique", ascii "const"]

variable {σ Sym D Ty : Type} (S : ScopeLocal σ Sym D) (arch : Architecture) (db : TypeDatabase Ty)
  (findByTypeInfo : Ty → D) (func : UInt64) (nodes : NetNodes)

def retypeAction (ops : List PcodeOp) : Body StdError σ :=
  forEach (fun m_space => ActionLoadLocalScope.apply S arch db findByTypeInfo func nodes m_space ops) retypeSpaces

/-! ## Storages -/

/-- The spaces that the passes ask for are there, under their names. -/
structure Architecture.NamesSpaces : Prop where
  name : ∀ n ∈ [ascii "register", ascii "stack", ascii "unique"], (arch.getSpaceByName n).name = n

/-- A storage, with the pcode where it is looked up. On the stack there is none. -/
@[ext] structure ScopeKey where
  addr : Address
  usepoint : Option UInt64
  usepoint_none : usepoint = none ↔ addr.space = arch.getSpaceByName (ascii "stack")
deriving DecidableEq

def ScopeKey.at (addr : Address) (pc : UInt64) : ScopeKey arch where
  addr := addr
  usepoint := if addr.space = arch.getSpaceByName (ascii "stack") then none else some pc
  usepoint_none := by split <;> simp_all

/-- What is asked for at a pcode with a record: the key, and the type that the record holds. -/
def savedRecord (m_space : Str) (op : PcodeOp) : Option (ScopeKey arch × Ty) :=
  match findType db func nodes op.pc m_space with
  | .ok (some (some newType, offset)) => some (.at arch (storage arch m_space offset) op.pc, newType)
  | _ => none

def savedRecords (ops : List PcodeOp) : List (ScopeKey arch × Ty) :=
  retypeSpaces.flatMap fun m_space => ops.flatMap fun op => (savedRecord arch db func nodes m_space op).toList

theorem unique_noNul : NoNul (ascii "unique") := by decide

theorem replaySpace_mem (m_space : Str) (hspace : m_space ∈ retypeSpaces) :
    replaySpace m_space ∈ [ascii "register", ascii "stack", ascii "unique"] := by
  revert m_space
  decide

variable {arch} in
theorem ScopeKey.at_usepoint (harch : arch.NamesSpaces) (m_space : Str) (hspace : m_space ∈ retypeSpaces)
    (op : PcodeOp) (offset : UInt64) :
    (ScopeKey.at arch (storage arch m_space offset) op.pc).usepoint = opAddr m_space op := by
  show (if arch.getSpaceByName (replaySpace m_space) = arch.getSpaceByName (ascii "stack") then none else some op.pc) =
    if replaySpace m_space = ascii "stack" then none else some op.pc
  refine if_congr ⟨fun h => ?_, fun h => by rw [h]⟩ rfl rfl
  rw [← harch.name _ (replaySpace_mem m_space hspace), h]
  exact harch.name _ (by decide)

/-! ## What is found -/

variable {arch}

def findScope (st : σ) (k : ScopeKey arch) : Option Sym := S.findAddr st k.addr k.usepoint

def typeAt (st : σ) (k : ScopeKey arch) : Option D := (findScope S st k).map (S.datatype st)

/-- A key that has a symbol keeps it, and one that has none gets a locked symbol with its first type. -/
structure Retypes (hasAttribute : σ → Sym → Attribute → Prop) (saved : List (ScopeKey arch × Ty)) (st st' : σ) :
    Prop where
  types : ∀ k, typeAt S st' k = (typeAt S st k).or ((first saved k).map findByTypeInfo)
  found : ∀ (k : ScopeKey arch) sym, findScope S st k = some sym → findScope S st' k = some sym
  new : ∀ (k : ScopeKey arch) sym, findScope S st k = none → findScope S st' k = some sym → New S st st' sym
  kept : ∀ sym ∈ S.symbols st, sym ∈ S.symbols st' ∧ S.storage st' sym = S.storage st sym ∧
    S.datatype st' sym = S.datatype st sym ∧ ∀ a, hasAttribute st' sym a ↔ hasAttribute st sym a
  locked : ∀ sym, New S st st' sym → hasAttribute st' sym .typelock
  added : ∀ sym, New S st st' sym → ∃ entry ∈ saved, findScope S st entry.1 = none ∧
    findScope S st' entry.1 = some sym ∧ S.storage st' sym = entry.1.addr

section

variable {S findByTypeInfo} {hasAttribute : σ → Sym → Attribute → Prop}

theorem typeAt_none (st : σ) (k : ScopeKey arch) : typeAt S st k = none ↔ findScope S st k = none :=
  Option.map_eq_none_iff

theorem Retypes.nil (st : σ) :
    Retypes S findByTypeInfo hasAttribute ([] : List (ScopeKey arch × Ty)) st st where
  types _ := Option.or_none.symm
  found _ _ h := h
  new _ _ hfree hfound := by
    rw [hfree] at hfound
    simp at hfound
  kept _ hsym := ⟨hsym, rfl, rfl, fun _ => Iff.rfl⟩
  locked _ hnew := absurd hnew.1 hnew.2
  added _ hnew := absurd hnew.1 hnew.2

theorem Retypes.append (xs ys : List (ScopeKey arch × Ty)) (st st₁ st' : σ)
    (hxs : Retypes S findByTypeInfo hasAttribute xs st st₁) (hys : Retypes S findByTypeInfo hasAttribute ys st₁ st') :
    Retypes S findByTypeInfo hasAttribute (xs ++ ys) st st' where
  types k := by
    rw [hys.types, hxs.types, first_append, Option.map_or, Option.or_assoc]
  found k sym h := hys.found k sym (hxs.found k sym h)
  new k sym hfree hfound := by
    cases hmid : findScope S st₁ k with
    | none =>
      obtain ⟨hmem, hnot⟩ := hys.new k sym hmid hfound
      exact ⟨hmem, fun hold => hnot (hxs.kept sym hold).1⟩
    | some other =>
      obtain ⟨hmem, hnot⟩ := hxs.new k other hfree hmid
      obtain rfl : other = sym := Option.some.inj ((hys.found k other hmid).symm.trans hfound)
      exact ⟨(hys.kept other hmem).1, hnot⟩
  kept sym hsym := by
    obtain ⟨hmem, hstorage, hdatatype, hattribute⟩ := hxs.kept sym hsym
    obtain ⟨hmem', hstorage', hdatatype', hattribute'⟩ := hys.kept sym hmem
    exact ⟨hmem', hstorage'.trans hstorage, hdatatype'.trans hdatatype, fun a => (hattribute' a).trans (hattribute a)⟩
  locked sym hnew := by
    by_cases hmem : sym ∈ S.symbols st₁
    · rw [(hys.kept sym hmem).2.2.2]
      exact hxs.locked sym ⟨hmem, hnew.2⟩
    · exact hys.locked sym ⟨hnew.1, hmem⟩
  added sym hnew := by
    by_cases hmem : sym ∈ S.symbols st₁
    · obtain ⟨entry, hentry, hfree, hfind, hstorage⟩ := hxs.added sym ⟨hmem, hnew.2⟩
      refine ⟨entry, List.mem_append_left _ hentry, hfree, hys.found _ _ hfind, ?_⟩
      rw [(hys.kept sym hmem).2.1, hstorage]
    · obtain ⟨entry, hentry, hfree, hfind, hstorage⟩ := hys.added sym ⟨hnew.1, hmem⟩
      refine ⟨entry, List.mem_append_right _ hentry, ?_, hfind, hstorage⟩
      -- What is free later was free before.
      by_contra hfound
      obtain ⟨other, hother⟩ := Option.ne_none_iff_exists'.mp hfound
      rw [hxs.found _ _ hother] at hfree
      simp at hfree

/-! ## One record -/

theorem retypes_taken (k : ScopeKey arch) (newType : Ty) (st : σ) (htaken : findScope S st k ≠ none) :
    Retypes S findByTypeInfo hasAttribute [(k, newType)] st st where
  types k' := by
    rw [first_cons]
    split
    · rename_i hkey
      obtain rfl : k = k' := hkey
      obtain ⟨d, hd⟩ := Option.ne_none_iff_exists'.mp (mt (typeAt_none st k).mp htaken)
      rw [hd]
      rfl
    · exact Option.or_none.symm
  found _ _ h := h
  new _ _ hfree hfound := by
    rw [hfree] at hfound
    simp at hfound
  kept _ hsym := ⟨hsym, rfl, rfl, fun _ => Iff.rfl⟩
  locked _ hnew := absurd hnew.1 hnew.2
  added _ hnew := absurd hnew.1 hnew.2

theorem ScopeKey.apart (k k' : ScopeKey arch) (hne : k' ≠ k) :
    k'.addr ≠ k.addr ∨ ∃ pc pc', k.usepoint = some pc ∧ k'.usepoint = some pc' ∧ pc' ≠ pc := by
  by_cases haddr : k'.addr = k.addr
  · have hpoint : k'.usepoint ≠ k.usepoint := fun heq => hne (ScopeKey.ext haddr heq)
    have hboth : k.usepoint = none ↔ k'.usepoint = none := by
      rw [k.usepoint_none, k'.usepoint_none, haddr]
    cases hk : k.usepoint with
    | none => exact absurd ((hboth.mp hk).trans hk.symm) hpoint
    | some pc =>
      cases hk' : k'.usepoint with
      | none => exact absurd (hk'.trans (hboth.mpr hk').symm) hpoint
      | some pc' =>
        refine Or.inr ⟨pc, pc', rfl, rfl, ?_⟩
        rintro rfl
        exact hpoint (hk'.trans hk.symm)
  · exact Or.inl haddr

/-- Lookups give symbols of the scope. -/
def ScopeLocal.FindsSymbols (S : ScopeLocal σ Sym D) : Prop :=
  ∀ st addr u sym, S.findAddr st addr u = some sym → sym ∈ S.symbols st

variable (S) in
/-- A symbol of type `d` is added for `k`, and locked. -/
structure AddsAt (hasAttribute : σ → Sym → Attribute → Prop) (k : ScopeKey arch) (d : D) (st : σ) (sym : Sym)
    (st' : σ) : Prop where
  new : sym ∉ S.symbols st
  symbols : ∀ x, x ∈ S.symbols st' ↔ x ∈ S.symbols st ∨ x = sym
  found : findScope S st' k = some sym
  found_other : ∀ k', k' ≠ k → findScope S st' k' = findScope S st k'
  storage : S.storage st' sym = k.addr
  datatype : S.datatype st' sym = d
  locked : hasAttribute st' sym .typelock
  kept : ∀ x ∈ S.symbols st, S.storage st' x = S.storage st x ∧ S.datatype st' x = S.datatype st x ∧
    ∀ a, hasAttribute st' x a ↔ hasAttribute st x a

theorem addSymbol_addsAt (hS : S.OnceLaws hasAttribute) (k : ScopeKey arch) (d : D) (st : σ)
    (hfree : findScope S st k = none) (sym : Sym) (st₁ : σ)
    (hadd : S.addSymbol [] d k.addr k.usepoint st = (sym, st₁)) :
    AddsAt S hasAttribute k d st sym (S.setAttribute sym .typelock st₁) := by
  have hsym : sym = (S.addSymbol [] d k.addr k.usepoint st).1 := by rw [hadd]
  have hst : st₁ = (S.addSymbol [] d k.addr k.usepoint st).2 := by rw [hadd]
  have hnew : sym ∉ S.symbols st := by
    rw [hsym]
    exact hS.added_new _ _ _ _ _
  have hmem : sym ∈ S.symbols st₁ := by
    rw [hst, hsym]
    exact mem_addSymbol hS.toAddLaws _ _ _ _ st
  constructor
  · exact hnew
  · intro x
    rw [hS.symbols_attribute, hst, hS.symbols_add, hsym]
  · unfold findScope
    rw [hS.findAddr_attribute, hst, hS.findAddr_add _ _ _ _ _ hfree, hsym]
  · intro k' hne
    unfold findScope
    rw [hS.findAddr_attribute, hst, hS.findAddr_other _ _ _ _ _ _ _ (ScopeKey.apart k k' hne)]
  · rw [hS.storage_attribute, hst, hsym, hS.storage_add]
  · rw [hS.datatype_attribute, hst, hsym, hS.datatype_add]
  · exact (hS.hasAttribute_set st₁ sym hmem _ _ _).mpr (Or.inl ⟨rfl, rfl⟩)
  · intro x hx
    refine ⟨?_, ?_, fun a => ?_⟩
    · rw [hS.storage_attribute, hst, hS.storage_old _ _ _ _ _ x hx]
    · rw [hS.datatype_attribute, hst, hS.datatype_old _ _ _ _ _ x hx]
    · rw [hS.hasAttribute_set st₁ sym hmem, hst, hS.hasAttribute_old _ _ _ _ _ x hx]
      exact or_iff_right fun heq => hnew (heq.1 ▸ hx)

theorem AddsAt.retypes (hfinds : S.FindsSymbols) (k : ScopeKey arch) (newType : Ty) (st : σ) (sym : Sym) (st' : σ)
    (hfree : findScope S st k = none) (h : AddsAt S hasAttribute k (findByTypeInfo newType) st sym st') :
    Retypes S findByTypeInfo hasAttribute [(k, newType)] st st' where
  types k' := by
    rw [first_cons]
    by_cases hk : k = k'
    · subst hk
      unfold typeAt
      rw [h.found, hfree, if_pos rfl, Option.map_some, h.datatype]
      rfl
    · rw [if_neg hk]
      unfold typeAt
      rw [h.found_other k' (Ne.symm hk)]
      cases hfind : findScope S st k' with
      | none => rfl
      | some x => exact congrArg some (h.kept x (hfinds _ _ _ _ hfind)).2.1
  found k' x hfind := by
    rw [h.found_other k' ?_]
    · exact hfind
    · rintro rfl
      rw [hfree] at hfind
      simp at hfind
  new k' x hfree' hfind := by
    by_cases hk : k' = k
    · subst hk
      obtain rfl : sym = x := Option.some.inj (h.found.symm.trans hfind)
      exact ⟨(h.symbols sym).mpr (Or.inr rfl), h.new⟩
    · rw [h.found_other k' hk, hfree'] at hfind
      simp at hfind
  kept x hx := ⟨(h.symbols x).mpr (Or.inl hx), h.kept x hx⟩
  locked x hnew := by
    obtain rfl := ((h.symbols x).mp hnew.1).resolve_left hnew.2
    exact h.locked
  added x hnew := by
    obtain rfl := ((h.symbols x).mp hnew.1).resolve_left hnew.2
    exact ⟨_, List.mem_cons_self, hfree, h.found, h.storage⟩

/-! ## The passes -/

theorem applyOp_retypes (hS : S.OnceLaws hasAttribute) (hfinds : S.FindsSymbols) (harch : arch.NamesSpaces)
    (m_space : Str) (hspace : m_space ∈ retypeSpaces) (op : PcodeOp)
    (hread : ∀ e, findType db func nodes op.pc m_space ≠ .error e) (st : σ) :
    ∃ st', applyOp S arch db findByTypeInfo func nodes m_space op st = (.ok (), st') ∧
      Retypes S findByTypeInfo hasAttribute (savedRecord arch db func nodes m_space op).toList st st' := by
  unfold applyOp savedRecord
  cases hfind : findType db func nodes op.pc m_space with
  | error e => exact absurd hfind (hread e)
  | ok found =>
    match found with
    | none => exact ⟨st, rfl, .nil st⟩
    | some (none, offset) => exact ⟨st, rfl, .nil st⟩
    | some (some newType, offset) =>
      simp only
      have hkey := ScopeKey.at_usepoint harch m_space hspace op offset
      cases hscope : S.findAddr st (storage arch m_space offset) (opAddr m_space op) with
      | some sym =>
        refine ⟨st, rfl, retypes_taken _ newType st ?_⟩
        unfold findScope
        rw [hkey]
        simp [ScopeKey.at, hscope]
      | none =>
        refine ⟨_, rfl, ?_⟩
        have hfree : findScope S st (ScopeKey.at arch (storage arch m_space offset) op.pc) = none := by
          unfold findScope
          rw [hkey]
          exact hscope
        exact AddsAt.retypes hfinds _ newType st _ _ hfree
          (addSymbol_addsAt hS _ (findByTypeInfo newType) st hfree _ _ (by rw [hkey]; rfl))

theorem applyOp_settled (harch : arch.NamesSpaces) (m_space : Str) (hspace : m_space ∈ retypeSpaces) (op : PcodeOp)
    (hread : ∀ e, findType db func nodes op.pc m_space ≠ .error e) (st : σ)
    (hfound : ∀ entry ∈ savedRecord arch db func nodes m_space op, findScope S st entry.1 ≠ none) :
    applyOp S arch db findByTypeInfo func nodes m_space op st = (.ok (), st) := by
  unfold savedRecord at hfound
  unfold applyOp
  cases hfind : findType db func nodes op.pc m_space with
  | error e => exact absurd hfind (hread e)
  | ok found =>
    match found with
    | none => rfl
    | some (none, offset) => rfl
    | some (some newType, offset) =>
      simp only [hfind, Option.mem_def, Option.some.injEq, forall_eq'] at hfound
      unfold findScope at hfound
      rw [ScopeKey.at_usepoint harch m_space hspace op offset] at hfound
      obtain ⟨sym, hsym⟩ := Option.ne_none_iff_exists'.mp hfound
      simp only
      rw [show S.findAddr st (storage arch m_space offset) (opAddr m_space op) = some sym from hsym]

theorem mem_savedRecords (ops : List PcodeOp) (entry : ScopeKey arch × Ty) :
    entry ∈ savedRecords arch db func nodes ops ↔
      ∃ m_space ∈ retypeSpaces, ∃ op ∈ ops, entry ∈ savedRecord arch db func nodes m_space op := by
  simp only [savedRecords, List.mem_flatMap, Option.mem_toList, Option.mem_def]

theorem retypeAction_retypes (hS : S.OnceLaws hasAttribute) (hfinds : S.FindsSymbols) (harch : arch.NamesSpaces)
    (ops : List PcodeOp)
    (hread : ∀ m_space ∈ retypeSpaces, ∀ op ∈ ops, ∀ e, findType db func nodes op.pc m_space ≠ .error e) (st : σ) :
    ∃ st', retypeAction S arch db findByTypeInfo func nodes ops st = (.ok (), st') ∧
      Retypes S findByTypeInfo hasAttribute (savedRecords arch db func nodes ops) st st' := by
  have hpass : ∀ m_space ∈ retypeSpaces, ∀ st, ∃ st',
      ActionLoadLocalScope.apply S arch db findByTypeInfo func nodes m_space ops st = (.ok (), st') ∧
      Retypes S findByTypeInfo hasAttribute
        (ops.flatMap fun op => (savedRecord arch db func nodes m_space op).toList) st st' :=
    fun m_space hspace => forEach_collects _ _ _ Retypes.nil (fun xs ys _ _ _ => Retypes.append xs ys _ _ _) ops
      fun op hop => applyOp_retypes db func nodes hS hfinds harch m_space hspace op (hread m_space hspace op hop)
  exact forEach_collects _ _ _ Retypes.nil (fun xs ys _ _ _ => Retypes.append xs ys _ _ _) retypeSpaces hpass st

/-- **The type action.** Every key of a record ends with one type: that of the symbol that it had, or that of its
first record. The action changes nothing else, and when it comes again it changes nothing. -/
theorem retypeAction_first (hS : S.OnceLaws hasAttribute) (hfinds : S.FindsSymbols) (harch : arch.NamesSpaces)
    (ops : List PcodeOp)
    (hread : ∀ m_space ∈ retypeSpaces, ∀ op ∈ ops, ∀ e, findType db func nodes op.pc m_space ≠ .error e) (st : σ) :
    ∃ st', retypeAction S arch db findByTypeInfo func nodes ops st = (.ok (), st') ∧
      Retypes S findByTypeInfo hasAttribute (savedRecords arch db func nodes ops) st st' ∧
      retypeAction S arch db findByTypeInfo func nodes ops st' = (.ok (), st') := by
  obtain ⟨st', happly, hretypes⟩ := retypeAction_retypes db func nodes hS hfinds harch ops hread st
  refine ⟨st', happly, hretypes, ?_⟩
  have hfound : ∀ entry ∈ savedRecords arch db func nodes ops, findScope S st' entry.1 ≠ none := by
    intro entry hentry
    have hfirst : first (savedRecords arch db func nodes ops) entry.1 ≠ none :=
      (first_ne_none _ _).mpr (List.mem_map_of_mem hentry)
    intro hfree
    rw [← typeAt_none, hretypes.types, Option.or_eq_none_iff, Option.map_eq_none_iff] at hfree
    exact hfirst hfree.2
  apply forEach_idle
  intro m_space hspace
  apply forEach_idle
  intro op hop
  exact applyOp_settled db func nodes harch m_space hspace op (hread m_space hspace op hop) st' fun entry hentry =>
    hfound entry ((mem_savedRecords db func nodes ops entry).mpr ⟨m_space, hspace, op, hop, hentry⟩)

end

/-! ## A constant and a stack slot of one storage -/

def namedSpaces : Architecture where
  getSpaceByName n := if n = ascii "stack" then stackSpace
    else if n = ascii "unique" then { stackSpace with name := ascii "unique", name_noNul := unique_noNul }
    else registerSpace

theorem namedSpaces_names : namedSpaces.NamesSpaces := ⟨by decide⟩

/-- The same storage has an `int` in the stack and a `float` among the constants. -/
def twoRecords : NetNodes :=
  Call.run twoTypes (fun _ => none) [.saveType 0x401fa0 ⟨ascii "const", 8, 4, [0x10]⟩ false,
    .saveType 0x401fa0 ⟨ascii "stack", 8, 4, [0x20]⟩ true]

theorem SymbolTable.scope_findsSymbols (d : D) : (SymbolTable.scope d).FindsSymbols :=
  (SymbolTable.scope_renameLaws d).findAddr_mem

theorem retypeAction_first_two_records :
    ∃ table, retypeAction (SymbolTable.scope false) namedSpaces twoTypes id 0x401fa0 twoRecords stackOps [] =
        (.ok (), table) ∧
      Retypes (SymbolTable.scope false) id SymbolTable.hasAttribute
        (savedRecords namedSpaces twoTypes 0x401fa0 twoRecords stackOps) [] table ∧
      retypeAction (SymbolTable.scope false) namedSpaces twoTypes id 0x401fa0 twoRecords stackOps table =
        (.ok (), table) := by
  refine retypeAction_first twoTypes 0x401fa0 twoRecords (SymbolTable.scope_onceLaws false)
    (SymbolTable.scope_findsSymbols false) namedSpaces_names stackOps ?_ []
  intro m_space hspace op hop e
  revert m_space op
  cases e <;> decide

-- The stack comes before the constants, although its record is at a later pcode.
example : (retypeAction (SymbolTable.scope false) namedSpaces twoTypes id 0x401fa0 twoRecords stackOps []).2 =
    [⟨[], ⟨stackSpace, 8⟩, none, true, [.typelock]⟩] := by decide

end Yagi
