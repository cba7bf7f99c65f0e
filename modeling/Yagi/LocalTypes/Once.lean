import Yagi.Lib.Inserts
import Yagi.LocalTypes.Latest

/-!
# Loading each type once

Every pcode is visited, several at one pc, and many records name one storage. A
symbol is added for a storage and use point that is free, and no other changes.
-/

open Text Hex Loop

namespace Yagi

open IdaFunctionSymbolInfo ActionLoadLocalScope

variable {σ Sym D Ty : Type} (S : ScopeLocal σ Sym D) (arch : Architecture) (db : TypeDatabase Ty)
  (findByTypeInfo : Ty → D) (func : UInt64) (nodes : NetNodes)

/-! ## Storages and use points -/

/-- What a pass over `m_space` looks up: the stack has no use points. -/
@[ext] structure PassKey (m_space : Str) where
  addr : Address
  usepoint : Option UInt64
  usepoint_none : usepoint = none ↔ replaySpace m_space = ascii "stack"

def passKey (m_space : Str) (op : PcodeOp) (offset : UInt64) : PassKey m_space where
  addr := storage arch m_space offset
  usepoint := opAddr m_space op
  usepoint_none := by
    unfold opAddr
    split <;> simp_all

/-- The storage and use point of the record at the address of a pcode. -/
def recordKey (m_space : Str) (op : PcodeOp) : Option (PassKey m_space) :=
  match findType db func nodes op.pc m_space with
  | .ok (some (some _, offset)) => some (passKey arch m_space op offset)
  | _ => none

def findKey {m_space : Str} (st : σ) (k : PassKey m_space) : Option Sym := S.findAddr st k.addr k.usepoint

/-- The record there, if any, holds a type that parses. -/
def Converts (m_space : Str) (op : PcodeOp) : Prop :=
  ∃ found : Option (Ty × UInt64),
    findType db func nodes op.pc m_space = .ok (found.map fun (newType, offset) => (some newType, offset))

/-! ## What is added -/

/-- A symbol is added for one storage and use point, and neither an addition nor a flag touches other symbols. -/
structure ScopeLocal.OnceLaws (hasAttribute : σ → Sym → Attribute → Prop) : Prop extends S.AddLaws where
  findAddr_other : ∀ n ty addr u st addr' u',
    (addr' ≠ addr ∨ ∃ pc pc', u = some pc ∧ u' = some pc' ∧ pc' ≠ pc) →
    S.findAddr (S.addSymbol n ty addr u st).2 addr' u' = S.findAddr st addr' u'
  storage_old : ∀ n ty addr u st, ∀ sym ∈ S.symbols st, S.storage (S.addSymbol n ty addr u st).2 sym = S.storage st sym
  datatype_old : ∀ n ty addr u st, ∀ sym ∈ S.symbols st,
    S.datatype (S.addSymbol n ty addr u st).2 sym = S.datatype st sym
  hasAttribute_old : ∀ n ty addr u st, ∀ sym ∈ S.symbols st, ∀ a,
    hasAttribute (S.addSymbol n ty addr u st).2 sym a ↔ hasAttribute st sym a
  hasAttribute_set : ∀ st, ∀ sym ∈ S.symbols st, ∀ a sym' b,
    hasAttribute (S.setAttribute sym a st) sym' b ↔ (sym' = sym ∧ b = a) ∨ hasAttribute st sym' b

def New (st st' : σ) (sym : Sym) : Prop := sym ∈ S.symbols st' ∧ sym ∉ S.symbols st

/-- Each key has a symbol, one was added for each free key, and the old ones are as before. -/
structure LoadedOnce (hasAttribute : σ → Sym → Attribute → Prop) {m_space : Str} (keys : List (PassKey m_space))
    (st st' : σ) : Prop where
  found : ∀ k ∈ keys, findKey S st' k ≠ none
  added : Set.BijOn (findKey S st') {k | k ∈ keys ∧ findKey S st k = none} (some '' {sym | New S st st' sym})
  placed : ∀ k ∈ keys, findKey S st k = none → ∀ sym, findKey S st' k = some sym → S.storage st' sym = k.addr
  kept : ∀ sym ∈ S.symbols st, sym ∈ S.symbols st' ∧ S.datatype st' sym = S.datatype st sym ∧
    ∀ a, hasAttribute st' sym a ↔ hasAttribute st sym a
  locked : ∀ sym, New S st st' sym → hasAttribute st' sym .typelock

def AddsLocked {m_space : Str} (k : PassKey m_space) (st : σ) (sym : Sym) (st' : σ) : Prop :=
  ∃ newType : D, sym = (S.addSymbol [] newType k.addr k.usepoint st).1 ∧
    st' = S.setAttribute sym .typelock (S.addSymbol [] newType k.addr k.usepoint st).2

section

variable {S} {hasAttribute : σ → Sym → Attribute → Prop} {m_space : Str}

theorem mem_addSymbol (hS : S.AddLaws) (n : Str) (newType : D) (addr : Address) (u : Option UInt64) (st : σ) :
    (S.addSymbol n newType addr u st).1 ∈ S.symbols (S.addSymbol n newType addr u st).2 := by
  rw [hS.symbols_add]
  exact Or.inr rfl

theorem addsLocked_laws (m_space : Str) (hS : S.OnceLaws hasAttribute) :
    Inserts.Laws (findKey S) (fun st => {sym | sym ∈ S.symbols st})
      (AddsLocked S : PassKey m_space → σ → Sym → σ → Prop) where
  fresh k st sym st' h := by
    obtain ⟨newType, rfl, rfl⟩ := h
    exact hS.added_new _ _ _ _ _
  values_add k st sym st' h := by
    obtain ⟨newType, rfl, rfl⟩ := h
    ext x
    simp only [Set.mem_ofPred_eq, Set.mem_insert_iff, hS.symbols_attribute, hS.symbols_add]
    exact or_comm
  find_add k st sym st' hfree h := by
    obtain ⟨newType, rfl, rfl⟩ := h
    unfold findKey
    rw [hS.findAddr_attribute, hS.findAddr_add _ _ _ _ _ hfree]
  find_other k st sym st' k' h hne := by
    obtain ⟨newType, rfl, rfl⟩ := h
    unfold findKey
    rw [hS.findAddr_attribute]
    apply hS.findAddr_other
    by_cases haddr : k'.addr = k.addr
    · -- Two use points of one storage, in a space that has them.
      have hpoint : k'.usepoint ≠ k.usepoint := fun heq => hne (PassKey.ext haddr heq)
      have hboth : k.usepoint = none ↔ k'.usepoint = none := k.usepoint_none.trans k'.usepoint_none.symm
      cases hk : k.usepoint with
      | none => exact absurd ((hboth.mp hk).trans hk.symm) hpoint
      | some pc =>
        cases hk' : k'.usepoint with
        | none => exact absurd (hk'.trans (hboth.mpr hk').symm) hpoint
        | some pc' =>
          refine Or.inr ⟨pc, pc', rfl, rfl, ?_⟩
          rintro rfl
          exact hpoint (hk'.trans hk.symm)
    · exact Or.inl haddr

/-! ## The loop -/

abbrev Loads (keys : List (PassKey m_space)) (st st' : σ) : Prop := Inserts.Run (findKey S) (AddsLocked S) keys st st'

theorem applyOp_loads (op : PcodeOp) (st : σ) (hconvert : Converts db func nodes m_space op) :
    ∃ st', applyOp S arch db findByTypeInfo func nodes m_space op st = (.ok (), st') ∧
      match recordKey arch db func nodes m_space op with
      | none => st' = st
      | some k => (findKey S st k ≠ none ∧ st' = st) ∨ (findKey S st k = none ∧ ∃ sym, AddsLocked S k st sym st') := by
  obtain ⟨found, hread⟩ := hconvert
  unfold recordKey
  cases found with
  | none =>
    refine ⟨st, ?_, ?_⟩
    · rw [applyOp, hread]
      rfl
    · rw [hread]
      rfl
  | some record =>
    obtain ⟨newType, offset⟩ := record
    rw [Option.map_some] at hread
    rw [hread]
    cases hfind : S.findAddr st (storage arch m_space offset) (opAddr m_space op) with
    | none =>
      refine ⟨_, ?_, Or.inr ⟨hfind, _, findByTypeInfo newType, rfl, rfl⟩⟩
      unfold applyOp
      rw [hread]
      simp only [hfind]
      rfl
    | some sym =>
      refine ⟨st, ?_, Or.inl ⟨?_, rfl⟩⟩
      · unfold applyOp
        rw [hread]
        simp only [hfind]
      · unfold findKey passKey
        simp [hfind]

theorem apply_loads (ops : List PcodeOp) (st : σ) (hconvert : ∀ op ∈ ops, Converts db func nodes m_space op) :
    ∃ st', ActionLoadLocalScope.apply S arch db findByTypeInfo func nodes m_space ops st = (.ok (), st') ∧
      Loads (S := S) (ops.filterMap (recordKey arch db func nodes m_space)) st st' := by
  induction ops generalizing st with
  | nil => exact ⟨st, rfl, .nil st⟩
  | cons op ops ih =>
    obtain ⟨st₁, hop, hstep⟩ := applyOp_loads arch db findByTypeInfo func nodes op st (hconvert op List.mem_cons_self)
    obtain ⟨st', hrest, hloads⟩ := ih st₁ fun o ho => hconvert o (List.mem_cons_of_mem _ ho)
    refine ⟨st', ?_, ?_⟩
    · rw [ActionLoadLocalScope.apply, forEach_cons_ok _ _ _ _ _ hop]
      exact hrest
    · rw [List.filterMap_cons]
      cases hkey : recordKey arch db func nodes m_space op with
      | none =>
        rw [hkey] at hstep
        obtain rfl : st₁ = st := hstep
        exact hloads
      | some k =>
        rw [hkey] at hstep
        rcases hstep with ⟨htaken, rfl⟩ | ⟨hfree, sym, hadd⟩
        · exact .skip k _ _ _ htaken hloads
        · exact .add k _ _ sym _ _ hfree hadd hloads

theorem apply_loaded (ops : List PcodeOp) (st : σ) (hconvert : ∀ op ∈ ops, Converts db func nodes m_space op)
    (hfound : ∀ k ∈ ops.filterMap (recordKey arch db func nodes m_space), findKey S st k ≠ none) :
    ActionLoadLocalScope.apply S arch db findByTypeInfo func nodes m_space ops st = (.ok (), st) := by
  apply forEach_idle
  intro op hop
  obtain ⟨st', happly, hstep⟩ := applyOp_loads arch db findByTypeInfo func nodes op st (hconvert op hop)
  rw [happly]
  cases hkey : recordKey arch db func nodes m_space op with
  | none =>
    rw [hkey] at hstep
    obtain rfl : st' = st := hstep
    rfl
  | some k =>
    rw [hkey] at hstep
    rcases hstep with ⟨-, rfl⟩ | ⟨hfree, -⟩
    · rfl
    · exact absurd hfree (hfound k (List.mem_filterMap.mpr ⟨op, hop, hkey⟩))

theorem loads_kept (hS : S.OnceLaws hasAttribute) (keys : List (PassKey m_space)) (st st' : σ)
    (h : Loads (S := S) keys st st') (sym : Sym) (hsym : sym ∈ S.symbols st) :
    S.storage st' sym = S.storage st sym ∧ S.datatype st' sym = S.datatype st sym ∧
      ∀ a, hasAttribute st' sym a ↔ hasAttribute st sym a := by
  induction h with
  | nil st => exact ⟨rfl, rfl, fun a => Iff.rfl⟩
  | skip k keys st st' _ _ ih => exact ih hsym
  | add k keys st new st₁ st' _ hadd _ ih =>
    have hnew : new ∉ S.symbols st := (addsLocked_laws m_space hS).fresh k st new st₁ hadd
    obtain ⟨newType, rfl, rfl⟩ := hadd
    obtain ⟨hstorage, hdatatype, hattribute⟩ := ih (by rw [hS.symbols_attribute, hS.symbols_add]; exact Or.inl hsym)
    refine ⟨?_, ?_, fun a => ?_⟩
    · rw [hstorage, hS.storage_attribute, hS.storage_old _ _ _ _ _ sym hsym]
    · rw [hdatatype, hS.datatype_attribute, hS.datatype_old _ _ _ _ _ sym hsym]
    · rw [hattribute, hS.hasAttribute_set _ _ (mem_addSymbol hS.toAddLaws _ _ _ _ st),
        hS.hasAttribute_old _ _ _ _ _ sym hsym]
      refine or_iff_right fun heq => hnew ?_
      rw [← heq.1]
      exact hsym

theorem loads_locked (hS : S.OnceLaws hasAttribute) (keys : List (PassKey m_space)) (st st' : σ)
    (h : Loads (S := S) keys st st') (sym : Sym) (hnew : New S st st' sym) : hasAttribute st' sym .typelock := by
  induction h with
  | nil st => exact absurd hnew.1 hnew.2
  | skip k keys st st' _ _ ih => exact ih hnew
  | add k keys st new st₁ st' _ hadd hrun ih =>
    by_cases hold : sym ∈ S.symbols st₁
    · rw [(loads_kept hS keys st₁ st' hrun sym hold).2.2]
      obtain ⟨newType, rfl, rfl⟩ := hadd
      rw [hS.symbols_attribute, hS.symbols_add] at hold
      rw [hS.hasAttribute_set _ _ (mem_addSymbol hS.toAddLaws _ _ _ _ st)]
      exact Or.inl ⟨hold.resolve_left hnew.2, rfl⟩
    · exact ih ⟨hnew.1, hold⟩

theorem loads_placed (hS : S.OnceLaws hasAttribute) (keys : List (PassKey m_space)) (st st' : σ)
    (h : Loads (S := S) keys st st') (x : PassKey m_space) (hx : x ∈ keys) (hfree : findKey S st x = none)
    (sym : Sym) (hfind : findKey S st' x = some sym) : S.storage st' sym = x.addr := by
  have laws := addsLocked_laws m_space hS
  induction h with
  | nil st => exact absurd hx List.not_mem_nil
  | skip k keys st st' hfound _ ih =>
    refine ih ((List.mem_cons.mp hx).resolve_left ?_) hfree hfind
    rintro rfl
    exact hfound hfree
  | add k keys st new st₁ st' hkfree hadd hrun ih =>
    by_cases hxk : x = k
    · subst hxk
      have hadded := laws.find_add x st new st₁ hkfree hadd
      rw [hrun.find_kept laws x (Or.inr (by simp [hadded])), hadded] at hfind
      obtain rfl := Option.some.inj hfind
      have hmem : new ∈ {sym | sym ∈ S.symbols st₁} := by
        rw [laws.values_add x st new st₁ hadd]
        exact Set.mem_insert new _
      rw [(loads_kept hS keys st₁ st' hrun new hmem).1]
      obtain ⟨newType, rfl, rfl⟩ := hadd
      rw [hS.storage_attribute, hS.storage_add]
    · exact ih ((List.mem_cons.mp hx).resolve_left hxk)
        ((laws.find_other k st new st₁ x hadd hxk).trans hfree) hfind

variable (S hasAttribute m_space)

/-- **Once each.** A pass adds one locked symbol for each storage and use point that was free, changes no
other symbol, and does nothing when it comes again. -/
theorem load_adds_once (hS : S.OnceLaws hasAttribute) (ops : List PcodeOp) (st : σ)
    (hconvert : ∀ op ∈ ops, Converts db func nodes m_space op) :
    ∃ st', ActionLoadLocalScope.apply S arch db findByTypeInfo func nodes m_space ops st = (.ok (), st') ∧
      LoadedOnce S hasAttribute (ops.filterMap (recordKey arch db func nodes m_space)) st st' ∧
      ActionLoadLocalScope.apply S arch db findByTypeInfo func nodes m_space ops st' = (.ok (), st') := by
  have laws := addsLocked_laws m_space hS
  obtain ⟨st', happly, hloads⟩ := apply_loads arch db findByTypeInfo func nodes ops st hconvert
  have hfound := hloads.find_ne_none laws
  refine ⟨st', happly, ⟨hfound, hloads.bijOn laws, ?_, ?_, ?_⟩, ?_⟩
  · exact fun k hk hfree sym hfind => loads_placed hS _ st st' hloads k hk hfree sym hfind
  · intro sym hsym
    exact ⟨hloads.values_subset laws hsym, (loads_kept hS _ st st' hloads sym hsym).2⟩
  · exact fun sym hnew => loads_locked hS _ st st' hloads sym hnew
  · exact apply_loaded arch db findByTypeInfo func nodes ops st' hconvert hfound

end

/-! ## A table -/

namespace SymbolTable

def hasAttribute (table : SymbolTable D) (i : Nat) (a : Attribute) : Prop :=
  ∃ row, table[i]? = some row ∧ a ∈ row.attributes

theorem covers_new (n : Str) (ty : D) (addr addr' : Address) (u u' : Option UInt64)
    (h : addr' ≠ addr ∨ ∃ pc pc', u = some pc ∧ u' = some pc' ∧ pc' ≠ pc) :
    covers ⟨n, addr, u.map fun pc => [pc], ty, []⟩ addr' u' = false := by
  rcases h with haddr | ⟨pc, pc', rfl, rfl, hpc⟩
  · simp [covers, Ne.symm haddr]
  · simp [covers, hpc]

theorem getElem?_old (d : D) (n : Str) (ty : D) (addr : Address) (u : Option UInt64) (table : SymbolTable D) (i : Nat)
    (hi : i ∈ (scope d).symbols table) : ((scope d).addSymbol n ty addr u table).2[i]? = table[i]? :=
  Table.getElem?_add_old table _ i (List.mem_range.mp hi)

theorem scope_onceLaws (d : D) : (scope d).OnceLaws hasAttribute where
  toAddLaws := scope_addLaws d
  findAddr_other n ty addr u table addr' u' h := by
    show List.findIdx? _ (table ++ [_]) = List.findIdx? _ table
    rw [List.findIdx?_append]
    simp [List.findIdx?_cons, covers_new n ty addr addr' u u' h]
  storage_old n ty addr u table i hi := by
    have hrow := getElem?_old d n ty addr u table i hi
    show Option.getD (Option.map _ _) _ = _
    rw [hrow]
    rfl
  datatype_old n ty addr u table i hi :=
    congrArg (fun row => (row.map (·.datatype)).getD d) (getElem?_old d n ty addr u table i hi)
  hasAttribute_old n ty addr u table i hi a := by
    unfold hasAttribute
    rw [getElem?_old d n ty addr u table i hi]
  hasAttribute_set table i hi a j b := by
    have hlt : i < table.length := List.mem_range.mp hi
    show (∃ row, (table.modify i _)[j]? = some row ∧ _) ↔ _
    unfold hasAttribute
    rw [Table.getElem?_modify]
    by_cases h : j = i
    · subst h
      simp [List.getElem?_eq_getElem hlt]
    · simp [h]

end SymbolTable

theorem load_adds_once_two_ops :
    let nodes := saveTypes twoTypes 0x401fa0 [typeEditAt [0x10, 0x20] (some true)]
    ∃ table', ActionLoadLocalScope.apply (SymbolTable.scope false) ⟨fun _ => stackSpace⟩ twoTypes id 0x401fa0 nodes
        (ascii "stack") stackOps [] = (.ok (), table') ∧
      LoadedOnce (SymbolTable.scope false) SymbolTable.hasAttribute
        (stackOps.filterMap (recordKey ⟨fun _ => stackSpace⟩ twoTypes 0x401fa0 nodes (ascii "stack"))) [] table' ∧
      ActionLoadLocalScope.apply (SymbolTable.scope false) ⟨fun _ => stackSpace⟩ twoTypes id 0x401fa0 nodes
        (ascii "stack") stackOps table' = (.ok (), table') := by
  refine load_adds_once (SymbolTable.scope false) ⟨fun _ => stackSpace⟩ twoTypes id 0x401fa0 _
    SymbolTable.hasAttribute (ascii "stack") (SymbolTable.scope_onceLaws false) stackOps [] ?_
  intro op _
  have hread := findType_saveTypes twoTypes 0x401fa0 (ascii "stack") 0xfffffff8
    [typeEditAt [0x10, 0x20] (some true)] op (by decide) (by decide) fun _ _ t _ => twoTypes_readsBack t
  refine ⟨(savedType [typeEditAt [0x10, 0x20] (some true)] op).map fun t => (t, 0xfffffff8), ?_⟩
  rw [hread, Option.map_map]
  rfl

end Yagi
