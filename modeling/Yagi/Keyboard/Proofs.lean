import Yagi.Keyboard.Spec
import Yagi.Records

/-!
# What a key can do

Every branch asks before it writes. Renaming looks whether the function is still
there, and retyping and clearing do not.
-/

open Text

namespace Yagi

open Keyboard IdaSymbolInfoFactory IdaFunctionSymbolInfo

variable {Ty : Type} (ida : Ida Ty) (code : Decompiler.Result) (keyword : Option Str) (key : Int) (db : Database Ty)

/-! ## Writes -/

def HasTypeRecord (func : UInt64) (loc : MemoryLocation) (nodes : NetNodes) : Prop :=
  ∃ pc ∈ loc.pc, nodes.valstr (nodeName .type func loc.spaceName pc) ≠ none

/-- A dialog was opened and confirmed. -/
def Confirms (events : List KeyEvent) (answer : Str) : Prop :=
  ∃ name, .ask_str name ∈ events ∧ ida.ask_str name = some answer

/-- The database changes only by a confirmed name, by a confirmed declaration that parses, or where a type is cleared. -/
def WritesConfirmed (out : KeyOutcome Ty) : Prop :=
  out.db ≠ db →
    (key = 'N'.toNat ∧ ∃ name, Confirms ida out.events name) ∨
    (key = 'Y'.toNat ∧ ∃ decl, Confirms ida out.events decl ∧ ida.types.parse_decl (c_str decl) ≠ none) ∨
    (key = 'C'.toNat ∧ ∃ text loc function, keyword = some text ∧ code.symbolAddress text = some loc ∧
      find_function db code.ea = .ok (some function) ∧ HasTypeRecord function.getAddress loc db.nodes)

theorem dialog_writes (name : Str) (confirmed : Str → Option (Database Ty))
    (h : (dialog ida db name confirmed).db ≠ db) :
    ∃ answer, Confirms ida (dialog ida db name confirmed).events answer ∧ confirmed (c_str answer) ≠ none := by
  unfold dialog at h ⊢
  cases hask : ida.ask_str name with
  | none => simp [hask] at h
  | some answer =>
    cases hconfirmed : confirmed (c_str answer) with
    | none => simp [hask, hconfirmed] at h
    | some db' =>
      refine ⟨answer, ⟨name, ?_, hask⟩, by simp [hconfirmed]⟩
      simp [hconfirmed]

theorem rename_writes (functionSymbolInfo : Option FunctionSymbolInfo) (text : Str) (loc : MemoryLocation)
    (h : (rename ida functionSymbolInfo text loc db).db ≠ db) :
    ∃ name, Confirms ida (rename ida functionSymbolInfo text loc db).events name := by
  unfold rename at h ⊢
  split at h
  · rename_i hram
    rw [if_pos hram]
    cases hfind : IdaSymbolInfoFactory.find db loc.offset with
    | none => simp [hfind] at h
    | some m_name =>
      simp only [hfind] at h ⊢
      obtain ⟨name, hname, -⟩ := dialog_writes ida db _ _ h
      exact ⟨name, hname⟩
  · rename_i hlocal
    rw [if_neg hlocal]
    cases functionSymbolInfo with
    | none => exact absurd rfl h
    | some function =>
      obtain ⟨name, hname, -⟩ := dialog_writes ida db _ _ h
      exact ⟨name, hname⟩

theorem retype_writes (functionSymbolInfo : Option FunctionSymbolInfo) (text : Str) (loc : MemoryLocation)
    (out : KeyOutcome Ty) (hout : retype ida functionSymbolInfo text loc db = .ok out) (h : out.db ≠ db) :
    ∃ decl, Confirms ida out.events decl ∧ ida.types.parse_decl (c_str decl) ≠ none := by
  unfold retype at hout
  split at hout
  · cases hbuild : build ida db loc.offset with
    | none =>
      simp only [hbuild, Except.ok.injEq] at hout
      subst hout
      exact absurd rfl h
    | some typeInfo =>
      simp only [hbuild, Except.ok.injEq] at hout
      subst hout
      obtain ⟨decl, hdecl, hparse⟩ := dialog_writes ida db _ _ h
      exact ⟨decl, hdecl, fun hnone => hparse (by rw [hnone]; rfl)⟩
  · cases hask : ida.ask_str [] with
    | none =>
      simp only [hask, Option.bind_none, Except.ok.injEq] at hout
      subst hout
      exact absurd rfl h
    | some decl =>
      cases hparse : ida.types.parse_decl (c_str decl) with
      | none =>
        simp only [hask, hparse, Option.bind_some, Except.ok.injEq] at hout
        subst hout
        exact absurd rfl h
      | some typeInfo =>
        cases functionSymbolInfo with
        | none => simp [hask, hparse] at hout
        | some function =>
          simp only [hask, hparse, Option.bind_some, Except.ok.injEq] at hout
          subst hout
          exact ⟨decl, ⟨[], List.mem_cons_self, hask⟩, by rw [hparse]; simp⟩

theorem delvalue_eq_self (nodes : NetNodes) (name : Str) (h : nodes.valstr name = none) :
    (nodes.delvalue name).2 = nodes := by
  funext node
  unfold NetNodes.valstr at h
  unfold NetNodes.delvalue
  by_cases hnode : node = c_str name
  · subst hnode
    show Function.update nodes (c_str name) none (c_str name) = nodes (c_str name)
    rw [Function.update_self, h]
  · exact Function.update_of_ne hnode _ _

theorem clearType_eq_self (func : UInt64) (loc : MemoryLocation) (nodes : NetNodes)
    (h : ¬ HasTypeRecord func loc nodes) : (clearType func loc nodes).2 = nodes := by
  have hnone : ∀ pc ∈ loc.pc, (clearTypeAt func loc.spaceName pc nodes).2 = nodes := by
    intro pc hpc
    refine delvalue_eq_self nodes _ ?_
    by_contra hrecord
    exact h ⟨pc, hpc, hrecord⟩
  rw [clearType_snd]
  generalize loc.pc = pcs at hnone
  induction pcs with
  | nil => rfl
  | cons pc pcs ih =>
    rw [List.foldl_cons, hnone pc List.mem_cons_self]
    exact ih fun pc hpc => hnone pc (List.mem_cons_of_mem _ hpc)

theorem clear_writes (functionSymbolInfo : Option FunctionSymbolInfo) (loc : MemoryLocation) (out : KeyOutcome Ty)
    (hout : clear functionSymbolInfo loc db = .ok out) (h : out.db ≠ db) :
    ∃ function, functionSymbolInfo = some function ∧ HasTypeRecord function.getAddress loc db.nodes := by
  unfold clear at hout
  cases functionSymbolInfo with
  | none => simp at hout
  | some function =>
    refine ⟨function, rfl, ?_⟩
    by_contra hnone
    simp only [Except.ok.injEq] at hout
    subst hout
    refine h ?_
    simp only [clearType_eq_self function.getAddress loc db.nodes hnone]

theorem writes_confirmed (shift : Int) (out : KeyOutcome Ty)
    (hout : keyboardCallback ida code keyword key shift db = .ok out) :
    WritesConfirmed ida code keyword key db out := by
  intro h
  unfold keyboardCallback at hout
  split at hout
  · exact absurd (by cases hout; rfl) h
  cases keyword with
  | none => exact absurd (by cases hout; rfl) h
  | some text =>
    cases hloc : code.symbolAddress text with
    | none =>
      simp only [hloc, Except.ok.injEq] at hout
      exact absurd (by rw [← hout]) h
    | some loc =>
      cases hfunction : find_function db code.ea with
      | error e => simp [hloc, hfunction] at hout
      | ok functionSymbolInfo =>
        simp only [hloc, hfunction] at hout
        split at hout
        · exact absurd (by cases hout; unfold xrefs; split <;> rfl) h
        split at hout
        · rename_i hkey
          cases hout
          exact .inl ⟨hkey, rename_writes ida db functionSymbolInfo text loc h⟩
        split at hout
        · rename_i hkey
          exact .inr (.inl ⟨hkey, retype_writes ida db functionSymbolInfo text loc out hout h⟩)
        split at hout
        · rename_i hkey
          obtain ⟨function, rfl, hrecord⟩ := clear_writes db functionSymbolInfo loc out hout h
          exact .inr (.inr ⟨hkey, text, loc, function, rfl, hloc, rfl, hrecord⟩)
        · exact absurd (by cases hout; rfl) h

/-! ## Returning -/

/-- Y and C need the function: C always, and Y for a declaration of a local symbol that parses. -/
def ServedWithoutFunction (loc : MemoryLocation) : Prop :=
  key ≠ 'C'.toNat ∧ (key = 'Y'.toNat → loc.spaceName ≠ ascii "ram" →
    ((ida.ask_str []).bind fun decl => ida.types.parse_decl (c_str decl)) = none)

/-- The function has a token in its name, or it is gone and the key is served without it. -/
def FunctionReadable (loc : MemoryLocation) : Prop :=
  match db.get_func code.ea with
  | some start_ea => HasToken (db.get_short_name start_ea)
  | none => ServedWithoutFunction ida key loc

theorem retype_returns (functionSymbolInfo : Option FunctionSymbolInfo) (text : Str) (loc : MemoryLocation) :
    (∃ out, retype ida functionSymbolInfo text loc db = .ok out) ↔
      (functionSymbolInfo = none → loc.spaceName ≠ ascii "ram" →
        ((ida.ask_str []).bind fun decl => ida.types.parse_decl (c_str decl)) = none) := by
  unfold retype
  split
  · rename_i hram
    cases build ida db loc.offset <;> simp [hram]
  · rename_i hlocal
    cases (ida.ask_str []).bind fun decl => ida.types.parse_decl (c_str decl) with
    | none => simp
    | some typeInfo => cases functionSymbolInfo <;> simp [hlocal]

theorem clear_returns (functionSymbolInfo : Option FunctionSymbolInfo) (loc : MemoryLocation) :
    (∃ out, clear functionSymbolInfo loc db = .ok out) ↔ functionSymbolInfo ≠ none := by
  unfold clear
  cases functionSymbolInfo <;> simp

theorem key_returns (text : Str) (loc : MemoryLocation) (functionSymbolInfo : Option FunctionSymbolInfo)
    (hloc : code.symbolAddress text = some loc) (hfunction : find_function db code.ea = .ok functionSymbolInfo) :
    (∃ out, keyboardCallback ida code (some text) key 0 db = .ok out) ↔
      (functionSymbolInfo = none → ServedWithoutFunction ida key loc) := by
  unfold keyboardCallback ServedWithoutFunction
  simp only [hloc, hfunction, ne_eq, not_true_eq_false, if_false]
  by_cases hx : key = 'X'.toNat
  · simp [hx]
  by_cases hn : key = 'N'.toNat
  · simp [hn]
  by_cases hy : key = 'Y'.toNat
  · subst hy
    simpa using retype_returns ida db functionSymbolInfo text loc
  by_cases hc : key = 'C'.toNat
  · subst hc
    simpa using clear_returns db functionSymbolInfo loc
  · rw [if_neg hx, if_neg hn, if_neg hy, if_neg hc]
    exact iff_of_true ⟨_, rfl⟩ fun _ => ⟨hc, fun hkey => absurd hkey hy⟩

theorem served_iff (text : Str) (loc : MemoryLocation) (hloc : code.symbolAddress text = some loc) :
    (∃ out, keyboardCallback ida code (some text) key 0 db = .ok out) ↔ FunctionReadable ida code key db loc := by
  unfold FunctionReadable
  cases hfunc : db.get_func code.ea with
  | none =>
    have hfunction : find_function db code.ea = .ok none := by
      unfold find_function
      rw [hfunc]
    simpa using key_returns ida code key db text loc none hloc hfunction
  | some start_ea =>
    have hfind := find_function_eq db code.ea start_ea hfunc
    by_cases htoken : HasToken (db.get_short_name start_ea)
    · rw [if_pos htoken] at hfind
      obtain ⟨functionName, hfunction⟩ := hfind
      simpa [htoken] using key_returns ida code key db text loc _ hloc hfunction
    · rw [if_neg htoken] at hfind
      unfold keyboardCallback
      simp [hloc, hfind, htoken]

theorem callback_returns_iff (shift : Int) :
    (∃ out, keyboardCallback ida code keyword key shift db = .ok out) ↔
      (shift = 0 → ∀ text loc, keyword = some text → code.symbolAddress text = some loc →
        FunctionReadable ida code key db loc) := by
  constructor
  · rintro hout rfl text loc rfl hloc
    exact (served_iff ida code key db text loc hloc).mp hout
  · intro hreadable
    by_cases hshift : shift = 0
    · subst hshift
      cases keyword with
      | none => exact ⟨_, rfl⟩
      | some text =>
        cases hloc : code.symbolAddress text with
        | none => exact ⟨⟨false, db, []⟩, by simp [keyboardCallback, hloc]⟩
        | some loc => exact (served_iff ida code key db text loc hloc).mpr (hreadable rfl text loc rfl hloc)
    · exact ⟨⟨false, db, []⟩, if_pos hshift⟩

/-- A database whose functions are deleted, and a user who types `int;`. -/
def deletedDatabase : Database Unit := ⟨fun _ => none, fun _ => [], fun _ => [], fun _ => none, fun _ => none⟩

def intIda : Ida Unit where
  types := intDatabase
  program _ := plainProgram
  toFunc _ := none
  guess_tinfo _ _ := none
  set_name _ _ db := db
  set_tinfo _ _ db := db
  ask_str _ := some (ascii "int;")

/-- On a local symbol of a function that is deleted, N is unhandled, and Y and C raise. -/
theorem key_on_deleted_function :
    let code : Decompiler.Result := ⟨0x401000, fun _ => some ⟨ascii "register", 0, 8, [0x401004]⟩⟩
    (∃ out, keyboardCallback intIda code (some (ascii "v1")) 'N'.toNat 0 deletedDatabase = .ok out) ∧
    ¬ (∃ out, keyboardCallback intIda code (some (ascii "v1")) 'Y'.toNat 0 deletedDatabase = .ok out) ∧
    ¬ (∃ out, keyboardCallback intIda code (some (ascii "v1")) 'C'.toNat 0 deletedDatabase = .ok out) := by
  refine ⟨⟨_, rfl⟩, ?_, ?_⟩
  · rintro ⟨out, hout⟩
    cases hout
  · rintro ⟨out, hout⟩
    cases hout

end Yagi
