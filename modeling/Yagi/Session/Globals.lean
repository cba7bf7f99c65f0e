import Yagi.Session.Reads

/-!
# What a session gives to addresses

A key on a symbol in `ram` names its address or gives it a type, in the database of
IDA itself. What lies at an address in the end was given last.
-/

open Text Store Runs Journal

namespace Yagi

open Keyboard IdaSymbolInfoFactory SessionEvent

variable {Ty : Type}

/-! ## Addresses -/

/-- Functions, names and types by address. -/
structure Globals (Ty : Type) where
  get_func : UInt64 → Option UInt64
  get_name : UInt64 → Str
  get_tinfo : UInt64 → Option Ty

def Database.globals (db : Database Ty) : Globals Ty := ⟨db.get_func, db.get_name, db.get_tinfo⟩

/-- An address gets a name or a type, or IDA changes the database. -/
inductive GlobalEdit (Ty : Type) where
  | named (ea : UInt64) (name : Str)
  | typed (ea : UInt64) (newType : Ty)
  | work (globals : Globals Ty)

namespace GlobalEdit

def apply (globals : Globals Ty) : GlobalEdit Ty → Globals Ty
  | named ea name => { globals with get_name := Function.update globals.get_name ea name }
  | typed ea newType => { globals with get_tinfo := Function.update globals.get_tinfo ea (some newType) }
  | work globals' => globals'

/-- The name that an edit leaves at an address. -/
def nameAt (ea : UInt64) : GlobalEdit Ty → Option Str
  | named other name => if other = ea then some name else none
  | typed _ _ => none
  | work globals => some (globals.get_name ea)

def typeAt (ea : UInt64) : GlobalEdit Ty → Option (Option Ty)
  | named _ _ => none
  | typed other newType => if other = ea then some (some newType) else none
  | work globals => some (globals.get_tinfo ea)

/-- Only IDA makes functions. -/
def funcAt (ea : UInt64) : GlobalEdit Ty → Option (Option UInt64)
  | named _ _ => none
  | typed _ _ => none
  | work globals => some (globals.get_func ea)

theorem name_run (globals : Globals Ty) (es : List (GlobalEdit Ty)) (ea : UInt64) :
    (run apply globals es).get_name ea = (lastSome (nameAt ea) es).getD (globals.get_name ea) := by
  refine see_run_lastSome apply (fun g => g.get_name ea) (nameAt ea) ?_ globals es
  intro g e
  cases e with
  | named other name =>
    by_cases h : other = ea
    · simp [apply, nameAt, h]
    · simp [apply, nameAt, h, Function.update_of_ne (Ne.symm h)]
  | typed other newType => rfl
  | work globals' => rfl

theorem type_run (globals : Globals Ty) (es : List (GlobalEdit Ty)) (ea : UInt64) :
    (run apply globals es).get_tinfo ea = (lastSome (typeAt ea) es).getD (globals.get_tinfo ea) := by
  refine see_run_lastSome apply (fun g => g.get_tinfo ea) (typeAt ea) ?_ globals es
  intro g e
  cases e with
  | named other name => rfl
  | typed other newType =>
    by_cases h : other = ea
    · simp [apply, typeAt, h]
    · simp [apply, typeAt, h, Function.update_of_ne (Ne.symm h)]
  | work globals' => rfl

theorem func_run (globals : Globals Ty) (es : List (GlobalEdit Ty)) (ea : UInt64) :
    (run apply globals es).get_func ea = (lastSome (funcAt ea) es).getD (globals.get_func ea) := by
  refine see_run_lastSome apply (fun g => g.get_func ea) (funcAt ea) ?_ globals es
  intro g e
  cases e <;> rfl

end GlobalEdit

/-! ## Events -/

/-- A name or a type that is set is set at one address. IDA may refuse a name, or make another one of it. -/
structure Ida.SetsGlobals (ida : Ida Ty) : Prop where
  set_name : ∀ ea n db, (ida.set_name ea n db).globals =
    GlobalEdit.apply db.globals (.named ea ((ida.set_name ea n db).get_name ea))
  set_tinfo : ∀ ea newType db, (ida.set_tinfo ea newType db).globals = GlobalEdit.apply db.globals (.typed ea newType)

variable (ida : Ida Ty)

/-- What a confirmed key gives to the address of a symbol in `ram`. -/
def ramEdit (db : Database Ty) (answer : Str → Option Str) (keyword : Str) (loc : MemoryLocation) (key : Int) :
    Option (GlobalEdit Ty) :=
  if loc.spaceName ≠ ascii "ram" then none
  else if key = 'N'.toNat then do
    let m_name ← find db loc.offset
    let name ← answer (c_str ((IdaSymbolInfo.mk loc.offset m_name).getName (ida.program db)))
    return .named loc.offset ((ida.set_name loc.offset (c_str name) db).get_name loc.offset)
  else if key = 'Y'.toNat then do
    let typeInfo ← build ida db loc.offset
    let decl ← answer (c_str (TypeNames.printDeclType ⟨ida.types.getName, ida.toFunc⟩ keyword typeInfo))
    let newType ← ida.types.parse_decl (c_str decl)
    return .typed loc.offset newType
  else none

def globalEdit (db : Database Ty) : SessionEvent Ty → Option (GlobalEdit Ty)
  | .press window keyword key shift answer =>
    if shift = 0 then do
      let text ← keyword
      let loc ← window.code.symbolAddress text
      let _ ← (find_function db window.code.ea).toOption
      ramEdit ida db answer text loc key
    else none
  | .work db' => some (.work db'.globals)

/-- What a session gives to addresses. -/
def globalEdits (db : Database Ty) (events : List (SessionEvent Ty)) : List (GlobalEdit Ty) :=
  journal (SessionEvent.apply ida) (globalEdit ida) db events

/-! ## One event -/

/-- What lies at addresses is what an edit leaves, if there is one. -/
def Gives (db : Database Ty) (edit : Option (GlobalEdit Ty)) (globals : Globals Ty) : Prop :=
  globals = (edit.map (GlobalEdit.apply db.globals)).getD db.globals

variable (answer : Str → Option Str) (functionSymbolInfo : Option FunctionSymbolInfo) (text : Str)
  (loc : MemoryLocation) (db : Database Ty)

theorem ramEdit_local (key : Int) (hlocal : loc.spaceName ≠ ascii "ram") :
    ramEdit ida db answer text loc key = none := if_pos hlocal

theorem ramEdit_name (hram : loc.spaceName = ascii "ram") : ramEdit ida db answer text loc 'N'.toNat =
    (find db loc.offset).bind fun m_name =>
      (answer (c_str ((IdaSymbolInfo.mk loc.offset m_name).getName (ida.program db)))).map fun name =>
        .named loc.offset ((ida.set_name loc.offset (c_str name) db).get_name loc.offset) := by
  unfold ramEdit
  rw [if_neg (not_not.mpr hram), if_pos rfl]
  cases find db loc.offset with
  | none => rfl
  | some m_name =>
    simp only [Option.bind_eq_bind, Option.bind_some]
    cases answer (c_str ((IdaSymbolInfo.mk loc.offset m_name).getName (ida.program db))) <;> rfl

theorem ramEdit_type (hram : loc.spaceName = ascii "ram") : ramEdit ida db answer text loc 'Y'.toNat =
    (build ida db loc.offset).bind fun typeInfo =>
      ((answer (c_str (TypeNames.printDeclType ⟨ida.types.getName, ida.toFunc⟩ text typeInfo))).bind fun decl =>
        ida.types.parse_decl (c_str decl)).map fun newType => .typed loc.offset newType := by
  unfold ramEdit
  rw [if_neg (not_not.mpr hram), if_neg (by decide), if_pos rfl]
  cases build ida db loc.offset with
  | none => rfl
  | some typeInfo =>
    simp only [Option.bind_eq_bind, Option.bind_some]
    cases answer (c_str (TypeNames.printDeclType ⟨ida.types.getName, ida.toFunc⟩ text typeInfo)) with
    | none => rfl
    | some decl =>
      simp only [Option.bind_some]
      cases ida.types.parse_decl (c_str decl) <;> rfl

theorem ramEdit_other (key : Int) (hname : key ≠ 'N'.toNat) (htype : key ≠ 'Y'.toNat) :
    ramEdit ida db answer text loc key = none := by
  unfold ramEdit
  rw [if_neg hname, if_neg htype, ite_self]

theorem rename_gives (hida : ida.SetsGlobals) : Gives db (ramEdit ida db answer text loc 'N'.toNat)
    (rename (ida.answering answer) functionSymbolInfo text loc db).db.globals := by
  unfold Gives rename
  by_cases hram : loc.spaceName = ascii "ram"
  · rw [if_pos hram, ramEdit_name ida answer text loc db hram]
    cases find db loc.offset with
    | none => rfl
    | some m_name =>
      simp only [dialog_db, Option.bind_some]
      show (((answer (c_str ((IdaSymbolInfo.mk loc.offset m_name).getName (ida.program db)))).bind _).getD db).globals = _
      cases answer (c_str ((IdaSymbolInfo.mk loc.offset m_name).getName (ida.program db))) with
      | none => rfl
      | some name => exact hida.set_name loc.offset (c_str name) db
  · rw [if_neg hram, ramEdit_local ida answer text loc db _ hram]
    cases functionSymbolInfo with
    | none => rfl
    | some function =>
      simp only [dialog_db]
      show (((answer (c_str text)).bind _).getD db).globals = _
      cases answer (c_str text) <;> rfl

theorem retype_gives (hida : ida.SetsGlobals) (out : KeyOutcome Ty)
    (hout : retype (ida.answering answer) functionSymbolInfo text loc db = .ok out) :
    Gives db (ramEdit ida db answer text loc 'Y'.toNat) out.db.globals := by
  unfold Gives
  unfold retype at hout
  by_cases hram : loc.spaceName = ascii "ram"
  · rw [ramEdit_type ida answer text loc db hram]
    rw [if_pos hram] at hout
    have hbuilds : build (ida.answering answer) db loc.offset = build ida db loc.offset := rfl
    rw [hbuilds] at hout
    cases hbuild : build ida db loc.offset with
    | none =>
      simp only [hbuild, Except.ok.injEq] at hout
      rw [← hout]
      rfl
    | some typeInfo =>
      simp only [hbuild, Except.ok.injEq] at hout
      rw [← hout, dialog_db, Option.bind_some]
      simp only [Ida.answering]
      cases answer (c_str (TypeNames.printDeclType ⟨ida.types.getName, ida.toFunc⟩ text typeInfo)) with
      | none => rfl
      | some decl =>
        simp only [Option.bind_some]
        cases ida.types.parse_decl (c_str decl) with
        | none => rfl
        | some newType => exact hida.set_tinfo loc.offset newType db
  · rw [ramEdit_local ida answer text loc db _ hram]
    rw [if_neg hram] at hout
    cases hparse : (answer []).bind fun decl => ida.types.parse_decl (c_str decl) with
    | none =>
      simp only [Ida.answering, hparse, Except.ok.injEq] at hout
      rw [← hout]
      rfl
    | some newType =>
      cases functionSymbolInfo with
      | none => simp [Ida.answering, hparse] at hout
      | some function =>
        simp only [Ida.answering, hparse, Except.ok.injEq] at hout
        rw [← hout]
        rfl

theorem clear_gives (out : KeyOutcome Ty) (hout : clear functionSymbolInfo loc db = .ok out) :
    out.db.globals = db.globals := by
  unfold clear at hout
  cases functionSymbolInfo with
  | none => simp at hout
  | some function =>
    simp only [Except.ok.injEq] at hout
    rw [← hout]
    rfl

theorem key_gives (hida : ida.SetsGlobals) (code : Decompiler.Result) (key : Int) (out : KeyOutcome Ty)
    (hloc : code.symbolAddress text = some loc) (hfunction : find_function db code.ea = .ok functionSymbolInfo)
    (hout : keyboardCallback (ida.answering answer) code (some text) key 0 db = .ok out) :
    Gives db (ramEdit ida db answer text loc key) out.db.globals := by
  unfold keyboardCallback at hout
  simp only [hloc, hfunction, ne_eq, not_true_eq_false, if_false] at hout
  by_cases hx : key = 'X'.toNat
  · subst hx
    rw [if_pos rfl] at hout
    cases hout
    rw [ramEdit_other ida answer text loc db _ (by decide) (by decide)]
    unfold xrefs
    split <;> rfl
  rw [if_neg hx] at hout
  by_cases hn : key = 'N'.toNat
  · subst hn
    rw [if_pos rfl] at hout
    cases hout
    exact rename_gives ida answer functionSymbolInfo text loc db hida
  rw [if_neg hn] at hout
  by_cases hy : key = 'Y'.toNat
  · subst hy
    rw [if_pos rfl] at hout
    exact retype_gives ida answer functionSymbolInfo text loc db hida out hout
  rw [if_neg hy] at hout
  rw [ramEdit_other ida answer text loc db key hn hy]
  by_cases hc : key = 'C'.toNat
  · rw [if_pos hc] at hout
    exact clear_gives functionSymbolInfo loc db out hout
  · rw [if_neg hc] at hout
    cases hout
    rfl

theorem raising_gives_nothing (code : Decompiler.Result) (key : Int) (e : KeyError)
    (hloc : code.symbolAddress text = some loc) (hfunction : find_function db code.ea = .ok functionSymbolInfo)
    (hraise : keyboardCallback (ida.answering answer) code (some text) key 0 db = .error e) :
    ramEdit ida db answer text loc key = none := by
  unfold keyboardCallback at hraise
  simp only [hloc, hfunction, ne_eq, not_true_eq_false, if_false] at hraise
  by_cases hx : key = 'X'.toNat
  · simp [hx] at hraise
  rw [if_neg hx] at hraise
  by_cases hn : key = 'N'.toNat
  · simp [hn] at hraise
  rw [if_neg hn] at hraise
  by_cases hy : key = 'Y'.toNat
  · rw [if_pos hy] at hraise
    apply ramEdit_local
    intro hram
    unfold retype at hraise
    rw [if_pos hram] at hraise
    split at hraise <;> simp at hraise
  · exact ramEdit_other ida answer text loc db key hn hy

theorem press_gives (hida : ida.SetsGlobals) (window : Window) (keyword : Option Str) (key shift : Int) :
    Gives db (globalEdit ida db (.press window keyword key shift answer))
      (apply ida db (.press window keyword key shift answer)).globals := by
  by_cases hshift : shift = 0
  · subst hshift
    cases keyword with
    | none => rfl
    | some text =>
      cases hloc : window.code.symbolAddress text with
      | none =>
        simp only [globalEdit, apply, keyboardCallback, hloc, if_true, Option.bind_eq_bind, Option.bind_some,
          Option.bind_none, ne_eq, not_true_eq_false, if_false]
        rfl
      | some loc =>
        cases hfunction : find_function db window.code.ea with
        | error e =>
          simp only [globalEdit, apply, keyboardCallback, hloc, hfunction, if_true, Option.bind_eq_bind,
            Option.bind_some, ne_eq, not_true_eq_false, if_false]
          rfl
        | ok functionSymbolInfo =>
          have hedit : globalEdit ida db (.press window (some text) key 0 answer) =
              ramEdit ida db answer text loc key := by
            simp only [globalEdit, if_true, Option.bind_eq_bind, Option.bind_some, hloc, hfunction, Except.toOption]
          rw [hedit]
          cases hkey : keyboardCallback (ida.answering answer) window.code (some text) key 0 db with
          | ok out =>
            simp only [apply, hkey]
            exact key_gives ida answer functionSymbolInfo text loc db hida window.code key out hloc hfunction hkey
          | error e =>
            rw [raising_gives_nothing ida answer functionSymbolInfo text loc db window.code key e hloc hfunction hkey]
            simp only [apply, hkey]
            rfl
  · simp only [globalEdit, apply, keyboardCallback, if_neg hshift, if_pos hshift]
    rfl

theorem event_gives (hida : ida.SetsGlobals) :
    Edits (apply ida) (globalEdit ida) Database.globals GlobalEdit.apply := by
  intro db event
  cases event with
  | press window keyword key shift answer => exact press_gives ida answer db hida window keyword key shift
  | work db' => rfl

theorem ramEdit_get_func (key : Int) (edit : GlobalEdit Ty) (hedit : ramEdit ida db answer text loc key = some edit)
    (globals : Globals Ty) : (edit.apply globals).get_func = globals.get_func := by
  by_cases hram : loc.spaceName = ascii "ram"
  · by_cases hn : key = 'N'.toNat
    · subst hn
      rw [ramEdit_name ida answer text loc db hram] at hedit
      obtain ⟨m_name, -, hname⟩ := Option.bind_eq_some_iff.mp hedit
      obtain ⟨name, -, rfl⟩ := Option.map_eq_some_iff.mp hname
      rfl
    · by_cases hy : key = 'Y'.toNat
      · subst hy
        rw [ramEdit_type ida answer text loc db hram] at hedit
        obtain ⟨typeInfo, -, htype⟩ := Option.bind_eq_some_iff.mp hedit
        obtain ⟨newType, -, rfl⟩ := Option.map_eq_some_iff.mp htype
        rfl
      · rw [ramEdit_other ida answer text loc db key hn hy] at hedit
        cases hedit
  · rw [ramEdit_local ida answer text loc db key hram] at hedit
    cases hedit

theorem press_get_func (hida : ida.SetsGlobals) (window : Window) (keyword : Option Str) (key shift : Int) :
    (apply ida db (.press window keyword key shift answer)).get_func = db.get_func := by
  have hgives := press_gives ida answer db hida window keyword key shift
  unfold Gives at hgives
  refine (congrArg Globals.get_func hgives).trans ?_
  cases hedit : globalEdit ida db (.press window keyword key shift answer) with
  | none => rfl
  | some edit =>
    simp only [globalEdit] at hedit
    split at hedit
    · simp only [Option.bind_eq_bind, Option.bind_eq_some_iff] at hedit
      obtain ⟨text, -, loc, -, found, -, hram⟩ := hedit
      exact ramEdit_get_func ida answer text loc db key edit hram db.globals
    · simp at hedit

theorem apply_funcsStart (hida : ida.SetsGlobals) (hdb : db.FuncsStart) (event : SessionEvent Ty)
    (hwork : ∀ db', event = .work db' → db'.FuncsStart) : (apply ida db event).FuncsStart := by
  cases event with
  | press window keyword key shift answer =>
    unfold Database.FuncsStart
    rw [press_get_func ida answer db hida window keyword key shift]
    exact hdb
  | work db' => exact hwork db' rfl

/-! ## A session -/

/-- **Refinement.** What lies at addresses after a session is what its edits leave. -/
theorem session_globals (hida : ida.SetsGlobals) (events : List (SessionEvent Ty)) :
    (session ida db events).globals = run GlobalEdit.apply db.globals (globalEdits ida db events) :=
  see_run (apply ida) (globalEdit ida) Database.globals GlobalEdit.apply (event_gives ida hida) db events

/-- What lies at an address: what was given last, or what was there before the session. -/
structure LiesAt (events : List (SessionEvent Ty)) (ea : UInt64) : Prop where
  name : (session ida db events).get_name ea =
    (lastSome (GlobalEdit.nameAt ea) (globalEdits ida db events)).getD (db.get_name ea)
  type : (session ida db events).get_tinfo ea =
    (lastSome (GlobalEdit.typeAt ea) (globalEdits ida db events)).getD (db.get_tinfo ea)
  function : (session ida db events).get_func ea =
    (lastSome (GlobalEdit.funcAt ea) (globalEdits ida db events)).getD (db.get_func ea)

theorem session_liesAt (hida : ida.SetsGlobals) (events : List (SessionEvent Ty)) (ea : UInt64) :
    LiesAt ida db events ea := by
  have hglobals := session_globals ida db hida events
  constructor
  · exact (congrArg (fun g => g.get_name ea) hglobals).trans (GlobalEdit.name_run _ _ ea)
  · exact (congrArg (fun g => g.get_tinfo ea) hglobals).trans (GlobalEdit.type_run _ _ ea)
  · exact (congrArg (fun g => g.get_func ea) hglobals).trans (GlobalEdit.func_run _ _ ea)

/-- N or Y on a symbol that leads to the address, or IDA itself. -/
def AsksFor (ea : UInt64) : SessionEvent Ty → Prop
  | .press window keyword key shift _ => shift = 0 ∧ (key = 'N'.toNat ∨ key = 'Y'.toNat) ∧
    ∃ text loc, keyword = some text ∧ window.code.symbolAddress text = some loc ∧ loc.spaceName = ascii "ram" ∧
      loc.offset = ea
  | .work _ => True

theorem ramEdit_asked (key : Int) (edit : GlobalEdit Ty) (ea : UInt64)
    (hedit : ramEdit ida db answer text loc key = some edit)
    (hea : edit.nameAt ea ≠ none ∨ edit.typeAt ea ≠ none) :
    (key = 'N'.toNat ∨ key = 'Y'.toNat) ∧ loc.spaceName = ascii "ram" ∧ loc.offset = ea := by
  by_cases hram : loc.spaceName = ascii "ram"
  · by_cases hn : key = 'N'.toNat
    · subst hn
      rw [ramEdit_name ida answer text loc db hram] at hedit
      obtain ⟨m_name, -, hname⟩ := Option.bind_eq_some_iff.mp hedit
      obtain ⟨name, -, rfl⟩ := Option.map_eq_some_iff.mp hname
      exact ⟨Or.inl rfl, hram, by simpa [GlobalEdit.nameAt, GlobalEdit.typeAt] using hea⟩
    · by_cases hy : key = 'Y'.toNat
      · subst hy
        rw [ramEdit_type ida answer text loc db hram] at hedit
        obtain ⟨typeInfo, -, htype⟩ := Option.bind_eq_some_iff.mp hedit
        obtain ⟨newType, -, rfl⟩ := Option.map_eq_some_iff.mp htype
        exact ⟨Or.inr rfl, hram, by simpa [GlobalEdit.nameAt, GlobalEdit.typeAt] using hea⟩
      · rw [ramEdit_other ida answer text loc db key hn hy] at hedit
        cases hedit
  · rw [ramEdit_local ida answer text loc db key hram] at hedit
    cases hedit

theorem globalEdit_asked (event : SessionEvent Ty) (edit : GlobalEdit Ty) (ea : UInt64)
    (hedit : globalEdit ida db event = some edit) (hea : edit.nameAt ea ≠ none ∨ edit.typeAt ea ≠ none) :
    AsksFor ea event := by
  cases event with
  | work db' => trivial
  | press window keyword key shift answer =>
    simp only [globalEdit] at hedit
    split at hedit
    · rename_i hshift
      simp only [Option.bind_eq_bind, Option.bind_eq_some_iff] at hedit
      obtain ⟨text, rfl, loc, hloc, found, -, hram⟩ := hedit
      obtain ⟨hkey, hspace, hoffset⟩ := ramEdit_asked ida answer text loc db key edit ea hram hea
      exact ⟨hshift, hkey, text, loc, rfl, hloc, hspace, hoffset⟩
    · simp at hedit

theorem changed_asked (events : List (SessionEvent Ty)) (ea : UInt64) (h : LiesAt ida db events ea)
    (hchanged : (session ida db events).get_name ea ≠ db.get_name ea ∨
      (session ida db events).get_tinfo ea ≠ db.get_tinfo ea) : ∃ event ∈ events, AsksFor ea event := by
  obtain ⟨edit, hmem, hea⟩ : ∃ edit ∈ globalEdits ida db events, edit.nameAt ea ≠ none ∨ edit.typeAt ea ≠ none := by
    by_contra hnone
    push Not at hnone
    rw [h.name, h.type, (lastSome_eq_none _ _).mpr fun edit he => (hnone edit he).1,
      (lastSome_eq_none _ _).mpr fun edit he => (hnone edit he).2] at hchanged
    simp at hchanged
  obtain ⟨before, event, after, rfl, hedit⟩ := (mem_journal (apply ida) (globalEdit ida) db events edit).mp hmem
  exact ⟨event, by simp, globalEdit_asked ida _ event edit ea hedit hea⟩

/-- **Addresses.** After any keys in any windows, whatever IDA does in between, there lies at an address what was
given to it last, and nothing has changed there that no key on it and no work of IDA asked for. -/
theorem session_globals_last (hida : ida.SetsGlobals) (events : List (SessionEvent Ty)) (ea : UInt64) :
    LiesAt ida db events ea ∧
      ((session ida db events).get_name ea ≠ db.get_name ea ∨
        (session ida db events).get_tinfo ea ≠ db.get_tinfo ea → ∃ event ∈ events, AsksFor ea event) :=
  ⟨session_liesAt ida db hida events ea, changed_asked ida db events ea (session_liesAt ida db hida events ea)⟩

/-! ## A symbol in `ram` -/

/-- An IDA that takes every name, and guesses no types. -/
def Ida.ofTypes (types : TypeDatabase Ty) (toFunc : Ty → Option (FuncInfo Ty)) : Ida Ty where
  types := types
  program _ := plainProgram
  toFunc := toFunc
  guess_tinfo _ _ := none
  set_name ea n db :=
    { db with get_name := Function.update db.get_name ea n, get_short_name := Function.update db.get_short_name ea n }
  set_tinfo ea newType db := { db with get_tinfo := Function.update db.get_tinfo ea (some newType) }
  ask_str _ := none

theorem Ida.ofTypes_setsGlobals (types : TypeDatabase Ty) (toFunc : Ty → Option (FuncInfo Ty)) :
    (Ida.ofTypes types toFunc).SetsGlobals := by
  constructor
  · intro ea n db
    simp [Ida.ofTypes, Database.globals, GlobalEdit.apply]
  · intro ea newType db
    rfl

def mainSymbols (key : Str) : Option MemoryLocation :=
  if key = ascii "main" then some ⟨ascii "ram", 0x401000, 4, []⟩ else none

theorem mainSymbols_noNul (key : Str) (loc : MemoryLocation) (h : mainSymbols key = some loc) :
    NoNul loc.spaceName := by
  unfold mainSymbols at h
  split at h
  · cases h
    exact ram_noNul
  · simp at h

/-- A key on the name of `main`, with the answer to its dialog. -/
def pressMain (key : Char) (answer : Str) : SessionEvent Ty :=
  .press ⟨⟨0x401000, mainSymbols⟩, mainSymbols_noNul⟩ (some (ascii "main")) key.toNat 0 fun _ => some answer

def typedDatabase : Database Unit := { mainDatabase with get_tinfo := fun _ => some () }

theorem session_globals_last_main :
    let ida := Ida.ofTypes intDatabase fun _ => none
    let events := [pressMain 'N' (ascii "start"), .work mainDatabase, pressMain 'N' (ascii "entry"),
      pressMain 'Y' (ascii "int;")]
    LiesAt ida typedDatabase events 0x401000 ∧
      ((session ida typedDatabase events).get_name 0x401000 ≠ typedDatabase.get_name 0x401000 ∨
        (session ida typedDatabase events).get_tinfo 0x401000 ≠ typedDatabase.get_tinfo 0x401000 →
        ∃ event ∈ events, AsksFor 0x401000 event) :=
  session_globals_last (Ida.ofTypes intDatabase fun _ => none) typedDatabase (Ida.ofTypes_setsGlobals _ _) _ 0x401000

-- IDA forgets the first name, and has no type to edit then.
example : (lastSome (GlobalEdit.nameAt 0x401000) (globalEdits (Ida.ofTypes intDatabase fun _ => none) typedDatabase
    [pressMain 'N' (ascii "start"), .work mainDatabase, pressMain 'N' (ascii "entry"), pressMain 'Y' (ascii "int;")]),
    lastSome (GlobalEdit.typeAt 0x401000) (globalEdits (Ida.ofTypes intDatabase fun _ => none) typedDatabase
    [pressMain 'N' (ascii "start"), .work mainDatabase, pressMain 'N' (ascii "entry"), pressMain 'Y' (ascii "int;")])) =
    (some (ascii "entry"), some none) := by
  decide

end Yagi
