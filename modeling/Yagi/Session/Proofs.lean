import Yagi.Session.Spec
import Yagi.Keyboard.Proofs

/-!
# What a session edits

A key edits the annotations of one function at one location, or none at all. The
netnodes are those that the edits leave.
-/

open Text Store Runs Journal

namespace Yagi

open Keyboard IdaSymbolInfoFactory IdaFunctionSymbolInfo SessionEvent

variable {Ty : Type} (ida : Ida Ty)

/-! ## One key -/

theorem dialog_db (db : Database Ty) (name : Str) (confirmed : Str → Option (Database Ty)) :
    (dialog ida db name confirmed).db = ((ida.ask_str name).bind fun answer => confirmed (c_str answer)).getD db := by
  unfold dialog
  cases (ida.ask_str name).bind fun answer => confirmed (c_str answer) <;> rfl

theorem dialog_nodes (db : Database Ty) (name : Str) (confirmed : Str → Option (Database Ty))
    (h : ∀ answer db', confirmed answer = some db' → db'.nodes = db.nodes) :
    (dialog ida db name confirmed).db.nodes = db.nodes := by
  rw [dialog_db]
  cases hconfirmed : (ida.ask_str name).bind fun answer => confirmed (c_str answer) with
  | none => rfl
  | some db' =>
    obtain ⟨answer, -, hdb⟩ := Option.bind_eq_some_iff.mp hconfirmed
    exact h _ db' hdb

theorem keyEdit_name (answer : Str → Option Str) (text : Str) (loc : MemoryLocation) (func : UInt64)
    (hram : loc.spaceName ≠ ascii "ram") : keyEdit ida answer text loc 'N'.toNat func =
      (answer (c_str text)).map fun name => .saveName func loc (c_str name) := by
  unfold keyEdit
  rw [if_neg (by decide), if_neg hram, if_pos rfl]

theorem keyEdit_type (answer : Str → Option Str) (text : Str) (loc : MemoryLocation) (func : UInt64)
    (hram : loc.spaceName ≠ ascii "ram") : keyEdit ida answer text loc 'Y'.toNat func =
      ((answer []).bind fun decl => ida.types.parse_decl (c_str decl)).map fun newType => .saveType func loc newType := by
  unfold keyEdit
  rw [if_neg (by decide), if_neg hram, if_neg (by decide), if_pos rfl]

/-- The netnodes are those that an edit leaves, if there is one. -/
def Edited (db : Database Ty) (edit : Option (Call Ty)) (nodes : NetNodes) : Prop :=
  nodes = (edit.map (Call.apply ida.types db.nodes)).getD db.nodes

def functionEdit (answer : Str → Option Str) (text : Str) (loc : MemoryLocation) (key : Int)
    (functionSymbolInfo : Option FunctionSymbolInfo) : Option (Call Ty) :=
  functionSymbolInfo.bind fun function => keyEdit ida answer text loc key function.getAddress

variable (answer : Str → Option Str) (functionSymbolInfo : Option FunctionSymbolInfo) (text : Str)
  (loc : MemoryLocation) (db : Database Ty)

theorem functionEdit_ram (key : Int) (hkey : key ≠ 'C'.toNat) (hram : loc.spaceName = ascii "ram") :
    functionEdit ida answer text loc key functionSymbolInfo = none := by
  cases functionSymbolInfo with
  | none => rfl
  | some function =>
    show keyEdit ida answer text loc key function.getAddress = none
    rw [keyEdit, if_neg hkey, if_pos hram]

theorem rename_nodes (hida : ida.KeepsNodes) :
    Edited ida db (functionEdit ida answer text loc 'N'.toNat functionSymbolInfo)
      (rename (ida.answering answer) functionSymbolInfo text loc db).db.nodes := by
  unfold Edited rename
  by_cases hram : loc.spaceName = ascii "ram"
  · rw [functionEdit_ram ida answer functionSymbolInfo text loc _ (by decide) hram, if_pos hram]
    cases IdaSymbolInfoFactory.find db loc.offset with
    | none => rfl
    | some symbolInfo =>
      refine dialog_nodes _ db _ _ fun name db' hdb => ?_
      rw [← Option.some.inj hdb]
      exact hida.set_name _ _ _
  · rw [if_neg hram]
    cases functionSymbolInfo with
    | none => rfl
    | some function =>
      rw [functionEdit, Option.bind_some, keyEdit_name ida answer text loc _ hram]
      simp only [dialog_db]
      show (((answer (c_str text)).bind _).getD db).nodes = _
      cases answer (c_str text) <;> rfl

theorem retype_nodes (hida : ida.KeepsNodes) (out : KeyOutcome Ty)
    (hout : retype (ida.answering answer) functionSymbolInfo text loc db = .ok out) :
    Edited ida db (functionEdit ida answer text loc 'Y'.toNat functionSymbolInfo) out.db.nodes := by
  unfold Edited
  unfold retype at hout
  by_cases hram : loc.spaceName = ascii "ram"
  · rw [functionEdit_ram ida answer functionSymbolInfo text loc _ (by decide) hram]
    rw [if_pos hram] at hout
    cases hbuild : build (ida.answering answer) db loc.offset with
    | none =>
      simp only [hbuild, Except.ok.injEq] at hout
      rw [← hout]
      rfl
    | some typeInfo =>
      simp only [hbuild, Except.ok.injEq] at hout
      rw [← hout]
      refine dialog_nodes _ db _ _ fun decl db' hdb => ?_
      obtain ⟨newType, -, rfl⟩ := Option.map_eq_some_iff.mp hdb
      exact hida.set_tinfo _ _ _
  · unfold functionEdit
    simp only [keyEdit_type ida answer text loc _ hram]
    rw [if_neg hram] at hout
    cases hparse : (answer []).bind fun decl => ida.types.parse_decl (c_str decl) with
    | none =>
      simp only [Ida.answering, hparse, Except.ok.injEq] at hout
      rw [← hout]
      cases functionSymbolInfo <;> rfl
    | some newType =>
      cases functionSymbolInfo with
      | none => simp [Ida.answering, hparse] at hout
      | some function =>
        simp only [Ida.answering, hparse, Except.ok.injEq] at hout
        rw [← hout]
        rfl

theorem clear_nodes (out : KeyOutcome Ty) (hout : clear functionSymbolInfo loc db = .ok out) :
    Edited ida db (functionEdit ida answer text loc 'C'.toNat functionSymbolInfo) out.db.nodes := by
  unfold clear at hout
  cases functionSymbolInfo with
  | none => simp at hout
  | some function =>
    simp only [Except.ok.injEq] at hout
    rw [← hout]
    rfl

theorem raising_edits_nothing (code : Decompiler.Result) (key : Int) (e : KeyError)
    (hloc : code.symbolAddress text = some loc) (hfunction : find_function db code.ea = .ok functionSymbolInfo)
    (hraise : keyboardCallback (ida.answering answer) code (some text) key 0 db = .error e) :
    functionSymbolInfo = none := by
  by_contra hfound
  obtain ⟨out, hout⟩ := (key_returns (ida.answering answer) code key db text loc functionSymbolInfo hloc hfunction).mpr
    fun hnone => absurd hnone hfound
  rw [hraise] at hout
  cases hout

theorem key_nodes (hida : ida.KeepsNodes) (code : Decompiler.Result) (key : Int) (out : KeyOutcome Ty)
    (hloc : code.symbolAddress text = some loc) (hfunction : find_function db code.ea = .ok functionSymbolInfo)
    (hout : keyboardCallback (ida.answering answer) code (some text) key 0 db = .ok out) :
    Edited ida db (functionEdit ida answer text loc key functionSymbolInfo) out.db.nodes := by
  unfold keyboardCallback at hout
  simp only [hloc, hfunction, ne_eq, not_true_eq_false, if_false] at hout
  -- A key that is none of the four, or X, edits nothing.
  have hother : key ≠ 'N'.toNat → key ≠ 'Y'.toNat → key ≠ 'C'.toNat →
      functionEdit ida answer text loc key functionSymbolInfo = none := by
    intro hn hy hc
    cases functionSymbolInfo with
    | none => rfl
    | some function =>
      show keyEdit ida answer text loc key function.getAddress = none
      unfold keyEdit
      rw [if_neg hc, if_neg hn, if_neg hy, ite_self]
  by_cases hx : key = 'X'.toNat
  · subst hx
    rw [if_pos rfl] at hout
    cases hout
    rw [hother (by decide) (by decide) (by decide)]
    unfold xrefs
    split <;> rfl
  rw [if_neg hx] at hout
  by_cases hn : key = 'N'.toNat
  · subst hn
    rw [if_pos rfl] at hout
    cases hout
    exact rename_nodes ida answer functionSymbolInfo text loc db hida
  rw [if_neg hn] at hout
  by_cases hy : key = 'Y'.toNat
  · subst hy
    rw [if_pos rfl] at hout
    exact retype_nodes ida answer functionSymbolInfo text loc db hida out hout
  rw [if_neg hy] at hout
  by_cases hc : key = 'C'.toNat
  · subst hc
    rw [if_pos rfl] at hout
    exact clear_nodes ida answer functionSymbolInfo text loc db out hout
  · rw [if_neg hc] at hout
    cases hout
    rw [hother hn hy hc]
    rfl

/-! ## One event -/

theorem edit_press (window : Window) (key : Int) (hloc : window.code.symbolAddress text = some loc)
    (hfunction : find_function db window.code.ea = .ok functionSymbolInfo) :
    edit ida db (.press window (some text) key 0 answer) = functionEdit ida answer text loc key functionSymbolInfo := by
  simp only [edit, if_true, Option.bind_eq_bind, Option.bind_some, hloc, hfunction]
  cases functionSymbolInfo <;> rfl

theorem press_edits (hida : ida.KeepsNodes) (window : Window) (keyword : Option Str) (key shift : Int) :
    Edited ida db (edit ida db (.press window keyword key shift answer))
      (apply ida db (.press window keyword key shift answer)).nodes := by
  by_cases hshift : shift = 0
  · subst hshift
    cases keyword with
    | none => rfl
    | some text =>
      cases hloc : window.code.symbolAddress text with
      | none =>
        simp only [edit, apply, keyboardCallback, hloc, if_true, Option.bind_eq_bind, Option.bind_some,
          Option.bind_none, ne_eq, not_true_eq_false, if_false]
        rfl
      | some loc =>
        cases hfunction : find_function db window.code.ea with
        | error e =>
          simp only [edit, apply, keyboardCallback, hloc, hfunction, if_true, Option.bind_eq_bind, Option.bind_some,
            ne_eq, not_true_eq_false, if_false]
          rfl
        | ok functionSymbolInfo =>
          rw [edit_press ida answer functionSymbolInfo text loc db window key hloc hfunction]
          cases hkey : keyboardCallback (ida.answering answer) window.code (some text) key 0 db with
          | ok out =>
            simp only [apply, hkey]
            exact key_nodes ida answer functionSymbolInfo text loc db hida window.code key out hloc hfunction hkey
          | error e =>
            have hnone := raising_edits_nothing ida answer functionSymbolInfo text loc db window.code key e hloc
              hfunction hkey
            subst hnone
            simp only [apply, hkey]
            rfl
  · simp only [edit, apply, keyboardCallback, if_neg hshift, if_pos hshift]
    rfl

/-- **One event.** It edits once or not at all, and the edit is all that is seen of it in the netnodes. -/
theorem event_edits (hida : ida.KeepsNodes) :
    Edits (apply ida) (edit ida) (fun db => db.nodes) (Call.apply ida.types) := by
  intro db event
  cases event with
  | press window keyword key shift answer => exact press_edits ida answer db hida window keyword key shift
  | work db' => rfl

theorem session_nodes (hida : ida.KeepsNodes) (events : List (SessionEvent Ty)) :
    (session ida db events).nodes = Call.run ida.types db.nodes (edits ida db events) :=
  see_run (apply ida) (edit ida) (fun db => db.nodes) (Call.apply ida.types) (event_edits ida hida) db events

/-! ## Who edits -/

/-- The edit of a key is about the location of the text, in the function that lies there. -/
structure KeyEdits (loc : MemoryLocation) (key : Int) (func : UInt64) (call : Call Ty) : Prop where
  location : call.location = loc
  function : call.target.1 = func
  kind : call.target.2 = .name ↔ key = 'N'.toNat
  value : ∀ f l name, call = .saveName f l name → NoNul name

theorem keyEdit_edits (key : Int) (func : UInt64) (call : Call Ty)
    (h : keyEdit ida answer text loc key func = some call) : KeyEdits loc key func call := by
  unfold keyEdit at h
  split at h
  · rename_i hkey
    cases h
    exact ⟨rfl, rfl, by simp [Call.target, hkey], by simp⟩
  split at h
  · simp at h
  split at h
  · rename_i hkey
    obtain ⟨name, -, rfl⟩ := Option.map_eq_some_iff.mp h
    refine ⟨rfl, rfl, by simp [Call.target, hkey], ?_⟩
    rintro f l value ⟨⟩
    exact c_str_noNul name
  split at h
  · rename_i hkey
    obtain ⟨newType, -, rfl⟩ := Option.map_eq_some_iff.mp h
    exact ⟨rfl, rfl, by simp [Call.target, hkey], by simp⟩
  · simp at h

/-- Key `key` is pressed on `text` after the events of `before`, in a window whose function is now at `func`. -/
structure PressedOn (events before : List (SessionEvent Ty)) (window : Window) (text : Str) (key : Int)
    (answer : Str → Option Str) (loc : MemoryLocation) (func : UInt64) : Prop where
  event : ∃ after, events = before ++ .press window (some text) key 0 answer :: after
  location : window.code.symbolAddress text = some loc
  function : ∃ functionName, find_function (session ida db before) window.code.ea = .ok (some ⟨func, functionName⟩)

theorem edit_pressed (event : SessionEvent Ty) (call : Call Ty) (h : edit ida db event = some call) :
    ∃ window text key answer loc function, event = .press window (some text) key 0 answer ∧
      window.code.symbolAddress text = some loc ∧ find_function db window.code.ea = .ok (some function) ∧
      keyEdit ida answer text loc key function.getAddress = some call := by
  cases event with
  | work db' => simp [edit] at h
  | press window keyword key shift answer =>
    simp only [edit] at h
    split at h
    · rename_i hshift
      simp only [Option.bind_eq_bind, Option.bind_eq_some_iff] at h
      obtain ⟨text, rfl, loc, hloc, found, hfound, function, rfl, hcall⟩ := h
      subst hshift
      refine ⟨window, text, key, answer, loc, function, rfl, hloc, ?_, hcall⟩
      cases hfunction : find_function db window.code.ea with
      | error e => simp [hfunction, Except.toOption] at hfound
      | ok found =>
        simp only [hfunction, Except.toOption, Option.some.injEq] at hfound
        rw [hfound]
    · simp at h

/-- **Asked for.** Every edit of a session is that of a key which the user pressed on its location. -/
theorem mem_edits (events : List (SessionEvent Ty)) (call : Call Ty) (h : call ∈ edits ida db events) :
    ∃ before window text key answer, PressedOn ida db events before window text key answer call.location call.target.1 ∧
      keyEdit ida answer text call.location key call.target.1 = some call := by
  obtain ⟨before, event, after, rfl, hedit⟩ := (mem_journal (apply ida) (edit ida) db events call).mp h
  obtain ⟨window, text, key, answer, loc, function, rfl, hloc, hfunction, hcall⟩ := edit_pressed ida _ event call hedit
  have hedits := keyEdit_edits ida answer text loc key function.getAddress call hcall
  have hlocation := hedits.location
  have htarget := hedits.function
  subst hlocation
  refine ⟨before, window, text, key, answer, ⟨⟨after, rfl⟩, hloc, function.getName, ?_⟩, ?_⟩
  · rw [htarget]
    exact hfunction
  · rw [htarget]
    exact hcall

theorem edits_noNul (events : List (SessionEvent Ty)) (call : Call Ty) (h : call ∈ edits ida db events) :
    NoNul call.location.spaceName ∧ ∀ f l name, call = .saveName f l name → NoNul name := by
  obtain ⟨before, window, text, key, answer, hpressed, hcall⟩ := mem_edits ida db events call h
  exact ⟨window.noNul text _ hpressed.location, (keyEdit_edits ida answer text _ key _ call hcall).value⟩

end Yagi
