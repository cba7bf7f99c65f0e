import Yagi.Plugin.Shown

/-!
# A key in a window

After an edit the plugin is run inside the callback. That returns if the function on
the screen, as the edit leaves it, can be decompiled.
-/

open Text Effect

namespace Yagi

open Keyboard IdaSymbolInfoFactory IdaFunctionSymbolInfo

/-! ## The database of the inner run -/

section

variable {Ty : Type} (ida : Ida Ty) (ea : UInt64) (key : Int) (text : Str) (loc : MemoryLocation) (db : Database Ty)

/-- The databases that the plugin is run on after a confirmed name, up to saved names. -/
def RenameReruns (db' : Database Ty) : Prop :=
  if loc.spaceName = ascii "ram" then
    ∃ m_name answer, find db loc.offset = some m_name ∧
      ida.ask_str (c_str ((IdaSymbolInfo.mk loc.offset m_name).getName (ida.program db))) = some answer ∧
      db' = ida.set_name loc.offset (c_str answer) db
  else db.get_func ea ≠ none ∧ (∃ answer, ida.ask_str (c_str text) = some answer) ∧ db' = db

/-- The databases that it is run on after a confirmed declaration, up to saved types. -/
def RetypeReruns (db' : Database Ty) : Prop :=
  if loc.spaceName = ascii "ram" then
    ∃ typeInfo decl newType, build ida db loc.offset = some typeInfo ∧
      ida.ask_str (c_str (TypeNames.printDeclType ⟨ida.types.getName, ida.toFunc⟩ text typeInfo)) = some decl ∧
      ida.types.parse_decl (c_str decl) = some newType ∧ db' = ida.set_tinfo loc.offset newType db
  else
    db.get_func ea ≠ none ∧
      (∃ decl newType, ida.ask_str [] = some decl ∧ ida.types.parse_decl (c_str decl) = some newType) ∧ db' = db

def ClearReruns (db' : Database Ty) : Prop :=
  (∃ start ∈ db.get_func ea, HasTypeRecord start loc db.nodes) ∧ db' = db

def Reruns (db' : Database Ty) : Prop :=
  (key = 'N'.toNat ∧ RenameReruns ida ea text loc db db') ∨ (key = 'Y'.toNat ∧ RetypeReruns ida ea text loc db db') ∨
    (key = 'C'.toNat ∧ ClearReruns ea loc db db')

/-- Whether a property of databases holds where the plugin is run, if it is. -/
def OutcomeMeets (Q : Database Ty → Prop) (out : KeyOutcome Ty) : Prop := .runYagi ∈ out.events → Q out.db

theorem dialog_meets_iff (Q : Database Ty → Prop) (name : Str) (confirmed : Str → Option (Database Ty)) :
    OutcomeMeets Q (dialog ida db name confirmed) ↔
      ∀ answer db', ida.ask_str name = some answer → confirmed (c_str answer) = some db' → Q db' := by
  unfold OutcomeMeets dialog
  cases hask : ida.ask_str name with
  | none => simp
  | some answer =>
    simp only [Option.some.injEq, Option.bind_some]
    cases hconfirmed : confirmed (c_str answer) with
    | none => grind
    | some db' => grind

theorem clearType_found_iff (func : UInt64) (nodes : NetNodes) :
    (clearType func loc nodes).1 = true ↔ HasTypeRecord func loc nodes := by
  have hloop : ∀ (pcs : List UInt64) (found : Bool) (nodes : NetNodes),
      (pcs.foldl (fun acc pc => (acc.1 || (clearTypeAt func loc.spaceName pc acc.2).1,
        (clearTypeAt func loc.spaceName pc acc.2).2)) (found, nodes)).1 = true ↔
        found = true ∨ ∃ pc ∈ pcs, nodes.valstr (nodeName .type func loc.spaceName pc) ≠ none := by
    intro pcs
    induction pcs with
    | nil => simp
    | cons pc pcs ih =>
      intro found nodes
      rw [List.foldl_cons, ih]
      by_cases hrecord : nodes.valstr (nodeName .type func loc.spaceName pc) = none
      · -- Nothing is deleted, so the other records stay.
        have hkept : (clearTypeAt func loc.spaceName pc nodes).2 = nodes := delvalue_eq_self nodes _ hrecord
        have hmissed : (clearTypeAt func loc.spaceName pc nodes).1 = false := by
          unfold clearTypeAt NetNodes.delvalue
          simp [hrecord]
        simp [hkept, hmissed, hrecord]
      · have hfound : (clearTypeAt func loc.spaceName pc nodes).1 = true := by
          unfold clearTypeAt NetNodes.delvalue
          simp [Option.isSome_iff_ne_none, hrecord]
        simp [hfound, hrecord]
  have hiff := hloop loc.pc false nodes
  rw [or_iff_right Bool.false_ne_true] at hiff
  exact hiff

variable (Q : Database Ty → Prop) (function : Option FunctionSymbolInfo)

theorem rename_meets_iff (hQ : ∀ nodes, Q { db with nodes := nodes } ↔ Q db)
    (hfunction : function.map (·.getAddress) = db.get_func ea) :
    OutcomeMeets Q (rename ida function text loc db) ↔ ∀ db', RenameReruns ida ea text loc db db' → Q db' := by
  unfold rename RenameReruns
  split
  · cases find db loc.offset with
    | none => simp [OutcomeMeets]
    | some m_name =>
      simp only [dialog_meets_iff, Option.some.injEq]
      constructor
      · rintro h db' ⟨_, answer, rfl, hanswer, rfl⟩
        exact h answer _ hanswer rfl
      · rintro h answer db' hanswer rfl
        exact h _ ⟨m_name, answer, rfl, hanswer, rfl⟩
  · rw [← hfunction]
    cases function with
    | none => simp [OutcomeMeets]
    | some function =>
      simp only [dialog_meets_iff, Option.some.injEq]
      constructor
      · rintro h db' ⟨-, ⟨answer, hanswer⟩, rfl⟩
        exact (hQ _).mp (h answer _ hanswer rfl)
      · rintro h answer db' hanswer rfl
        exact (hQ _).mpr (h db ⟨by simp, ⟨answer, hanswer⟩, rfl⟩)

theorem retype_meets_iff (hQ : ∀ nodes, Q { db with nodes := nodes } ↔ Q db)
    (hfunction : function.map (·.getAddress) = db.get_func ea) (out : KeyOutcome Ty)
    (hout : retype ida function text loc db = .ok out) :
    OutcomeMeets Q out ↔ ∀ db', RetypeReruns ida ea text loc db db' → Q db' := by
  unfold retype at hout
  unfold RetypeReruns
  split at hout
  · rename_i hram
    simp only [if_pos hram]
    cases hbuild : build ida db loc.offset with
    | none =>
      simp only [hbuild, Except.ok.injEq] at hout
      subst hout
      simp [OutcomeMeets]
    | some typeInfo =>
      simp only [hbuild, Except.ok.injEq] at hout
      subst hout
      simp only [dialog_meets_iff, Option.map_eq_some_iff]
      constructor
      · rintro h db' ⟨_, decl, newType, hsame, hanswer, hparse, rfl⟩
        obtain rfl := Option.some.inj hsame
        exact h decl _ hanswer ⟨newType, hparse, rfl⟩
      · rintro h decl db' hanswer ⟨newType, hparse, rfl⟩
        exact h _ ⟨typeInfo, decl, newType, rfl, hanswer, hparse, rfl⟩
  · rename_i hlocal
    simp only [if_neg hlocal, ← hfunction]
    cases hask : ida.ask_str [] with
    | none =>
      simp only [hask, Option.bind_none, Except.ok.injEq] at hout
      subst hout
      simp [OutcomeMeets]
    | some decl =>
      cases hparse : ida.types.parse_decl (c_str decl) with
      | none =>
        simp only [hask, hparse, Option.bind_some, Except.ok.injEq] at hout
        subst hout
        simp [OutcomeMeets, hparse]
      | some newType =>
        cases function with
        | none => simp [hask, hparse] at hout
        | some function =>
          simp only [hask, hparse, Option.bind_some, Except.ok.injEq] at hout
          subst hout
          simp [OutcomeMeets, hparse, hQ]

theorem clear_meets_iff (hQ : ∀ nodes, Q { db with nodes := nodes } ↔ Q db)
    (hfunction : function.map (·.getAddress) = db.get_func ea) (out : KeyOutcome Ty)
    (hout : clear function loc db = .ok out) :
    OutcomeMeets Q out ↔ ∀ db', ClearReruns ea loc db db' → Q db' := by
  unfold clear at hout
  unfold ClearReruns
  cases function with
  | none => simp at hout
  | some function =>
    simp only [Except.ok.injEq] at hout
    subst hout
    rw [← hfunction]
    by_cases hrecord : HasTypeRecord function.getAddress loc db.nodes
    · have hfound := (clearType_found_iff loc function.getAddress db.nodes).mpr hrecord
      simp [OutcomeMeets, hfound, hrecord, hQ]
    · have hmissed := mt (clearType_found_iff loc function.getAddress db.nodes).mp hrecord
      simp [OutcomeMeets, hmissed, hrecord]

theorem keys_ne : ¬ ('X'.toNat : Int) = 'N'.toNat ∧ ¬ ('X'.toNat : Int) = 'Y'.toNat ∧ ¬ ('X'.toNat : Int) = 'C'.toNat ∧
    ¬ ('N'.toNat : Int) = 'Y'.toNat ∧ ¬ ('N'.toNat : Int) = 'C'.toNat ∧ ¬ ('Y'.toNat : Int) = 'C'.toNat := by
  decide

theorem symbol_meets_iff (hQ : ∀ nodes, Q { db with nodes := nodes } ↔ Q db) (code : Decompiler.Result)
    (hloc : code.symbolAddress text = some loc) (out : KeyOutcome Ty)
    (hout : keyboardCallback ida code (some text) key 0 db = .ok out) :
    OutcomeMeets Q out ↔ ∀ db', Reruns ida code.ea key text loc db db' → Q db' := by
  unfold keyboardCallback at hout
  unfold Reruns
  cases hfind : find_function db code.ea with
  | error e => simp [hloc, hfind] at hout
  | ok function =>
    have hfunction := find_function_address db code.ea function hfind
    simp only [hloc, hfind, ne_eq, not_true_eq_false, if_false] at hout
    obtain ⟨hxn, hxy, hxc, hny, hnc, hyc⟩ := keys_ne
    by_cases hx : key = 'X'.toNat
    · subst hx
      simp only [if_true, Except.ok.injEq] at hout
      subst hout
      simp only [hxn, hxy, hxc, false_and, or_self, false_imp_iff, implies_true, iff_true]
      unfold OutcomeMeets xrefs
      split <;> simp
    by_cases hn : key = 'N'.toNat
    · subst hn
      simp only [if_neg hx, if_true, Except.ok.injEq] at hout
      subst hout
      simp only [hny, hnc, false_and, or_false, true_and]
      exact rename_meets_iff ida code.ea text loc db Q function hQ hfunction
    by_cases hy : key = 'Y'.toNat
    · subst hy
      simp only [if_neg hx, if_neg hn, if_true] at hout
      simp only [hn, hyc, false_and, or_false, false_or, true_and]
      exact retype_meets_iff ida code.ea text loc db Q function hQ hfunction out hout
    by_cases hc : key = 'C'.toNat
    · subst hc
      simp only [if_neg hx, if_neg hn, if_neg hy, if_true] at hout
      simp only [hn, hy, false_and, false_or, true_and]
      exact clear_meets_iff code.ea loc db Q function hQ hfunction out hout
    · simp only [if_neg hx, if_neg hn, if_neg hy, if_neg hc, Except.ok.injEq] at hout
      subst hout
      simp only [hn, hy, hc, false_and, or_self, false_imp_iff, implies_true, iff_true]
      simp [OutcomeMeets]

theorem callback_meets_iff (hQ : ∀ nodes, Q { db with nodes := nodes } ↔ Q db) (code : Decompiler.Result)
    (keyword : Option Str) (shift : Int) (out : KeyOutcome Ty)
    (hout : keyboardCallback ida code keyword key shift db = .ok out) :
    OutcomeMeets Q out ↔
      (shift = 0 → ∀ text loc, keyword = some text → code.symbolAddress text = some loc →
        ∀ db', Reruns ida code.ea key text loc db db' → Q db') := by
  have hidle : OutcomeMeets Q ⟨false, db, []⟩ := fun hrun => absurd hrun List.not_mem_nil
  by_cases hshift : shift = 0
  · subst hshift
    cases keyword with
    | none =>
      obtain rfl : ⟨false, db, []⟩ = out := Except.ok.inj hout
      exact iff_of_true hidle fun _ text loc htext => absurd htext (by simp)
    | some text =>
      cases hloc : code.symbolAddress text with
      | none =>
        obtain rfl : ⟨false, db, []⟩ = out := by simpa [keyboardCallback, hloc] using hout
        refine iff_of_true hidle ?_
        rintro - _ loc ⟨⟩ hsome
        rw [hloc] at hsome
        cases hsome
      | some loc =>
        rw [symbol_meets_iff ida key text loc db Q hQ code hloc out hout]
        constructor
        · rintro h - _ loc' ⟨⟩ hsome
          rw [hloc] at hsome
          cases hsome
          exact h
        · exact fun h => h rfl text loc rfl hloc
  · obtain rfl : ⟨false, db, []⟩ = out := by simpa [keyboardCallback, hshift] using hout
    exact iff_of_true hidle fun h => absurd h hshift

end

/-! ## The event -/

namespace Plugin

variable {σ Sym γ GSym D Ty φ Op Vn Block : Type} (P : PluginContext σ Sym γ GSym D Ty φ Op Vn Block)

section

variable (desk : Desk Ty γ) (window row : Nat) (place : Option Nat) (w : Widget) (code : Decompiler.Printed)
  (hw : desk.widgets[window]? = some w) (hcode : desk.heap.cells w.ud = some code) (keyword : Option Str)
  (hkeyword : computeKeyword (w.viewer row place) = .ok keyword) (k shift : Int) (answer : Str → Option Str)
  (screen_ea : UInt64) (Q : Unit → Desk Ty γ → Prop) (E : PluginCrash → Desk Ty γ → Prop)

include hw hcode hkeyword

theorem act_key_ok (out : KeyOutcome Ty)
    (hout : keyboardCallback (P.ida.answering answer) code.toResult keyword k shift desk.db = .ok out) :
    Post Q E (act P (.key window row place k shift answer screen_ea) desk) ↔
      Post Q E ((if .runYagi ∈ out.events then run P screen_ea else pure ()) { desk with db := out.db }) := by
  unfold act request withWidget
  simp only [post_bind, post_get, hw]
  unfold key
  by_cases hshift : shift = 0
  · subst hshift
    simp only [ne_eq, not_true_eq_false, if_false]
    unfold withKeyword
    simp only [hkeyword]
    cases keyword with
    | none =>
      obtain rfl : ⟨false, desk.db, []⟩ = out := Except.ok.inj hout
      simp
    | some keyword =>
      simp only [post_bind, post_get, hcode]
      unfold keyOn
      simp only [post_bind, post_get, post_pure, hout, post_modify]
      split <;> rfl
  · have hunhandled : keyboardCallback (P.ida.answering answer) code.toResult keyword k shift desk.db =
      .ok ⟨false, desk.db, []⟩ := if_pos hshift
    obtain rfl := Except.ok.inj (hunhandled.symm.trans hout)
    simp [hshift]

end

theorem run_returns_iff [DecidableEq GSym] (desk : Desk Ty γ) (h : desk.WellFormed) (screen_ea : UInt64)
    (hS : (P.decompiler desk.db).proxy.Laws)
    (hfind : FindsSymbols (P.decompiler desk.db).program desk.db (P.decompiler desk.db).archi) :
    Post (fun _ desk' => desk'.db = desk.db) (fun _ _ => False) (run P screen_ea desk) ↔
      Decompilable desk.db screen_ea := by
  rw [← decompile_returns_iff (P.decompiler desk.db) desk.db hS hfind screen_ea desk.proxy]
  unfold run
  simp only [post_bind, post_get]
  rcases decompile (P.decompiler desk.db) desk.db screen_ea desk.proxy with ⟨crash | _ | code, proxy⟩
  · simp
  · simp
  · obtain ⟨desk', hview, hchanged⟩ := view_ok { desk with proxy := proxy } h code
    simp [hview, hchanged.db]

theorem act_key_iff [DecidableEq GSym] (hS : ∀ db, (P.decompiler db).proxy.Laws)
    (hfind : ∀ db, FindsSymbols (P.decompiler db).program db (P.decompiler db).archi) (desk : Desk Ty γ)
    (hdesk : desk.WellFormed) (window row : Nat) (place : Option Nat) (w : Widget) (code : Decompiler.Printed)
    (hw : desk.widgets[window]? = some w) (hcode : desk.heap.cells w.ud = some code) (keyword : Option Str)
    (hkeyword : computeKeyword (w.viewer row place) = .ok keyword) (k shift : Int) (answer : Str → Option Str)
    (screen_ea : UInt64) (out : KeyOutcome Ty)
    (hout : keyboardCallback (P.ida.answering answer) code.toResult keyword k shift desk.db = .ok out) :
    (∃ desk', act P (.key window row place k shift answer screen_ea) desk = .ok () desk' ∧ desk'.db = out.db) ↔
      OutcomeMeets (Decompilable · screen_ea) out := by
  have hact := act_key_ok P desk window row place w code hw hcode keyword hkeyword k shift answer screen_ea
    (fun _ desk' => desk'.db = out.db) (fun _ _ => False) out hout
  rw [post_iff_exists] at hact
  refine Iff.trans ⟨fun ⟨desk', h⟩ => ⟨(), desk', h⟩, fun ⟨_, desk', h⟩ => ⟨desk', h⟩⟩ (hact.trans ?_)
  unfold OutcomeMeets
  by_cases hrun : .runYagi ∈ out.events
  · simp only [hrun, if_true, true_imp_iff]
    exact run_returns_iff P { desk with db := out.db } hdesk screen_ea (hS _) (hfind _)
  · simp [hrun]

/-- **A key press.** The callback and the run of the plugin inside it return, and only what is confirmed is written,
if and only if the function of the window can be read, where the key is for a symbol, and the function on the screen
can be decompiled after the edit. -/
theorem key_press_safe_iff [DecidableEq GSym] (hS : ∀ db, (P.decompiler db).proxy.Laws)
    (hfind : ∀ db, FindsSymbols (P.decompiler db).program db (P.decompiler db).archi) (desk : Desk Ty γ)
    (hdesk : desk.WellFormed) (window row : Nat) (place : Option Nat) (w : Widget) (code : Decompiler.Printed)
    (hw : desk.widgets[window]? = some w) (hcode : desk.heap.cells w.ud = some code) (keyword : Option Str)
    (hkeyword : computeKeyword (w.viewer row place) = .ok keyword) (k shift : Int) (answer : Str → Option Str)
    (screen_ea : UInt64) :
    (∃ out desk', keyboardCallback (P.ida.answering answer) code.toResult keyword k shift desk.db = .ok out ∧
        WritesConfirmed (P.ida.answering answer) code.toResult keyword k desk.db out ∧
        act P (.key window row place k shift answer screen_ea) desk = .ok () desk' ∧ desk'.db = out.db) ↔
      (shift = 0 → ∀ text loc, keyword = some text → code.symbolAddress text = some loc →
        FunctionReadable (P.ida.answering answer) code.toResult k desk.db loc ∧
          ∀ db', Reruns (P.ida.answering answer) code.ea k text loc desk.db db' → Decompilable db' screen_ea) := by
  have hreturns := callback_returns_iff (P.ida.answering answer) code.toResult keyword k desk.db shift
  have hmeets := callback_meets_iff (P.ida.answering answer) k desk.db (Decompilable · screen_ea) (fun _ => Iff.rfl)
    code.toResult keyword shift
  have hact := act_key_iff P hS hfind desk hdesk window row place w code hw hcode keyword hkeyword k shift answer
    screen_ea
  constructor
  · rintro ⟨out, desk', hout, -, hreturned⟩ hshift text loc htext hloc
    refine ⟨hreturns.mp ⟨out, hout⟩ hshift text loc htext hloc, ?_⟩
    exact (hmeets out hout).mp ((hact out hout).mp ⟨desk', hreturned⟩) hshift text loc htext hloc
  · intro hsafe
    obtain ⟨out, hout⟩ := hreturns.mpr fun hshift text loc htext hloc => (hsafe hshift text loc htext hloc).1
    have hdecompilable := (hmeets out hout).mpr fun hshift text loc htext hloc =>
      (hsafe hshift text loc htext hloc).2
    obtain ⟨desk', hreturned⟩ := (hact out hout).mpr hdecompilable
    exact ⟨out, desk', hout, writes_confirmed _ code.toResult keyword k desk.db shift out hout, hreturned⟩

/-! ## A window on `main` -/

def mainCode : Decompiler.Printed :=
  ⟨⟨0x401000, mainSymbols⟩, ascii "main", printedText helloLines, mainSymbols_noNul⟩

def mainDesk : Desk Unit SymbolCache := open_window mainCode (Desk.start mainDatabase [])

def mainWidget : Widget := ⟨ascii "main", lines (printedText helloLines), 0⟩

theorem mainDesk_wellFormed : mainDesk.WellFormed :=
  (open_changed (Desk.start mainDatabase []) (safe_start mainDatabase []).wellFormed mainCode
    fun _ hw => absurd hw List.not_mem_nil).wellFormed

theorem mainDesk_widget : mainDesk.widgets[0]? = some mainWidget := by rfl

theorem mainWidget_keyword : computeKeyword (mainWidget.viewer 0 (some 1)) = .ok (some (ascii "main")) := by
  decide

theorem key_press_safe_iff_main :
    let ida := mainPlugin.ida.answering fun _ => some (ascii "start")
    (∃ out desk', keyboardCallback ida mainCode.toResult (some (ascii "main")) 'N'.toNat 0 mainDatabase = .ok out ∧
        WritesConfirmed ida mainCode.toResult (some (ascii "main")) 'N'.toNat mainDatabase out ∧
        act mainPlugin (.key 0 0 (some 1) 'N'.toNat 0 (fun _ => some (ascii "start")) 0x401004) mainDesk =
          .ok () desk' ∧ desk'.db = out.db) ↔
      ((0 : Int) = 0 → ∀ text loc, some (ascii "main") = some text → mainCode.symbolAddress text = some loc →
        FunctionReadable ida mainCode.toResult 'N'.toNat mainDatabase loc ∧
          ∀ db', Reruns ida mainCode.ea 'N'.toNat text loc mainDatabase db' → Decompilable db' 0x401004) :=
  key_press_safe_iff mainPlugin (fun _ => SymbolCache.scope_laws) (fun _ _ => rfl) mainDesk mainDesk_wellFormed 0 0
    (some 1) mainWidget mainCode mainDesk_widget rfl (some (ascii "main")) mainWidget_keyword 'N'.toNat 0 _ 0x401004

-- A name without a token is written, and ends the run of the plugin inside the callback.
example :
    succeeds (act mainPlugin (.key 0 0 (some 1) 'N'.toNat 0 (fun _ => some (ascii "start")) 0x401004) mainDesk) =
        true ∧
      succeeds (act mainPlugin (.key 0 0 (some 1) 'N'.toNat 0 (fun _ => some (ascii "(start)")) 0x401004) mainDesk) =
        false := by
  decide +kernel

end Plugin

end Yagi
