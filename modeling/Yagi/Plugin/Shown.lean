import Yagi.Plugin.Proofs
import Yagi.Session.Globals
import Yagi.Session.RoundTrip

/-!
# What open windows show

A window shows the function as it was when it was opened: with all that had been given
up to then, in any window.
-/

open Text Runs Journal Effect

namespace Yagi

namespace Plugin

variable {σ Sym γ GSym D Ty φ Op Vn Block : Type} (P : PluginContext σ Sym γ GSym D Ty φ Op Vn Block)

/-! ## What was decompiled -/

theorem shows_decompiled (desk : Desk Ty γ) (h : desk.WellFormed) (event : PluginEvent Ty) (code : Decompiler.Printed)
    (hshows : whileRunning (shows P) desk event = some code) :
    ∃ screen_ea proxy, (decompile (P.decompiler (step P desk event).db) (step P desk event).db screen_ea proxy).1 =
      .ok (some code) := by
  have hdb := (step_changed P desk h event).2.2
  have hrequest := (request_ends P desk h event).1
  unfold whileRunning shows at hshows
  unfold whileRunning at hdb
  by_cases hcrash : desk.crash.isSome
  · simp [hcrash] at hshows
  · rw [if_neg hcrash] at hshows hdb
    cases hfound : request P event desk with
    | error crash t => simp [hfound] at hshows
    | ok found t =>
      have ht := (hrequest.of_ok found t hfound).db
      cases found with
      | none => simp [hfound] at hshows
      | some screen_ea =>
        refine ⟨screen_ea, t.proxy, ?_⟩
        rw [hdb, ← ht]
        simp only [hfound, result] at hshows
        cases hanswer : (decompile (P.decompiler t.db) t.db screen_ea t.proxy).1 with
        | error crash => simp [hanswer, Except.toOption] at hshows
        | ok answer =>
          simp only [hanswer, Except.toOption, Option.join_some] at hshows
          rw [hshows]

theorem shows_of_changes (desk : Desk Ty γ) (event : PluginEvent Ty) (title : Str) (code : Decompiler.Printed)
    (h : (whileRunning (changes P) desk event).bind (Store.Edit.at title) = some (some code)) :
    whileRunning (shows P) desk event = some code ∧ title = c_str code.name := by
  unfold whileRunning at h ⊢
  by_cases hcrash : desk.crash.isSome
  · simp [hcrash] at h
  · rw [if_neg hcrash] at h ⊢
    obtain ⟨edit, hedit, hat⟩ := Option.bind_eq_some_iff.mp h
    unfold changes at hedit
    unfold Store.Edit.at at hat
    split at hat
    · rename_i hkey
      rcases Option.or_eq_some_iff.mp hedit with hcloses | ⟨-, hshows⟩
      · cases event <;> simp [closes] at hcloses
        obtain ⟨w, -, rfl⟩ := hcloses
        simp at hat
      · obtain ⟨shown, hshown, rfl⟩ := Option.map_eq_some_iff.mp hshows
        obtain rfl : shown = code := by simpa using hat
        exact ⟨hshown, hkey.symm⟩
    · simp at hat

theorem showing_of_decompile (db : Database Ty) (proxy : γ) (screen_ea : UInt64) (code : Decompiler.Printed)
    (h : (decompile (P.decompiler db) db screen_ea proxy).1 = .ok (some code)) :
    (Runs.run (step P) (Desk.start db proxy) [.run screen_ea]).showing (c_str code.name) = some code := by
  have hresult : result P screen_ea (Desk.start db proxy) = some code := by
    show (decompile (P.decompiler db) db screen_ea proxy).1.toOption.join = some code
    rw [h]
    rfl
  have hedits : windowEdits P db proxy [.run screen_ea] =
      ((result P screen_ea (Desk.start db proxy)).map fun code => ⟨c_str code.name, some code⟩).toList ++ [] := rfl
  rw [run_showing, hedits, hresult]
  simp [Store.Edit.at]

theorem legible_before (db : Database Ty) (proxy : γ) (before after : List (PluginEvent Ty))
    (h : Legible P.ida (Yagi.edits P.ida db (sessionEvents P db proxy (before ++ after)))) :
    Legible P.ida (Yagi.edits P.ida db (sessionEvents P db proxy before)) := by
  unfold sessionEvents Yagi.edits at h ⊢
  rw [journal_append, journal_append] at h
  constructor
  · intro f loc n hmem
    exact h.names f loc n (List.mem_append_left _ hmem)
  · intro f loc t hmem
    exact h.types f loc t (List.mem_append_left _ hmem)

theorem work_of_edits (desk : Desk Ty γ) (event : PluginEvent Ty) (db : Database Ty)
    (h : whileRunning edits desk event = some (.work db)) : event = .work db := by
  unfold whileRunning at h
  split at h
  · simp at h
  · cases event with
    | work db' =>
      simp only [edits, Option.some.injEq, SessionEvent.work.injEq] at h
      rw [h]
    | key window row place k shift answer screen_ea =>
      obtain ⟨w, -, hpressed⟩ := Option.bind_eq_some_iff.mp h
      unfold pressed at hpressed
      split at hpressed
      · simp at hpressed
      · split at hpressed <;> simp at hpressed
    | run screen_ea => simp [edits] at h
    | doubleClick window row place => simp [edits] at h
    | close window => simp [edits] at h

theorem run_funcsStart (hida : P.ida.SetsGlobals) (db : Database Ty) (hdb : db.FuncsStart) (proxy : γ)
    (events : List (PluginEvent Ty)) (hwork : ∀ db', .work db' ∈ events → db'.FuncsStart) :
    (Runs.run (step P) (Desk.start db proxy) events).db.FuncsStart := by
  induction events using List.reverseRecOn with
  | nil => exact hdb
  | append_singleton events event ih =>
    have hbefore := ih fun db' hmem => hwork db' (List.mem_append_left _ hmem)
    rw [run_append, run_singleton, (step_changed P _ (run_safe P db proxy events).wellFormed event).2.2]
    unfold dbAfter
    cases hedit : whileRunning edits (Runs.run (step P) (Desk.start db proxy) events) event with
    | none => exact hbefore
    | some edit =>
      refine apply_funcsStart P.ida _ hida hbefore edit ?_
      rintro db' rfl
      exact hwork db' (by simp [work_of_edits _ event db' hedit])

/-! ## What is shown -/

section

variable [DecidableEq Sym] [DecidableEq GSym]

/-- The plugin runs on the decompiler that is built for a compiler, whatever the database. -/
structure Built (hasAttribute : σ → Sym → Attribute → Prop) (compilerType : Compiler) : Prop where
  keepsNodes : P.ida.KeepsNodes
  setsGlobals : P.ida.SetsGlobals
  decompiler : ∀ db, (P.decompiler db).Laws hasAttribute P.ida db compilerType

/-- What an open window shows was decompiled at the last event that did something to its title, for the function
that was on the screen, with all names and types that had been given last up to that event. -/
structure OpenedBy (hasAttribute : σ → Sym → Attribute → Prop) (db : Database Ty) (proxy : γ)
    (before : List (PluginEvent Ty)) (event : PluginEvent Ty) (after : List (PluginEvent Ty)) (title : Str)
    (code : Decompiler.Printed) (screen_ea : UInt64) (st : γ) : Prop where
  last : Decides (step P) (whileRunning (changes P)) (Store.Edit.at title) (Desk.start db proxy) before event after
    (some code)
  title : title = c_str code.name
  function : (session P.ida db (sessionEvents P db proxy (before ++ [event]))).get_func screen_ea = some code.ea
  given : code.ShowsGiven (P.decompiler (session P.ida db (sessionEvents P db proxy (before ++ [event])))) hasAttribute
    P.ida db (sessionEvents P db proxy (before ++ [event])) screen_ea st

end

/-! ## A window on `main` -/

def mainPlugin : PluginContext (SymbolTable Int32) Nat SymbolCache Nat Int32 Unit PcodeTable Nat (Address × Int32) Unit :=
  ⟨Ida.ofTypes intDatabase fun _ => none, fun _ _ => none, mainContext⟩

theorem mainPlugin_built : Built mainPlugin SymbolTable.hasAttribute ⟨.X86_WINDOWS, .LE, .M32⟩ where
  keepsNodes := ⟨fun _ _ _ => rfl, fun _ _ _ => rfl⟩
  setsGlobals := Ida.ofTypes_setsGlobals intDatabase _
  decompiler := mainContext_laws _ rfl

/-- The function is shown, and N on `v1` is answered. -/
def mainEvents : List (PluginEvent Unit) :=
  [.run 0x401004, .key 0 1 (some 2) 'N'.toNat 0 (fun _ => some (ascii "i")) 0x401004]

theorem mainEvents_edits : Yagi.edits mainPlugin.ida mainDatabase (sessionEvents mainPlugin mainDatabase [] mainEvents) =
    [.saveName 0x401000 ⟨ascii "register", 0, 4, [0x401004]⟩ (ascii "i")] := by
  decide +kernel

theorem mainEvents_show : ∃ code,
    (Runs.run (step mainPlugin) (Desk.start mainDatabase []) mainEvents).showing (ascii "main") = some code := by
  rw [← Option.isSome_iff_exists]
  decide +kernel

end Plugin

end Yagi
