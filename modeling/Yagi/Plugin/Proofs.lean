import Yagi.Lib.Journal
import Yagi.Plugin.Spec

/-!
# Windows and results

Each window owns the result that its callbacks read. The windows are a map from titles
to results, which every event edits once or not at all.
-/

open Text Runs Journal Handles Effect

namespace Yagi

variable {σ Sym γ GSym D Ty φ Op Vn Block : Type}

/-! ## The desk -/

/-- Each window has its own title and its own result, and there are no other results. -/
def Desk.WellFormed (desk : Desk Ty γ) : Prop := Kept Widget.title Widget.ud desk.heap desk.widgets

/-- What the window of a title shows. -/
def Desk.showing (desk : Desk Ty γ) : Str → Option Decompiler.Printed :=
  lookup Widget.title Widget.ud desk.heap desk.widgets

/-- A result was read or deleted that is not there. -/
def PluginCrash.OfMemory : PluginCrash → Prop
  | .use_after_free => True
  | .double_free => True
  | _ => False

namespace Plugin

/-- An event leaves the database `db`, and the windows with one edit or none. -/
structure Changed (desk desk' : Desk Ty γ) (db : Database Ty) (edit : Option (Store.Edit Str Decompiler.Printed)) :
    Prop where
  wellFormed : desk'.WellFormed
  showing : desk'.showing = (edit.map (Store.Edit.apply desk.showing)).getD desk.showing
  db : desk'.db = db
  crash : desk'.crash = desk.crash

theorem changed_refl (desk : Desk Ty γ) (h : desk.WellFormed) : Changed desk desk desk.db none := ⟨h, rfl, rfl, rfl⟩

theorem Changed.trans {desk desk₁ desk₂ : Desk Ty γ} {db : Database Ty}
    {edit : Option (Store.Edit Str Decompiler.Printed)} (h : Changed desk desk₁ db none)
    (h' : Changed desk₁ desk₂ desk₁.db edit) : Changed desk desk₂ db edit := by
  have hshowing : desk₁.showing = desk.showing := h.showing
  refine ⟨h'.wellFormed, ?_, h'.db.trans h.db, h'.crash.trans h.crash⟩
  rw [h'.showing, hshowing]

/-! ## Windows -/

theorem close_ok (desk : Desk Ty γ) (h : desk.WellFormed) (w : Widget) (hw : w ∈ desk.widgets) :
    ∃ desk', close w desk = .ok () desk' ∧ Changed desk desk' desk.db (some ⟨w.title, none⟩) ∧
      desk'.widgets = desk.widgets.erase w := by
  obtain ⟨heap, hdelete, hkept, hlookup⟩ := kept_delete h w hw
  refine ⟨{ desk with heap := heap, widgets := desk.widgets.erase w }, ?_, ⟨hkept, hlookup, rfl, rfl⟩, rfl⟩
  unfold close
  rw [bind_ok]
  exact ⟨desk, desk, rfl, by rw [hdelete]; rfl⟩

theorem open_changed (desk : Desk Ty γ) (h : desk.WellFormed) (code : Decompiler.Printed)
    (hfree : ∀ w ∈ desk.widgets, w.title ≠ c_str code.name) :
    Changed desk (open_window code desk) desk.db (some ⟨c_str code.name, some code⟩) :=
  ⟨kept_new h ⟨c_str code.name, lines code.cCode, (desk.heap.new code).1⟩ code rfl hfree,
    lookup_new h ⟨c_str code.name, lines code.cCode, (desk.heap.new code).1⟩ code rfl hfree, rfl, rfl⟩

theorem view_ok (desk : Desk Ty γ) (h : desk.WellFormed) (code : Decompiler.Printed) :
    ∃ desk', view code desk = .ok () desk' ∧ Changed desk desk' desk.db (some ⟨c_str code.name, some code⟩) := by
  unfold view
  simp only [bind_ok]
  cases hfind : desk.widgets.find? (·.title = c_str code.name) with
  | none =>
    have hfree : ∀ w ∈ desk.widgets, w.title ≠ c_str code.name := by simpa using hfind
    exact ⟨_, ⟨desk, desk, rfl, by rw [hfind]; rfl⟩, open_changed desk h code hfree⟩
  | some oldWidget =>
    have hold := List.mem_of_find?_eq_some hfind
    have htitle : oldWidget.title = c_str code.name := by simpa using List.find?_some hfind
    obtain ⟨closed, hclose, hclosed, hwidgets⟩ := close_ok desk h oldWidget hold
    have hfree : ∀ w ∈ closed.widgets, w.title ≠ c_str code.name := by
      intro w hw hsame
      have hshown := (lookup_ne_none hclosed.wellFormed w.title).mpr ⟨w, hw, rfl⟩
      refine hshown ?_
      show closed.showing w.title = none
      rw [hclosed.showing, hsame, ← htitle]
      exact Function.update_self _ _ _
    have hopened := open_changed closed hclosed.wellFormed code hfree
    refine ⟨open_window code closed, ⟨desk, desk, rfl, ?_⟩, hopened.wellFormed, ?_, hopened.db.trans hclosed.db,
      hopened.crash.trans hclosed.crash⟩
    · rw [hfind, bind_ok]
      exact ⟨(), closed, hclose, rfl⟩
    · rw [hopened.showing, hclosed.showing, htitle]
      exact Function.update_idem _ _ _

/-! ## Events -/

variable (P : PluginContext σ Sym γ GSym D Ty φ Op Vn Block)

/-- An end of an event: what it has changed, and that memory is not the reason of a crash. -/
def Ends {α : Type} (desk : Desk Ty γ) (db : Database Ty) (edit : Option (Store.Edit Str Decompiler.Printed)) :
    EStateM.Result PluginCrash (Desk Ty γ) α → Prop :=
  Post (fun _ desk' => Changed desk desk' db edit) fun crash desk' => ¬ crash.OfMemory ∧ Changed desk desk' db edit

theorem run_ends (screen_ea : UInt64) (desk : Desk Ty γ) (h : desk.WellFormed) :
    Ends desk desk.db ((result P screen_ea desk).map fun code => ⟨c_str code.name, some code⟩)
      (run P screen_ea desk) := by
  unfold Ends run result
  simp only [post_bind, post_get]
  cases hdecompile : decompile (P.decompiler desk.db) desk.db screen_ea desk.proxy with
  | mk answer proxy =>
    have hproxy : Changed desk { desk with proxy := proxy } desk.db none := ⟨h, rfl, rfl, rfl⟩
    rcases answer with crash | _ | code
    · exact ⟨not_false, hproxy⟩
    · exact hproxy
    · obtain ⟨desk', hview, hchanged⟩ := view_ok { desk with proxy := proxy } h code
      show Post _ _ (view code { desk with proxy := proxy })
      rw [hview]
      exact hproxy.trans hchanged

theorem withKeyword_reads (desk : Desk Ty γ) (h : desk.WellFormed) (w : Widget) (hw : w ∈ desk.widgets) (row : Nat)
    (place : Option Nat) :
    Post (fun _ desk' => desk' = desk) (fun crash desk' => ¬ crash.OfMemory ∧ desk' = desk)
      (withKeyword w row place desk) := by
  unfold withKeyword
  rcases computeKeyword (w.viewer row place) with stop | _ | keyword
  · exact ⟨not_false, rfl⟩
  · exact rfl
  · obtain ⟨code, hcode⟩ := Option.ne_none_iff_exists'.mp ((h.live w.ud).mpr ⟨w, hw, rfl⟩)
    simp only [post_bind, post_get, hcode]
    exact rfl

/-- The database after an event. -/
def dbAfter (desk : Desk Ty γ) (edit : Option (SessionEvent Ty)) : Database Ty :=
  (edit.map (SessionEvent.apply P.ida desk.db)).getD desk.db

theorem keyOn_ends (desk : Desk Ty γ) (h : desk.WellFormed) (code : Decompiler.Printed) (keyword : Str)
    (k shift : Int) (answer : Str → Option Str) (screen_ea : UInt64) :
    Ends desk (dbAfter P desk (some (.press code.window (some keyword) k shift answer))) none
      (keyOn P code keyword k shift answer screen_ea desk) := by
  unfold Ends keyOn dbAfter
  simp only [post_bind, post_get, Option.map_some, Option.getD_some, SessionEvent.apply, Decompiler.Printed.window]
  cases hout : keyboardCallback (P.ida.answering answer) code.toResult (some keyword) k shift desk.db with
  | error e => exact ⟨not_false, changed_refl desk h⟩
  | ok out => exact ⟨h, rfl, rfl, rfl⟩

theorem key_ends (desk : Desk Ty γ) (h : desk.WellFormed) (w : Widget) (hw : w ∈ desk.widgets) (row : Nat)
    (place : Option Nat) (k shift : Int) (answer : Str → Option Str) (screen_ea : UInt64) :
    Ends desk (dbAfter P desk (pressed w row place k shift answer desk)) none
      (key P w row place k shift answer screen_ea desk) := by
  have hreads := withKeyword_reads desk h w hw row place
  unfold key pressed
  by_cases hshift : shift = 0
  · subst hshift
    simp only [Ends, ne_eq, not_true_eq_false, if_false, post_bind]
    cases hkeyword : withKeyword w row place desk with
    | error crash t =>
      obtain ⟨hmemory, rfl⟩ := hreads.of_error crash t hkeyword
      exact ⟨hmemory, changed_refl t h⟩
    | ok found t =>
      obtain rfl := hreads.of_ok found t hkeyword
      rcases found with _ | ⟨keyword, code⟩
      · exact changed_refl t h
      · exact keyOn_ends P t h code keyword k 0 answer screen_ea
  · simp only [ne_eq, hshift, not_false_eq_true, if_true]
    exact changed_refl desk h

theorem doubleClick_ends (desk : Desk Ty γ) (h : desk.WellFormed) (w : Widget) (hw : w ∈ desk.widgets) (row : Nat)
    (place : Option Nat) : Ends desk desk.db none (doubleClick P w row place desk) := by
  have hreads := withKeyword_reads desk h w hw row place
  unfold doubleClick
  simp only [Ends, post_bind]
  cases hkeyword : withKeyword w row place desk with
  | error crash t =>
    obtain ⟨hmemory, rfl⟩ := hreads.of_error crash t hkeyword
    exact ⟨hmemory, changed_refl t h⟩
  | ok found t =>
    obtain rfl := hreads.of_ok found t hkeyword
    rcases found with _ | ⟨keyword, code⟩
    · exact changed_refl t h
    · simp only [post_ok, post_bind, post_get]
      cases doubleClickCallback (P.get_func t.db) code.toResult (some keyword) with
      | error e => exact ⟨not_false, changed_refl t h⟩
      | ok click => exact changed_refl t h

theorem request_ends (desk : Desk Ty γ) (h : desk.WellFormed) (event : PluginEvent Ty) :
    Ends desk (dbAfter P desk (edits desk event)) (closes desk event) (request P event desk) ∧
      (closes desk event = none ∨ ∃ desk', request P event desk = .ok none desk') := by
  cases event with
  | run screen_ea => exact ⟨changed_refl desk h, Or.inl rfl⟩
  | work db => exact ⟨⟨h, rfl, rfl, rfl⟩, Or.inl rfl⟩
  | key window row place k shift answer screen_ea =>
    refine ⟨?_, Or.inl rfl⟩
    simp only [Ends, request, withWidget, post_bind, post_get, edits]
    cases hw : desk.widgets[window]? with
    | none => exact changed_refl desk h
    | some w => exact key_ends P desk h w (List.mem_of_getElem? hw) row place k shift answer screen_ea
  | doubleClick window row place =>
    refine ⟨?_, Or.inl rfl⟩
    simp only [Ends, request, withWidget, post_bind, post_get, edits]
    cases hw : desk.widgets[window]? with
    | none => exact changed_refl desk h
    | some w =>
      simp only [post_bind, post_pure]
      exact doubleClick_ends P desk h w (List.mem_of_getElem? hw) row place
  | close window =>
    simp only [Ends, request, withWidget, post_bind, post_get, edits, closes]
    cases hw : desk.widgets[window]? with
    | none => exact ⟨changed_refl desk h, Or.inl rfl⟩
    | some w =>
      obtain ⟨desk', hclose, hchanged, -⟩ := close_ok desk h w (List.mem_of_getElem? hw)
      simp only [post_bind, post_pure, hclose]
      refine ⟨hchanged, Or.inr ⟨desk', ?_⟩⟩
      rw [bind_ok]
      exact ⟨desk, desk, rfl, by rw [hw, bind_ok]; exact ⟨(), desk', hclose, rfl⟩⟩

theorem act_ends (desk : Desk Ty γ) (h : desk.WellFormed) (event : PluginEvent Ty) :
    Ends desk (dbAfter P desk (edits desk event)) (changes P desk event) (act P event desk) := by
  obtain ⟨hends, hcloses⟩ := request_ends P desk h event
  unfold act changes shows
  simp only [Ends, post_bind] at hends ⊢
  rcases hcloses with hnone | ⟨desk', hrequest⟩
  · rw [hnone] at hends ⊢
    cases hrequest : request P event desk with
    | error crash t => exact hends.of_error crash t hrequest
    | ok found t =>
      have hchanged := hends.of_ok found t hrequest
      cases found with
      | none => exact hchanged
      | some screen_ea =>
        exact (run_ends P screen_ea t hchanged.wellFormed).mono (fun _ _ hrun => hchanged.trans hrun)
          fun crash _ hrun => ⟨hrun.1, hchanged.trans hrun.2⟩
  · rw [hrequest] at hends ⊢
    simp only [Option.map_none, Option.or_none]
    exact hends

/-! ## Runs -/

/-- No window is without its result, and no crash comes from memory. -/
structure Safe (desk : Desk Ty γ) : Prop where
  wellFormed : desk.WellFormed
  crash : ∀ crash ∈ desk.crash, ¬ crash.OfMemory

theorem safe_start (db : Database Ty) (proxy : γ) : Safe (Desk.start db proxy) := ⟨kept_empty _ _, by simp [Desk.start]⟩

theorem step_changed (desk : Desk Ty γ) (h : desk.WellFormed) (event : PluginEvent Ty) :
    (step P desk event).WellFormed ∧
      (step P desk event).showing =
        ((whileRunning (changes P) desk event).map (Store.Edit.apply desk.showing)).getD desk.showing ∧
      (step P desk event).db = dbAfter P desk (whileRunning edits desk event) := by
  have hends := act_ends P desk h event
  unfold step whileRunning
  by_cases hcrash : desk.crash.isSome
  · simp only [if_pos hcrash]
    exact ⟨h, rfl, rfl⟩
  · simp only [if_neg hcrash]
    cases hact : act P event desk with
    | ok u t =>
      have hchanged := hends.of_ok u t hact
      exact ⟨hchanged.wellFormed, hchanged.showing, hchanged.db⟩
    | error crash t =>
      obtain ⟨-, hchanged⟩ := hends.of_error crash t hact
      exact ⟨hchanged.wellFormed, hchanged.showing, hchanged.db⟩

theorem step_safe (desk : Desk Ty γ) (h : Safe desk) (event : PluginEvent Ty) : Safe (step P desk event) := by
  refine ⟨(step_changed P desk h.wellFormed event).1, ?_⟩
  have hends := act_ends P desk h.wellFormed event
  unfold step
  by_cases hcrash : desk.crash.isSome
  · simp only [if_pos hcrash]
    exact h.crash
  · simp only [if_neg hcrash]
    cases hact : act P event desk with
    | ok u t =>
      have hsame : t.crash = desk.crash := (hends.of_ok u t hact).crash
      simp only [hsame]
      exact h.crash
    | error crash t =>
      obtain ⟨hmemory, -⟩ := hends.of_error crash t hact
      rintro c ⟨⟩
      exact hmemory

theorem run_safe (db : Database Ty) (proxy : γ) (events : List (PluginEvent Ty)) :
    Safe (Runs.run (step P) (Desk.start db proxy) events) := by
  induction events using List.reverseRecOn with
  | nil => exact safe_start db proxy
  | append_singleton events event ih =>
    rw [run_append, run_singleton]
    exact step_safe P _ ih event

/-- **Ownership.** Whatever the user and IDA do, each window has its own title and the result that its callbacks read,
there are no other results, and nothing is used or deleted after it was deleted. -/
theorem windows_own_results (db : Database Ty) (proxy : γ) (events : List (PluginEvent Ty)) :
    Safe (Runs.run (step P) (Desk.start db proxy) events) := run_safe P db proxy events

/-- The windows that a run opens and closes. -/
def windowEdits (db : Database Ty) (proxy : γ) (events : List (PluginEvent Ty)) :
    List (Store.Edit Str Decompiler.Printed) :=
  journal (step P) (whileRunning (changes P)) (Desk.start db proxy) events

theorem run_showing (db : Database Ty) (proxy : γ) (events : List (PluginEvent Ty)) (title : Str) :
    (Runs.run (step P) (Desk.start db proxy) events).showing title =
      (Store.lastSome (Store.Edit.at title) (windowEdits P db proxy events)).join := by
  have hrun := see_run_of_invariant (step P) (whileRunning (changes P)) Desk.showing Store.Edit.apply Desk.WellFormed
    (fun desk event h => (step_changed P desk h event).1) (fun desk event h => (step_changed P desk h event).2.1)
    (Desk.start db proxy) (safe_start db proxy).wellFormed events
  rw [hrun]
  show Store.run (fun _ => none) (windowEdits P db proxy events) title = _
  rw [Store.run_apply]
  cases Store.lastSome (Store.Edit.at title) (windowEdits P db proxy events) <;> rfl

/-- **Windows.** A window is open under a title exactly when the last event about the title has shown a result,
and it shows that result. -/
theorem window_shows_last (db : Database Ty) (proxy : γ) (events : List (PluginEvent Ty)) (title : Str) :
    (Runs.run (step P) (Desk.start db proxy) events).showing title =
      (Store.lastSome (Store.Edit.at title) (windowEdits P db proxy events)).join :=
  run_showing P db proxy events title

/-- The keys and the work of a run. -/
def sessionEvents (db : Database Ty) (proxy : γ) (events : List (PluginEvent Ty)) : List (SessionEvent Ty) :=
  journal (step P) (whileRunning edits) (Desk.start db proxy) events

/-- **Refinement.** A run of the plugin is a session. -/
theorem run_db (db : Database Ty) (proxy : γ) (events : List (PluginEvent Ty)) :
    (Runs.run (step P) (Desk.start db proxy) events).db = session P.ida db (sessionEvents P db proxy events) :=
  see_run_of_invariant (step P) (whileRunning edits) Desk.db (SessionEvent.apply P.ida) Desk.WellFormed
    (fun desk event h => (step_changed P desk h event).1) (fun desk event h => (step_changed P desk h event).2.2)
    (Desk.start db proxy) (safe_start db proxy).wellFormed events

end Plugin

end Yagi
