import Yagi.Build
import Yagi.Decompile
import Yagi.Lib.Handles
import Yagi.Lib.Store
import Yagi.Viewer

/-!
# The plugin

The plugin decompiles the function on the screen and opens a window for it. The callbacks
of a window get a copy of the result, which is deleted when the window is closed.
-/

open Text Handles

namespace Yagi

/-! ## State -/

structure Widget where
  title : Str
  lines : List Str
  ud : Nat
deriving DecidableEq

/-- What ends IDA. A result that is used or deleted must be there. -/
inductive PluginCrash where
  | decompile (crash : DecompileCrash)
  | keyword (stop : While.Stop Keyword.OutOfLine)
  | key (e : KeyError)
  | click (e : ClickError)
  | use_after_free
  | double_free

structure Desk (Ty γ : Type) where
  db : Database Ty
  proxy : γ
  heap : Heap Decompiler.Printed
  widgets : List Widget
  crash : Option PluginCrash

def Desk.start {Ty γ : Type} (db : Database Ty) (proxy : γ) : Desk Ty γ := ⟨db, proxy, .empty, [], none⟩

/-- What the plugin works with. What the decompiler sees depends on the database. -/
structure PluginContext (σ Sym γ GSym D Ty φ Op Vn Block : Type) where
  ida : Ida Ty
  get_func : Database Ty → UInt64 → Option Frame
  decompiler : Database Ty → DecompileContext σ Sym γ GSym D Ty φ Op Vn Block

/-! ## Events -/

/-- The user runs the plugin, acts on an open window or closes it, or IDA changes the database. The cursor is at a row
and a place of the window; a dialog gets the answer, and the screen shows an address when the plugin runs. -/
inductive PluginEvent (Ty : Type) where
  | run (screen_ea : UInt64)
  | key (window row : Nat) (place : Option Nat) (key shift : Int) (answer : Str → Option Str) (screen_ea : UInt64)
  | doubleClick (window row : Nat) (place : Option Nat)
  | close (window : Nat)
  | work (db : Database Ty)

def Widget.viewer (w : Widget) (row : Nat) (place : Option Nat) : CustomViewer := ⟨place, (w.lines[row]?).getD []⟩

namespace Plugin

variable {σ Sym γ GSym D Ty φ Op Vn Block : Type} (P : PluginContext σ Sym γ GSym D Ty φ Op Vn Block)

abbrev Act (Ty γ α : Type) := EStateM PluginCrash (Desk Ty γ) α

/-- The callback of a window that is closed. -/
def close (w : Widget) : Act Ty γ Unit := do
  let desk ← get
  match desk.heap.delete w.ud with
  | none => throw .double_free
  | some heap => set { desk with heap := heap, widgets := desk.widgets.erase w }

def open_window (code : Decompiler.Printed) (desk : Desk Ty γ) : Desk Ty γ :=
  let (ud, heap) := desk.heap.new code
  { desk with heap := heap, widgets := desk.widgets ++ [⟨c_str code.name, lines code.cCode, ud⟩] }

/-- The new window takes the place of the one with its title. -/
def view (code : Decompiler.Printed) : Act Ty γ Unit := do
  let desk ← get
  match desk.widgets.find? (·.title = c_str code.name) with
  | none => pure ()
  | some oldWidget => close oldWidget
  modify (open_window code)

def run (screen_ea : UInt64) : Act Ty γ Unit := do
  let desk ← get
  let (result, proxy) := decompile (P.decompiler desk.db) desk.db screen_ea desk.proxy
  set { desk with proxy := proxy }
  match result with
  | .error crash => throw (.decompile crash)
  | .ok none => pure ()
  | .ok (some code) => view code

/-- The callbacks read the result when there is a keyword. -/
def withKeyword (w : Widget) (row : Nat) (place : Option Nat) : Act Ty γ (Option (Str × Decompiler.Printed)) := do
  match computeKeyword (w.viewer row place) with
  | .error stop => throw (.keyword stop)
  | .ok none => return none
  | .ok (some keyword) => match (← get).heap.cells w.ud with
    | none => throw .use_after_free
    | some code => return some (keyword, code)

/-- A key on a keyword of a result. When something was edited, the plugin is run for the address on the screen. -/
def keyOn (code : Decompiler.Printed) (keyword : Str) (key shift : Int) (answer : Str → Option Str)
    (screen_ea : UInt64) : Act Ty γ (Option UInt64) := do
  match keyboardCallback (P.ida.answering answer) code.toResult (some keyword) key shift (← get).db with
  | .error e => throw (.key e)
  | .ok out =>
    modify fun desk => { desk with db := out.db }
    return if .runYagi ∈ out.events then some screen_ea else none

def key (w : Widget) (row : Nat) (place : Option Nat) (key shift : Int) (answer : Str → Option Str)
    (screen_ea : UInt64) : Act Ty γ (Option UInt64) := do
  if shift ≠ 0 then return none
  match ← withKeyword w row place with
  | none => return none
  | some (keyword, code) => keyOn P code keyword key shift answer screen_ea

def doubleClick (w : Widget) (row : Nat) (place : Option Nat) : Act Ty γ Unit := do
  match ← withKeyword w row place with
  | none => return
  | some (keyword, code) =>
    match doubleClickCallback (P.get_func (← get).db) code.toResult (some keyword) with
    | .error e => throw (.click e)
    | .ok _ => return

/-- What is done to a window, if it is open. -/
def withWidget {α : Type} (window : Nat) (body : Widget → Act Ty γ (Option α)) : Act Ty γ (Option α) := do
  match (← get).widgets[window]? with
  | none => return none
  | some w => body w

/-- What an event does before the plugin is run, and the address that it is run for. -/
def request : PluginEvent Ty → Act Ty γ (Option UInt64)
  | .run screen_ea => return some screen_ea
  | .key window row place k shift answer screen_ea =>
    withWidget window fun w => key P w row place k shift answer screen_ea
  | .doubleClick window row place => withWidget window fun w => do
    doubleClick P w row place
    return none
  | .close window => withWidget window fun w => do
    close w
    return none
  | .work db => do
    modify fun desk => { desk with db := { db with nodes := desk.db.nodes } }
    return none

def act (event : PluginEvent Ty) : Act Ty γ Unit := do
  match ← request P event with
  | none => return
  | some screen_ea => run P screen_ea

/-- Nothing happens after a crash. -/
def step (desk : Desk Ty γ) (event : PluginEvent Ty) : Desk Ty γ :=
  if desk.crash.isSome then desk
  else match act P event desk with
    | .ok () desk => desk
    | .error crash desk => { desk with crash := some crash }

/-! ## What an event amounts to -/

/-- A key on a window is one on its result. -/
def pressed (w : Widget) (row : Nat) (place : Option Nat) (k shift : Int) (answer : Str → Option Str)
    (desk : Desk Ty γ) : Option (SessionEvent Ty) :=
  if shift ≠ 0 then none
  else match withKeyword w row place desk with
    | .ok (some (keyword, code)) _ => some (.press code.window (some keyword) k shift answer)
    | _ => none

/-- What an event does to the database. -/
def edits (desk : Desk Ty γ) : PluginEvent Ty → Option (SessionEvent Ty)
  | .key window row place k shift answer _ =>
    desk.widgets[window]?.bind fun w => pressed w row place k shift answer desk
  | .work db => some (.work db)
  | _ => none

/-- The edit of the windows when one is closed. -/
def closes (desk : Desk Ty γ) : PluginEvent Ty → Option (Store.Edit Str Decompiler.Printed)
  | .close window => desk.widgets[window]?.map fun w => ⟨w.title, none⟩
  | _ => none

/-- The result that the plugin shows when it is run. -/
def result (screen_ea : UInt64) (desk : Desk Ty γ) : Option Decompiler.Printed :=
  (decompile (P.decompiler desk.db) desk.db screen_ea desk.proxy).1.toOption.join

/-- The result that an event shows. -/
def shows (desk : Desk Ty γ) (event : PluginEvent Ty) : Option Decompiler.Printed :=
  match request P event desk with
  | .ok (some screen_ea) desk => result P screen_ea desk
  | _ => none

/-- What an event does to the windows, as a map from titles to results. -/
def changes (desk : Desk Ty γ) (event : PluginEvent Ty) : Option (Store.Edit Str Decompiler.Printed) :=
  (closes desk event).or ((shows P desk event).map fun code => ⟨c_str code.name, some code⟩)

/-- After a crash there are no events. -/
def whileRunning {α : Type} (f : Desk Ty γ → PluginEvent Ty → Option α) (desk : Desk Ty γ) (event : PluginEvent Ty) :
    Option α := if desk.crash.isSome then none else f desk event

end Plugin

end Yagi
