import Yagi.Keyboard.Spec
import Yagi.Lib.Journal
import Yagi.Records
import Yagi.Symbols.Spec

/-!
# Sessions

A user works in IDA and presses keys in the windows of decompiled functions. The
windows outlive the functions that they show.
-/

open Text Runs Journal

namespace Yagi

/-! ## Windows -/

/-- A window. The spaces of its symbols are those of a processor. -/
structure Window where
  code : Decompiler.Result
  noNul : ∀ key loc, code.symbolAddress key = some loc → NoNul loc.spaceName

theorem findSymbols_noNul {Sym : Type} (name : Sym → Str) (data : DecompiledFunc Sym) (key : Str)
    (loc : MemoryLocation) (h : findSymbols name data key = some loc) : NoNul loc.spaceName := by
  rw [findSymbols_apply, Option.or_eq_some_iff] at h
  rcases h with h | ⟨-, h⟩
  · obtain ⟨varnode, -, hentry⟩ := List.mem_filterMap.mp (FirstWins.mem_of_first _ _ _ h)
    obtain ⟨p, hp, heq⟩ := Option.map_eq_some_iff.mp hentry
    obtain ⟨-, rfl⟩ := Prod.mk.inj heq
    obtain ⟨nameRepr, -, hloc⟩ := varLocation_eq_some data.toFuncdata varnode p.1 p.2 hp
    rw [hloc]
    exact nameRepr.addr.space.name_noNul
  · obtain ⟨target, -, heq⟩ := List.mem_map.mp (FirstWins.mem_of_first _ _ _ h)
    obtain ⟨-, rfl⟩ := Prod.mk.inj heq
    exact ram_noNul

/-! ## Events -/

/-- A key with the answers that the user gives, or a change of the database by IDA, which leaves the
netnodes of Yagi alone. -/
inductive SessionEvent (Ty : Type) where
  | press (window : Window) (keyword : Option Str) (key shift : Int) (answer : Str → Option Str)
  | work (db : Database Ty)

/-- Names and types that are given to addresses are no netnodes of Yagi. -/
structure Ida.KeepsNodes {Ty : Type} (ida : Ida Ty) : Prop where
  set_name : ∀ ea n db, (ida.set_name ea n db).nodes = db.nodes
  set_tinfo : ∀ ea t db, (ida.set_tinfo ea t db).nodes = db.nodes

def Ida.answering {Ty : Type} (ida : Ida Ty) (answer : Str → Option Str) : Ida Ty := { ida with ask_str := answer }

namespace SessionEvent

variable {Ty : Type} (ida : Ida Ty)

/-- A callback that raises has written nothing. -/
def apply (db : Database Ty) : SessionEvent Ty → Database Ty
  | .press window keyword key shift answer =>
    match keyboardCallback (ida.answering answer) window.code keyword key shift db with
    | .ok out => out.db
    | .error _ => db
  | .work db' => { db' with nodes := db.nodes }

/-- What a confirmed key edits at a location of the function that starts at `func`. -/
def keyEdit (answer : Str → Option Str) (keyword : Str) (loc : MemoryLocation) (key : Int) (func : UInt64) :
    Option (Call Ty) :=
  if key = 'C'.toNat then some (.clearType func loc)
  else if loc.spaceName = ascii "ram" then none
  else if key = 'N'.toNat then (answer (c_str keyword)).map fun name => .saveName func loc (c_str name)
  else if key = 'Y'.toNat then
    ((answer []).bind fun decl => ida.types.parse_decl (c_str decl)).map fun newType => .saveType func loc newType
  else none

/-- The edit of an event. The function is the one that lies now where the window was opened. -/
def edit (db : Database Ty) : SessionEvent Ty → Option (Call Ty)
  | .press window keyword key shift answer =>
    if shift = 0 then do
      let text ← keyword
      let loc ← window.code.symbolAddress text
      let found ← (IdaSymbolInfoFactory.find_function db window.code.ea).toOption
      let function ← found
      keyEdit ida answer text loc key function.getAddress
    else none
  | .work _ => none

end SessionEvent

namespace Call

variable {Ty : Type} (func : UInt64) (space : Str) (pc : UInt64)

/-- The name and offset that a call leaves to be read at a pc. -/
def nameAt : Call Ty → Option (Str × UInt64)
  | .saveName f loc name => if f = func ∧ loc.spaceName = space ∧ pc ∈ loc.pc then some (name, loc.offset) else none
  | .saveType _ _ _ => none
  | .clearType _ _ => none

/-- The type and offset that a call leaves to be read at a pc, or `none` where it clears them. -/
def typeAt : Call Ty → Option (Option (Ty × UInt64))
  | .saveName _ _ _ => none
  | .saveType f loc newType =>
    if f = func ∧ loc.spaceName = space ∧ pc ∈ loc.pc then some (some (newType, loc.offset)) else none
  | .clearType f loc => if f = func ∧ loc.spaceName = space ∧ pc ∈ loc.pc then some none else none

end Call

variable {Ty : Type} (ida : Ida Ty)

def session (db : Database Ty) (events : List (SessionEvent Ty)) : Database Ty := run (SessionEvent.apply ida) db events

/-- The confirmed edits of a session. -/
def edits (db : Database Ty) (events : List (SessionEvent Ty)) : List (Call Ty) :=
  journal (SessionEvent.apply ida) (SessionEvent.edit ida) db events

end Yagi
