import Yagi.Database
import Yagi.DoubleClick
import Yagi.PrintDecl
import Yagi.SymbolNames

/-!
# A key on a symbol (`_KeyboardCallback`)

X lists the references to a symbol, N renames it, Y gives it a type, and C
clears the type of a local one.
-/

open Text

namespace Yagi

/-- What the callback asks of IDA and its user. A dialog that is cancelled gives nothing. -/
structure Ida (Ty : Type) where
  types : TypeDatabase Ty
  program : Database Ty → Program
  toFunc : Ty → Option (FuncInfo Ty)
  guess_tinfo : Database Ty → UInt64 → Option Ty
  set_name : UInt64 → Str → Database Ty → Database Ty
  set_tinfo : UInt64 → Ty → Database Ty → Database Ty
  ask_str : Str → Option Str

/-- A dialog shows a text to edit. -/
inductive KeyEvent where
  | open_xrefs_window (ea : UInt64)
  | ask_str (name : Str)
  | runYagi
deriving DecidableEq, Repr

structure KeyOutcome (Ty : Type) where
  handled : Bool
  db : Database Ty
  events : List KeyEvent

inductive KeyError where
  | bad_optional_access
  | empty_vector
deriving DecidableEq, Repr

namespace Keyboard

variable {Ty : Type} (ida : Ida Ty)

def xrefs (loc : MemoryLocation) (db : Database Ty) : KeyOutcome Ty :=
  if loc.spaceName = ascii "ram" then ⟨true, db, [.open_xrefs_window loc.offset]⟩ else ⟨true, db, []⟩

/-- A dialog, and what is done when it is confirmed. -/
def dialog (db : Database Ty) (name : Str) (confirmed : Str → Option (Database Ty)) : KeyOutcome Ty :=
  match (ida.ask_str name).bind fun answer => confirmed (c_str answer) with
  | none => ⟨true, db, [.ask_str name]⟩
  | some db' => ⟨true, db', [.ask_str name, .runYagi]⟩

def rename (functionSymbolInfo : Option FunctionSymbolInfo) (keyword : Str) (loc : MemoryLocation) (db : Database Ty) :
    KeyOutcome Ty :=
  if loc.spaceName = ascii "ram" then
    match IdaSymbolInfoFactory.find db loc.offset with
    | none => ⟨false, db, []⟩
    | some m_name =>
      let symbolInfo := IdaSymbolInfo.mk loc.offset m_name
      dialog ida db (c_str (symbolInfo.getName (ida.program db))) fun name => some (ida.set_name loc.offset name db)
  else
    match functionSymbolInfo with
    | none => ⟨false, db, []⟩
    | some function => dialog ida db (c_str keyword) fun name =>
        some { db with nodes := IdaFunctionSymbolInfo.saveName function.getAddress loc name db.nodes }

/-- `IdaTypeInfoFactory::build`, from an address. -/
def build (db : Database Ty) (ea : UInt64) : Option Ty := (db.get_tinfo ea).or (ida.guess_tinfo db ea)

/-- The function is only looked at when the declaration has been parsed. -/
def retype (functionSymbolInfo : Option FunctionSymbolInfo) (keyword : Str) (loc : MemoryLocation) (db : Database Ty) :
    Except KeyError (KeyOutcome Ty) :=
  if loc.spaceName = ascii "ram" then
    match build ida db loc.offset with
    | none => .ok ⟨true, db, []⟩
    | some typeInfo =>
      let name := c_str (TypeNames.printDeclType ⟨ida.types.getName, ida.toFunc⟩ keyword typeInfo)
      .ok (dialog ida db name fun decl =>
        (ida.types.parse_decl decl).map fun idaTypeInfo => ida.set_tinfo loc.offset idaTypeInfo db)
  else
    match (ida.ask_str []).bind fun decl => ida.types.parse_decl (c_str decl) with
    | none => .ok ⟨true, db, [.ask_str []]⟩
    | some typeInfo => match functionSymbolInfo with
      | none => .error .bad_optional_access
      | some function =>
        .ok ⟨true, { db with nodes := IdaFunctionSymbolInfo.saveType ida.types function.getAddress loc typeInfo db.nodes },
          [.ask_str [], .runYagi]⟩

def clear (functionSymbolInfo : Option FunctionSymbolInfo) (loc : MemoryLocation) (db : Database Ty) :
    Except KeyError (KeyOutcome Ty) :=
  match functionSymbolInfo with
  | none => .error .bad_optional_access
  | some function =>
    let (found, nodes) := IdaFunctionSymbolInfo.clearType function.getAddress loc db.nodes
    .ok ⟨true, { db with nodes := nodes }, if found then [.runYagi] else []⟩

end Keyboard

open Keyboard

/-- The codes of the keys are those of their capital letters. -/
def keyboardCallback {Ty : Type} (ida : Ida Ty) (code : Decompiler.Result) (keyword : Option Str) (key shift : Int)
    (db : Database Ty) : Except KeyError (KeyOutcome Ty) :=
  if shift ≠ 0 then .ok ⟨false, db, []⟩
  else match keyword with
  | none => .ok ⟨false, db, []⟩
  | some keyword => match code.symbolAddress keyword with
    | none => .ok ⟨false, db, []⟩
    | some addr => match IdaSymbolInfoFactory.find_function db code.ea with
      | .error _ => .error .empty_vector
      | .ok functionSymbolInfo =>
        if key = 'X'.toNat then .ok (xrefs addr db)
        else if key = 'N'.toNat then .ok (rename ida functionSymbolInfo keyword addr db)
        else if key = 'Y'.toNat then retype ida functionSymbolInfo keyword addr db
        else if key = 'C'.toNat then clear functionSymbolInfo addr db
        else .ok ⟨true, db, []⟩

end Yagi
