import Yagi.Base
import Yagi.Decompiler
import Yagi.Lib.Store

/-!
# Annotations of a function (`idasymbol.cc`)

The names and types that a user gives to local variables are records in netnodes
of the IDA database, one per function, kind, space and pc.
-/

open Text Hex

namespace Yagi

/-! ## Netnodes -/

abbrev NetNodes := Str → Option Str

namespace NetNodes

def valstr (nodes : NetNodes) (name : Str) : Option Str := nodes (c_str name)

def set (nodes : NetNodes) (name value : Str) : NetNodes :=
  Function.update nodes (c_str name) (some (c_str value))

def delvalue (nodes : NetNodes) (name : Str) : Bool × NetNodes :=
  ((nodes.valstr name).isSome, Function.update nodes (c_str name) none)

end NetNodes

/-- What IDA knows of types: how one prints, and what a declaration parses to. -/
structure TypeDatabase (Ty : Type) where
  getName : Ty → Str
  parse_decl : Str → Option Ty

/-- `IdaTypeInfoFactory::build_decl`. -/
def TypeDatabase.build_decl {Ty : Type} (db : TypeDatabase Ty) (name : Str) : Option Ty :=
  db.parse_decl (c_str (name ++ ascii ";"))

/-! ## Records -/

inductive Kind where
  | name
  | type
deriving DecidableEq, Repr

def Kind.tag : Kind → Str
  | .name => ascii ".yagireg."
  | .type => ascii ".yagitype."

def nodeName (kind : Kind) (func : UInt64) (space : Str) (pc : UInt64) : Str :=
  ascii "$ " ++ to_hex func ++ kind.tag ++ space ++ ascii "." ++ to_hex pc

def encodeRecord (value : Str) (address : UInt64) : Str := value ++ ascii "|" ++ to_hex address

def decodeRecord (res : Str) : Except StdError (Option (Str × UInt64)) :=
  if res = [] then .ok none
  else match find (ch '|') res with
    | none => .ok none
    | some pb => (stoull16 (res.drop (pb + 1))).map fun offset => some (res.take pb, offset)

/-! ## `IdaFunctionSymbolInfo` -/

namespace IdaFunctionSymbolInfo

variable {Ty : Type}

def findName (func : UInt64) (nodes : NetNodes) (pc : UInt64) (space : Str) :
    Except StdError (Option (Str × UInt64)) :=
  match nodes.valstr (nodeName .name func space pc) with
  | none => .ok none
  | some res => decodeRecord res

def saveNameAt (func address : UInt64) (space : Str) (pc : UInt64) (value : Str) (nodes : NetNodes) : NetNodes :=
  nodes.set (nodeName .name func space pc) (encodeRecord value address)

def saveName (func : UInt64) (loc : MemoryLocation) (value : Str) (nodes : NetNodes) : NetNodes :=
  loc.pc.foldl (fun nodes pc => saveNameAt func loc.offset loc.spaceName pc value nodes) nodes

def saveTypeAt (db : TypeDatabase Ty) (func address : UInt64) (space : Str) (pc : UInt64) (newType : Ty)
    (nodes : NetNodes) : NetNodes :=
  nodes.set (nodeName .type func space pc) (encodeRecord (db.getName newType) address)

def saveType (db : TypeDatabase Ty) (func : UInt64) (loc : MemoryLocation) (newType : Ty) (nodes : NetNodes) :
    NetNodes :=
  loc.pc.foldl (fun nodes pc => saveTypeAt db func loc.offset loc.spaceName pc newType nodes) nodes

def clearTypeAt (func : UInt64) (space : Str) (pc : UInt64) (nodes : NetNodes) : Bool × NetNodes :=
  nodes.delvalue (nodeName .type func space pc)

def clearType (func : UInt64) (loc : MemoryLocation) (nodes : NetNodes) : Bool × NetNodes :=
  loc.pc.foldl (fun (result, nodes) pc =>
    let (found, nodes) := clearTypeAt func loc.spaceName pc nodes
    (result || found, nodes)) (false, nodes)

/-- The offset is set as soon as there is a record, even when its declaration does not parse. -/
def findType (db : TypeDatabase Ty) (func : UInt64) (nodes : NetNodes) (pc : UInt64) (space : Str) :
    Except StdError (Option (Option Ty × UInt64)) :=
  match nodes.valstr (nodeName .type func space pc) with
  | none => .ok none
  | some res => (decodeRecord res).map fun found => found.map fun (typeName, offset) =>
      (db.build_decl typeName, offset)

end IdaFunctionSymbolInfo

end Yagi
