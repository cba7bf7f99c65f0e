import Yagi.Scope.Internal
import Yagi.SymbolInfo

/-!
# Find or create (`scope.cc`)

`YagiScope` answers from its proxy, and fills it from the database of IDA when
the proxy knows nothing.
-/

open Text

namespace Yagi

/-- A raised `yagi::Error`, or an error of Ghidra. -/
inductive Raised where
  | error
  | lowlevel
deriving DecidableEq, Repr

/-- What the architecture gives to its scope. `inject` and `update` change the prototype of a
function, which is no part of the scope, and may raise. -/
structure YagiArchitecture (Ty Sym D : Type) where
  getDefaultCodeSpace : AddrSpace
  find : UInt64 → Option SymbolInfo
  build : UInt64 → Option Ty
  findByTypeInfo : Ty → D
  getBase : Int32 → D
  inject : Sym → Except Raised Unit
  update : Sym → Except Raised Unit

structure ExternRefSymbol where
  getRefAddr : Address

namespace YagiScope

variable {σ Sym D Ty : Type} (proxy : ScopeInternal σ Sym D) (archi : YagiArchitecture Ty Sym D)

def findFunction (addr : Address) (st : σ) : Except Raised (Option Sym) × σ :=
  match proxy.findFunction st addr with
  | some result => (.ok (some result), st)
  | none => match archi.find addr.offset with
    | none => (.ok none, st)
    | some data =>
      let (sym, st) := proxy.addFunction addr data.getName st
      ((do archi.inject sym; archi.update sym; return some sym), st)

def addOfType (addr : Address) (size : Int32) (data : SymbolInfo) (st : σ) : Sym × σ :=
  match data.getType with
  | .Function => proxy.addFunction addr data.getName st
  | .Import => proxy.addExternalRef addr addr data.getName st
  | .Label => proxy.addCodeLabel addr data.getName st
  | .Other => match archi.build addr.offset with
    | some type => proxy.addSymbol data.getName (archi.findByTypeInfo type) st
    | none => proxy.addSymbol data.getName (archi.getBase size) st

def markReadOnly (data : SymbolInfo) (symbol : Sym) (st : σ) : σ :=
  if data.isReadOnly then proxy.setAttribute symbol .readonly st else st

/-- Names are only looked up in the default code space. -/
def codeSymbol (addr : Address) : Option SymbolInfo :=
  if addr.space = archi.getDefaultCodeSpace then archi.find addr.offset else none

def findContainer (addr : Address) (size : Int32) (usepoint : Option Address) (st : σ) :
    Option (Sym × MapEntry) × σ :=
  match proxy.findContainer st addr size usepoint with
  | some result => (some result, st)
  | none => match codeSymbol archi addr with
    | none => (none, st)
    | some data =>
      let (symbol, st) := addOfType proxy archi addr size data st
      let st := markReadOnly proxy data symbol st
      let (entry, st) := proxy.addMapPoint symbol addr usepoint st
      (some (symbol, entry), st)

def findExternalRef (addr : Address) (st : σ) : Option Sym × σ :=
  match proxy.findExternalRef st addr with
  | some result => (some result, st)
  | none => match archi.find addr.offset with
    | none => (none, st)
    | some data =>
      if data.isImport then
        let (sym, st) := proxy.addExternalRef addr addr data.getName st
        (some sym, st)
      else (none, st)

def findCodeLabel (addr : Address) (st : σ) : Option Sym × σ :=
  match proxy.findCodeLabel st addr with
  | some result => (some result, st)
  | none => match archi.find addr.offset with
    | none => (none, st)
    | some data =>
      if data.isLabel then
        let (sym, st) := proxy.addCodeLabel addr data.getName st
        (some sym, st)
      else (none, st)

/-- Only a `yagi::Error` of the update is caught. -/
def resolveExternalRefFunction (sym : ExternRefSymbol) (st : σ) : Except Raised (Option Sym) × σ :=
  match archi.find sym.getRefAddr.offset with
  | none => (.ok none, st)
  | some data =>
    let (func, st) := proxy.addFunction sym.getRefAddr data.getName st
    match archi.update func with
    | .error .lowlevel => (.error .lowlevel, st)
    | _ => (.ok (some func), st)

end YagiScope

/-! ## Calls -/

inductive ScopeCall where
  | findFunction (addr : Address)
  | findContainer (addr : Address) (size : Int32) (usepoint : Option Address)
  | findExternalRef (addr : Address)
  | findCodeLabel (addr : Address)
  | resolveExternalRefFunction (sym : ExternRefSymbol)

def ScopeCall.apply {σ Sym D Ty : Type} (proxy : ScopeInternal σ Sym D) (archi : YagiArchitecture Ty Sym D) (st : σ) :
    ScopeCall → σ
  | .findFunction addr => (YagiScope.findFunction proxy archi addr st).2
  | .findContainer addr size usepoint => (YagiScope.findContainer proxy archi addr size usepoint st).2
  | .findExternalRef addr => (YagiScope.findExternalRef proxy archi addr st).2
  | .findCodeLabel addr => (YagiScope.findCodeLabel proxy archi addr st).2
  | .resolveExternalRefFunction sym => (YagiScope.resolveExternalRefFunction proxy archi sym st).2

end Yagi
