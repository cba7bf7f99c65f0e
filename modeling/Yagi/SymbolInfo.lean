import Yagi.Lib.Text

/-! # Symbols of the database (`symbolinfo.cc`) -/

open Text

namespace Yagi

inductive SymbolInfo.Kind where
  | Function
  | Label
  | Import
  | Other
deriving DecidableEq, Repr

structure SymbolInfo where
  getName : Str
  isFunction : Bool
  isLabel : Bool
  isImport : Bool
  isReadOnly : Bool

def SymbolInfo.getType (info : SymbolInfo) : SymbolInfo.Kind :=
  if info.isFunction then .Function
  else if info.isLabel then .Label
  else if info.isImport then .Import
  else .Other

end Yagi
