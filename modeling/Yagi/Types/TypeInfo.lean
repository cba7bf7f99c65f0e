import Yagi.Lib.Text

/-!
# Type infos (`typeinfo.hh`)

What IDA tells about types. The types that a type is made of are nodes `ι` of a
graph, which may be cyclic.
-/

open Text

namespace Yagi

structure TypeStructField (ι : Type) where
  offset : UInt64
  name : Str
  type : ι

/-- A calling convention that IDA does not know is `none`. -/
structure FuncInfo (ι : Type) where
  isDotDotDot : Bool
  getFuncPrototype : List ι
  getCallingConv : Option Str
  getName : Str

structure ArrayInfo (ι : Type) where
  getPointedObject : ι
  getSize : UInt64

structure TypeInfo (ι : Type) where
  getSize : UInt64
  getName : Str
  isInt : Bool
  isBool : Bool
  isFloat : Bool
  isVoid : Bool
  isChar : Bool
  isUnicode : Bool
  toFunc : Option (FuncInfo ι)
  toStruct : Option (List (TypeStructField ι))
  toPtr : Option ι
  toArray : Option (ArrayInfo ι)

/-- The type infos of a database, and the factory that finds them by name. -/
structure TypeGraph (ι : Type) where
  info : ι → TypeInfo ι
  build : Str → Option ι
  getName_injective : ∀ i j, (info i).getName = (info j).getName → i = j
  getName_ne_nil : ∀ i, (info i).getName ≠ []
  build_getName : ∀ n i, build n = some i → (info i).getName = n
  func_getName : ∀ i, ∀ func ∈ (info i).toFunc, func.getName = (info i).getName

def TypeGraph.getName {ι : Type} (G : TypeGraph ι) (i : ι) : Str := (G.info i).getName

end Yagi
