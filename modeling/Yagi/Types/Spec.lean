import Mathlib.Algebra.Group.Int.Defs
import Mathlib.Algebra.Group.Nat.Defs
import Yagi.Types.Factory
import Yagi.Types.TypeInfo

/-!
# Converting types (`typemanager.cc`)

`findByTypeInfo` looks a type up by name, in the factory and then in the database,
and converts the type info itself when its name is not known.
-/

open Text

namespace Yagi

/-- `stack_overflow` stands for a recursion that goes deeper than it is given fuel. -/
inductive TypeError where
  | UnknownTypeError (n : Str)
  | stack_overflow
deriving DecidableEq, Repr

/-- One call of the factory, with the state it was made in. -/
structure FactoryStep (σ D : Type) where
  state : σ
  call : TypeCall D

structure Session (σ D : Type) where
  factory : σ
  steps : List (FactoryStep σ D)

abbrev Conversion (σ D : Type) := EStateM TypeError (Session σ D)

/-- What the architecture gives to the type manager. There is always a model to fall back on. -/
structure TypeArchitecture where
  getAddrSize : UInt32
  getWordSize : UInt32
  getDefaultCC : Str
  protoModels : List Str
  protoModels_ne_nil : protoModels ≠ []

namespace TypeArchitecture

def hasModel (archi : TypeArchitecture) (cc : Str) : Bool := archi.protoModels.contains cc

/-- The convention of the function, the default one, or the first one that there is. -/
def callingConv (archi : TypeArchitecture) (cc : Option Str) : Str :=
  let cc := cc.getD (ascii "__stdcall")
  if archi.hasModel cc then cc
  else if archi.hasModel archi.getDefaultCC then archi.getDefaultCC
  else archi.protoModels.head archi.protoModels_ne_nil

end TypeArchitecture

def int4 (n : UInt64) : Int32 := n.toUInt32.toInt32

theorem int4_toInt (x : UInt64) : (int4 x).toInt = (x.toNat : Int).bmod (2 ^ 32) := by
  unfold int4
  simp [Int32.toInt]

theorem int4_eq_iff (x : UInt64) (n : Nat) : (int4 x).toInt = n ↔ n < 2 ^ 31 ∧ x.toNat % 2 ^ 32 = n := by
  rw [int4_toInt, Int.bmod_def]
  split <;> omega

namespace TypeManager

variable {σ D ι : Type} (F : TypeFactory σ D) (G : TypeGraph ι) (archi : TypeArchitecture)

def Session.after (st : Session σ D) (c : TypeCall D) : Session σ D :=
  ⟨(F.exec c st.factory).2, st.steps ++ [⟨st.factory, c⟩]⟩

def perform (c : TypeCall D) : Conversion σ D D := fun st => .ok (F.exec c st.factory).1 (Session.after F st c)

def findByIdLocal (n : Str) : Conversion σ D (Option D) := fun st => .ok (F.findByIdLocal st.factory n) st

def makeNamed (c : TypeCall D) (n : Str) : Conversion σ D D := do
  let ct ← perform F c
  let _ ← perform F (.setName ct n)
  return ct

section

-- The functions call each other through `findByTypeInfo`, which gets its fuel below.
variable (findByTypeInfo : ι → Conversion σ D D)

/-- The types of a prototype; without one the function returns `void`. -/
def parsePrototype (void : D) : List ι → Conversion σ D (D × List D)
  | [] => pure (void, [])
  | ret :: params => do
    let retType ← findByTypeInfo ret
    let paramType ← params.mapM findByTypeInfo
    return (retType, paramType)

def parseFunc (typeInfo : FuncInfo ι) : Conversion σ D D := do
  let void ← perform F .getTypeVoid
  let types ← parsePrototype findByTypeInfo void typeInfo.getFuncPrototype
  makeNamed F (.getTypeCode (archi.callingConv typeInfo.getCallingConv) types.1 types.2 typeInfo.isDotDotDot)
    typeInfo.getName

def parseField (info : TypeStructField ι) : Conversion σ D (TypeField D) := do
  let type ← findByTypeInfo info.type
  return ⟨int4 info.offset, info.name, type⟩

def parseStruct (fields : List (TypeStructField ι)) (name : Str) : Conversion σ D D := do
  let ct ← perform F (.getTypeStruct name)
  let result ← fields.mapM (parseField findByTypeInfo)
  let _ ← perform F (.setFields result ct 0 0)
  return ct

def parseTypeInfo (typeInfo : TypeInfo ι) : Conversion σ D D :=
  let name := typeInfo.getName
  match typeInfo.toPtr with
  | some pointed => do
    let pointee ← findByTypeInfo pointed
    makeNamed F (.getTypePointer archi.getAddrSize.toInt32 pointee archi.getWordSize) name
  | none =>
    if typeInfo.isBool then makeNamed F (.newTypeBase (int4 typeInfo.getSize) .TYPE_BOOL name) name
    else if typeInfo.isUnicode then makeNamed F (.newTypeUnicode name (int4 typeInfo.getSize) .TYPE_INT) name
    else if typeInfo.isChar then makeNamed F (.newTypeChar name) name
    else if typeInfo.isInt then makeNamed F (.newTypeBase (int4 typeInfo.getSize) .TYPE_INT name) name
    else if typeInfo.isFloat then makeNamed F (.newTypeBase (int4 typeInfo.getSize) .TYPE_FLOAT name) name
    else match typeInfo.toStruct with
    | some fields => parseStruct F findByTypeInfo fields name
    | none =>
      if typeInfo.isVoid then
        let size := if typeInfo.getSize = 0 then archi.getAddrSize.toUInt64 else typeInfo.getSize
        makeNamed F (.newTypeBase (int4 size) .TYPE_VOID name) name
      else match typeInfo.toFunc with
      | some func => parseFunc F archi findByTypeInfo func
      | none => match typeInfo.toArray with
        | some array =>
          -- Ghidra has no arrays of size 0.
          if typeInfo.getSize = 0 then findByTypeInfo array.getPointedObject
          else do
            let element ← findByTypeInfo array.getPointedObject
            makeNamed F (.getTypeArray (int4 typeInfo.getSize) element) name
        | none =>
          let unknownSize := if typeInfo.getSize = -1 then archi.getAddrSize.toUInt64 else typeInfo.getSize
          makeNamed F (.newTypeBase (int4 unknownSize) .TYPE_UNKNOWN name) name

def findById (n : Str) : Conversion σ D D := do
  match ← findByIdLocal F n with
  | some cached => return cached
  | none => match G.build n with
    | none => throw (.UnknownTypeError n)
    | some type => parseTypeInfo F archi findByTypeInfo (G.info type)

/-- `TypeFactory::findByName` of Ghidra. -/
def findByName (n : Str) : Conversion σ D D := findById F G archi findByTypeInfo n

/-- Only an unknown type is caught, and the type info itself is converted then. -/
def findOrParse (i : ι) : Conversion σ D D :=
  tryCatch (findByName F G archi findByTypeInfo (G.getName i)) fun e => match e with
    | .UnknownTypeError _ => parseTypeInfo F archi findByTypeInfo (G.info i)
    | e => throw e

end

def findByTypeInfo : Nat → ι → Conversion σ D D
  | 0, _ => throw .stack_overflow
  | fuel + 1, i => findOrParse F G archi (findByTypeInfo fuel) i

def convert (fuel : Nat) (requests : List ι) : Conversion σ D (List D) :=
  requests.mapM (findByTypeInfo F G archi fuel)

end TypeManager

end Yagi
