import Mathlib.Data.List.Infix
import Yagi.Types.Members
import Yagi.Types.ParamNames

/-!
# The types of IDA (`idatype.cc`)

What Yagi asks IDA of a type, and the type info that it makes of the answers.
-/

open Text

namespace Yagi

/-! ## What IDA answers -/

inductive IdaCallingConv where
  | CM_CC_INVALID
  | CM_CC_UNKNOWN
  | CM_CC_CDECL
  | CM_CC_ELLIPSIS
  | CM_CC_STDCALL
  | CM_CC_FASTCALL
  | CM_CC_THISCALL
  | other (cc : Nat)
deriving DecidableEq, Repr

structure FuncArg (ι : Type) where
  name : Str
  type : ι

structure FuncTypeData (ι : Type) where
  rettype : ι
  args : List (FuncArg ι)
  get_cc : IdaCallingConv

/-- A type. What is asked about functions, structs, pointers and arrays has an answer for any type. -/
structure Tinfo (ι : Type) where
  get_size : UInt64
  print : Str
  is_int : Bool
  is_bool : Bool
  is_float : Bool
  is_void : Bool
  is_char : Bool
  is_func : Bool
  is_vararg_cc : Bool
  is_struct : Bool
  is_ptr : Bool
  is_array : Bool
  get_func_details : Option (FuncTypeData ι)
  get_udt_details : List (UdtMember ι)
  get_pointed_object : ι
  get_array_element : ι
  get_array_nelems : UInt64

variable {ι : Type} (t : Tinfo ι)

/-! ## Names -/

def IdaTypeInfo.getName : Str := c_str t.print

def tolower (b : Byte) : Byte := if ch 'A' ≤ b ∧ b ≤ ch 'Z' then b + 32 else b

/-- A wide character is an integer that is called one. -/
def IdaTypeInfo.isUnicode : Bool :=
  let name := (IdaTypeInfo.getName t).map tolower
  t.is_int && (decide (ascii "wchar" <:+: name) || decide (ascii "wstr" <:+: name))

/-! ## Functions -/

namespace IdaFuncInfo

/-- Without details the prototype is empty. -/
def getFuncPrototype : List ι :=
  match t.get_func_details with
  | none => []
  | some funcInfo => funcInfo.rettype :: funcInfo.args.map (·.type)

/-- A convention that is not known raises, which is `none`. -/
def getCallingConv : Option Str :=
  match t.get_func_details with
  | none => none
  | some funcInfo => match funcInfo.get_cc with
    | .CM_CC_FASTCALL => some (ascii "__fastcall")
    | .CM_CC_STDCALL => some (ascii "__stdcall")
    | .CM_CC_THISCALL => some (ascii "__thiscall")
    | .CM_CC_CDECL => some (ascii "__cdecl")
    | .CM_CC_ELLIPSIS => some (ascii "__cdecl")
    | _ => none

/-- The type info of a function, as it is made of the type. -/
def funcInfo : FuncInfo ι := ⟨t.is_vararg_cc, getFuncPrototype t, getCallingConv t, IdaTypeInfo.getName t⟩

def paramNamesOf : List Str :=
  getFuncParamName t.is_func (t.get_func_details.map fun funcInfo => funcInfo.args.map (·.name))

theorem paramNamesOf_length (h : t.is_func = true) :
    (paramNamesOf t).length = (getFuncPrototype t).tail.length := by
  unfold paramNamesOf getFuncPrototype getFuncParamName
  rw [h]
  cases t.get_func_details with
  | none => rfl
  | some funcInfo => simp [paramNames_length]

end IdaFuncInfo

/-! ## Type infos -/

namespace IdaTypeInfo

def toFunc : Option (FuncInfo ι) := if t.is_func then some (IdaFuncInfo.funcInfo t) else none

def toStruct : Option (List (TypeStructField ι)) :=
  if t.is_struct then some (IdaStructInfo.getFields t.get_udt_details) else none

def toPtr : Option ι := if t.is_ptr then some t.get_pointed_object else none

def toArray : Option (ArrayInfo ι) := if t.is_array then some ⟨t.get_array_element, t.get_array_nelems⟩ else none

def typeInfo : TypeInfo ι where
  getSize := t.get_size
  getName := getName t
  isInt := t.is_int
  isBool := t.is_bool
  isFloat := t.is_float
  isVoid := t.is_void
  isChar := t.is_char
  isUnicode := isUnicode t
  toFunc := toFunc t
  toStruct := toStruct t
  toPtr := toPtr t
  toArray := toArray t

theorem toFunc_eq_some (funcType : FuncInfo ι) (h : toFunc t = some funcType) :
    t.is_func = true ∧ funcType = IdaFuncInfo.funcInfo t := by
  unfold toFunc at h
  split at h
  · rename_i hfunc
    exact ⟨hfunc, (Option.some.inj h).symm⟩
  · simp at h

end IdaTypeInfo

/-- The types of a program. IDA prints no two of them alike, and finds a type under the name that it prints. -/
structure IdaTypes (ι : Type) where
  tinfo : ι → Tinfo ι
  get_named_type : Str → Option ι
  print_injective : ∀ i j, IdaTypeInfo.getName (tinfo i) = IdaTypeInfo.getName (tinfo j) → i = j
  print_ne_nil : ∀ i, IdaTypeInfo.getName (tinfo i) ≠ []
  named_print : ∀ n i, get_named_type n = some i → IdaTypeInfo.getName (tinfo i) = n

/-- What the type manager sees of them. -/
def IdaTypes.graph (T : IdaTypes ι) : TypeGraph ι where
  info i := IdaTypeInfo.typeInfo (T.tinfo i)
  build := T.get_named_type
  getName_injective := T.print_injective
  getName_ne_nil := T.print_ne_nil
  build_getName := T.named_print
  func_getName i func h := by
    obtain ⟨-, rfl⟩ := IdaTypeInfo.toFunc_eq_some (T.tinfo i) func h
    rfl

end Yagi
