import Yagi.Types.TypeInfo

/-!
# A declaration to edit (`_PrintDeclType`)

The parameters are written one after the other, and joined by commas in the end.
-/

open Text

namespace Yagi

/-- What IDA tells of a type: its name, and its function type. -/
structure TypeNames (Ty : Type) where
  getName : Ty → Str
  toFunc : Ty → Option (FuncInfo Ty)

namespace TypeNames

variable {Ty : Type} (T : TypeNames Ty)

/-- A comma stands behind each type until the last one is cut off. -/
def parametersDecl (typeFunc : FuncInfo Ty) (params : List Ty) : Str :=
  let parametersDecl := params.foldl (fun decl info => decl ++ (T.getName info ++ ascii ",")) []
  let parametersDecl := if typeFunc.isDotDotDot then parametersDecl ++ ascii "..." else parametersDecl
  if parametersDecl.getLast? = some (ch ',') then parametersDecl.dropLast else parametersDecl

def printDeclType (name : Str) (typeInfo : Ty) : Str :=
  match T.toFunc typeInfo with
  | none => T.getName typeInfo ++ ascii ";"
  | some typeFunc => match typeFunc.getFuncPrototype with
    | [] => T.getName typeInfo ++ ascii ";"
    | ret :: params =>
      let cc := typeFunc.getCallingConv.getD []
      T.getName ret ++ ascii " " ++ cc ++ ascii " " ++ name ++ ascii "(" ++ T.parametersDecl typeFunc params ++ ascii ");"

/-! ## The parameters -/

def parameterTexts (typeFunc : FuncInfo Ty) (params : List Ty) : List Str :=
  params.map T.getName ++ if typeFunc.isDotDotDot then [ascii "..."] else []

/-- The declaration of a function. A convention that is not known leaves nothing between two spaces. -/
def declaration (name : Str) (typeFunc : FuncInfo Ty) (ret : Ty) (params : List Ty) : Str :=
  T.getName ret ++ ascii " " ++ typeFunc.getCallingConv.getD [] ++ ascii " " ++ name ++ ascii "(" ++
    (ascii ",").intercalate (T.parameterTexts typeFunc params) ++ ascii ");"

theorem foldl_decl (params : List Ty) :
    params.foldl (fun decl info => decl ++ (T.getName info ++ ascii ",")) [] =
      (params.map T.getName).flatMap (· ++ ascii ",") := by
  rw [List.flatMap_map, List.flatMap_eq_foldl]

theorem parametersDecl_eq (typeFunc : FuncInfo Ty) (params : List Ty) :
    T.parametersDecl typeFunc params = (ascii ",").intercalate (T.parameterTexts typeFunc params) := by
  unfold parametersDecl parameterTexts
  rw [foldl_decl]
  cases typeFunc.isDotDotDot with
  | true =>
    -- The dots end the text, so that nothing is cut off.
    have hlast : ((params.map T.getName).flatMap (· ++ ascii ",") ++ ascii "...").getLast? ≠ some (ch ',') := by
      rw [List.getLast?_append_of_ne_nil _ (by decide)]
      decide
    simp only [if_true]
    rw [if_neg hlast, intercalate_concat]
  | false =>
    simp only [Bool.false_eq_true, if_false, List.append_nil]
    rcases List.eq_nil_or_concat params with rfl | ⟨front, last, rfl⟩
    · rfl
    · have hcomma : ascii "," = [ch ','] := by decide
      rw [List.concat_eq_append, List.map_append, List.map_singleton, intercalate_concat, List.flatMap_append,
        List.flatMap_singleton, hcomma, ← List.append_assoc, if_pos List.getLast?_concat, List.dropLast_concat]

/-- **The declaration.** It lists exactly the parameters, whatever their names are. -/
theorem printDeclType_lists (name : Str) (typeInfo : Ty) (typeFunc : FuncInfo Ty) (ret : Ty) (params : List Ty)
    (hfunc : T.toFunc typeInfo = some typeFunc) (hprototype : typeFunc.getFuncPrototype = ret :: params) :
    T.printDeclType name typeInfo = T.declaration name typeFunc ret params := by
  unfold printDeclType declaration
  simp only [hfunc, hprototype, parametersDecl_eq]

end TypeNames

/-- `int`, `const char *`, and the function type `int (const char *, ...)`. -/
def printfNames : TypeNames Nat where
  getName
    | 0 => ascii "int"
    | 1 => ascii "const char *"
    | _ => []
  toFunc
    | 2 => some ⟨true, [0, 1], some (ascii "__cdecl"), []⟩
    | _ => none

theorem printDeclType_lists_printf :
    printfNames.printDeclType (ascii "printf") 2 = ascii "int __cdecl printf(const char *,...);" :=
  (printfNames.printDeclType_lists (ascii "printf") 2 ⟨true, [0, 1], some (ascii "__cdecl"), []⟩ 0 [1] rfl rfl).trans
    (by decide)

end Yagi
