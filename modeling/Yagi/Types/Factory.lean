import Yagi.Lib.Text

/-!
# The type factory (`TypeFactory`)

Yagi builds its types by calls of Ghidra's factory. The factory is a parameter
here, with what Yagi relies on as laws.
-/

open Text

namespace Yagi

inductive Metatype where
  | TYPE_VOID
  | TYPE_UNKNOWN
  | TYPE_INT
  | TYPE_BOOL
  | TYPE_FLOAT
deriving DecidableEq, Repr

structure TypeField (D : Type) where
  offset : Int32
  name : Str
  type : D
deriving DecidableEq

/-- The calls of the factory that can change it. A constructor of a type counts as one. -/
inductive TypeCall (D : Type) where
  | getTypePointer (size : Int32) (pointee : D) (wordSize : UInt32)
  | newTypeBase (size : Int32) (metatype : Metatype) (name : Str)
  | newTypeUnicode (name : Str) (size : Int32) (metatype : Metatype)
  | newTypeChar (name : Str)
  | getTypeVoid
  | getTypeCode (model : Str) (outtype : D) (intypes : List D) (dotdotdot : Bool)
  | getTypeArray (count : Int32) (element : D)
  | setName (ct : D) (name : Str)
  | getTypeStruct (name : Str)
  | setFields (fields : List (TypeField D)) (ct : D) (fixedsize : Int32) (flags : UInt32)
deriving DecidableEq

/-- A factory with state `σ` and datatypes `D`. A type is named once it has an id. -/
structure TypeFactory (σ D : Type) where
  exec : TypeCall D → σ → D × σ
  findByIdLocal : σ → Str → Option D
  named : σ → D → Prop
  getName : σ → D → Str
  getSize : σ → D → Int
  isIncomplete : σ → D → Bool

namespace TypeFactory

variable {σ D : Type} (F : TypeFactory σ D)

/-- What is named in `s` is the same in `s'`, and what is found in `s` is found in `s'`. -/
structure Extends (s s' : σ) : Prop where
  named : ∀ x, F.named s x → F.named s' x
  getName : ∀ x, F.named s x → F.getName s' x = F.getName s x
  getSize : ∀ x, F.named s x → F.getSize s' x = F.getSize s x
  isIncomplete : ∀ x, F.named s x → F.isIncomplete s' x = F.isIncomplete s x
  found : ∀ n, F.findByIdLocal s n ≠ none → F.findByIdLocal s' n ≠ none

def madeSize (s : σ) : TypeCall D → Option Int
  | .getTypePointer size _ _ => some size.toInt
  | .newTypeBase size _ _ => some size.toInt
  | .newTypeUnicode _ size _ => some size.toInt
  | .newTypeChar _ => some 1
  | .getTypeCode _ _ _ _ => some 1
  | .getTypeArray count element => some (count.toInt * F.getSize s element)
  | _ => none

def extent (s : σ) (fields : List (TypeField D)) : Int :=
  (fields.map fun field => field.offset.toInt + F.getSize s field.type).foldl max 0

/-- A type is made without a name; a struct is named at once, and gets its fields later. -/
structure Laws : Prop where
  found_named : ∀ s n d, F.findByIdLocal s n = some d → F.named s d ∧ F.getName s d = n
  make_extends : ∀ c s size, F.madeSize s c = some size → F.Extends s (F.exec c s).2
  make_named : ∀ c s size, F.madeSize s c = some size → ∀ x, F.named (F.exec c s).2 x ↔ F.named s x
  make_unnamed : ∀ c s size, F.madeSize s c = some size → ¬ F.named s (F.exec c s).1
  make_getSize : ∀ c s size, F.madeSize s c = some size → F.getSize (F.exec c s).2 (F.exec c s).1 = size
  make_complete : ∀ c s size, F.madeSize s c = some size → F.isIncomplete (F.exec c s).2 (F.exec c s).1 = false
  void_extends : ∀ s, F.Extends s (F.exec .getTypeVoid s).2
  void_named : ∀ s x, F.named (F.exec .getTypeVoid s).2 x ↔ F.named s x
  setName_extends : ∀ ct n s, ¬ F.named s ct → F.Extends s (F.exec (.setName ct n) s).2
  setName_named : ∀ ct n s, ¬ F.named s ct → ∀ x, F.named (F.exec (.setName ct n) s).2 x ↔ F.named s x ∨ x = ct
  setName_getName : ∀ ct n s, ¬ F.named s ct → F.getName (F.exec (.setName ct n) s).2 ct = n
  setName_getSize : ∀ ct n s, ¬ F.named s ct → F.getSize (F.exec (.setName ct n) s).2 ct = F.getSize s ct
  setName_complete : ∀ ct n s, ¬ F.named s ct →
    F.isIncomplete (F.exec (.setName ct n) s).2 ct = F.isIncomplete s ct
  setName_found : ∀ ct n s, ¬ F.named s ct → n ≠ [] → F.findByIdLocal (F.exec (.setName ct n) s).2 n ≠ none
  struct_extends : ∀ n s, F.findByIdLocal s n = none → F.Extends s (F.exec (.getTypeStruct n) s).2
  struct_named : ∀ n s, F.findByIdLocal s n = none → ∀ x,
    F.named (F.exec (.getTypeStruct n) s).2 x ↔ F.named s x ∨ x = (F.exec (.getTypeStruct n) s).1
  struct_unnamed : ∀ n s, F.findByIdLocal s n = none → ¬ F.named s (F.exec (.getTypeStruct n) s).1
  struct_getName : ∀ n s, F.findByIdLocal s n = none →
    F.getName (F.exec (.getTypeStruct n) s).2 (F.exec (.getTypeStruct n) s).1 = n
  struct_getSize : ∀ n s, F.findByIdLocal s n = none →
    F.getSize (F.exec (.getTypeStruct n) s).2 (F.exec (.getTypeStruct n) s).1 = 0
  struct_incomplete : ∀ n s, F.findByIdLocal s n = none →
    F.isIncomplete (F.exec (.getTypeStruct n) s).2 (F.exec (.getTypeStruct n) s).1 = true
  struct_found : ∀ n s, F.findByIdLocal s n = none → n ≠ [] →
    F.findByIdLocal (F.exec (.getTypeStruct n) s).2 n ≠ none
  fields_named : ∀ fields ct s, F.named s ct → F.isIncomplete s ct →
    ∀ x, F.named (F.exec (.setFields fields ct 0 0) s).2 x ↔ F.named s x
  fields_getName : ∀ fields ct s, F.named s ct → F.isIncomplete s ct →
    ∀ x, F.named s x → F.getName (F.exec (.setFields fields ct 0 0) s).2 x = F.getName s x
  fields_getSize : ∀ fields ct s, F.named s ct → F.isIncomplete s ct →
    F.getSize (F.exec (.setFields fields ct 0 0) s).2 ct = F.extent s fields
  fields_complete : ∀ fields ct s, F.named s ct → F.isIncomplete s ct →
    F.isIncomplete (F.exec (.setFields fields ct 0 0) s).2 ct = false
  fields_other_getSize : ∀ fields ct s, F.named s ct → F.isIncomplete s ct → ∀ x, F.named s x → x ≠ ct →
    F.getSize (F.exec (.setFields fields ct 0 0) s).2 x = F.getSize s x
  fields_other_complete : ∀ fields ct s, F.named s ct → F.isIncomplete s ct → ∀ x, F.named s x → x ≠ ct →
    F.isIncomplete (F.exec (.setFields fields ct 0 0) s).2 x = F.isIncomplete s x
  fields_found : ∀ fields ct s, F.named s ct → F.isIncomplete s ct → ∀ n, F.findByIdLocal s n ≠ none →
    F.findByIdLocal (F.exec (.setFields fields ct 0 0) s).2 n ≠ none

theorem Extends.refl (s : σ) : F.Extends s s :=
  ⟨fun _ h => h, fun _ _ => rfl, fun _ _ => rfl, fun _ _ => rfl, fun _ h => h⟩

variable {F}

theorem Extends.trans {s t u : σ} (h₁ : F.Extends s t) (h₂ : F.Extends t u) : F.Extends s u where
  named x hx := h₂.named x (h₁.named x hx)
  getName x hx := (h₂.getName x (h₁.named x hx)).trans (h₁.getName x hx)
  getSize x hx := (h₂.getSize x (h₁.named x hx)).trans (h₁.getSize x hx)
  isIncomplete x hx := (h₂.isIncomplete x (h₁.named x hx)).trans (h₁.isIncomplete x hx)
  found n hn := h₂.found n (h₁.found n hn)

end TypeFactory

end Yagi
