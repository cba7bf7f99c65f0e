import Yagi.Lib.Table
import Yagi.Types.Spec

/-!
# A factory that keeps its types in a table

A lawful `TypeFactory`: types are numbered by their places, and a name finds the
first type that bears it. Last comes a database with two structs to convert.
-/

open Text Table

namespace Yagi

structure TypeRow where
  name : Str
  size : Int
  incomplete : Bool
  named : Bool
deriving DecidableEq

def TypeRow.blank : TypeRow := ⟨[], 0, false, false⟩

abbrev TypeTable := List TypeRow

namespace TypeTable

def row (table : TypeTable) (d : Nat) : TypeRow := get .blank table d

def update (table : TypeTable) (d : Nat) (row : TypeRow) : TypeTable := put .blank table d row

@[simp] theorem row_update (table : TypeTable) (d x : Nat) (r : TypeRow) :
    (table.update d r).row x = if x = d then r else table.row x := get_put _ _ _ _ _

@[simp] theorem row_length (table : TypeTable) : table.row table.length = .blank := get_length _ _

def find (table : TypeTable) (n : Str) : Option Nat :=
  (List.range table.length).find? fun d => (table.row d).named && (table.row d).name == n

theorem find_some (table : TypeTable) (n : Str) (d : Nat) (h : table.find n = some d) :
    (table.row d).named ∧ (table.row d).name = n := by
  have := List.find?_some h
  simpa using this

theorem find_ne_none (table : TypeTable) (n : Str) :
    table.find n ≠ none ↔ ∃ d, (table.row d).named ∧ (table.row d).name = n := by
  constructor
  · intro h
    obtain ⟨d, hd⟩ := Option.ne_none_iff_exists'.mp h
    exact ⟨d, find_some table n d hd⟩
  · rintro ⟨d, hnamed, hname⟩ hnone
    have hlt : d < table.length := by
      apply lt_length_of_get_ne TypeRow.blank
      intro hblank
      rw [row, hblank] at hnamed
      exact absurd hnamed (by decide)
    have := List.find?_eq_none.mp hnone d (List.mem_range.mpr hlt)
    simp [hnamed, hname] at this

def extent (table : TypeTable) (fields : List (TypeField Nat)) : Int :=
  (fields.map fun field => field.offset.toInt + (table.row field.type).size).foldl max 0

/-- The size of the type that a call makes; the rows of `void` have none. -/
def madeSize (table : TypeTable) : TypeCall Nat → Int
  | .getTypePointer size _ _ => size.toInt
  | .newTypeBase size _ _ => size.toInt
  | .newTypeUnicode _ size _ => size.toInt
  | .newTypeChar _ => 1
  | .getTypeCode _ _ _ _ => 1
  | .getTypeArray count element => count.toInt * (table.row element).size
  | _ => 0

def exec (call : TypeCall Nat) (table : TypeTable) : Nat × TypeTable :=
  match call with
  | .setName ct n => (ct, table.update ct { table.row ct with name := n, named := true })
  | .getTypeStruct n => match table.find n with
    | some d => (d, table)
    | none => (table.length, table.update table.length ⟨n, 0, true, true⟩)
  | .setFields fields ct _ _ =>
    if (table.row ct).incomplete then
      (ct, table.update ct { table.row ct with size := table.extent fields, incomplete := false })
    else (ct, table)
  | call => (table.length, table.update table.length ⟨[], table.madeSize call, false, false⟩)

def factory : TypeFactory TypeTable Nat where
  exec := exec
  findByIdLocal := find
  named table d := (table.row d).named
  getName table d := (table.row d).name
  getSize table d := (table.row d).size
  isIncomplete table d := (table.row d).incomplete

/-! ## Its laws -/

theorem exec_make (call : TypeCall Nat) (table : TypeTable) (size : Int) (h : factory.madeSize table call = some size) :
    exec call table = (table.length, table.update table.length ⟨[], size, false, false⟩) := by
  cases call <;> simp_all [TypeFactory.madeSize, exec, madeSize, factory]

theorem update_extends (table : TypeTable) (d : Nat) (r : TypeRow) (h : (table.row d).named = false) :
    factory.Extends table (table.update d r) := by
  have hrow : ∀ x, (table.row x).named → (table.update d r).row x = table.row x := by
    intro x hx
    rw [row_update, if_neg]
    rintro rfl
    rw [h] at hx
    exact absurd hx (by decide)
  refine ⟨?_, ?_, ?_, ?_, ?_⟩
  · intro x hx; show ((table.update d r).row x).named; rw [hrow x hx]; exact hx
  · intro x hx; exact congrArg TypeRow.name (hrow x hx)
  · intro x hx; exact congrArg TypeRow.size (hrow x hx)
  · intro x hx; exact congrArg TypeRow.incomplete (hrow x hx)
  · intro n hn
    obtain ⟨x, hx, hname⟩ := (find_ne_none table n).mp hn
    exact (find_ne_none _ n).mpr ⟨x, by rw [hrow x hx]; exact hx, by rw [hrow x hx]; exact hname⟩

theorem update_length_extends (table : TypeTable) (r : TypeRow) :
    factory.Extends table (table.update table.length r) :=
  update_extends table _ r (by rw [row_length]; rfl)

theorem exec_struct (n : Str) (table : TypeTable) (h : table.find n = none) :
    exec (.getTypeStruct n) table = (table.length, table.update table.length ⟨n, 0, true, true⟩) := by
  simp [exec, h]

theorem exec_fields (fields : List (TypeField Nat)) (ct : Nat) (table : TypeTable)
    (h : (table.row ct).incomplete = true) :
    exec (.setFields fields ct 0 0) table =
      (ct, table.update ct { table.row ct with size := table.extent fields, incomplete := false }) := by
  simp [exec, h]

theorem named_update (table : TypeTable) (d x : Nat) (r : TypeRow) :
    factory.named (table.update d r) x ↔ if x = d then r.named = true else factory.named table x := by
  show ((table.update d r).row x).named = true ↔ _
  rw [row_update]
  split <;> rfl

theorem not_named (table : TypeTable) (d : Nat) (h : ¬ factory.named table d) : (table.row d).named = false :=
  Bool.eq_false_iff.mpr h

theorem laws : factory.Laws where
  found_named table n d h := find_some table n d h
  make_extends c table size h := by
    show factory.Extends table (exec c table).2
    rw [exec_make c table size h]
    exact update_length_extends _ _
  make_named c table size h x := by
    show factory.named (exec c table).2 x ↔ _
    rw [exec_make c table size h, named_update]
    split
    · rename_i hx; subst hx; simp [factory, TypeRow.blank]
    · rfl
  make_unnamed c table size h := by
    show ¬ factory.named table (exec c table).1
    rw [exec_make c table size h]
    simp [factory, TypeRow.blank]
  make_getSize c table size h := by
    show ((exec c table).2.row (exec c table).1).size = size
    rw [exec_make c table size h]
    simp
  make_complete c table size h := by
    show ((exec c table).2.row (exec c table).1).incomplete = false
    rw [exec_make c table size h]
    simp
  void_extends table := update_length_extends _ _
  void_named table x := by
    show factory.named (table.update table.length _) x ↔ _
    rw [named_update]
    split
    · rename_i hx; subst hx; simp [factory, TypeRow.blank]
    · rfl
  setName_extends ct n table h := update_extends table ct _ (not_named table ct h)
  setName_named ct n table h x := by
    show factory.named (table.update ct _) x ↔ _
    rw [named_update]
    split <;> simp_all
  setName_getName ct n table h := by simp [factory, exec]
  setName_getSize ct n table h := by simp [factory, exec]
  setName_complete ct n table h := by simp [factory, exec]
  setName_found ct n table h hn := (find_ne_none _ n).mpr ⟨ct, by simp [factory, exec]⟩
  struct_extends n table h := by
    show factory.Extends table (exec (.getTypeStruct n) table).2
    rw [exec_struct n table h]
    exact update_length_extends _ _
  struct_named n table h x := by
    show factory.named (exec (.getTypeStruct n) table).2 x ↔ _ ∨ x = (exec (.getTypeStruct n) table).1
    rw [exec_struct n table h, named_update]
    split <;> simp_all
  struct_unnamed n table h := by
    show ¬ factory.named table (exec (.getTypeStruct n) table).1
    rw [exec_struct n table h]
    simp [factory, TypeRow.blank]
  struct_getName n table h := by
    show ((exec (.getTypeStruct n) table).2.row (exec (.getTypeStruct n) table).1).name = n
    rw [exec_struct n table h]
    simp
  struct_getSize n table h := by
    show ((exec (.getTypeStruct n) table).2.row (exec (.getTypeStruct n) table).1).size = 0
    rw [exec_struct n table h]
    simp
  struct_incomplete n table h := by
    show ((exec (.getTypeStruct n) table).2.row (exec (.getTypeStruct n) table).1).incomplete = true
    rw [exec_struct n table h]
    simp
  struct_found n table h hn := by
    show (exec (.getTypeStruct n) table).2.find n ≠ none
    rw [exec_struct n table h]
    exact (find_ne_none _ n).mpr ⟨table.length, by simp⟩
  fields_named fields ct table hct hopen x := by
    show factory.named (exec (.setFields fields ct 0 0) table).2 x ↔ _
    rw [exec_fields fields ct table hopen, named_update]
    split
    · rename_i hx; subst hx; rfl
    · rfl
  fields_getName fields ct table hct hopen x hx := by
    show ((exec (.setFields fields ct 0 0) table).2.row x).name = (table.row x).name
    rw [exec_fields fields ct table hopen, row_update]
    split
    · rename_i hx; subst hx; rfl
    · rfl
  fields_getSize fields ct table hct hopen := by
    show ((exec (.setFields fields ct 0 0) table).2.row ct).size = table.extent fields
    rw [exec_fields fields ct table hopen, row_update, if_pos rfl]
  fields_complete fields ct table hct hopen := by
    show ((exec (.setFields fields ct 0 0) table).2.row ct).incomplete = false
    rw [exec_fields fields ct table hopen, row_update, if_pos rfl]
  fields_other_getSize fields ct table hct hopen x hx hne := by
    show ((exec (.setFields fields ct 0 0) table).2.row x).size = (table.row x).size
    rw [exec_fields fields ct table hopen, row_update, if_neg hne]
  fields_other_complete fields ct table hct hopen x hx hne := by
    show ((exec (.setFields fields ct 0 0) table).2.row x).incomplete = (table.row x).incomplete
    rw [exec_fields fields ct table hopen, row_update, if_neg hne]
  fields_found fields ct table hct hopen n hn := by
    obtain ⟨x, hx, hname⟩ := (find_ne_none table n).mp hn
    show (exec (.setFields fields ct 0 0) table).2.find n ≠ none
    rw [exec_fields fields ct table hopen]
    refine (find_ne_none _ n).mpr ⟨x, ?_⟩
    rw [row_update]
    split
    · rename_i heq; subst heq; exact ⟨hx, hname⟩
    · exact ⟨hx, hname⟩

def coreTypes : TypeTable := [⟨ascii "int", 4, false, true⟩]

end TypeTable

/-! ## Two linked structs -/

def plainInfo {ι : Type} (name : Str) (size : UInt64) : TypeInfo ι :=
  ⟨size, name, false, false, false, false, false, false, none, none, none, none⟩

/-- A database of type infos of which none is a function. -/
def TypeGraph.ofInfos {n : Nat} (info : Fin n → TypeInfo (Fin n))
    (hinjective : ∀ i j, (info i).getName = (info j).getName → i = j) (hname : ∀ i, (info i).getName ≠ [])
    (hfunc : ∀ i, (info i).toFunc = none) : TypeGraph (Fin n) where
  info := info
  build name := (List.finRange n).find? fun i => (info i).getName = name
  getName_injective := hinjective
  getName_ne_nil := hname
  build_getName name i h := by simpa using List.find?_some h
  func_getName i func h := by
    rw [hfunc i] at h
    cases h

/-- `struct A { B *p; int x; }` and `struct B { A a; }`. -/
def linkedInfo : Fin 4 → TypeInfo (Fin 4)
  | 0 => { plainInfo (ascii "A") 12 with toStruct := some [⟨0, ascii "p", 2⟩, ⟨8, ascii "x", 3⟩] }
  | 1 => { plainInfo (ascii "B") 12 with toStruct := some [⟨0, ascii "a", 0⟩] }
  | 2 => { plainInfo (ascii "B *") 8 with toPtr := some 1 }
  | 3 => { plainInfo (ascii "int") 4 with isInt := true }

def linked : TypeGraph (Fin 4) where
  info := linkedInfo
  build n := (List.finRange 4).find? fun i => (linkedInfo i).getName = n
  getName_injective := by decide
  getName_ne_nil := by decide
  build_getName n i h := by simpa using List.find?_some h
  func_getName i func h := by
    have hnone : ∀ j, (linkedInfo j).toFunc = none := by decide
    rw [hnone i] at h
    cases h

def archi64 : TypeArchitecture := ⟨8, 1, ascii "__stdcall", [ascii "__stdcall"], by simp⟩

end Yagi
