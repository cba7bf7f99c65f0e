import Mathlib.Data.List.Find
import Yagi.Types.Core
import Yagi.Types.Table

/-!
# The table with details

A factory that keeps, beside its table, the metatype and the number of elements of
each type.
-/

open Text Table

namespace Yagi

structure TypeDetail where
  metatype : DatatypeMeta
  elements : Int32
deriving DecidableEq

structure DetailTable where
  table : TypeTable
  details : Nat → TypeDetail

namespace DetailTable

def elements : TypeCall Nat → Int32
  | .getTypeArray count _ => count
  | _ => 0

/-- The details that a call sets. A struct that is there already is not made again. -/
def detail (table : TypeTable) (call : TypeCall Nat) : Option TypeDetail :=
  match call with
  | .getTypeStruct n => if table.find n = none then some ⟨.TYPE_STRUCT, 0⟩ else none
  | call => call.metatype.map fun metatype => ⟨metatype, elements call⟩

def exec (call : TypeCall Nat) (t : DetailTable) : Nat × DetailTable :=
  ((TypeTable.exec call t.table).1, ⟨(TypeTable.exec call t.table).2,
    match detail t.table call with
    | some detail => Function.update t.details (TypeTable.exec call t.table).1 detail
    | none => t.details⟩)

def factory : TypeFactory DetailTable Nat where
  exec := exec
  findByIdLocal t := t.table.find
  named t := TypeTable.factory.named t.table
  getName t := TypeTable.factory.getName t.table
  getSize t := TypeTable.factory.getSize t.table
  isIncomplete t := TypeTable.factory.isIncomplete t.table

def typeDetails : TypeDetails DetailTable Nat where
  getMetatype t d := (t.details d).metatype
  numElements t d := (t.details d).elements
  setCoreType n size metatype _ t :=
    ⟨t.table.update t.table.length ⟨n, size.toInt, false, true⟩, Function.update t.details t.table.length ⟨metatype, 0⟩⟩

/-! ## Its laws -/

theorem extends_iff (t t' : DetailTable) :
    factory.Extends t t' ↔ TypeTable.factory.Extends t.table t'.table :=
  ⟨fun h => ⟨h.named, h.getName, h.getSize, h.isIncomplete, h.found⟩,
    fun h => ⟨h.named, h.getName, h.getSize, h.isIncomplete, h.found⟩⟩

theorem madeSize_eq (t : DetailTable) (call : TypeCall Nat) :
    factory.madeSize t call = TypeTable.factory.madeSize t.table call := by
  cases call <;> rfl

theorem laws : factory.Laws where
  found_named t := TypeTable.laws.found_named t.table
  make_extends c t size h := (extends_iff _ _).mpr (TypeTable.laws.make_extends c t.table size (madeSize_eq t c ▸ h))
  make_named c t size h := TypeTable.laws.make_named c t.table size (madeSize_eq t c ▸ h)
  make_unnamed c t size h := TypeTable.laws.make_unnamed c t.table size (madeSize_eq t c ▸ h)
  make_getSize c t size h := TypeTable.laws.make_getSize c t.table size (madeSize_eq t c ▸ h)
  make_complete c t size h := TypeTable.laws.make_complete c t.table size (madeSize_eq t c ▸ h)
  void_extends t := (extends_iff _ _).mpr (TypeTable.laws.void_extends t.table)
  void_named t := TypeTable.laws.void_named t.table
  setName_extends ct n t h := (extends_iff _ _).mpr (TypeTable.laws.setName_extends ct n t.table h)
  setName_named ct n t := TypeTable.laws.setName_named ct n t.table
  setName_getName ct n t := TypeTable.laws.setName_getName ct n t.table
  setName_getSize ct n t := TypeTable.laws.setName_getSize ct n t.table
  setName_complete ct n t := TypeTable.laws.setName_complete ct n t.table
  setName_found ct n t := TypeTable.laws.setName_found ct n t.table
  struct_extends n t h := (extends_iff _ _).mpr (TypeTable.laws.struct_extends n t.table h)
  struct_named n t := TypeTable.laws.struct_named n t.table
  struct_unnamed n t := TypeTable.laws.struct_unnamed n t.table
  struct_getName n t := TypeTable.laws.struct_getName n t.table
  struct_getSize n t := TypeTable.laws.struct_getSize n t.table
  struct_incomplete n t := TypeTable.laws.struct_incomplete n t.table
  struct_found n t := TypeTable.laws.struct_found n t.table
  fields_named fields ct t := TypeTable.laws.fields_named fields ct t.table
  fields_getName fields ct t := TypeTable.laws.fields_getName fields ct t.table
  fields_getSize fields ct t := TypeTable.laws.fields_getSize fields ct t.table
  fields_complete fields ct t := TypeTable.laws.fields_complete fields ct t.table
  fields_other_getSize fields ct t := TypeTable.laws.fields_other_getSize fields ct t.table
  fields_other_complete fields ct t := TypeTable.laws.fields_other_complete fields ct t.table
  fields_found fields ct t := TypeTable.laws.fields_found fields ct t.table

/-! ## The laws of the details -/

theorem detail_make (table : TypeTable) (call : TypeCall Nat) (metatype : DatatypeMeta)
    (h : call.metatype = some metatype) : detail table call = some ⟨metatype, elements call⟩ := by
  cases call <;> simp_all [detail, TypeCall.metatype]

theorem exec_detail (t : DetailTable) (call : TypeCall Nat) (d : TypeDetail) (h : detail t.table call = some d) :
    (exec call t).2.details (exec call t).1 = d := by
  simp [exec, h]

theorem detail_fresh (table : TypeTable) (call : TypeCall Nat) (d : TypeDetail) (h : detail table call = some d) :
    (TypeTable.exec call table).1 = table.length := by
  cases call with
  | getTypeStruct n =>
    simp only [detail] at h
    split at h
    · rename_i hn
      rw [TypeTable.exec_struct n table hn]
    · cases h
  | setName ct n => cases h
  | setFields fields ct fixedsize flags => cases h
  | _ => rfl

theorem ne_length (t : DetailTable) (x : Nat) (hx : factory.named t x) : x ≠ t.table.length := by
  rintro rfl
  have hnamed : (t.table.row t.table.length).named = true := hx
  rw [TypeTable.row_length] at hnamed
  exact absurd hnamed (by decide)

theorem exec_details (t : DetailTable) (call : TypeCall Nat) (x : Nat) (hx : factory.named t x) :
    (exec call t).2.details x = t.details x := by
  have hne := ne_length t x hx
  cases hd : detail t.table call with
  | none => simp [exec, hd]
  | some d => simp [exec, hd, detail_fresh t.table call d hd, hne]

theorem details_laws : typeDetails.Laws factory where
  make_metatype c t metatype h := congrArg TypeDetail.metatype (exec_detail t c _ (detail_make t.table c metatype h))
  struct_metatype n t h :=
    congrArg TypeDetail.metatype (exec_detail t (.getTypeStruct n) ⟨.TYPE_STRUCT, 0⟩ (if_pos h))
  setName_metatype _ _ _ := rfl
  named_metatype c t x hx := congrArg TypeDetail.metatype (exec_details t c x hx)
  array_elements count element t :=
    congrArg TypeDetail.elements (exec_detail t (.getTypeArray count element) ⟨.TYPE_ARRAY, count⟩ rfl)
  setName_elements _ _ _ := rfl
  named_elements c t x hx := congrArg TypeDetail.elements (exec_details t c x hx)

theorem length_update (table : TypeTable) (row : TypeRow) : (table.update table.length row).length = table.length + 1 := by
  simp [TypeTable.update, put]

theorem find_add (table : TypeTable) (row : TypeRow) (n : Str) (hn : row.named = false ∨ row.name ≠ n) :
    (table.update table.length row).find n = table.find n := by
  unfold TypeTable.find
  rw [length_update, List.range_succ, List.find?_append]
  have hlast : [table.length].find? (fun d => ((table.update table.length row).row d).named &&
      ((table.update table.length row).row d).name == n) = none := by
    rcases hn with hn | hn <;> simp [hn]
  rw [hlast, Option.or_none]
  apply List.find?_congr
  intro d hd
  rw [TypeTable.row_update, if_neg (by simp at hd; omega)]

theorem core_laws : typeDetails.CoreLaws factory where
  core_found n size metatype chartp t h := by
    have hfound : (t.table.update t.table.length ⟨n, size.toInt, false, true⟩).find n ≠ none :=
      (TypeTable.find_ne_none _ n).mpr ⟨t.table.length, by simp⟩
    obtain ⟨d, hd⟩ := Option.ne_none_iff_exists'.mp hfound
    obtain ⟨hnamed, hname⟩ := TypeTable.find_some _ n d hd
    -- Only the new row bears the name.
    obtain rfl : d = t.table.length := by
      by_contra hne
      rw [TypeTable.row_update, if_neg hne] at hnamed hname
      exact (TypeTable.find_ne_none t.table n).mpr ⟨d, hnamed, hname⟩ h
    refine ⟨_, hd, ?_, ?_, ?_⟩
    · show ((t.table.update t.table.length _).row t.table.length).size = _
      simp
    · show (Function.update t.details t.table.length _ t.table.length).metatype = _
      simp
    · intro x hx
      by_cases hne : x = t.table.length
      · exact Or.inr hne
      · have hx' := (TypeTable.named_update _ _ _ _).mp hx
        rw [if_neg hne] at hx'
        exact Or.inl hx'
  core_other n size metatype chartp t m hm := find_add t.table _ m (Or.inr (Ne.symm hm))
  core_kept n size metatype chartp t h x hx := by
    have hne := ne_length t x hx
    refine ⟨?_, ?_, ?_⟩
    · exact (TypeTable.named_update _ _ _ _).mpr (by rw [if_neg hne]; exact hx)
    · show ((t.table.update t.table.length _).row x).size = (t.table.row x).size
      rw [TypeTable.row_update, if_neg hne]
    · show (Function.update t.details t.table.length _ x).metatype = _
      rw [Function.update_of_ne hne]
      rfl

def blank : DetailTable := ⟨[], fun _ => ⟨.of .TYPE_UNKNOWN, 0⟩⟩

theorem blank_named (x : Nat) : ¬ factory.named blank x := by
  show ¬ (TypeTable.row [] x).named = true
  simp [TypeTable.row, Table.get, TypeRow.blank]

end DetailTable

/-- Before anything is converted. -/
def coreSession : Session DetailTable Nat := ⟨buildTypegrp DetailTable.typeDetails DetailTable.blank, []⟩

/-! ## Databases to convert -/

/-- A `uint8_t`, which is an integer to IDA, and `struct code { uint8_t x; uint8_t *y; }`. -/
def namesakeInfo : Fin 3 → TypeInfo (Fin 3)
  | 0 => { plainInfo (ascii "uint8_t") 1 with isInt := true }
  | 1 => { plainInfo (ascii "code") 16 with toStruct := some [⟨0, ascii "x", 0⟩, ⟨8, ascii "y", 2⟩] }
  | 2 => { plainInfo (ascii "uint8_t *") 8 with toPtr := some 0 }

def namesakes : TypeGraph (Fin 3) := .ofInfos namesakeInfo (by decide) (by decide) (by decide)

/-- Arrays `char[8]` and `int[4]`, `struct S { int x; char c; }` padded to 8 bytes, `struct T { S s; int y; }`,
`struct flags { int a : 3; int b : 5; }` and `struct pair { int x; int y; }`. -/
def layoutInfo : Fin 8 → TypeInfo (Fin 8)
  | 0 => { plainInfo (ascii "int") 4 with isInt := true }
  | 1 => { plainInfo (ascii "char") 1 with isChar := true }
  | 2 => { plainInfo (ascii "char[8]") 8 with toArray := some ⟨1, 8⟩ }
  | 3 => { plainInfo (ascii "int[4]") 16 with toArray := some ⟨0, 4⟩ }
  | 4 => { plainInfo (ascii "S") 8 with toStruct := some [⟨0, ascii "x", 0⟩, ⟨4, ascii "c", 1⟩] }
  | 5 => { plainInfo (ascii "T") 12 with toStruct := some [⟨0, ascii "s", 4⟩, ⟨8, ascii "y", 0⟩] }
  | 6 => { plainInfo (ascii "flags") 4 with toStruct := some [⟨0, ascii "a", 0⟩, ⟨0, ascii "b", 0⟩] }
  | 7 => { plainInfo (ascii "pair") 8 with toStruct := some [⟨0, ascii "x", 0⟩, ⟨4, ascii "y", 0⟩] }

def declarations : TypeGraph (Fin 8) := .ofInfos layoutInfo (by decide) (by decide) (by decide)

end Yagi
