import Yagi.Database
import Yagi.SymbolInfo
import Yagi.Symbols.Keys

/-!
# The symbol at an address (`IdaSymbolInfo`)

Its kind and its name. The name is cleaned and demangled, and bears a mark where
IDA lists it as an import.
-/

open Text

namespace Yagi

/-! ## What IDA knows -/

structure Xref where
  iscode : Bool
  type : Nat
deriving DecidableEq

/-- An ordinary jump. -/
def fl_JN : Nat := 19

structure IdaSegment where
  name : Str
  perm : Nat

def SEGPERM_EXEC : Nat := 1
def SEGPERM_READ : Nat := 4

/-- The imports by module, references and segments of a program, and what IDA does to names. A module whose
imports cannot be listed is `none`. An import by ordinal has no name. -/
structure Program where
  import_modules : List (Option (List (Option Str)))
  xrefs_to : UInt64 → List Xref
  getseg : UInt64 → IdaSegment
  cleanup_name : UInt64 → Str → Option Str
  demangle_name : Str → Str

/-- No imports, and names that stay as they are. -/
def plainProgram : Program where
  import_modules := []
  xrefs_to _ := []
  getseg _ := ⟨[], 0⟩
  cleanup_name _ _ := none
  demangle_name _ := []

/-- IDA goes on while the callback returns 1. -/
def visitNames (callback : Option Str → Int) : List (Option Str) → Int
  | [] => 1
  | name :: rest => if callback name = 1 then visitNames callback rest else callback name

def enum_import_names (names : Option (List (Option Str))) (callback : Option Str → Int) : Int :=
  names.elim (-1) (visitNames callback)

/-! ## The symbol -/

structure IdaSymbolInfo where
  m_ea : UInt64
  m_name : Str

namespace IdaSymbolInfo

variable {Ty : Type} (program : Program) (db : Database Ty) (info : IdaSymbolInfo)

def isFunction : Bool := db.get_func info.m_ea = some info.m_ea

/-- The name without the mark, unless it is the mark. -/
def importName : Str :=
  if info.m_name.length > 6 ∧ info.m_name.take 6 = importPrefix then info.m_name.drop 6 else info.m_name

/-- Some module lists the name among its imports. -/
def Listed : Prop := ∃ names, some names ∈ program.import_modules ∧ some info.importName ∈ names

def isImport : Bool := program.import_modules.any fun names =>
  let found := enum_import_names names fun name => if name = some info.importName then 0 else 1
  found ≠ -1 && found ≠ 1

/-- The references to code come first. -/
def isLabelTo : List Xref → Bool
  | [] => false
  | xr :: rest => if !xr.iscode then false else if xr.type ≠ fl_JN then isLabelTo rest else true

def isLabel : Bool := isLabelTo (program.xrefs_to info.m_ea)

def isReadOnly : Bool :=
  let seg := program.getseg info.m_ea
  seg.name = ascii ".data" || seg.perm = SEGPERM_READ || seg.perm = SEGPERM_READ + SEGPERM_EXEC

def cleanName : Str :=
  if info.m_name.take 4 = ascii "sub_" then c_str info.m_name
  else (program.cleanup_name info.m_ea (c_str info.m_name)).getD (c_str info.m_name)

/-- The demangled name ends at its parameters. -/
def plainName : Str :=
  let pname := info.cleanName program
  let idaName := program.demangle_name (c_str pname)
  if idaName = [] then c_str pname
  else c_str (idaName.take ((find (ch '(') idaName).getD idaName.length))

def getName : Str :=
  if info.isImport program then importPrefix ++ info.plainName program else info.plainName program

/-- What the scope of Yagi sees of it. -/
def symbolInfo : SymbolInfo :=
  ⟨info.getName program, info.isFunction db, info.isLabel program, info.isImport program, info.isReadOnly program⟩

/-! ## Imports -/

theorem visitNames_zero (wanted : Str) (names : List (Option Str)) :
    visitNames (fun name => if name = some wanted then 0 else 1) names = if some wanted ∈ names then 0 else 1 := by
  induction names with
  | nil => rfl
  | cons name rest ih =>
    unfold visitNames
    by_cases hname : name = some wanted
    · simp [hname]
    · simp [hname, ih, Ne.symm hname]

theorem isImport_iff : info.isImport program = true ↔ info.Listed program := by
  unfold isImport Listed
  rw [List.any_eq_true]
  constructor
  · rintro ⟨modnames, hmod, hfound⟩
    cases modnames with
    | none => simp [enum_import_names] at hfound
    | some names =>
      refine ⟨names, hmod, ?_⟩
      by_contra hmissed
      simp [enum_import_names, visitNames_zero, hmissed] at hfound
  · rintro ⟨names, hmod, hmem⟩
    refine ⟨some names, hmod, ?_⟩
    simp [enum_import_names, visitNames_zero, hmem]

end IdaSymbolInfo

namespace IdaSymbolInfoFactory

variable {Ty : Type} (program : Program) (db : Database Ty)

/-- The symbol that `find` gives, as the scope sees it. -/
def symbolAt (ea : UInt64) : Option SymbolInfo :=
  (find db ea).map fun name => IdaSymbolInfo.symbolInfo program db ⟨ea, name⟩

end IdaSymbolInfoFactory

end Yagi
