import Yagi.Ghidra
import Yagi.Lib.Table

/-!
# The local scope of a function

Yagi reads and changes Ghidra's `ScopeLocal` through a few operations. They are
parameters here, with what Yagi relies on as laws.
-/

open Text Table

namespace Yagi

inductive Attribute where
  | namelock
  | typelock
  | readonly
deriving DecidableEq, Repr

/-- The operations on a local scope of type `σ`, with symbols `Sym` and datatypes `D`. A use point
is the address of a pcode, and `none` is the invalid address. -/
structure ScopeLocal (σ Sym D : Type) where
  symbols : σ → List Sym
  name : σ → Sym → Str
  storage : σ → Sym → Address
  datatype : σ → Sym → D
  findAddr : σ → Address → Option UInt64 → Option Sym
  renameSymbol : Sym → Str → σ → σ
  setAttribute : Sym → Attribute → σ → σ
  addSymbol : Str → D → Address → Option UInt64 → σ → Sym × σ

namespace ScopeLocal

variable {σ Sym D : Type} [DecidableEq Sym]

/-- Lookups give symbols of the scope, and renaming changes one name and no lookup. -/
structure RenameLaws (S : ScopeLocal σ Sym D) : Prop where
  findAddr_mem : ∀ st addr u sym, S.findAddr st addr u = some sym → sym ∈ S.symbols st
  name_rename : ∀ st, ∀ sym ∈ S.symbols st, ∀ n t,
    S.name (S.renameSymbol sym n st) t = if t = sym then n else S.name st t
  symbols_rename : ∀ sym n st, S.symbols (S.renameSymbol sym n st) = S.symbols st
  findAddr_rename : ∀ sym n st, S.findAddr (S.renameSymbol sym n st) = S.findAddr st
  name_attribute : ∀ sym a st, S.name (S.setAttribute sym a st) = S.name st
  symbols_attribute : ∀ sym a st, S.symbols (S.setAttribute sym a st) = S.symbols st
  findAddr_attribute : ∀ sym a st, S.findAddr (S.setAttribute sym a st) = S.findAddr st

/-- A symbol added at a free storage is new, is found there, and has the type given. -/
structure AddLaws (S : ScopeLocal σ Sym D) : Prop where
  added_new : ∀ n ty addr u st, (S.addSymbol n ty addr u st).1 ∉ S.symbols st
  symbols_add : ∀ n ty addr u st sym,
    sym ∈ S.symbols (S.addSymbol n ty addr u st).2 ↔ sym ∈ S.symbols st ∨ sym = (S.addSymbol n ty addr u st).1
  findAddr_add : ∀ n ty addr u st, S.findAddr st addr u = none →
    S.findAddr (S.addSymbol n ty addr u st).2 addr u = some (S.addSymbol n ty addr u st).1
  storage_add : ∀ n ty addr u st, S.storage (S.addSymbol n ty addr u st).2 (S.addSymbol n ty addr u st).1 = addr
  datatype_add : ∀ n ty addr u st, S.datatype (S.addSymbol n ty addr u st).2 (S.addSymbol n ty addr u st).1 = ty
  symbols_attribute : ∀ sym a st, S.symbols (S.setAttribute sym a st) = S.symbols st
  storage_attribute : ∀ sym a st, S.storage (S.setAttribute sym a st) = S.storage st
  datatype_attribute : ∀ sym a st, S.datatype (S.setAttribute sym a st) = S.datatype st
  findAddr_attribute : ∀ sym a st, S.findAddr (S.setAttribute sym a st) = S.findAddr st

end ScopeLocal

/-! ## A scope that keeps its symbols in a table -/

/-- `range` lists the pcs where the symbol is used; `none` is everywhere. -/
structure TableSymbol (D : Type) where
  name : Str
  storage : Address
  range : Option (List UInt64)
  datatype : D
  attributes : List Attribute
deriving DecidableEq

abbrev SymbolTable (D : Type) := List (TableSymbol D)

namespace SymbolTable

variable {D : Type}

/-- A lookup without use point sees only the symbols that are used everywhere. -/
def covers (sym : TableSymbol D) (addr : Address) (usepoint : Option UInt64) : Bool :=
  sym.storage = addr && match sym.range, usepoint with
    | none, _ => true
    | some pcs, some pc => pcs.contains pc
    | some _, none => false

/-- The table as a local scope; `d` stands for the type of a symbol that is not there. -/
def scope (d : D) : ScopeLocal (SymbolTable D) Nat D where
  symbols table := List.range table.length
  name table i := (table[i]?.map (·.name)).getD []
  storage table i := (table[i]?.map (·.storage)).getD ⟨⟨[], 0, by decide⟩, 0⟩
  datatype table i := (table[i]?.map (·.datatype)).getD d
  findAddr table addr usepoint := table.findIdx? fun sym => covers sym addr usepoint
  renameSymbol i n table := table.modify i fun sym => { sym with name := n }
  setAttribute i a table := table.modify i fun sym => { sym with attributes := a :: sym.attributes }
  addSymbol n ty addr usepoint table :=
    (table.length, table ++ [⟨n, addr, usepoint.map fun pc => [pc], ty, []⟩])

theorem findAddr_modify (d : D) (i : Nat) (f : TableSymbol D → TableSymbol D) (table : SymbolTable D)
    (hf : ∀ sym addr u, covers (f sym) addr u = covers sym addr u) :
    (scope d).findAddr (table.modify i f) = (scope d).findAddr table := by
  funext addr u
  show List.findIdx? _ _ = List.findIdx? _ _
  induction table generalizing i with
  | nil => simp
  | cons sym table ih =>
    cases i with
    | zero => simp [List.findIdx?_cons, hf]
    | succ i => simp [List.findIdx?_cons, ih]

theorem scope_renameLaws (d : D) : (scope d).RenameLaws where
  findAddr_mem table addr u i h := by
    obtain ⟨hi, -⟩ := List.findIdx?_eq_some_iff_getElem.mp h
    exact List.mem_range.mpr hi
  name_rename table i hi n j := by
    have hlt : i < table.length := List.mem_range.mp hi
    show (((table.modify i _)[j]?).map _).getD [] = _
    rw [getElem?_modify]
    by_cases h : j = i
    · subst h; simp [List.getElem?_eq_getElem hlt]
    · simp only [if_neg h]; rfl
  symbols_rename i n table := by simp [scope]
  findAddr_rename i n table := findAddr_modify d i _ table fun _ _ _ => rfl
  name_attribute i a table := by
    funext j
    exact congrArg (Option.getD · _) (map_getElem?_modify _ i j _ table fun _ => rfl)
  symbols_attribute i a table := by simp [scope]
  findAddr_attribute i a table := findAddr_modify d i _ table fun _ _ _ => rfl

theorem scope_addLaws (d : D) : (scope d).AddLaws where
  added_new n ty addr u table := by simp [scope]
  symbols_add n ty addr u table i := by simp [scope]; omega
  findAddr_add n ty addr u table h := by
    have hnew : covers ⟨n, addr, u.map fun pc => [pc], ty, []⟩ addr u = true := by
      cases u <;> simp [covers]
    show List.findIdx? _ (table ++ [_]) = some table.length
    rw [List.findIdx?_append, show table.findIdx? _ = none from h]
    simp [hnew, List.findIdx?_cons]
  storage_add n ty addr u table := by
    show (((table ++ [_])[table.length]?).map _).getD _ = _
    rw [getElem?_add]; rfl
  datatype_add n ty addr u table := by
    show (((table ++ [_])[table.length]?).map _).getD _ = _
    rw [getElem?_add]; rfl
  symbols_attribute i a table := by simp [scope]
  storage_attribute i a table := by
    funext j
    exact congrArg (Option.getD · _) (map_getElem?_modify _ i j _ table fun _ => rfl)
  datatype_attribute i a table := by
    funext j
    exact congrArg (Option.getD · _) (map_getElem?_modify _ i j _ table fun _ => rfl)
  findAddr_attribute i a table := findAddr_modify d i _ table fun _ _ _ => rfl

end SymbolTable

end Yagi
