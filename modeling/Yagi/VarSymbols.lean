import Yagi.Funcdata
import Yagi.Lib.FirstWins

/-!
# The locations of the variables

`GhidraDecompiler::findVarSymbols` maps the name of each local symbol to the
location that a later edit annotates.
-/

open Text FirstWins

namespace Yagi

abbrev SymbolMap := Str → Option MemoryLocation

/-- An entry that is there stays. -/
def SymbolMap.emplace (symbols : SymbolMap) (name : Str) (loc : MemoryLocation) : SymbolMap :=
  Function.update symbols name (some ((symbols name).getD loc))

variable {Sym : Type}

def usePcs (data : Funcdata Sym) (addr : Address) : List UInt64 :=
  data.body.flatMap fun op => (op.inputs.filter fun input => addr = input).map fun _ => op.pc

/-- The pcs that are stored for a variable: its definition, or every use of the storage of `varnode`. -/
def locationPcs (data : Funcdata Sym) (varnode : Varnode Sym) (nameRepr : NameRepresentative) : List UInt64 :=
  match nameRepr.definition with
  | some pc => [pc]
  | none => usePcs data varnode.addr

/-- The symbol of a varnode with its location, where the varnode has a high variable with both
a symbol and a name representative. -/
def varLocation (data : Funcdata Sym) (varnode : Varnode Sym) : Option (Sym × MemoryLocation) := do
  let high ← varnode.high
  let sym ← high.symbol
  let nameRepr ← high.nameRepresentative
  return (sym, nameRepr.addr.location (locationPcs data varnode nameRepr))

def findVarSymbols (name : Sym → Str) (data : Funcdata Sym) (symbols : SymbolMap) : SymbolMap :=
  data.defs.foldl (fun symbols varnode => match varLocation data varnode with
    | some (sym, loc) => symbols.emplace (name sym) loc
    | none => symbols) symbols

theorem mem_usePcs (data : Funcdata Sym) (addr : Address) (pc : UInt64) :
    pc ∈ usePcs data addr ↔ ∃ op ∈ data.body, addr ∈ op.inputs ∧ op.pc = pc := by
  simp only [usePcs, List.mem_flatMap, List.mem_map, List.mem_filter, decide_eq_true_eq]
  constructor
  · rintro ⟨op, hop, input, ⟨hin, rfl⟩, rfl⟩; exact ⟨op, hop, hin, rfl⟩
  · rintro ⟨op, hop, hin, rfl⟩; exact ⟨op, hop, addr, ⟨hin, rfl⟩, rfl⟩

theorem varLocation_eq_some (data : Funcdata Sym) (varnode : Varnode Sym) (sym : Sym) (loc : MemoryLocation)
    (h : varLocation data varnode = some (sym, loc)) :
    ∃ nameRepr, varnode.high = some ⟨some sym, some nameRepr⟩ ∧
      loc = nameRepr.addr.location (locationPcs data varnode nameRepr) := by
  obtain ⟨addr, high⟩ := varnode
  match high with
  | none => simp [varLocation] at h
  | some ⟨none, _⟩ => simp [varLocation] at h
  | some ⟨some s, none⟩ => simp [varLocation] at h
  | some ⟨some s, some nameRepr⟩ =>
    simp only [varLocation, Option.bind_eq_bind, Option.bind_some, Option.pure_def, Option.some.injEq,
      Prod.mk.injEq] at h
    obtain ⟨rfl, rfl⟩ := h
    exact ⟨nameRepr, rfl, rfl⟩

/-! ## The entries in their order -/

def varEntries (name : Sym → Str) (data : Funcdata Sym) : List (Str × MemoryLocation) :=
  data.defs.filterMap fun varnode => (varLocation data varnode).map fun p => (name p.1, p.2)

theorem findVarSymbols_eq (name : Sym → Str) (data : Funcdata Sym) (symbols : SymbolMap) :
    findVarSymbols name data symbols = emplaceAll symbols (varEntries name data) := by
  unfold findVarSymbols varEntries
  apply foldl_emplace
  · intro m varnode entry h
    obtain ⟨p, hp, rfl⟩ := Option.map_eq_some_iff.mp h
    rw [hp]
    rfl
  · intro m varnode h
    rw [Option.map_eq_none_iff.mp h]

theorem findVarSymbols_entry (name : Sym → Str) (data : Funcdata Sym) (symbols : SymbolMap) (key : Str)
    (loc : MemoryLocation) (h : findVarSymbols name data symbols key = some loc) :
    symbols key = some loc ∨ ∃ varnode ∈ data.defs, ∃ s, varLocation data varnode = some (s, loc) ∧ name s = key := by
  rw [findVarSymbols_eq, emplaceAll_apply, Option.or_eq_some_iff] at h
  rcases h with h | ⟨-, h⟩
  · exact Or.inl h
  · obtain ⟨varnode, hvarnode, hentry⟩ := List.mem_filterMap.mp (mem_of_first _ _ _ h)
    obtain ⟨p, hp, heq⟩ := Option.map_eq_some_iff.mp hentry
    obtain ⟨rfl, rfl⟩ := Prod.mk.inj heq
    exact Or.inr ⟨varnode, hvarnode, p.1, hp, rfl⟩

end Yagi
