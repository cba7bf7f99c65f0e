import Yagi.Print
import Yagi.VarSymbols

/-!
# The symbol map (`ghidradecompiler.cc`)

The map from names to locations that a click looks up. Local variables come first,
then the function itself, then what it calls.
-/

open Text FirstWins

namespace Yagi

/-- A call; its entry address has no space where the target is not known. -/
structure FuncCallSpecs where
  getName : Str
  getEntryAddress : Option Address

/-- A function with what `findFunctionSymbols` reads of it. -/
structure DecompiledFunc (Sym : Type) extends Funcdata Sym where
  getName : Str
  getAddress : Address
  calls : List FuncCallSpecs

def ramLocation (addr : Address) : MemoryLocation := ⟨ascii "ram", addr.offset, addr.space.addrSize, []⟩

def FuncCallSpecs.key (call : FuncCallSpecs) : Str :=
  if call.getName.take importPrefix.length = importPrefix then call.getName.drop importPrefix.length
  else call.getName

variable {Sym : Type}

def findFunctionSymbols (data : DecompiledFunc Sym) (symbols : SymbolMap) : SymbolMap :=
  data.calls.foldl (fun symbols call => match call.getEntryAddress with
    | none => symbols
    | some entry => symbols.emplace call.key (ramLocation entry))
    (symbols.emplace data.getName (ramLocation data.getAddress))

def findSymbols (name : Sym → Str) (data : DecompiledFunc Sym) : SymbolMap :=
  findFunctionSymbols data (findVarSymbols name data.toFuncdata fun _ => none)

/-! ## The entries in their order -/

/-- The function and its calls, by the names under which they are recorded. -/
def targets (data : DecompiledFunc Sym) : List (Str × Address) :=
  (data.getName, data.getAddress) ::
    data.calls.filterMap fun call => call.getEntryAddress.map fun entry => (call.key, entry)

def funcEntries (data : DecompiledFunc Sym) : List (Str × MemoryLocation) :=
  (targets data).map fun target => (target.1, ramLocation target.2)

theorem funcEntries_eq (data : DecompiledFunc Sym) : funcEntries data =
    (data.getName, ramLocation data.getAddress) ::
      data.calls.filterMap fun call => call.getEntryAddress.map fun entry => (call.key, ramLocation entry) := by
  simp only [funcEntries, targets, List.map_cons, List.map_filterMap, Option.map_map]
  rfl

theorem findFunctionSymbols_eq (data : DecompiledFunc Sym) (symbols : SymbolMap) :
    findFunctionSymbols data symbols = emplaceAll symbols (funcEntries data) := by
  rw [funcEntries_eq]
  unfold findFunctionSymbols
  apply foldl_emplace
  · intro m call entry h
    obtain ⟨addr, haddr, rfl⟩ := Option.map_eq_some_iff.mp h
    rw [haddr]
    rfl
  · intro m call h
    rw [Option.map_eq_none_iff.mp h]

/-- **The map.** A name leads to the first variable that bears it, or to the first function. -/
theorem findSymbols_apply (name : Sym → Str) (data : DecompiledFunc Sym) (key : Str) :
    findSymbols name data key = (first (varEntries name data.toFuncdata) key).or (first (funcEntries data) key) := by
  rw [findSymbols, findFunctionSymbols_eq, findVarSymbols_eq, emplaceAll_apply, emplaceAll_apply, Option.none_or]

end Yagi
