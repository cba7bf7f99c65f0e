import Yagi.ScopeLocal

/-!
# The proxy scope (`ScopeInternal`)

`YagiScope` keeps what it has found in a scope of Ghidra. Its operations are
parameters here, with what Yagi relies on as laws.
-/

open Text

namespace Yagi

inductive SymbolKind where
  | function
  | label
  | externalRef
  | data
deriving DecidableEq, Repr

/-- Where a symbol is mapped. Without use point it is visible everywhere. -/
structure MapEntry where
  addr : Address
  usepoint : Option Address
deriving DecidableEq

/-- A symbol with an entry without use point is visible everywhere. -/
def MapEntry.Visible (entry : MapEntry) (entries : List MapEntry) (usepoint : Option Address) : Prop :=
  entry.usepoint = usepoint ∨ ∃ e ∈ entries, e.usepoint = none

def MapEntry.Covers (entry : MapEntry) (symSize : Int) (addr : Address) (size : Int) : Prop :=
  entry.addr.space = addr.space ∧ entry.addr.offset.toNat ≤ addr.offset.toNat ∧
    addr.offset.toNat + size ≤ entry.addr.offset.toNat + symSize

instance (entry : MapEntry) (entries : List MapEntry) (usepoint : Option Address) :
    Decidable (entry.Visible entries usepoint) := inferInstanceAs (Decidable (_ ∨ _))

instance (entry : MapEntry) (symSize : Int) (addr : Address) (size : Int) :
    Decidable (entry.Covers symSize addr size) := inferInstanceAs (Decidable (_ ∧ _ ∧ _))

structure ScopeInternal (σ Sym D : Type) where
  symbols : σ → List Sym
  kind : σ → Sym → SymbolKind
  mapEntries : σ → Sym → List MapEntry
  clear : σ → σ
  findFunction : σ → Address → Option Sym
  findContainer : σ → Address → Int32 → Option Address → Option (Sym × MapEntry)
  findExternalRef : σ → Address → Option Sym
  findCodeLabel : σ → Address → Option Sym
  addFunction : Address → Str → σ → Sym × σ
  addExternalRef : Address → Address → Str → σ → Sym × σ
  addCodeLabel : Address → Str → σ → Sym × σ
  addSymbol : Str → D → σ → Sym × σ
  addMapPoint : Sym → Address → Option Address → σ → MapEntry × σ
  setAttribute : Sym → Attribute → σ → σ

namespace ScopeInternal

variable {σ Sym D : Type} (S : ScopeInternal σ Sym D)

/-- `st'` is `st` with one more symbol. -/
structure Creates (st st' : σ) (sym : Sym) (k : SymbolKind) (entries : List MapEntry) : Prop where
  new : sym ∉ S.symbols st
  symbols : ∀ x, x ∈ S.symbols st' ↔ x ∈ S.symbols st ∨ x = sym
  kind_new : S.kind st' sym = k
  entries_new : S.mapEntries st' sym = entries
  kind_old : ∀ x ∈ S.symbols st, S.kind st' x = S.kind st x
  entries_old : ∀ x ∈ S.symbols st, S.mapEntries st' x = S.mapEntries st x

def NoneAt (st : σ) (k : SymbolKind) (addr : Address) : Prop :=
  ∀ sym ∈ S.symbols st, S.kind st sym = k → ∀ entry ∈ S.mapEntries st sym, entry.addr ≠ addr

structure Laws [DecidableEq Sym] : Prop where
  clear : ∀ st, S.symbols (S.clear st) = []
  findFunction : ∀ st addr, S.findFunction st addr = none ↔ S.NoneAt st .function addr
  findExternalRef : ∀ st addr, S.findExternalRef st addr = none ↔ S.NoneAt st .externalRef addr
  findCodeLabel : ∀ st addr, S.findCodeLabel st addr = none ↔ S.NoneAt st .label addr
  addFunction : ∀ addr n st,
    S.Creates st (S.addFunction addr n st).2 (S.addFunction addr n st).1 .function [⟨addr, none⟩]
  addExternalRef : ∀ addr refaddr n st, S.Creates st (S.addExternalRef addr refaddr n st).2
    (S.addExternalRef addr refaddr n st).1 .externalRef [⟨addr, none⟩]
  addCodeLabel : ∀ addr n st,
    S.Creates st (S.addCodeLabel addr n st).2 (S.addCodeLabel addr n st).1 .label [⟨addr, none⟩]
  addSymbol : ∀ n ty st, S.Creates st (S.addSymbol n ty st).2 (S.addSymbol n ty st).1 .data []
  symbols_mapPoint : ∀ sym addr u st, S.symbols (S.addMapPoint sym addr u st).2 = S.symbols st
  kind_mapPoint : ∀ sym addr u st, S.kind (S.addMapPoint sym addr u st).2 = S.kind st
  entries_mapPoint : ∀ st, ∀ sym ∈ S.symbols st, ∀ addr u x, S.mapEntries (S.addMapPoint sym addr u st).2 x =
    if x = sym then S.mapEntries st sym ++ [⟨addr, u⟩] else S.mapEntries st x
  symbols_attribute : ∀ sym a st, S.symbols (S.setAttribute sym a st) = S.symbols st
  kind_attribute : ∀ sym a st, S.kind (S.setAttribute sym a st) = S.kind st
  entries_attribute : ∀ sym a st, S.mapEntries (S.setAttribute sym a st) = S.mapEntries st

end ScopeInternal

end Yagi
