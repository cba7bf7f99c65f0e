import Yagi.Rename.Others

/-!
# The rename action (`buildAction`)

First the names of the IDA frame are given to the symbols of the stack, then the
saved names are replayed, space by space.
-/

open Text Hex Loop

namespace Yagi

/-- An entry of the local scope: a symbol with its storage. -/
structure SymbolEntry (Sym : Type) where
  addr : Address
  symbol : Sym

/-- What `ActionSyncStackVar` looks at: the entries of the local scope, the names of the frame, and
the symbol of the high variable that bears a name. -/
structure StackSync (σ Sym : Type) where
  entries : σ → List (SymbolEntry Sym)
  findStackVar : UInt64 → UInt32 → Option Str
  findHigh : σ → Str → Option Sym

namespace ActionSyncStackVar

variable {σ Sym D : Type} (S : ScopeLocal σ Sym D) (F : StackSync σ Sym)

def applyEntry (entry : SymbolEntry Sym) (st : σ) : σ :=
  if entry.addr.space.name = ascii "stack" then
    match F.findStackVar entry.addr.offset entry.addr.space.addrSize with
    | none => st
    | some name => match F.findHigh st (S.name st entry.symbol) with
      | some sym => S.renameSymbol sym name st
      | none => S.renameSymbol entry.symbol name st
  else st

def apply (st : σ) : σ := (F.entries st).foldl (fun st entry => applyEntry S F entry st) st

variable [DecidableEq Sym]

theorem findAddr_applyEntry (hS : S.RenameLaws) (entry : SymbolEntry Sym) (st : σ) :
    S.findAddr (applyEntry S F entry st) = S.findAddr st := by
  unfold applyEntry
  split
  · split
    · rfl
    · split <;> exact hS.findAddr_rename _ _ _
  · rfl

theorem findAddr_apply (hS : S.RenameLaws) (st : σ) : S.findAddr (apply S F st) = S.findAddr st := by
  unfold apply
  generalize F.entries st = entries
  induction entries generalizing st with
  | nil => rfl
  | cons entry entries ih => rw [List.foldl_cons, ih, findAddr_applyEntry S F hS]

end ActionSyncStackVar

variable {σ Sym D : Type} (S : ScopeLocal σ Sym D) (F : StackSync σ Sym) (arch : Architecture) (func : UInt64)

/-- The passes that `buildAction` installs. -/
def renameAction (nodes : NetNodes) (ops : List PcodeOp) : Body StdError σ := fun st =>
  renamePasses S arch func nodes ops (ActionSyncStackVar.apply S F st)

variable [DecidableEq Sym]

/-! ## A saved name -/

theorem renamePasses_savedOnce_name (hS : S.RenameLaws) (loc : MemoryLocation) (n : Str) (ops : List PcodeOp) (st : σ)
    (s : Sym) (hloc : NoNul loc.spaceName) (hn : Faithful n)
    (hresolve : ∀ op ∈ ops, ActionRenameVar.lookup S arch loc.spaceName st op loc.offset = some s) :
    S.name (renamePasses S arch func (savedOnce func loc n) ops st).2 s =
      if loc.spaceName ∈ renameSpaces ∧ ∃ op ∈ ops, op.pc ∈ loc.pc then n else S.name st s := by
  rw [renamePasses_savedOnce S arch func loc n ops st hloc]
  by_cases hspace : loc.spaceName ∈ renameSpaces
  · rw [if_pos hspace, apply_savedOnce S arch func hS loc n ops st hloc s, (decodeRecord_saved_iff n _).mpr hn]
    have hhits : (∃ op ∈ ops, Hits S arch loc st loc.offset s op) ↔ ∃ op ∈ ops, op.pc ∈ loc.pc :=
      ⟨fun ⟨op, hop, hhit⟩ => ⟨op, hop, hhit.1⟩, fun ⟨op, hop, hpc⟩ => ⟨op, hop, hpc, hresolve op hop⟩⟩
    simp only [hspace, true_and, hhits]
  · rw [if_neg hspace, if_neg fun h => hspace h.1]

/-- The space of the variable is replayed, and some pcode stands where the variable was collected. -/
def Replayed (data : Funcdata Sym) (varnode : Varnode Sym) (nameRepr : NameRepresentative) : Prop :=
  nameRepr.addr.space.name ∈ renameSpaces ∧ ∃ op ∈ data.ops, Collected data varnode nameRepr op.pc

/-- **Confirmed rename.** Where the storage is always that of the variable, the variable bears the saved name
afterwards exactly when it is replayed, or bears that name already when the replay starts. -/
theorem rename_takes_effect_iff (hS : S.RenameLaws) (data : Funcdata Sym) (varnode : Varnode Sym)
    (nameRepr : NameRepresentative) (s : Sym) (loc : MemoryLocation) (n : Str) (st : σ)
    (hhigh : varnode.high = some ⟨some s, some nameRepr⟩) (hloc : varLocation data varnode = some (s, loc))
    (hn : Faithful n)
    (hresolve : ∀ op ∈ data.ops,
      S.findAddr st ⟨arch.getSpaceByName (replaySpace loc.spaceName), loc.offset⟩ (some op.pc) = some s) :
    S.name (renameAction S F arch func (savedOnce func loc n) data.ops st).2 s = n ↔
      Replayed data varnode nameRepr ∨ S.name (ActionSyncStackVar.apply S F st) s = n := by
  obtain ⟨repr, hrepr, rfl⟩ := varLocation_eq_some data varnode s loc hloc
  obtain rfl : repr = nameRepr := by simpa [hhigh] using hrepr.symm
  have hsame : ∀ op ∈ data.ops, ActionRenameVar.lookup S arch repr.addr.space.name
      (ActionSyncStackVar.apply S F st) op repr.addr.offset = some s := by
    intro op hop
    rw [ActionRenameVar.lookup, ActionSyncStackVar.findAddr_apply S F hS]
    exact hresolve op hop
  rw [renameAction, renamePasses_savedOnce_name S arch func hS _ n data.ops _ s repr.addr.space.name_noNul hn hsame]
  have hpc : (∃ op ∈ data.ops, op.pc ∈ (repr.addr.location (locationPcs data varnode repr)).pc) ↔
      ∃ op ∈ data.ops, Collected data varnode repr op.pc :=
    exists_congr fun op => and_congr_right fun _ => mem_locationPcs data varnode repr op.pc
  by_cases h : Replayed data varnode repr
  · rw [if_pos ⟨h.1, hpc.mpr h.2⟩]
    exact iff_of_true rfl (Or.inl h)
  · rw [if_neg fun h' => h ⟨h'.1, hpc.mp h'.2⟩]
    exact ⟨Or.inr, fun h' => h'.resolve_left h⟩

/-! ## A pair of registers, and a variable that is not read -/

def noFrame : StackSync (SymbolTable Unit) Nat := ⟨fun _ => [], fun _ _ => none, fun _ _ => none⟩

def onlySpace (space : AddrSpace) : Architecture := ⟨fun _ => space⟩

/-- A variable `v` that lives at `addr` throughout the function. -/
def placedAt (addr : Address) : SymbolTable Unit := [⟨ascii "v", addr, none, (), []⟩]

theorem rename_takes_effect_iff_register :
    (SymbolTable.scope ()).name (renameAction (SymbolTable.scope ()) noFrame (onlySpace registerSpace) 0x401fa0
        (savedOnce 0x401fa0 (eax.location [0x10, 0x20]) (ascii "i")) sharedRegister.ops (placedAt eax)).2 0 = ascii "i" ↔
      Replayed sharedRegister ⟨eax, some ⟨some 0, some ⟨eax, none⟩⟩⟩ ⟨eax, none⟩ ∨
        (SymbolTable.scope ()).name (ActionSyncStackVar.apply (SymbolTable.scope ()) noFrame (placedAt eax)) 0 =
          ascii "i" :=
  rename_takes_effect_iff (SymbolTable.scope ()) noFrame (onlySpace registerSpace) 0x401fa0
    (SymbolTable.scope_renameLaws ()) sharedRegister ⟨eax, some ⟨some 0, some ⟨eax, none⟩⟩⟩ ⟨eax, none⟩ 0
    (eax.location [0x10, 0x20]) (ascii "i") (placedAt eax) rfl (by decide) (by decide) (by decide)

/-- A variable in a pair of registers, which Ghidra keeps in the space `join`. -/
def edxEax : Address := ⟨⟨ascii "join", 4, by decide⟩, 0⟩

def joined : Funcdata Nat where
  defs := [⟨edxEax, some ⟨some 0, some ⟨edxEax, some 0x10⟩⟩⟩]
  ops := [⟨0x10, []⟩]
  body := [⟨0x10, []⟩]
  body_sublist := List.Sublist.refl _

def stackSlot : Address := ⟨⟨ascii "stack", 4, stack_noNul⟩, 8⟩

/-- A parameter on the stack that no pcode defines or reads. -/
def unread : Funcdata Nat where
  defs := [⟨stackSlot, some ⟨some 0, some ⟨stackSlot, none⟩⟩⟩]
  ops := [⟨0x10, []⟩]
  body := [⟨0x10, []⟩]
  body_sublist := List.Sublist.refl _

/-- No pass replays `join`, and a location without pcs saves nothing: `v` stays `v`. -/
theorem rename_lost :
    (∃ loc, findVarSymbols ((SymbolTable.scope ()).name (placedAt edxEax)) joined (fun _ => none) (ascii "v") =
        some loc ∧ loc = edxEax.location [0x10] ∧
      (∀ op ∈ joined.ops, (SymbolTable.scope ()).findAddr (placedAt edxEax) ⟨edxEax.space, loc.offset⟩ (some op.pc) =
        some 0) ∧
      (SymbolTable.scope ()).name (renameAction (SymbolTable.scope ()) noFrame (onlySpace edxEax.space) 0x401fa0
        (savedOnce 0x401fa0 loc (ascii "i")) joined.ops (placedAt edxEax)).2 0 = ascii "v") ∧
    ∃ loc, findVarSymbols ((SymbolTable.scope ()).name (placedAt stackSlot)) unread (fun _ => none) (ascii "v") =
        some loc ∧ loc = stackSlot.location [] ∧
      (∀ op ∈ unread.ops, (SymbolTable.scope ()).findAddr (placedAt stackSlot) ⟨stackSlot.space, loc.offset⟩
        (some op.pc) = some 0) ∧
      (SymbolTable.scope ()).name (renameAction (SymbolTable.scope ()) noFrame (onlySpace stackSlot.space) 0x401fa0
        (savedOnce 0x401fa0 loc (ascii "i")) unread.ops (placedAt stackSlot)).2 0 = ascii "v" :=
  ⟨⟨_, by decide, rfl, by decide, by decide⟩, ⟨_, by decide, rfl, by decide, by decide⟩⟩

end Yagi
