import Yagi.History
import Yagi.Rename.Proofs

/-!
# The latest rename

Records are never removed, so a replay meets the records of every edit of a
symbol. Which of them it applies last decides the name.
-/

open Text Loop Store

namespace Yagi

open IdaFunctionSymbolInfo

variable {σ Sym D : Type} [DecidableEq Sym] (S : ScopeLocal σ Sym D) (arch : Architecture) (func : UInt64)

def saveNames (history : History Str) : NetNodes :=
  Call.run intDatabase (fun _ => none) (history.map fun edit => .saveName func edit.1 edit.2)

theorem findName_saveNames (space : AddrSpace) (history : History Str) (pc : UInt64)
    (hspace : ∀ edit ∈ history, edit.1.spaceName = space.name) (hname : ∀ edit ∈ history, Faithful edit.2) :
    findName func (saveNames func history) pc space.name =
      .ok ((lastEdit history pc).map fun edit => (edit.2, edit.1.offset)) := by
  have hrecord : rawRecord (saveNames func history) ⟨func, .name, space.name, pc⟩ =
      (lastEdit history pc).bind fun edit => some (c_str (encodeRecord edit.2 edit.1.offset)) :=
    rawRecord_history intDatabase (fun edit => .saveName func edit.1 edit.2) func .name space.name history pc
      (fun _ => rfl) (fun _ => rfl) space.name_noNul hspace
  cases hlast : lastEdit history pc with
  | none =>
    rw [hlast] at hrecord
    exact findName_none _ _ _ _ hrecord
  | some edit =>
    rw [hlast] at hrecord
    exact findName_of_faithful _ _ _ _ _ _ (hname edit (mem_of_lastEdit history pc edit hlast).1) hrecord

/-- The last pcode that any edit lists was listed last by an edit to `n`. -/
def LastListed (history : History Str) (ops : List PcodeOp) (n : Str) : Prop :=
  ∃ before op after, ops = before ++ op :: after ∧
    (∀ o ∈ after, ∀ edit ∈ history, o.pc ∉ edit.1.pc) ∧ (lastEdit history op.pc).map (·.2) = some n

theorem lastListed_iff (history : History Str) (ops : List PcodeOp) (n : Str) :
    LastListed history ops n ↔ lastSome (fun op : PcodeOp => (lastEdit history op.pc).map (·.2)) ops = some n := by
  rw [lastSome_eq_some]
  constructor
  · rintro ⟨before, op, after, hops, hafter, hop⟩
    refine ⟨before, op, after, hops, hop, fun o ho => ?_⟩
    rw [(lastEdit_eq_none history o.pc).mpr (hafter o ho)]; rfl
  · rintro ⟨before, op, after, hops, hop, hafter⟩
    refine ⟨before, op, after, hops, fun o ho => ?_, hop⟩
    exact (lastEdit_eq_none history o.pc).mp (Option.map_eq_none_iff.mp (hafter o ho))

/-- **Latest rename.** After a history of renames of one symbol the pass of their space gives it
the name of the last edit exactly when the last pcode that any edit lists was listed last under
that name. -/
theorem apply_latest_iff (hS : S.RenameLaws) (space : AddrSpace) (ops : List PcodeOp) (st : σ) (s : Sym)
    (front : History Str) (loc : MemoryLocation) (n : Str)
    (hspace : ∀ edit ∈ front ++ [(loc, n)], edit.1.spaceName = space.name)
    (hname : ∀ edit ∈ front ++ [(loc, n)], Faithful edit.2)
    (hpc : ∀ edit ∈ front ++ [(loc, n)], ∃ op ∈ ops, op.pc ∈ edit.1.pc)
    (hresolve : ∀ edit ∈ front ++ [(loc, n)], ∀ pc ∈ edit.1.pc,
      S.findAddr st ⟨arch.getSpaceByName (replaySpace space.name), edit.1.offset⟩ (some pc) = some s) :
    S.name (ActionRenameVar.apply S arch func (saveNames func (front ++ [(loc, n)])) space.name ops st).2 s = n ↔
      LastListed (front ++ [(loc, n)]) ops n := by
  have hread := fun op : PcodeOp => findName_saveNames func space (front ++ [(loc, n)]) op.pc hspace hname
  obtain ⟨st', happly, -, hnames⟩ := apply_spec S arch func (saveNames func (front ++ [(loc, n)])) hS space.name
    ops st (fun op _ e => by rw [hread op]; simp)
  have hto : ∀ op ∈ ops, renamedTo S arch func (saveNames func (front ++ [(loc, n)])) space.name st s op =
      (lastEdit (front ++ [(loc, n)]) op.pc).map (·.2) := by
    intro op _
    rw [renamedTo, hread op]
    cases hlast : lastEdit (front ++ [(loc, n)]) op.pc with
    | none => rfl
    | some edit =>
      obtain ⟨hedit, hmem⟩ := mem_of_lastEdit _ _ _ hlast
      simp [ActionRenameVar.lookup, hresolve edit hedit op.pc hmem]
  rw [happly, lastListed_iff, hnames s, lastSome_congr _ _ ops hto]
  -- Some pcode is listed, so the symbol has lost its first name.
  obtain ⟨op, hop, hmem⟩ := hpc (loc, n) (by simp)
  cases hlast : lastSome (fun op : PcodeOp => (lastEdit (front ++ [(loc, n)]) op.pc).map (·.2)) ops with
  | none =>
    have := (lastSome_eq_none _ _).mp hlast op hop
    rw [Option.map_eq_none_iff, lastEdit_eq_none] at this
    exact absurd hmem (this (loc, n) (by simp))
  | some m => simp

/-! ## Two edits at two pcs -/

def reusedVariable : SymbolTable Unit := [⟨ascii "v", ⟨registerSpace, 0⟩, some [0x10, 0x20], (), []⟩]

def usesAt (pcs : List UInt64) : List PcodeOp := pcs.map fun pc => ⟨pc, [⟨registerSpace, 0⟩]⟩

def editAt (pc : UInt64) (n : Str) : MemoryLocation × Str := (Address.location ⟨registerSpace, 0⟩ [pc], n)

theorem apply_latest_iff_same_pc :
    (SymbolTable.scope ()).name (ActionRenameVar.apply (SymbolTable.scope ()) ⟨fun _ => registerSpace⟩ 0x401fa0
        (saveNames 0x401fa0 ([editAt 0x10 (ascii "i")] ++ [editAt 0x10 (ascii "n")])) (ascii "register")
        (usesAt [0x10, 0x20]) reusedVariable).2 0 = ascii "n" ↔
      LastListed ([editAt 0x10 (ascii "i")] ++ [editAt 0x10 (ascii "n")]) (usesAt [0x10, 0x20]) (ascii "n") :=
  apply_latest_iff (SymbolTable.scope ()) ⟨fun _ => registerSpace⟩ 0x401fa0 (SymbolTable.scope_renameLaws ())
    registerSpace (usesAt [0x10, 0x20]) reusedVariable 0 [editAt 0x10 (ascii "i")]
    (Address.location ⟨registerSpace, 0⟩ [0x10]) (ascii "n") (by decide) (by decide) (by decide) (by decide)

/-- The variable is renamed at its second use, then at its first: the replay meets the older
record last, and the older name is back. -/
theorem apply_older_name :
    let history := [editAt 0x20 (ascii "i"), editAt 0x10 (ascii "n")]
    (∀ edit ∈ history, edit.1.spaceName = registerSpace.name ∧ Faithful edit.2 ∧
      (∃ op ∈ usesAt [0x10, 0x20], op.pc ∈ edit.1.pc) ∧
      ∀ pc ∈ edit.1.pc, (SymbolTable.scope ()).findAddr reusedVariable ⟨registerSpace, edit.1.offset⟩ (some pc) = some 0) ∧
    (SymbolTable.scope ()).name (ActionRenameVar.apply (SymbolTable.scope ()) ⟨fun _ => registerSpace⟩ 0x401fa0
      (saveNames 0x401fa0 history) (ascii "register") (usesAt [0x10, 0x20]) reusedVariable).2 0 = ascii "i" := by
  decide

end Yagi
