import Yagi.History
import Yagi.LocalTypes.Spec

/-!
# The latest type of a stack variable

Types are saved per pc and applied per storage, so the first pcode with a saved
type decides.
-/

open Text Hex Loop Store

namespace Yagi

open IdaFunctionSymbolInfo

variable {σ Sym D Ty : Type} (S : ScopeLocal σ Sym D) (arch : Architecture) (db : TypeDatabase Ty)
  (findByTypeInfo : Ty → D) (func : UInt64)

/-! ## Saved types -/

/-- A type is saved, or cleared with `none`. -/
def typeCall (edit : MemoryLocation × Option Ty) : Call Ty :=
  match edit.2 with
  | some newType => .saveType func edit.1 newType
  | none => .clearType func edit.1

def saveTypes (history : History (Option Ty)) : NetNodes :=
  Call.run db (fun _ => none) (history.map (typeCall func))

/-- The type that the records hold at the address of a pcode. -/
def savedType (history : History (Option Ty)) (op : PcodeOp) : Option Ty :=
  (lastEdit history op.pc).bind (·.2)

theorem findType_saveTypes (space : Str) (offset : UInt64) (history : History (Option Ty)) (op : PcodeOp)
    (hnul : NoNul space) (hloc : ∀ edit ∈ history, edit.1.spaceName = space ∧ edit.1.offset = offset)
    (htype : ∀ edit ∈ history, ∀ t ∈ edit.2, ReadsBack db t) :
    findType db func (saveTypes db func history) op.pc space =
      .ok ((savedType history op).map fun t => (some t, offset)) := by
  have hrecord : rawRecord (saveTypes db func history) ⟨func, .type, space, op.pc⟩ =
      (lastEdit history op.pc).bind fun edit => (typeCall func edit).content db :=
    rawRecord_history db (typeCall func) func .type space history op.pc
      (by rintro ⟨loc, _ | t⟩ <;> rfl) (by rintro ⟨loc, _ | t⟩ <;> rfl) hnul fun edit hedit => (hloc edit hedit).1
  unfold savedType
  cases hlast : lastEdit history op.pc with
  | none =>
    rw [hlast] at hrecord
    exact findType_none _ _ _ _ _ hrecord
  | some edit =>
    rw [hlast] at hrecord
    have hmem := (mem_of_lastEdit history op.pc edit hlast).1
    obtain ⟨loc, _ | t⟩ := edit
    · exact findType_none _ _ _ _ _ hrecord
    · obtain ⟨-, rfl⟩ := hloc _ hmem
      exact findType_of_readsBack _ _ _ _ _ _ _ (htype _ hmem t rfl) hrecord

/-! ## One storage -/

def Added (addr : Address) (st st' : σ) (sym : Sym) : Prop :=
  sym ∈ S.symbols st' ∧ sym ∉ S.symbols st ∧ S.storage st' sym = addr

theorem applyOp_taken (nodes : NetNodes) (m_space : Str) (op : PcodeOp) (st : σ) (offset : UInt64) (found : Option Ty)
    (hread : findType db func nodes op.pc m_space = .ok (found.map fun t => (some t, offset)))
    (htaken : S.findAddr st (ActionLoadLocalScope.storage arch m_space offset)
      (ActionLoadLocalScope.opAddr m_space op) ≠ none) :
    ActionLoadLocalScope.applyOp S arch db findByTypeInfo func nodes m_space op st = (.ok (), st) := by
  unfold ActionLoadLocalScope.applyOp
  rw [hread]
  cases found with
  | none => rfl
  | some t =>
    simp only [Option.map_some]
    cases hfind : S.findAddr st (ActionLoadLocalScope.storage arch m_space offset)
        (ActionLoadLocalScope.opAddr m_space op) with
    | none => exact absurd hfind htaken
    | some sym => rfl

theorem applyOp_free (hS : S.AddLaws) (nodes : NetNodes) (m_space : Str) (op : PcodeOp) (st : σ) (offset : UInt64)
    (t : Ty) (hread : findType db func nodes op.pc m_space = .ok (some (some t, offset)))
    (hfree : S.findAddr st (ActionLoadLocalScope.storage arch m_space offset)
      (ActionLoadLocalScope.opAddr m_space op) = none) :
    ∃ sym st', ActionLoadLocalScope.applyOp S arch db findByTypeInfo func nodes m_space op st = (.ok (), st') ∧
      (∀ x, Added S (ActionLoadLocalScope.storage arch m_space offset) st st' x ↔ x = sym) ∧
      S.datatype st' sym = findByTypeInfo t ∧
      S.findAddr st' (ActionLoadLocalScope.storage arch m_space offset) (ActionLoadLocalScope.opAddr m_space op) =
        some sym := by
  unfold ActionLoadLocalScope.applyOp
  rw [hread]
  simp only [hfree]
  refine ⟨(S.addSymbol [] (findByTypeInfo t) (ActionLoadLocalScope.storage arch m_space offset)
    (ActionLoadLocalScope.opAddr m_space op) st).1, _, rfl, ?_, ?_, ?_⟩
  · intro x
    unfold Added
    rw [hS.symbols_attribute, hS.symbols_add, hS.storage_attribute]
    constructor
    · rintro ⟨hx | rfl, hnew, -⟩
      · exact absurd hx hnew
      · rfl
    · rintro rfl
      exact ⟨Or.inr rfl, hS.added_new _ _ _ _ _, hS.storage_add _ _ _ _ _⟩
  · rw [hS.datatype_attribute, hS.datatype_add]
  · rw [hS.findAddr_attribute, hS.findAddr_add _ _ _ _ _ hfree]

/-- The only symbol added at the storage has the type converted from `t`; without a type none is added. -/
def AddsOnly (addr : Address) (st st' : σ) : Option Ty → Prop
  | some t => ∃ sym, (∀ x, Added S addr st st' x ↔ x = sym) ∧ S.datatype st' sym = findByTypeInfo t
  | none => ∀ x, ¬ Added S addr st st' x

theorem opAddr_stack (op : PcodeOp) : ActionLoadLocalScope.opAddr (ascii "stack") op = none := by
  have : replaySpace (ascii "stack") = ascii "stack" := by decide
  rw [ActionLoadLocalScope.opAddr, if_pos this]

/-- **First type.** A stack pass over records of one storage adds the first saved type. -/
theorem apply_first (hS : S.AddLaws) (nodes : NetNodes) (offset : UInt64) (saved : PcodeOp → Option Ty)
    (ops : List PcodeOp) (st : σ)
    (hread : ∀ op, findType db func nodes op.pc (ascii "stack") = .ok ((saved op).map fun t => (some t, offset)))
    (hfree : S.findAddr st (ActionLoadLocalScope.storage arch (ascii "stack") offset) none = none) :
    ∃ st', ActionLoadLocalScope.apply S arch db findByTypeInfo func nodes (ascii "stack") ops st = (.ok (), st') ∧
      AddsOnly S findByTypeInfo (ActionLoadLocalScope.storage arch (ascii "stack") offset) st st'
        (ops.findSome? saved) := by
  induction ops with
  | nil => exact ⟨st, rfl, fun x hx => hx.2.1 hx.1⟩
  | cons op ops ih =>
    rw [List.findSome?_cons]
    cases hsaved : saved op with
    | none =>
      have hidle : ActionLoadLocalScope.applyOp S arch db findByTypeInfo func nodes (ascii "stack") op st =
          (.ok (), st) := by
        rw [ActionLoadLocalScope.applyOp, hread op, hsaved]; rfl
      obtain ⟨st', happly, hadds⟩ := ih
      refine ⟨st', ?_, hadds⟩
      rw [ActionLoadLocalScope.apply, forEach_cons_ok _ _ _ _ _ hidle]
      exact happly
    | some t =>
      obtain ⟨sym, st', hop, hadded, htype, hfound⟩ := applyOp_free S arch db findByTypeInfo func hS nodes
        (ascii "stack") op st offset t (by rw [hread op, hsaved]; rfl) (by rw [opAddr_stack]; exact hfree)
      refine ⟨st', ?_, sym, hadded, htype⟩
      rw [ActionLoadLocalScope.apply, forEach_cons_ok _ _ _ _ _ hop]
      -- From now on the storage is taken, whatever the later pcodes hold.
      apply forEach_idle
      intro o _
      apply applyOp_taken S arch db findByTypeInfo func nodes (ascii "stack") o st' offset (saved o) (hread o)
      rw [opAddr_stack] at hfound ⊢
      rw [hfound]
      simp

/-! ## The latest edit -/

/-- **Latest type.** After a history of type edits of one stack storage the pass applies the last
edit exactly when the first pcode with a saved type has one that converts to the same. -/
theorem apply_latest_type_iff (hS : S.AddLaws) (ops : List PcodeOp) (st : σ) (offset : UInt64)
    (front : History (Option Ty)) (last : MemoryLocation × Option Ty)
    (hloc : ∀ edit ∈ front ++ [last], edit.1.spaceName = ascii "stack" ∧ edit.1.offset = offset)
    (htype : ∀ edit ∈ front ++ [last], ∀ t ∈ edit.2, ReadsBack db t)
    (hfree : S.findAddr st ⟨arch.getSpaceByName (ascii "stack"), offset⟩ none = none) :
    AddsOnly S findByTypeInfo ⟨arch.getSpaceByName (ascii "stack"), offset⟩ st
        (ActionLoadLocalScope.apply S arch db findByTypeInfo func (saveTypes db func (front ++ [last])) (ascii "stack")
          ops st).2 last.2 ↔
      (ops.findSome? (savedType (front ++ [last]))).map findByTypeInfo = last.2.map findByTypeInfo := by
  have hstack : replaySpace (ascii "stack") = ascii "stack" := by decide
  have hstorage : ActionLoadLocalScope.storage arch (ascii "stack") offset =
      ⟨arch.getSpaceByName (ascii "stack"), offset⟩ := by
    rw [ActionLoadLocalScope.storage, hstack]
  obtain ⟨st', happly, hfirst⟩ := apply_first S arch db findByTypeInfo func hS
    (saveTypes db func (front ++ [last])) offset (savedType (front ++ [last])) ops st
    (fun op => findType_saveTypes db func (ascii "stack") offset _ op (by decide) hloc htype)
    (by rw [hstorage]; exact hfree)
  rw [hstorage] at hfirst
  rw [happly]
  cases hsaved : ops.findSome? (savedType (front ++ [last])) with
  | none =>
    rw [hsaved] at hfirst
    cases hlast : last.2 with
    | none => exact ⟨fun _ => rfl, fun _ => hfirst⟩
    | some t =>
      constructor
      · rintro ⟨sym, hadded, -⟩
        exact absurd ((hadded sym).mpr rfl) (hfirst sym)
      · intro h; simp at h
  | some t' =>
    rw [hsaved] at hfirst
    obtain ⟨sym, hadded, hdatatype⟩ := hfirst
    cases hlast : last.2 with
    | none =>
      constructor
      · intro hnone; exact absurd ((hadded sym).mpr rfl) (hnone sym)
      · intro h; simp at h
    | some t =>
      simp only [Option.map_some, Option.some.injEq]
      constructor
      · rintro ⟨sym', hadded', hdatatype'⟩
        obtain rfl : sym = sym' := (hadded' sym).mp ((hadded sym).mpr rfl)
        rw [← hdatatype, hdatatype']
      · intro h
        exact ⟨sym, hadded, by rw [hdatatype, h]⟩

/-! ## A local variable of 4 bytes -/

def stackSpace : AddrSpace := ⟨ascii "stack", 4, by decide⟩

/-- `true` is `int`, and `false` is `float`. -/
def twoTypes : TypeDatabase Bool where
  getName t := if t then ascii "int" else ascii "float"
  parse_decl decl := if decl = ascii "int;" then some true else if decl = ascii "float;" then some false else none

def typeEditAt (pcs : List UInt64) (t : Option Bool) : MemoryLocation × Option Bool :=
  (Address.location ⟨stackSpace, 0xfffffff8⟩ pcs, t)

def stackOps : List PcodeOp := [⟨0x10, [⟨stackSpace, 0xfffffff8⟩]⟩, ⟨0x20, [⟨stackSpace, 0xfffffff8⟩]⟩]

theorem twoTypes_readsBack (t : Bool) : ReadsBack twoTypes t := by
  cases t <;> exact ⟨by decide, by decide⟩

theorem apply_latest_type_iff_one_edit :
    AddsOnly (SymbolTable.scope false) id ⟨stackSpace, 0xfffffff8⟩ []
        (ActionLoadLocalScope.apply (SymbolTable.scope false) ⟨fun _ => stackSpace⟩ twoTypes id 0x401fa0
          (saveTypes twoTypes 0x401fa0 ([] ++ [typeEditAt [0x10] (some true)])) (ascii "stack") stackOps []).2
        (some true) ↔
      (stackOps.findSome? (savedType ([] ++ [typeEditAt [0x10] (some true)]))).map id = (some true).map id :=
  apply_latest_type_iff (SymbolTable.scope false) ⟨fun _ => stackSpace⟩ twoTypes id 0x401fa0
    (SymbolTable.scope_addLaws false) stackOps [] 0xfffffff8 [] (typeEditAt [0x10] (some true)) (by decide)
    (fun _ _ t _ => twoTypes_readsBack t) (by decide)

/-- A type saved at the first use outlives a later one saved at the second use, and a clear there. -/
theorem apply_older_type :
    let load (history : History (Option Bool)) : SymbolTable Bool :=
      (ActionLoadLocalScope.apply (SymbolTable.scope false) ⟨fun _ => stackSpace⟩ twoTypes id 0x401fa0
        (saveTypes twoTypes 0x401fa0 history) (ascii "stack") stackOps []).2
    load [typeEditAt [0x10] (some false), typeEditAt [0x20] (some true)] =
      [⟨[], ⟨stackSpace, 0xfffffff8⟩, none, false, [.typelock]⟩] ∧
    load [typeEditAt [0x10] (some false), typeEditAt [0x20] none] =
      [⟨[], ⟨stackSpace, 0xfffffff8⟩, none, false, [.typelock]⟩] := by
  decide

end Yagi
