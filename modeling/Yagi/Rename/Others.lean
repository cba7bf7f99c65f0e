import Yagi.Rename.Proofs

/-!
# What a rename does to the other variables

A location is collected by the storage of a varnode, and a replay resolves its
symbols by storage and pc. The two meet on other symbols where storage is reused.
-/

open Text Hex Loop Store

namespace Yagi

open IdaFunctionSymbolInfo

variable {σ Sym D : Type} [DecidableEq Sym] (S : ScopeLocal σ Sym D) (arch : Architecture) (func : UInt64)

/-! ## A store that holds one rename -/

def savedOnce (loc : MemoryLocation) (n : Str) : NetNodes := saveName func loc n fun _ => none

theorem findName_savedOnce (loc : MemoryLocation) (n : Str) (pc : UInt64) (m_space : Str)
    (hloc : NoNul loc.spaceName) (hspace : NoNul m_space) :
    findName func (savedOnce func loc n) pc m_space =
      if m_space = loc.spaceName ∧ pc ∈ loc.pc then decodeRecord (c_str (encodeRecord n loc.offset))
      else .ok none := by
  have hrecord := rawRecord_apply intDatabase (.saveName func loc n) (fun _ => none)
    ⟨func, .name, m_space, pc⟩ hloc hspace
  by_cases h : m_space = loc.spaceName ∧ pc ∈ loc.pc
  · rw [if_pos h]
    rw [Call.leaves, if_pos ⟨rfl, h⟩] at hrecord
    exact findName_of_record _ _ _ _ _ _ hrecord
  · rw [if_neg h]
    rw [Call.leaves, if_neg fun hall => h hall.2] at hrecord
    exact findName_none _ _ _ _ hrecord

theorem renameSpaces_noNul : ∀ m_space ∈ renameSpaces, NoNul m_space := by decide

theorem renameSpaces_nodup : renameSpaces.Nodup := by decide

omit [DecidableEq Sym] in
theorem apply_other_space (loc : MemoryLocation) (n m_space : Str) (ops : List PcodeOp) (st : σ)
    (hloc : NoNul loc.spaceName) (hspace : NoNul m_space) (hne : m_space ≠ loc.spaceName) :
    ActionRenameVar.apply S arch func (savedOnce func loc n) m_space ops st = (.ok (), st) := by
  apply forEach_idle
  intro op _
  have hread := findName_savedOnce func loc n op.pc m_space hloc hspace
  rw [if_neg fun h => hne h.1] at hread
  rw [ActionRenameVar.applyOp, hread]

omit [DecidableEq Sym] in
theorem renamePasses_savedOnce (loc : MemoryLocation) (n : Str) (ops : List PcodeOp) (st : σ)
    (hloc : NoNul loc.spaceName) :
    renamePasses S arch func (savedOnce func loc n) ops st =
      if loc.spaceName ∈ renameSpaces
      then ActionRenameVar.apply S arch func (savedOnce func loc n) loc.spaceName ops st else (.ok (), st) := by
  have hidle : ∀ m_space ∈ renameSpaces, m_space ≠ loc.spaceName → ∀ st,
      ActionRenameVar.apply S arch func (savedOnce func loc n) m_space ops st = (.ok (), st) :=
    fun m_space hmem hne st => apply_other_space S arch func loc n m_space ops st hloc
      (renameSpaces_noNul m_space hmem) hne
  by_cases h : loc.spaceName ∈ renameSpaces
  · rw [if_pos h]
    exact forEach_only _ loc.spaceName renameSpaces st h renameSpaces_nodup hidle
  · rw [if_neg h]
    apply forEach_idle
    intro m_space hmem
    exact hidle m_space hmem (fun heq => h (heq ▸ hmem)) st

/-! ## Who is renamed -/

/-- Pcode `op` stands at a pc of the location and resolves the record to symbol `t`. -/
def Hits (loc : MemoryLocation) (st : σ) (offset : UInt64) (t : Sym) (op : PcodeOp) : Prop :=
  op.pc ∈ loc.pc ∧ ActionRenameVar.lookup S arch loc.spaceName st op offset = some t

instance (loc : MemoryLocation) (st : σ) (offset : UInt64) (t : Sym) :
    DecidablePred (Hits S arch loc st offset t) := fun _ => inferInstanceAs (Decidable (_ ∧ _))

theorem renamedTo_savedOnce (loc : MemoryLocation) (n : Str) (st : σ) (t : Sym) (op : PcodeOp)
    (hloc : NoNul loc.spaceName) (n' : Str) (offset : UInt64)
    (hdecode : decodeRecord (c_str (encodeRecord n loc.offset)) = .ok (some (n', offset))) :
    renamedTo S arch func (savedOnce func loc n) loc.spaceName st t op =
      if Hits S arch loc st offset t op then some n' else none := by
  rw [renamedTo, findName_savedOnce func loc n op.pc _ hloc hloc]
  by_cases hpc : op.pc ∈ loc.pc
  · simp [Hits, hpc, hdecode]
  · simp [Hits, hpc]

theorem apply_savedOnce (hS : S.RenameLaws) (loc : MemoryLocation) (n : Str) (ops : List PcodeOp) (st : σ)
    (hloc : NoNul loc.spaceName) (t : Sym) :
    S.name (ActionRenameVar.apply S arch func (savedOnce func loc n) loc.spaceName ops st).2 t =
      match decodeRecord (c_str (encodeRecord n loc.offset)) with
      | .ok (some (n', offset)) => if ∃ op ∈ ops, Hits S arch loc st offset t op then n' else S.name st t
      | _ => S.name st t := by
  have hread := fun pc => findName_savedOnce func loc n pc _ hloc hloc
  -- A record that does not decode changes nothing, even where it raises.
  have hkept : (∀ n' offset, decodeRecord (c_str (encodeRecord n loc.offset)) ≠ .ok (some (n', offset))) →
      (ActionRenameVar.apply S arch func (savedOnce func loc n) loc.spaceName ops st).2 = st := by
    intro hnot
    apply forEach_frame
    intro op _
    rw [ActionRenameVar.applyOp, hread op.pc]
    by_cases hpc : op.pc ∈ loc.pc
    · rw [if_pos ⟨rfl, hpc⟩]
      cases hdecode : decodeRecord (c_str (encodeRecord n loc.offset)) with
      | error e => rfl
      | ok found => cases found with
        | none => rfl
        | some p => exact absurd hdecode (hnot p.1 p.2)
    · rw [if_neg fun h => hpc h.2]
  cases hdecode : decodeRecord (c_str (encodeRecord n loc.offset)) with
  | error e => rw [hkept (by rw [hdecode]; simp)]
  | ok found => cases found with
    | none => rw [hkept (by rw [hdecode]; simp)]
    | some p =>
      obtain ⟨n', offset⟩ := p
      obtain ⟨st', happly, -, hname⟩ := apply_spec S arch func (savedOnce func loc n) hS loc.spaceName ops st (by
        intro op _ e
        rw [hread op.pc, hdecode]
        split <;> simp)
      rw [happly, hname t,
        lastSome_congr _ _ ops fun op _ => renamedTo_savedOnce S arch func loc n st t op hloc n' offset hdecode,
        lastSome_const]
      simp only
      split <;> rfl

theorem keeps_others_iff (hS : S.RenameLaws) (loc : MemoryLocation) (n : Str) (ops : List PcodeOp) (st : σ)
    (s : Sym) (hloc : NoNul loc.spaceName) :
    (∀ t ≠ s, S.name (renamePasses S arch func (savedOnce func loc n) ops st).2 t = S.name st t) ↔
      (loc.spaceName ∈ renameSpaces →
        ∀ n' offset, decodeRecord (c_str (encodeRecord n loc.offset)) = .ok (some (n', offset)) →
        ∀ op ∈ ops, ∀ t ≠ s, Hits S arch loc st offset t op → S.name st t = n') := by
  rw [renamePasses_savedOnce S arch func loc n ops st hloc]
  by_cases hspace : loc.spaceName ∈ renameSpaces
  · have hname := apply_savedOnce S arch func hS loc n ops st hloc
    rw [if_pos hspace]
    constructor
    · intro h _ n' offset hdecode op hop t ht hhit
      have hkept := h t ht
      rw [hname t, hdecode] at hkept
      simp only at hkept
      rw [if_pos ⟨op, hop, hhit⟩] at hkept
      exact hkept.symm
    · intro h t ht
      rw [hname t]
      split
      · rename_i n' offset hdecode
        split
        · rename_i hhit
          obtain ⟨op, hop, hhit⟩ := hhit
          exact (h hspace n' offset hdecode op hop t ht hhit).symm
        · rfl
      · rfl
  · rw [if_neg hspace]
    exact ⟨fun _ h => absurd h hspace, fun _ t _ => rfl⟩

/-! ## The other variables -/

/-- A pc at which `findVarSymbols` annotates a varnode. -/
def Collected (data : Funcdata Sym) (varnode : Varnode Sym) (nameRepr : NameRepresentative) (pc : UInt64) : Prop :=
  match nameRepr.definition with
  | some defPc => pc = defPc
  | none => ∃ op ∈ data.body, varnode.addr ∈ op.inputs ∧ op.pc = pc

omit [DecidableEq Sym] in
theorem mem_locationPcs (data : Funcdata Sym) (varnode : Varnode Sym) (nameRepr : NameRepresentative)
    (pc : UInt64) : pc ∈ locationPcs data varnode nameRepr ↔ Collected data varnode nameRepr pc := by
  unfold locationPcs Collected
  cases nameRepr.definition with
  | none => exact mem_usePcs data varnode.addr pc
  | some defPc => exact List.mem_singleton

/-- No pcode at a collected pc resolves the storage of the record to another symbol under another name. -/
def OthersMissed (data : Funcdata Sym) (varnode : Varnode Sym) (nameRepr : NameRepresentative) (s : Sym)
    (n : Str) (st : σ) : Prop :=
  nameRepr.addr.space.name ∈ renameSpaces →
  ∀ n' offset, decodeRecord (c_str (encodeRecord n nameRepr.addr.offset)) = .ok (some (n', offset)) →
  ∀ op ∈ data.ops, Collected data varnode nameRepr op.pc →
  ∀ t ≠ s, ActionRenameVar.lookup S arch nameRepr.addr.space.name st op offset = some t → S.name st t = n'

/-- **Other variables.** Renaming a variable leaves the names of all others exactly when no pcode at
one of its pcs resolves to another symbol. -/
theorem rename_others_iff (hS : S.RenameLaws) (data : Funcdata Sym) (varnode : Varnode Sym)
    (nameRepr : NameRepresentative) (s : Sym) (loc : MemoryLocation) (n : Str) (st : σ)
    (hhigh : varnode.high = some ⟨some s, some nameRepr⟩) (hloc : varLocation data varnode = some (s, loc)) :
    (∀ t ≠ s, S.name (renamePasses S arch func (savedOnce func loc n) data.ops st).2 t = S.name st t) ↔
      OthersMissed S arch data varnode nameRepr s n st := by
  obtain ⟨repr, hrepr, rfl⟩ := varLocation_eq_some data varnode s loc hloc
  obtain rfl : repr = nameRepr := by simpa [hhigh] using hrepr.symm
  rw [keeps_others_iff S arch func hS _ n data.ops st s repr.addr.space.name_noNul]
  unfold OthersMissed Hits
  simp only [Address.location, mem_locationPcs]
  constructor
  · intro h hspace n' offset hdecode op hop hpc t ht hlookup
    exact h hspace n' offset hdecode op hop t ht ⟨hpc, hlookup⟩
  · rintro h hspace n' offset hdecode op hop t ht ⟨hpc, hlookup⟩
    exact h hspace n' offset hdecode op hop hpc t ht hlookup

/-! ## A register that two variables share -/

def eax : Address := ⟨registerSpace, 0⟩

/-- `EAX` is read at both pcs, and its name representative has no definition. -/
def sharedRegister : Funcdata Nat where
  defs := [⟨eax, some ⟨some 0, some ⟨eax, none⟩⟩⟩]
  ops := [⟨0x10, [eax]⟩, ⟨0x20, [eax]⟩]
  body := [⟨0x10, [eax]⟩, ⟨0x20, [eax]⟩]
  body_sublist := List.Sublist.refl _

def variableAt (n : Str) (pc : UInt64) : TableSymbol Unit := ⟨n, eax, some [pc], (), []⟩

theorem rename_others_iff_one_variable :
    (∀ t ≠ 0, (SymbolTable.scope ()).name (renamePasses (SymbolTable.scope ()) ⟨fun _ => registerSpace⟩ 0x401fa0
        (savedOnce 0x401fa0 (eax.location [0x10, 0x20]) (ascii "i")) sharedRegister.ops
          [variableAt (ascii "a") 0x10]).2 t =
      (SymbolTable.scope ()).name [variableAt (ascii "a") 0x10] t) ↔
      OthersMissed (SymbolTable.scope ()) ⟨fun _ => registerSpace⟩ sharedRegister
        ⟨eax, some ⟨some 0, some ⟨eax, none⟩⟩⟩ ⟨eax, none⟩ 0 (ascii "i") [variableAt (ascii "a") 0x10] :=
  rename_others_iff (SymbolTable.scope ()) ⟨fun _ => registerSpace⟩ 0x401fa0 (SymbolTable.scope_renameLaws ())
    sharedRegister ⟨eax, some ⟨some 0, some ⟨eax, none⟩⟩⟩ ⟨eax, none⟩ 0 (eax.location [0x10, 0x20]) (ascii "i")
    [variableAt (ascii "a") 0x10] rfl (by decide)

/-- Two variables live in `EAX` one after the other. The location of the first collects the pcs
of both, so renaming the first renames the second as well. -/
theorem rename_shared_register :
    let st : SymbolTable Unit := [variableAt (ascii "a") 0x10, variableAt (ascii "b") 0x20]
    ∃ loc, findVarSymbols ((SymbolTable.scope ()).name st) sharedRegister (fun _ => none) (ascii "a") = some loc ∧
      (SymbolTable.scope ()).name st 1 = ascii "b" ∧
      (SymbolTable.scope ()).name (renamePasses (SymbolTable.scope ()) ⟨fun _ => registerSpace⟩ 0x401fa0
        (savedOnce 0x401fa0 loc (ascii "i")) sharedRegister.ops st).2 1 = ascii "i" :=
  ⟨eax.location [0x10, 0x20], by decide, by decide, by decide⟩

end Yagi
