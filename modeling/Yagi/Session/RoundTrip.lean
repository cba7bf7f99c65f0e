import Yagi.Decompile

/-!
# From the click to the name

A variable is clicked where it is printed, it is given a name, and the function is
decompiled again.
-/

open Text Hex Loop Store Effect

namespace Yagi

open IdaFunctionSymbolInfo IdaSymbolInfoFactory SessionEvent

/-- A key in a viewer is about the keyword under the cursor. -/
def pressIn {Ty : Type} (window : Window) (viewer : CustomViewer) (key shift : Int) (answer : Str → Option Str) :
    Except (While.Stop Keyword.OutOfLine) (SessionEvent Ty) :=
  (computeKeyword viewer).map fun keyword => .press window keyword key shift answer

theorem pressIn_token {Ty : Type} (window : Window) (before after : List Piece) (t : Token) (k : Nat) (hk : 0 < k)
    (hlast : k < t.text.length) (hclear : ¬ t.mistaken) (key shift : Int) (answer : Str → Option Str) :
    pressIn window (viewerAt before after t k) key shift answer =
      .ok (.press window (some t.text) key shift answer : SessionEvent Ty) := by
  rw [pressIn, viewerAt, computeKeyword_token before after t k hk hlast, if_neg hclear]
  rfl

/-! ## One saved location -/

/-- No name is saved for the function. -/
def Unnamed (func : UInt64) (nodes : NetNodes) : Prop :=
  ∀ m_space ∈ renameSpaces, ∀ pc, rawRecord nodes ⟨func, .name, m_space, pc⟩ = none

theorem findName_saved (func : UInt64) (nodes : NetNodes) (hnodes : Unnamed func nodes) (loc : MemoryLocation)
    (hloc : NoNul loc.spaceName) (n : Str) (hn : Faithful n) (m_space : Str) (hspace : m_space ∈ renameSpaces)
    (pc : UInt64) : findName func (saveName func loc n nodes) pc m_space =
      .ok (if m_space = loc.spaceName ∧ pc ∈ loc.pc then some (n, loc.offset) else none) := by
  have hrecord := rawRecord_apply intDatabase (.saveName func loc n) nodes ⟨func, .name, m_space, pc⟩ hloc
    (renameSpaces_noNul m_space hspace)
  rw [hnodes m_space hspace pc, leaves_name] at hrecord
  by_cases h : m_space = loc.spaceName ∧ pc ∈ loc.pc
  · rw [if_pos h]
    rw [Call.nameAt, if_pos ⟨rfl, h.1.symm, h.2⟩] at hrecord
    exact findName_of_faithful _ _ _ _ _ _ hn hrecord
  · rw [if_neg h]
    rw [Call.nameAt, if_neg fun h' => h ⟨h'.2.1.symm, h'.2.2⟩] at hrecord
    exact findName_none _ _ _ _ hrecord

variable {σ Sym D : Type} [DecidableEq Sym] (S : ScopeLocal σ Sym D) (arch : Architecture)

/-- A pcode at a pc of the location resolves its storage to the symbol. -/
def Resolves (loc : MemoryLocation) (ops : List PcodeOp) (st : σ) (sym : Sym) : Prop :=
  ∃ op ∈ ops, op.pc ∈ loc.pc ∧ ActionRenameVar.lookup S arch loc.spaceName st op loc.offset = some sym

instance (loc : MemoryLocation) (ops : List PcodeOp) (st : σ) (sym : Sym) : Decidable (Resolves S arch loc ops st sym) :=
  inferInstanceAs (Decidable (∃ op ∈ ops, _ ∧ _))

theorem lastName_of_one (named : List (Sym × Str)) (n : Str) (h : ∀ entry ∈ named, entry.2 = n) (sym : Sym) :
    lastName named sym = if ∃ entry ∈ named, entry.1 = sym then some n else none := by
  rw [← lastSome_const named n fun entry => entry.1 = sym]
  apply lastSome_congr
  intro entry hentry
  rw [h entry hentry]

theorem lastName_saved (func : UInt64) (nodes : NetNodes) (hnodes : Unnamed func nodes) (loc : MemoryLocation)
    (hspace : loc.spaceName ∈ renameSpaces) (n : Str) (hn : Faithful n) (ops : List PcodeOp) (st : σ) (sym : Sym) :
    lastName (savedNames S arch func (saveName func loc n nodes) st ops) sym =
      if Resolves S arch loc ops st sym then some n else none := by
  have hentry : ∀ m_space ∈ renameSpaces, ∀ op entry,
      entry ∈ savedName S arch func (saveName func loc n nodes) st m_space op ↔
        m_space = loc.spaceName ∧ op.pc ∈ loc.pc ∧ entry.2 = n ∧
          ActionRenameVar.lookup S arch loc.spaceName st op loc.offset = some entry.1 := by
    intro m_space hm op entry
    unfold savedName
    rw [findName_saved func nodes hnodes loc (renameSpaces_noNul _ hspace) n hn m_space hm op.pc]
    by_cases h : m_space = loc.spaceName ∧ op.pc ∈ loc.pc
    · obtain ⟨rfl, hpc⟩ := h
      rw [if_pos ⟨rfl, hpc⟩]
      simp only [Option.mem_def, Option.map_eq_some_iff, true_and, hpc]
      constructor
      · rintro ⟨found, hfound, rfl⟩
        exact ⟨rfl, hfound⟩
      · rintro ⟨rfl, hfound⟩
        exact ⟨entry.1, hfound, rfl⟩
    · rw [if_neg h]
      simp only [Option.mem_def, reduceCtorEq, false_iff]
      exact fun h' => h ⟨h'.1, h'.2.1⟩
  have hmem : ∀ entry, entry ∈ savedNames S arch func (saveName func loc n nodes) st ops ↔
      ∃ m_space ∈ renameSpaces, ∃ op ∈ ops,
        entry ∈ savedName S arch func (saveName func loc n nodes) st m_space op := by
    intro entry
    simp only [savedNames, List.mem_flatMap, Option.mem_toList, Option.mem_def]
  rw [lastName_of_one _ n ?_ sym]
  · refine if_congr ?_ rfl rfl
    constructor
    · rintro ⟨entry, hin, rfl⟩
      obtain ⟨m_space, hm, op, hop, hsaved⟩ := (hmem entry).mp hin
      obtain ⟨-, hpc, -, hfound⟩ := (hentry m_space hm op entry).mp hsaved
      exact ⟨op, hop, hpc, hfound⟩
    · rintro ⟨op, hop, hpc, hfound⟩
      refine ⟨(sym, n), (hmem _).mpr ⟨loc.spaceName, hspace, op, hop, ?_⟩, rfl⟩
      exact (hentry _ hspace op _).mpr ⟨rfl, hpc, rfl, hfound⟩
  · intro entry hin
    obtain ⟨m_space, hm, op, hop, hsaved⟩ := (hmem entry).mp hin
    exact ((hentry m_space hm op entry).mp hsaved).2.2.1

/-! ## The round trip -/

theorem apply_rename {Ty : Type} (ida : Ida Ty) (window : Window) (text : Str) (loc : MemoryLocation)
    (hloc : window.code.symbolAddress text = some loc) (hspace : loc.spaceName ∈ renameSpaces) (db : Database Ty)
    (function : FunctionSymbolInfo) (hfunction : find_function db window.code.ea = .ok (some function))
    (answer : Str → Option Str) (n : Str) (hanswer : answer (c_str text) = some n) :
    apply ida db (.press window (some text) 'N'.toNat 0 answer) =
      { db with nodes := saveName function.getAddress loc (c_str n) db.nodes } := by
  have hlocal : loc.spaceName ≠ ascii "ram" := by
    intro hram
    rw [hram] at hspace
    exact absurd hspace (by decide)
  simp only [apply, keyboardCallback, hloc, hfunction, ne_eq, not_true_eq_false, if_false, if_true]
  rw [if_neg (by decide)]
  simp only [Keyboard.rename, if_neg hlocal, Keyboard.dialog, Ida.answering, hanswer, Option.bind_some]

section

variable {σ Sym γ GSym D Ty φ Op Vn Block : Type} [DecidableEq Sym] [DecidableEq GSym]

/-- The symbols that the location resolves to have the name, and the others have theirs or that of the frame. -/
def Decompiler.Printed.Renamed (C : DecompileContext σ Sym γ GSym D Ty φ Op Vn Block) (db : Database Ty)
    (result : Decompiler.Printed) (loc : MemoryLocation) (n : Str) (funcAddress : UInt64) (st : γ) : Prop :=
  ∃ function, C.find_function result.ea = some function ∧ ∃ funcSym func scope res st' broken after,
    Decompiled C db funcAddress st result funcSym func scope res st' ∧
    Stages C.toActionContext C.current C.groups (C.clearAnalysis func scope) broken after res ∧
    (0 ≤ res → ∀ sym, C.localScope.name st'.scope sym =
      if Resolves C.localScope C.arch loc (C.graph.allOps after.data) after.scope sym then n
      else C.localScope.name (ActionSyncStackVar.apply C.localScope (frameOf C.toActionContext function after.data)
        after.scope) sym)

variable (C : Database Ty → DecompileContext σ Sym γ GSym D Ty φ Op Vn Block)
  (hasAttribute : σ → Sym → Attribute → Prop) (ida : Ida Ty)

end

/-! ## A variable in `EAX` -/

def v1Token : Token := ⟨colorDref, ascii "v1", by decide, by decide, by decide⟩

theorem v1Line_oneLine : ch '\n' ∉ lineBytes [.space, .token v1Token] := by decide

def mainLines : List Line := [⟨[.token mainToken], mainLine_oneLine⟩, ⟨[.space, .token v1Token], v1Line_oneLine⟩]

theorem mainLines_text : printMain (ascii "v1") = printedText mainLines := by
  decide

theorem mainDatabase_funcsStart : mainDatabase.FuncsStart := fun _ _ h => h

theorem mainDatabase_decompiles : ∃ result,
    (decompile (mainContext mainDatabase) mainDatabase 0x401004 []).1 = .ok (some result) ∧
      result.cCode = printedText mainLines ∧
      result.symbolAddress (ascii "v1") = some ⟨ascii "register", 0, 4, [0x401004]⟩ := by
  obtain ⟨result, h, hshown⟩ := exists_result (decompile (mainContext mainDatabase) mainDatabase 0x401004 []).1
    (fun result => result.cCode = printedText mainLines ∧
      result.symbolAddress (ascii "v1") = some ⟨ascii "register", 0, 4, [0x401004]⟩) (by decide +kernel)
  exact ⟨result, h, of_decide_eq_true hshown⟩

end Yagi
