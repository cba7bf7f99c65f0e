import Yagi.Perform
import Yagi.Session.Reads

/-!
# What a session shows

The user gives names and types in the windows of functions. When a function is
decompiled again, its symbols have what was given last.
-/

open Text Hex Loop Store FirstWins Effect

namespace Yagi

open IdaFunctionSymbolInfo

/-! ## Readings -/

section

variable {Ty : Type} (func : UInt64) (nodes : NetNodes) (space : Str) (pc : UInt64)

/-- What a replay reads at a pc. -/
def readName : Option (Str × UInt64) := (findName func nodes pc space).toOption.join

def readType (types : TypeDatabase Ty) : Option (Ty × UInt64) :=
  (findType types func nodes pc space).toOption.join.bind fun (newType, offset) => newType.map (·, offset)

variable {σ Sym D : Type} (S : ScopeLocal σ Sym D) (arch : Architecture) (types : TypeDatabase Ty)

theorem savedName_eq (st : σ) (m_space : Str) (op : PcodeOp) : savedName S arch func nodes st m_space op =
    (readName func nodes m_space op.pc).bind fun (newName, offset) =>
      (ActionRenameVar.lookup S arch m_space st op offset).map (·, newName) := by
  unfold savedName readName
  cases findName func nodes op.pc m_space with
  | error e => rfl
  | ok found => cases found <;> rfl

theorem savedRecord_eq (m_space : Str) (op : PcodeOp) : savedRecord arch types func nodes m_space op =
    (readType func nodes m_space op.pc types).map fun (newType, offset) =>
      (.at arch (ActionLoadLocalScope.storage arch m_space offset) op.pc, newType) := by
  unfold savedRecord readType
  cases findType types func nodes op.pc m_space with
  | error e => rfl
  | ok found =>
    match found with
    | none => rfl
    | some (none, offset) => rfl
    | some (some newType, offset) => rfl

end

/-! ## What was given -/

section

variable {Ty : Type} (ida : Ida Ty) (db : Database Ty) (events : List (SessionEvent Ty)) (func : UInt64)

/-- The last name that was given for a pc, else the one that the database had. -/
def givenName (space : Str) (pc : UInt64) : Option (Str × UInt64) :=
  (lastSome (Call.nameAt func space pc) (edits ida db events)).or (readName func db.nodes space pc)

/-- The last type that was given for a pc and not cleared, else the one that the database had. -/
def givenType (space : Str) (pc : UInt64) : Option (Ty × UInt64) :=
  (lastSome (Call.typeAt func space pc) (edits ida db events)).getD (readType func db.nodes space pc ida.types)

/-- No given name holds a `|`, and the types that are given have names that IDA parses back. -/
structure Legible (calls : List (Call Ty)) : Prop where
  names : ∀ f loc n, .saveName f loc n ∈ calls → ch '|' ∉ n
  types : ∀ f loc t, .saveType f loc t ∈ calls → ReadsBack ida.types t

variable {ida db events}

theorem readName_session (hida : ida.KeepsNodes) (hlegible : Legible ida (edits ida db events)) (space : Str)
    (hspace : NoNul space) (pc : UInt64) :
    readName func (session ida db events).nodes space pc = givenName ida db events func space pc := by
  have hreads := session_readsNames ida db hida events func space pc hspace
  unfold readName givenName
  cases hlast : lastSome (Call.nameAt func space pc) (edits ida db events) with
  | none =>
    rw [hreads.kept hlast, Option.none_or]
    rfl
  | some found =>
    obtain ⟨name, offset⟩ := found
    obtain ⟨call, hcall, hname⟩ := exists_of_lastSome _ _ _ hlast
    have hbar : ch '|' ∉ name := by
      cases call with
      | saveName f loc n =>
        simp only [Call.nameAt] at hname
        split at hname
        · obtain ⟨rfl, -⟩ := Prod.mk.inj (Option.some.inj hname)
          exact hlegible.names f loc n hcall
        · simp at hname
      | saveType f loc t => simp [Call.nameAt] at hname
      | clearType f loc => simp [Call.nameAt] at hname
    rw [(hreads.named name offset hlast).mpr hbar]
    rfl

theorem readType_session (hida : ida.KeepsNodes) (hlegible : Legible ida (edits ida db events)) (space : Str)
    (hspace : NoNul space) (pc : UInt64) :
    readType func (session ida db events).nodes space pc ida.types = givenType ida db events func space pc := by
  have hreads := session_readsTypes ida db hida events func space pc hspace
  unfold givenType
  cases hlast : lastSome (Call.typeAt func space pc) (edits ida db events) with
  | none =>
    unfold readType
    rw [hreads.kept hlast]
    rfl
  | some left =>
    cases left with
    | none =>
      unfold readType
      rw [hreads.cleared hlast]
      rfl
    | some found =>
      obtain ⟨newType, offset⟩ := found
      obtain ⟨call, hcall, htype⟩ := exists_of_lastSome _ _ _ hlast
      have hback : ReadsBack ida.types newType := by
        cases call with
        | saveName f loc n => simp [Call.typeAt] at htype
        | saveType f loc t =>
          simp only [Call.typeAt] at htype
          split at htype
          · obtain ⟨rfl, -⟩ := Prod.mk.inj (Option.some.inj (Option.some.inj htype))
            exact hlegible.types f loc t hcall
          · simp at htype
        | clearType f loc =>
          simp only [Call.typeAt] at htype
          split at htype <;> simp at htype
      unfold readType
      rw [hreads.typed newType offset hlast hback]
      rfl

end

/-! ## The decompilation after a session -/

section

variable {σ Sym D Ty : Type} (S : ScopeLocal σ Sym D) (arch : Architecture) (ida : Ida Ty) (db : Database Ty)
  (events : List (SessionEvent Ty)) (func : UInt64) (ops : List PcodeOp)

/-- The symbols that the pcodes name, pass by pass. -/
def givenNames (st : σ) : List (Sym × Str) :=
  renameSpaces.flatMap fun m_space => ops.flatMap fun op =>
    ((givenName ida db events func m_space op.pc).bind fun (newName, offset) =>
      (ActionRenameVar.lookup S arch m_space st op offset).map (·, newName)).toList

/-- The storages that the pcodes type, pass by pass. -/
def givenTypes : List (ScopeKey arch × Ty) :=
  retypeSpaces.flatMap fun m_space => ops.flatMap fun op =>
    ((givenType ida db events func m_space op.pc).map fun (newType, offset) =>
      (.at arch (ActionLoadLocalScope.storage arch m_space offset) op.pc, newType)).toList

variable {ida db events}

theorem savedNames_session (hida : ida.KeepsNodes) (hlegible : Legible ida (edits ida db events)) (st : σ) :
    savedNames S arch func (session ida db events).nodes st ops = givenNames S arch ida db events func ops st := by
  unfold savedNames givenNames
  apply List.flatMap_congr
  intro m_space hspace
  apply List.flatMap_congr
  intro op _
  rw [savedName_eq, readName_session func hida hlegible m_space (renameSpaces_noNul m_space hspace)]

theorem savedRecords_session (hida : ida.KeepsNodes) (hlegible : Legible ida (edits ida db events)) :
    savedRecords arch ida.types func (session ida db events).nodes ops =
      givenTypes arch ida db events func ops := by
  unfold savedRecords givenTypes
  apply List.flatMap_congr
  intro m_space hspace
  apply List.flatMap_congr
  intro op _
  rw [savedRecord_eq, readType_session func hida hlegible m_space (renameSpaces_noNul m_space hspace)]

end

/-! ## A variable in `EAX` -/

def eaxEvents : List (SessionEvent Unit) := [renameEax (ascii "n"), .work mainDatabase, retypeEax, renameEax (ascii "i")]

theorem eaxEvents_legible : Legible intIda (edits intIda mainDatabase eaxEvents) := by
  have hedits : edits intIda mainDatabase eaxEvents =
      [.saveName 0x401000 ⟨ascii "register", 0, 4, [0x401004]⟩ (ascii "n"),
        .saveType 0x401000 ⟨ascii "register", 0, 4, [0x401004]⟩ (),
        .saveName 0x401000 ⟨ascii "register", 0, 4, [0x401004]⟩ (ascii "i")] := rfl
  rw [hedits]
  constructor
  · intro f loc n hmem
    simp only [List.mem_cons, Call.saveName.injEq, reduceCtorEq, List.not_mem_nil, or_false, false_or] at hmem
    rcases hmem with ⟨-, -, rfl⟩ | ⟨-, -, rfl⟩ <;> decide
  · rintro f loc ⟨⟩ -
    exact ⟨by decide, by decide⟩

/-- The second name is shown. -/
example : givenName intIda mainDatabase eaxEvents 0x401000 (ascii "register") 0x401004 = some (ascii "i", 0) := by decide

end Yagi
