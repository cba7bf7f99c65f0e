import Yagi.LocalTypes.Action
import Yagi.Rename.Others
import Yagi.Session.Reads

/-!
# Replays during a session

A record that does not decode raises in every later replay of its function. Only
the edit that writes it can bring it about.
-/

open Text Hex Loop Runs

namespace Yagi

open IdaFunctionSymbolInfo

def Decodes (record : Str) : Prop := ∃ found, decodeRecord record = .ok found

/-- What is written where a replay reads it can be decoded. -/
def Call.Decodable {Ty : Type} (types : TypeDatabase Ty) (call : Call Ty) : Prop :=
  call.location.spaceName ∈ renameSpaces → call.location.pc ≠ [] → ∀ record ∈ call.content types, Decodes record

def RecordsDecode (nodes : NetNodes) : Prop :=
  ∀ k : RecordKey, k.space ∈ renameSpaces → ∀ record ∈ rawRecord nodes k, Decodes record

theorem decodes_of_noBar (value : Str) (offset : UInt64) (hnul : NoNul value) (hbar : ch '|' ∉ value) :
    Decodes (c_str (encodeRecord value offset)) :=
  ⟨_, (decodeRecord_saved_iff value offset).mpr ⟨hbar, hnul⟩⟩

/-! ## Replays -/

section

variable {σ Sym D Ty : Type} (S : ScopeLocal σ Sym D) (arch : Architecture) (types : TypeDatabase Ty)
  (findByTypeInfo : Ty → D) (nodes : NetNodes)

/-- The names and the types of every function are replayed without raising, whatever its pcodes are. -/
def ReplaysReturn : Prop :=
  ∀ func ops st, (renamePasses S arch func nodes ops st).1 = .ok () ∧
    (retypeAction S arch types findByTypeInfo func nodes ops st).1 = .ok ()

theorem findName_returns (func : UInt64) (pc : UInt64) (space : Str) :
    (∃ found, findName func nodes pc space = .ok found) ↔
      ∀ record ∈ rawRecord nodes ⟨func, .name, space, pc⟩, Decodes record := by
  unfold findName rawRecord Decodes
  cases nodes.valstr (nodeName .name func space pc) <;> simp

theorem findType_returns (func : UInt64) (pc : UInt64) (space : Str) :
    (∃ found, findType types func nodes pc space = .ok found) ↔
      ∀ record ∈ rawRecord nodes ⟨func, .type, space, pc⟩, Decodes record := by
  unfold findType rawRecord Decodes
  cases nodes.valstr (nodeName .type func space pc) with
  | none => simp
  | some res => cases hdecode : decodeRecord res <;> simp [hdecode, Except.map]

theorem rename_applyOp_returns (func : UInt64) (m_space : Str) (op : PcodeOp) (st : σ) :
    (ActionRenameVar.applyOp S arch func nodes m_space op st).1 = .ok () ↔
      ∃ found, findName func nodes op.pc m_space = .ok found := by
  unfold ActionRenameVar.applyOp
  cases findName func nodes op.pc m_space with
  | error e => simp
  | ok found =>
    match found with
    | none => simp
    | some (newName, offset) =>
      simp only
      cases ActionRenameVar.lookup S arch m_space st op offset <;> simp

theorem load_applyOp_returns (func : UInt64) (m_space : Str) (op : PcodeOp) (st : σ) :
    (ActionLoadLocalScope.applyOp S arch types findByTypeInfo func nodes m_space op st).1 = .ok () ↔
      ∃ found, findType types func nodes op.pc m_space = .ok found := by
  unfold ActionLoadLocalScope.applyOp
  cases findType types func nodes op.pc m_space with
  | error e => simp
  | ok found =>
    match found with
    | none => simp
    | some (none, offset) => simp
    | some (some newType, offset) =>
      simp only
      split <;> simp

theorem renamePasses_return (func : UInt64) (ops : List PcodeOp) (st : σ) :
    (renamePasses S arch func nodes ops st).1 = .ok () ↔
      ∀ m_space ∈ renameSpaces, ∀ op ∈ ops, ∃ found, findName func nodes op.pc m_space = .ok found :=
  forEach_ok_iff _ _ renameSpaces (fun m_space _ st => forEach_ok_iff _ _ ops
    (fun op _ st => rename_applyOp_returns S arch nodes func m_space op st) st) st

theorem retypeAction_return (func : UInt64) (ops : List PcodeOp) (st : σ) :
    (retypeAction S arch types findByTypeInfo func nodes ops st).1 = .ok () ↔
      ∀ m_space ∈ renameSpaces, ∀ op ∈ ops, ∃ found, findType types func nodes op.pc m_space = .ok found :=
  forEach_ok_iff _ _ renameSpaces (fun m_space _ st => forEach_ok_iff _ _ ops
    (fun op _ st => load_applyOp_returns S arch types findByTypeInfo nodes func m_space op st) st) st

theorem replaysReturn_iff (st₀ : σ) : ReplaysReturn S arch types findByTypeInfo nodes ↔ RecordsDecode nodes := by
  unfold ReplaysReturn
  simp only [renamePasses_return, retypeAction_return]
  constructor
  · rintro h ⟨func, kind, space, pc⟩ hspace
    obtain ⟨hname, htype⟩ := h func [⟨pc, []⟩] st₀
    cases kind with
    | name => exact (findName_returns nodes func pc space).mp (hname space hspace ⟨pc, []⟩ List.mem_cons_self)
    | type => exact (findType_returns types nodes func pc space).mp (htype space hspace ⟨pc, []⟩ List.mem_cons_self)
  · intro h func ops _
    exact ⟨fun m_space hspace op _ => (findName_returns nodes func op.pc m_space).mpr (h _ hspace),
      fun m_space hspace op _ => (findType_returns types nodes func op.pc m_space).mpr (h _ hspace)⟩

end

/-! ## Sessions -/

variable {Ty : Type} (ida : Ida Ty)

/-- The edit of an event, if there is one, can be decoded. -/
def SessionEvent.Decodable (db : Database Ty) (event : SessionEvent Ty) : Prop :=
  ∀ call ∈ event.edit ida db, call.Decodable ida.types

theorem apply_recordsDecode_iff (types : TypeDatabase Ty) (call : Call Ty) (nodes : NetNodes)
    (hcall : NoNul call.location.spaceName) (hnodes : RecordsDecode nodes) :
    RecordsDecode (call.apply types nodes) ↔ call.Decodable types := by
  constructor
  · intro h hspace hpc record hrecord
    obtain ⟨pc, hmem⟩ := List.exists_mem_of_ne_nil _ hpc
    refine h ⟨call.target.1, call.target.2, call.location.spaceName, pc⟩ hspace record ?_
    rw [rawRecord_apply_self types call nodes pc hmem]
    exact hrecord
  · intro h k hspace record hrecord
    rw [rawRecord_apply types call nodes k hcall (renameSpaces_noNul _ hspace), Call.leaves] at hrecord
    split at hrecord
    · rename_i habout
      exact h (habout.2.1 ▸ hspace) (List.ne_nil_of_mem habout.2.2) record hrecord
    · exact hnodes k hspace record hrecord

theorem event_recordsDecode_iff (hida : ida.KeepsNodes) (db : Database Ty) (event : SessionEvent Ty)
    (hdb : RecordsDecode db.nodes) :
    RecordsDecode (event.apply ida db).nodes ↔ event.Decodable ida db := by
  have hedit := event_edits ida hida db event
  unfold SessionEvent.Decodable
  cases hcall : event.edit ida db with
  | none =>
    rw [hcall] at hedit
    rw [show (event.apply ida db).nodes = db.nodes from hedit]
    simp [hdb]
  | some call =>
    rw [hcall] at hedit
    rw [show (event.apply ida db).nodes = call.apply ida.types db.nodes from hedit]
    have hmem : call ∈ edits ida db [event] := by
      unfold edits Journal.journal
      rw [hcall]
      simp
    rw [apply_recordsDecode_iff ida.types call db.nodes (edits_noNul ida db [event] call hmem).1 hdb]
    simp

end Yagi
