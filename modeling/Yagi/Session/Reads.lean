import Yagi.Annotations
import Yagi.Session.Proofs

/-!
# What is read after a session

The saved names and types are those that the last edits about them have left.
-/

open Text Store

namespace Yagi

open IdaFunctionSymbolInfo

variable {Ty : Type} (ida : Ida Ty) (db : Database Ty)

/-! ## Records -/

theorem leaves_symm (types : TypeDatabase Ty) (k : RecordKey) (call : Call Ty) : call.leaves types k =
    if call.target = (k.func, k.kind) ∧ call.location.spaceName = k.space ∧ k.pc ∈ call.location.pc
    then some (call.content types) else none :=
  if_congr (and_congr eq_comm (and_congr_left' eq_comm)) rfl rfl

theorem leaves_name (types : TypeDatabase Ty) (func : UInt64) (space : Str) (pc : UInt64) (call : Call Ty) :
    call.leaves types ⟨func, .name, space, pc⟩ =
      (call.nameAt func space pc).map fun (name, offset) => some (c_str (encodeRecord name offset)) := by
  rw [leaves_symm]
  cases call with
  | saveName f l name =>
    simp only [Call.nameAt, Call.target, Call.location, Call.content, Prod.mk.injEq, and_true]
    split <;> rfl
  | saveType f l newType => simp [Call.nameAt, Call.target]
  | clearType f l => simp [Call.nameAt, Call.target]

theorem leaves_type (types : TypeDatabase Ty) (func : UInt64) (space : Str) (pc : UInt64) (call : Call Ty) :
    call.leaves types ⟨func, .type, space, pc⟩ = (call.typeAt func space pc).map fun found =>
      found.map fun (newType, offset) => c_str (encodeRecord (types.getName newType) offset) := by
  rw [leaves_symm]
  cases call with
  | saveName f l name => simp [Call.typeAt, Call.target]
  | saveType f l newType =>
    simp only [Call.typeAt, Call.target, Call.location, Call.content, Prod.mk.injEq, and_true]
    split <;> rfl
  | clearType f l =>
    simp only [Call.typeAt, Call.target, Call.location, Call.content, Prod.mk.injEq, and_true]
    split <;> rfl

/-- **Last edit.** A record holds what the last edit of the session about it left, or what it held before. -/
theorem rawRecord_session (hida : ida.KeepsNodes) (events : List (SessionEvent Ty)) (k : RecordKey)
    (hk : NoNul k.space) :
    rawRecord (session ida db events).nodes k =
      (lastSome (Call.leaves ida.types k) (edits ida db events)).getD (rawRecord db.nodes k) := by
  rw [session_nodes ida db hida events]
  exact rawRecord_run ida.types _ db.nodes k (fun call hcall => (edits_noNul ida db events call hcall).1) hk

/-- What lets a session change a record: a key of its kind on a location that lists it, in a window of its function,
with an answer that the key accepts. -/
structure Asked (events : List (SessionEvent Ty)) (k : RecordKey) (before : List (SessionEvent Ty)) (window : Window)
    (text : Str) (key : Int) (answer : Str → Option Str) (loc : MemoryLocation) : Prop
    extends PressedOn ida db events before window text key answer loc k.func where
  space : loc.spaceName = k.space
  pc : k.pc ∈ loc.pc
  kind : k.kind = .name ↔ key = 'N'.toNat
  confirmed : SessionEvent.keyEdit ida answer text loc key k.func ≠ none

/-- **Frame.** A record that a session changes was asked to be changed. -/
theorem changed_record_asked (hida : ida.KeepsNodes) (events : List (SessionEvent Ty)) (k : RecordKey)
    (hk : NoNul k.space) (hchanged : rawRecord (session ida db events).nodes k ≠ rawRecord db.nodes k) :
    ∃ before window text key answer loc, Asked ida db events k before window text key answer loc := by
  rw [rawRecord_session ida db hida events k hk] at hchanged
  have hsome : lastSome (Call.leaves ida.types k) (edits ida db events) ≠ none := by
    intro hnone
    rw [hnone] at hchanged
    exact hchanged rfl
  obtain ⟨content, hcontent⟩ := Option.ne_none_iff_exists'.mp hsome
  obtain ⟨call, hcall, hleaves⟩ := exists_of_lastSome _ _ _ hcontent
  obtain ⟨before, window, text, key, answer, hpressed, hedit⟩ := mem_edits ida db events call hcall
  have hkind := (keyEdit_edits ida answer text call.location key _ call hedit).kind
  rw [leaves_symm] at hleaves
  split at hleaves
  · rename_i habout
    obtain ⟨htarget, hspace, hpc⟩ := habout
    rw [htarget] at hpressed hedit hkind
    exact ⟨before, window, text, key, answer, call.location, hpressed, hspace, hpc, hkind, by simp [hedit]⟩
  · simp at hleaves

/-! ## Names and types -/

/-- A name is read as it was last given where it holds no `|`, and as before where no edit named it. -/
structure ReadsNames (events : List (SessionEvent Ty)) (func : UInt64) (space : Str) (pc : UInt64) : Prop where
  named : ∀ name offset, lastSome (Call.nameAt func space pc) (edits ida db events) = some (name, offset) →
    (findName func (session ida db events).nodes pc space = .ok (some (name, offset)) ↔ ch '|' ∉ name)
  kept : lastSome (Call.nameAt func space pc) (edits ida db events) = none →
    findName func (session ida db events).nodes pc space = findName func db.nodes pc space

/-- A type is read as it was last given, is not there when it was cleared last, and else is as before. -/
structure ReadsTypes (events : List (SessionEvent Ty)) (func : UInt64) (space : Str) (pc : UInt64) : Prop where
  typed : ∀ newType offset,
    lastSome (Call.typeAt func space pc) (edits ida db events) = some (some (newType, offset)) →
    ReadsBack ida.types newType →
    findType ida.types func (session ida db events).nodes pc space = .ok (some (some newType, offset))
  cleared : lastSome (Call.typeAt func space pc) (edits ida db events) = some none →
    findType ida.types func (session ida db events).nodes pc space = .ok none
  kept : lastSome (Call.typeAt func space pc) (edits ida db events) = none →
    findType ida.types func (session ida db events).nodes pc space = findType ida.types func db.nodes pc space

theorem lastName_noNul (events : List (SessionEvent Ty)) (func : UInt64) (space : Str) (pc : UInt64) (name : Str)
    (offset : UInt64) (h : lastSome (Call.nameAt func space pc) (edits ida db events) = some (name, offset)) :
    NoNul name := by
  obtain ⟨call, hcall, hname⟩ := exists_of_lastSome _ _ _ h
  cases call with
  | saveName f l value =>
    simp only [Call.nameAt] at hname
    split at hname
    · cases hname
      exact (edits_noNul ida db events _ hcall).2 f l name rfl
    · simp at hname
  | saveType f l newType => simp [Call.nameAt] at hname
  | clearType f l => simp [Call.nameAt] at hname

theorem session_readsNames (hida : ida.KeepsNodes) (events : List (SessionEvent Ty)) (func : UInt64) (space : Str)
    (pc : UInt64) (hspace : NoNul space) : ReadsNames ida db events func space pc := by
  have hrecord := rawRecord_session ida db hida events ⟨func, .name, space, pc⟩ hspace
  rw [lastSome_congr _ _ _ fun call _ => leaves_name ida.types func space pc call, ← map_lastSome] at hrecord
  constructor
  · intro name offset hlast
    rw [hlast] at hrecord
    rw [findName_of_record _ _ _ _ _ _ hrecord, decodeRecord_saved_iff]
    exact and_iff_left (lastName_noNul ida db events func space pc name offset hlast)
  · intro hlast
    rw [hlast] at hrecord
    unfold findName
    rw [show NetNodes.valstr _ _ = NetNodes.valstr _ _ from hrecord]

theorem session_readsTypes (hida : ida.KeepsNodes) (events : List (SessionEvent Ty)) (func : UInt64) (space : Str)
    (pc : UInt64) (hspace : NoNul space) : ReadsTypes ida db events func space pc := by
  have hrecord := rawRecord_session ida db hida events ⟨func, .type, space, pc⟩ hspace
  rw [lastSome_congr _ _ _ fun call _ => leaves_type ida.types func space pc call, ← map_lastSome] at hrecord
  constructor
  · intro newType offset hlast hback
    rw [hlast] at hrecord
    exact findType_of_readsBack _ _ _ _ _ _ _ hback hrecord
  · intro hlast
    rw [hlast] at hrecord
    exact findType_none _ _ _ _ _ hrecord
  · intro hlast
    rw [hlast] at hrecord
    unfold findType
    rw [show NetNodes.valstr _ _ = NetNodes.valstr _ _ from hrecord]

/-- **A session.** After any keys in any windows, whatever IDA does in between, names and types are read as they
were last given. -/
theorem session_reads (hida : ida.KeepsNodes) (events : List (SessionEvent Ty)) (func : UInt64) (space : Str)
    (pc : UInt64) (hspace : NoNul space) :
    ReadsNames ida db events func space pc ∧ ReadsTypes ida db events func space pc :=
  ⟨session_readsNames ida db hida events func space pc hspace, session_readsTypes ida db hida events func space pc hspace⟩

/-! ## A variable in a register -/

theorem register_noNul : NoNul (ascii "register") := by decide

def eaxSymbols (key : Str) : Option MemoryLocation :=
  if key = ascii "v1" then some ⟨ascii "register", 0, 4, [0x401004]⟩ else none

theorem eaxSymbols_noNul (key : Str) (loc : MemoryLocation) (h : eaxSymbols key = some loc) : NoNul loc.spaceName := by
  unfold eaxSymbols at h
  split at h
  · cases h
    exact register_noNul
  · simp at h

/-- A window of `main`, which is at `0x401000`. -/
def mainWindow : Window := ⟨⟨0x401000, eaxSymbols⟩, eaxSymbols_noNul⟩

def mainDatabase : Database Unit :=
  ⟨fun _ => some 0x401000, fun _ => ascii "main", fun _ => ascii "main", fun _ => none, fun _ => none⟩

theorem intIda_keepsNodes : intIda.KeepsNodes := ⟨fun _ _ _ => rfl, fun _ _ _ => rfl⟩

def renameEax (name : Str) : SessionEvent Unit := .press mainWindow (some (ascii "v1")) 'N'.toNat 0 fun _ => some name

def retypeEax : SessionEvent Unit := .press mainWindow (some (ascii "v1")) 'Y'.toNat 0 fun _ => some (ascii "int;")

theorem session_reads_main :
    let events := [renameEax (ascii "i"), .work deletedDatabase, renameEax (ascii "n"), .work mainDatabase, retypeEax]
    ReadsNames intIda mainDatabase events 0x401000 (ascii "register") 0x401004 ∧
      ReadsTypes intIda mainDatabase events 0x401000 (ascii "register") 0x401004 :=
  session_reads intIda mainDatabase intIda_keepsNodes _ 0x401000 (ascii "register") 0x401004 (by decide)

theorem changed_record_asked_main :
    ∃ before window text key answer loc, Asked intIda mainDatabase [renameEax (ascii "i"), retypeEax]
      ⟨0x401000, .name, ascii "register", 0x401004⟩ before window text key answer loc :=
  changed_record_asked intIda mainDatabase intIda_keepsNodes _ _ register_noNul (by decide)

-- The function is gone when the variable is renamed again.
example : edits intIda mainDatabase
    [renameEax (ascii "i"), .work deletedDatabase, renameEax (ascii "n"), .work mainDatabase, retypeEax] =
      [.saveName 0x401000 ⟨ascii "register", 0, 4, [0x401004]⟩ (ascii "i"),
        .saveType 0x401000 ⟨ascii "register", 0, 4, [0x401004]⟩ ()] := rfl

end Yagi
