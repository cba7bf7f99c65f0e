import Yagi.Actions.Spec
import Yagi.Scope.Events

/-!
# The helpers of the kernel in the scope

Each row of the table becomes a function in the space of the system calls, with the
prototype of the row. A call finds it there, and the database is not asked.
-/

open Text Loop

namespace Yagi

/-- A function starts without parameters. Its prototype and the rest of the scope leave each other alone. -/
structure FuncProtos.Laws {γ GSym D : Type} [DecidableEq GSym] (P : FuncProtos γ GSym D) (proxy : ScopeInternal γ GSym D)
    (getName : γ → GSym → Str) : Prop where
  symbols_set : ∀ sym pieces st, proxy.symbols (P.setPieces sym pieces st) = proxy.symbols st
  kind_set : ∀ sym pieces st, proxy.kind (P.setPieces sym pieces st) = proxy.kind st
  entries_set : ∀ sym pieces st, proxy.mapEntries (P.setPieces sym pieces st) = proxy.mapEntries st
  name_set : ∀ sym pieces st, getName (P.setPieces sym pieces st) = getName st
  getPieces_set : ∀ st, ∀ sym ∈ proxy.symbols st, ∀ pieces x,
    P.getPieces (P.setPieces sym pieces st) x = if x = sym then pieces else P.getPieces st x
  new_innames : ∀ addr n st, (P.getPieces (proxy.addFunction addr n st).2 (proxy.addFunction addr n st).1).innames = []
  new_intypes : ∀ addr n st, (P.getPieces (proxy.addFunction addr n st).2 (proxy.addFunction addr n st).1).intypes = []
  pieces_addFunction : ∀ addr n st, ∀ x ∈ proxy.symbols st,
    P.getPieces (proxy.addFunction addr n st).2 x = P.getPieces st x
  pieces_addExternalRef : ∀ addr refaddr n st, ∀ x ∈ proxy.symbols st,
    P.getPieces (proxy.addExternalRef addr refaddr n st).2 x = P.getPieces st x
  pieces_addCodeLabel : ∀ addr n st, ∀ x ∈ proxy.symbols st,
    P.getPieces (proxy.addCodeLabel addr n st).2 x = P.getPieces st x
  pieces_addSymbol : ∀ n ty st, ∀ x ∈ proxy.symbols st, P.getPieces (proxy.addSymbol n ty st).2 x = P.getPieces st x
  pieces_mapPoint : ∀ sym addr u st, P.getPieces (proxy.addMapPoint sym addr u st).2 = P.getPieces st
  pieces_attribute : ∀ sym a st, P.getPieces (proxy.setAttribute sym a st) = P.getPieces st

namespace ActionAddeBPFSyscall

variable {σ Sym γ GSym D Ty φ Op Vn Block : Type} (A : ActionContext σ Sym γ GSym D Ty φ Op Vn Block)
  (getName : γ → GSym → Str)

def syscallAddress (n : UInt32) : Address := ⟨A.arch.getSpaceByName (ascii "syscall"), n.toUInt64⟩

theorem syscallAddress_injective (m n : UInt32) (h : syscallAddress A m = syscallAddress A n) : m = n := by
  have hoffset : m.toUInt64 = n.toUInt64 := congrArg Address.offset h
  apply UInt32.toNat.inj
  rw [← UInt32.toNat_toUInt64, hoffset, UInt32.toNat_toUInt64]

/-- The function bears the name and the prototype of a row. -/
structure HasPrototype (st : γ) (sym : GSym) (row : Syscall) : Prop where
  name : Bears row.name (getName st sym)
  innames : (A.protos.getPieces st sym).innames = row.params.map (·.1)
  intypes : (A.protos.getPieces st sym).intypes = row.params.map (·.2.datatype A.types)
  outtype : (A.protos.getPieces st sym).outtype = row.return_type.datatype A.types
  dotdotdot : (A.protos.getPieces st sym).dotdotdot = row.dotdotdot

def addRow (proxy : γ) (row : Syscall) : γ :=
  addSyscall A row.name row.syscall_number (row.return_type.datatype A.types)
    (row.params.map fun (name, type) => (name, type.datatype A.types)) row.dotdotdot proxy

theorem applyTo_proxy (st : FunctionState σ γ φ) :
    (ActionAddeBPFSyscall.applyTo A st).2.proxy = syscalls.foldl (addRow A) st.proxy := by
  unfold ActionAddeBPFSyscall.applyTo
  generalize syscalls = rows
  rfl

theorem foldl_params (params : List (Str × D)) (pieces : PrototypePieces D) :
    params.foldl (fun pieces param =>
      { pieces with innames := pieces.innames ++ [param.1], intypes := pieces.intypes ++ [param.2] }) pieces =
    { pieces with innames := pieces.innames ++ params.map (·.1), intypes := pieces.intypes ++ params.map (·.2) } := by
  induction params generalizing pieces with
  | nil => simp
  | cons param params ih =>
    rw [List.foldl_cons, ih]
    simp

def rowPieces (row : Syscall) (pieces : PrototypePieces D) : PrototypePieces D :=
  { pieces with
    innames := pieces.innames ++ row.params.map (·.1)
    intypes := pieces.intypes ++ row.params.map (·.2.datatype A.types)
    outtype := row.return_type.datatype A.types
    dotdotdot := row.dotdotdot }

theorem addRow_eq (row : Syscall) (st mapped : γ) (sym : GSym)
    (hsym : (A.proxy.addFunction (syscallAddress A row.syscall_number) row.name st).1 = sym)
    (hmapped : (A.proxy.addMapPoint sym (syscallAddress A row.syscall_number) none
      (A.proxy.addFunction (syscallAddress A row.syscall_number) row.name st).2).2 = mapped) :
    addRow A st row = A.protos.setPieces sym (rowPieces A row (A.protos.getPieces mapped sym)) mapped := by
  subst hsym hmapped
  unfold addRow addSyscall
  simp only [foldl_params, List.map_map]
  rfl

/-- A row adds one function, mapped twice at its number. -/
structure Adds (row : Syscall) (st st' : γ) (sym : GSym) : Prop where
  creates : A.proxy.Creates st st' sym .function
    [⟨syscallAddress A row.syscall_number, none⟩, ⟨syscallAddress A row.syscall_number, none⟩]
  prototype : HasPrototype A getName st' sym row
  name_old : ∀ x ∈ A.proxy.symbols st, getName st' x = getName st x
  pieces_old : ∀ x ∈ A.proxy.symbols st, A.protos.getPieces st' x = A.protos.getPieces st x

theorem addRow_adds [DecidableEq GSym] (hS : A.proxy.Laws) (hN : A.proxy.NameLaws getName)
    (hP : A.protos.Laws A.proxy getName) (row : Syscall) (st : γ) : ∃ sym, Adds A getName row st (addRow A st row) sym := by
  let addr := syscallAddress A row.syscall_number
  have hmap := creates_addMapPoint A.proxy hS st _ _ _ _ addr none (hS.addFunction addr row.name st)
  have hname := hN.addFunction addr row.name st
  have hinnames := hP.new_innames addr row.name st
  have hintypes := hP.new_intypes addr row.name st
  have hold := hP.pieces_addFunction addr row.name st
  unfold ScopeInternal.Names at hname
  rw [← hN.name_mapPoint (A.proxy.addFunction addr row.name st).1 addr none] at hname
  rw [← hP.pieces_mapPoint (A.proxy.addFunction addr row.name st).1 addr none] at hinnames hintypes hold
  have heq := addRow_eq A row st _ _ rfl rfl
  rw [heq]
  generalize (A.proxy.addFunction addr row.name st).1 = sym at *
  generalize (A.proxy.addMapPoint sym addr none (A.proxy.addFunction addr row.name st).2).2 = mapped at *
  have hself : sym ∈ A.proxy.symbols mapped := (hmap.symbols sym).mpr (Or.inr rfl)
  refine ⟨sym, ?_, ?_, ?_, ?_⟩
  · constructor
    · exact hmap.new
    · rw [hP.symbols_set]
      exact hmap.symbols
    · rw [hP.kind_set]
      exact hmap.kind_new
    · rw [hP.entries_set]
      exact hmap.entries_new
    · rw [hP.kind_set]
      exact hmap.kind_old
    · rw [hP.entries_set]
      exact hmap.entries_old
  · constructor
    · rw [hP.name_set]
      exact hname.1
    all_goals rw [hP.getPieces_set mapped sym hself, if_pos rfl]
    · simp [rowPieces, hinnames]
    · simp [rowPieces, hintypes]
    · simp [rowPieces]
    · simp [rowPieces]
  · intro x hx
    rw [hP.name_set]
    exact hname.2 x hx
  · intro x hx
    have hne : x ≠ sym := fun h => hmap.new (h ▸ hx)
    rw [hP.getPieces_set mapped sym hself, if_neg hne]
    exact hold x hx

/-! ## The table -/

/-- The function of a row, as the table leaves it. -/
structure Serves (st : γ) (sym : GSym) (row : Syscall) : Prop where
  kind : A.proxy.kind st sym = .function
  entries : A.proxy.mapEntries st sym =
    [⟨syscallAddress A row.syscall_number, none⟩, ⟨syscallAddress A row.syscall_number, none⟩]
  prototype : HasPrototype A getName st sym row

structure Keeps (st st' : γ) (sym : GSym) : Prop where
  symbols : sym ∈ A.proxy.symbols st'
  kind : A.proxy.kind st' sym = A.proxy.kind st sym
  entries : A.proxy.mapEntries st' sym = A.proxy.mapEntries st sym
  name : getName st' sym = getName st sym
  pieces : A.protos.getPieces st' sym = A.protos.getPieces st sym

theorem Keeps.refl (st : γ) (sym : GSym) (hsym : sym ∈ A.proxy.symbols st) : Keeps A getName st st sym :=
  ⟨hsym, rfl, rfl, rfl, rfl⟩

theorem Keeps.trans {st st' st'' : γ} {sym : GSym} (h : Keeps A getName st st' sym)
    (h' : Keeps A getName st' st'' sym) : Keeps A getName st st'' sym :=
  ⟨h'.symbols, h'.kind.trans h.kind, h'.entries.trans h.entries, h'.name.trans h.name, h'.pieces.trans h.pieces⟩

theorem Serves.keeps {st st' : γ} {sym : GSym} {row : Syscall} (h : Serves A getName st sym row)
    (hk : Keeps A getName st st' sym) : Serves A getName st' sym row := by
  constructor
  · rw [hk.kind]
    exact h.kind
  · rw [hk.entries]
    exact h.entries
  · constructor
    · rw [hk.name]
      exact h.prototype.name
    all_goals rw [hk.pieces]
    · exact h.prototype.innames
    · exact h.prototype.intypes
    · exact h.prototype.outtype
    · exact h.prototype.dotdotdot

theorem Adds.serves {row : Syscall} {st st' : γ} {sym : GSym} (h : Adds A getName row st st' sym) :
    Serves A getName st' sym row := ⟨h.creates.kind_new, h.creates.entries_new, h.prototype⟩

theorem Adds.keeps {row : Syscall} {st st' : γ} {sym x : GSym} (h : Adds A getName row st st' sym)
    (hx : x ∈ A.proxy.symbols st) : Keeps A getName st st' x :=
  ⟨(h.creates.symbols x).mpr (Or.inl hx), h.creates.kind_old x hx, h.creates.entries_old x hx, h.name_old x hx,
    h.pieces_old x hx⟩

/-- The rows became functions, and nothing else has changed. -/
structure Listed (rows : List Syscall) (st st' : γ) : Prop where
  keeps : ∀ x ∈ A.proxy.symbols st, Keeps A getName st st' x
  listed : ∀ row ∈ rows, ∃ sym ∈ A.proxy.symbols st', Serves A getName st' sym row
  known : ∀ sym ∈ A.proxy.symbols st', sym ∈ A.proxy.symbols st ∨ ∃ row ∈ rows, Serves A getName st' sym row

theorem listed_nil (st : γ) : Listed A getName [] st st :=
  ⟨fun x hx => Keeps.refl A getName st x hx, fun _ h => absurd h List.not_mem_nil, fun _ h => Or.inl h⟩

theorem listed_cons {row : Syscall} {rows : List Syscall} {st mid st' : γ} {sym : GSym}
    (hadds : Adds A getName row st mid sym) (hrest : Listed A getName rows mid st') :
    Listed A getName (row :: rows) st st' := by
  have hsym : sym ∈ A.proxy.symbols mid := (hadds.creates.symbols sym).mpr (Or.inr rfl)
  have hserves : Serves A getName st' sym row := hadds.serves.keeps A getName (hrest.keeps sym hsym)
  constructor
  · intro x hx
    have hmid := hadds.keeps A getName hx
    exact hmid.trans A getName (hrest.keeps x hmid.symbols)
  · intro r hr
    rcases List.mem_cons.mp hr with rfl | hr
    · exact ⟨sym, (hrest.keeps sym hsym).symbols, hserves⟩
    · exact hrest.listed r hr
  · intro x hx
    rcases hrest.known x hx with hmid | ⟨r, hr, hx⟩
    · rcases (hadds.creates.symbols x).mp hmid with hold | rfl
      · exact Or.inl hold
      · exact Or.inr ⟨row, List.mem_cons_self, hserves⟩
    · exact Or.inr ⟨r, List.mem_cons_of_mem row hr, hx⟩

theorem foldl_addRow [DecidableEq GSym] (hS : A.proxy.Laws) (hN : A.proxy.NameLaws getName)
    (hP : A.protos.Laws A.proxy getName) (rows : List Syscall) (st : γ) :
    Listed A getName rows st (rows.foldl (addRow A) st) := by
  induction rows generalizing st with
  | nil => exact listed_nil A getName st
  | cons row rows ih =>
    obtain ⟨sym, hadds⟩ := addRow_adds A getName hS hN hP row st
    rw [List.foldl_cons]
    exact listed_cons A getName hadds (ih _)

end ActionAddeBPFSyscall

end Yagi
