import Yagi.Types.Growth
import Yagi.Types.ParamNames
import Yagi.Types.Table

/-!
# Updating a prototype (`TypeManager::update`)

The types of a prototype and the names of its parameters come from two queries.
They are installed together, or the prototype stays as it was.
-/

open Text Effect

namespace Yagi

structure PrototypePieces (D : Type) where
  model : Str
  outtype : D
  intypes : List D
  innames : List Str
  dotdotdot : Bool
deriving DecidableEq

namespace TypeManager

variable {σ D ι α : Type} (F : TypeFactory σ D) (G : TypeGraph ι) (archi : TypeArchitecture)

structure Updating (σ D : Type) where
  session : Session σ D
  proto : PrototypePieces D

abbrev Update (σ D : Type) := EStateM TypeError (Updating σ D)

def converting (conversion : Conversion σ D α) : Update σ D α := fun s =>
  match conversion s.session with
  | .ok a session => .ok a { s with session := session }
  | .error e session => .error e { s with session := session }

def setPieces (pieces : PrototypePieces D) : Update σ D Unit := fun s => .ok () { s with proto := pieces }

/-- The pieces of a type, as the factory has them by now. -/
def currentPieces (getPieces : σ → D → PrototypePieces D) (type : D) : Update σ D (PrototypePieces D) := fun s =>
  .ok (getPieces s.session.factory type) s

section

variable (findByTypeInfo : ι → Conversion σ D D) (build : UInt64 → Option ι) (getFuncParamName : ι → List Str)
  (getPieces : σ → D → PrototypePieces D)

def update (ea : UInt64) : Update σ D Unit :=
  match build ea with
  | none => pure ()
  | some typeInfo =>
    -- A pointer stands for the function that it points to.
    let typeInfo := (G.info typeInfo).toPtr.getD typeInfo
    match (G.info typeInfo).toFunc with
    | none => pure ()
    | some funcType => do
      let type ← converting (parseFunc F archi findByTypeInfo funcType)
      let pieces ← currentPieces getPieces type
      let newParamNames := getFuncParamName typeInfo
      if newParamNames.length = pieces.innames.length then
        setPieces { pieces with innames := newParamNames }

/-- Ghidra gives back the pieces that a type was made of, with a slot for the name of each parameter. -/
def GetsPieces : Prop :=
  ∀ model outtype intypes dotdotdot n s,
    let made := F.exec (.getTypeCode model outtype intypes dotdotdot) s
    ∃ innames, innames.length = intypes.length ∧
      getPieces (F.exec (.setName made.1 n) made.2).2 made.1 = ⟨model, outtype, intypes, innames, dotdotdot⟩

/-- The function that lies at an address, or that a pointer there points to. -/
def functionAt (ea : UInt64) : Option (ι × FuncInfo ι) := do
  let typeInfo ← build ea
  let pointed := (G.info typeInfo).toPtr.getD typeInfo
  let funcType ← (G.info pointed).toFunc
  return (pointed, funcType)

/-- All types of the prototype convert, one after the other. -/
def Converts (funcType : FuncInfo ι) (session session' : Session σ D) (types : List D) : Prop :=
  funcType.getFuncPrototype.mapM findByTypeInfo (Session.after F session .getTypeVoid) = .ok types session'

/-- The pieces to install: without a prototype the function returns `void`. -/
def piecesOf (funcType : FuncInfo ι) (names : List Str) (session : Session σ D) (types : List D) : PrototypePieces D where
  model := archi.callingConv funcType.getCallingConv
  outtype := types.head?.getD (F.exec .getTypeVoid session.factory).1
  intypes := types.tail
  innames := names
  dotdotdot := funcType.isDotDotDot

end

/-- The state that a computation leaves, whether it raises or not. -/
def stateAfter : EStateM.Result TypeError (Updating σ D) α → Updating σ D
  | .ok _ s => s
  | .error _ s => s

/-! ## The function -/

variable {F G archi} {findByTypeInfo : ι → Conversion σ D D} {build : UInt64 → Option ι}
  {getFuncParamName : ι → List Str} {getPieces : σ → D → PrototypePieces D}

theorem parsePrototype_of_ok (void : D) (prototype : List ι) (st st' : Session σ D) (types : List D)
    (h : prototype.mapM findByTypeInfo st = .ok types st') :
    parsePrototype findByTypeInfo void prototype st = .ok (types.head?.getD void, types.tail) st' := by
  cases prototype with
  | nil =>
    obtain ⟨rfl, rfl⟩ := (mapM_nil_ok _ _ _ _).mp h
    rfl
  | cons ret params =>
    obtain ⟨retType, paramType, t, hret, hparams, rfl⟩ := (mapM_cons_ok _ _ _ _ _ _).mp h
    simp only [parsePrototype, bind_ok, pure_ok]
    exact ⟨retType, t, hret, paramType, st', hparams, rfl, rfl⟩

theorem parsePrototype_of_error (void : D) (prototype : List ι) (st st' : Session σ D) (e : TypeError)
    (h : prototype.mapM findByTypeInfo st = .error e st') :
    parsePrototype findByTypeInfo void prototype st = .error e st' := by
  cases prototype with
  | nil =>
    rw [List.mapM_nil] at h
    exact absurd h (pure_ne_error _ _ _ _)
  | cons ret params =>
    rw [List.mapM_cons] at h
    simp only [parsePrototype, bind_error] at h ⊢
    rcases h with h | ⟨retType, t, hret, h | ⟨paramType, u, -, h⟩⟩
    · exact Or.inl h
    · exact Or.inr ⟨retType, t, hret, Or.inl h⟩
    · exact absurd h (pure_ne_error _ _ _ _)

theorem parseFunc_of_converts (hpieces : GetsPieces F getPieces) (funcType : FuncInfo ι) (session session' : Session σ D)
    (types : List D) (h : Converts F findByTypeInfo funcType session session' types) :
    ∃ type last innames, parseFunc F archi findByTypeInfo funcType session = .ok type last ∧
      innames.length = types.tail.length ∧
      getPieces last.factory type = piecesOf F archi funcType innames session types := by
  let void := (F.exec .getTypeVoid session.factory).1
  let code := TypeCall.getTypeCode (archi.callingConv funcType.getCallingConv) (types.head?.getD void) types.tail
    funcType.isDotDotDot
  let made := F.exec code session'.factory
  obtain ⟨innames, hlength, hgets⟩ := hpieces (archi.callingConv funcType.getCallingConv) (types.head?.getD void)
    types.tail funcType.isDotDotDot funcType.getName session'.factory
  refine ⟨made.1, Session.after F (Session.after F session' code) (.setName made.1 funcType.getName), innames, ?_,
    hlength, hgets⟩
  have htypes := parsePrototype_of_ok void _ _ _ _ h
  unfold parseFunc
  rw [bind_ok]
  refine ⟨void, Session.after F session .getTypeVoid, rfl, ?_⟩
  rw [bind_ok]
  exact ⟨_, session', htypes, rfl⟩

theorem parseFunc_of_error (funcType : FuncInfo ι) (session session' : Session σ D) (e : TypeError)
    (h : funcType.getFuncPrototype.mapM findByTypeInfo (Session.after F session .getTypeVoid) = .error e session') :
    parseFunc F archi findByTypeInfo funcType session = .error e session' := by
  unfold parseFunc
  rw [bind_error]
  refine Or.inr ⟨(F.exec .getTypeVoid session.factory).1, Session.after F session .getTypeVoid, rfl, ?_⟩
  rw [bind_error]
  exact Or.inl (parsePrototype_of_error _ _ _ _ _ h)

theorem Converts.length (funcType : FuncInfo ι) (session session' : Session σ D) (types : List D)
    (h : Converts F findByTypeInfo funcType session session' types) :
    types.tail.length = funcType.getFuncPrototype.tail.length := by
  rw [List.length_tail, List.length_tail, mapM_length _ _ _ _ _ h]

/-! ## All or nothing -/

theorem functionAt_eq_none (ea : UInt64) (s : Updating σ D) (h : functionAt G build ea = none) :
    update F G archi findByTypeInfo build getFuncParamName getPieces ea s = .ok () s := by
  unfold functionAt at h
  unfold update
  cases hbuild : build ea with
  | none => rfl
  | some typeInfo =>
    rw [hbuild] at h
    cases hfunc : (G.info ((G.info typeInfo).toPtr.getD typeInfo)).toFunc with
    | none =>
      simp only [hfunc]
      rfl
    | some funcType => simp [hfunc] at h

theorem update_eq (ea : UInt64) (i : ι) (funcType : FuncInfo ι) (h : functionAt G build ea = some (i, funcType)) :
    update F G archi findByTypeInfo build getFuncParamName getPieces ea =
      (do
        let type ← converting (parseFunc F archi findByTypeInfo funcType)
        let pieces ← currentPieces getPieces type
        if (getFuncParamName i).length = pieces.innames.length then
          setPieces { pieces with innames := getFuncParamName i } : Update σ D Unit) := by
  unfold functionAt at h
  unfold update
  cases hbuild : build ea with
  | none => simp [hbuild] at h
  | some typeInfo =>
    rw [hbuild] at h
    cases hfunc : (G.info ((G.info typeInfo).toPtr.getD typeInfo)).toFunc with
    | none => simp [hfunc] at h
    | some found =>
      simp only [hfunc, Option.bind_eq_bind, Option.bind_some, Option.pure_def, Option.some.injEq, Prod.mk.injEq] at h
      obtain ⟨rfl, rfl⟩ := h
      simp only [hfunc]

variable (getFuncParamName) in
theorem update_of_converts (hpieces : GetsPieces F getPieces) (ea : UInt64) (s : Updating σ D) (i : ι)
    (funcType : FuncInfo ι) (types : List D) (session' : Session σ D)
    (hfunc : functionAt G build ea = some (i, funcType))
    (htypes : Converts F findByTypeInfo funcType s.session session' types) :
    ∃ type last, parseFunc F archi findByTypeInfo funcType s.session = .ok type last ∧
      update F G archi findByTypeInfo build getFuncParamName getPieces ea s =
        .ok () ⟨last, if types.tail.length = (getFuncParamName i).length
          then piecesOf F archi funcType (getFuncParamName i) s.session types else s.proto⟩ := by
  obtain ⟨type, last, innames, hparse, hlength, hgets⟩ := parseFunc_of_converts hpieces funcType s.session session'
    types htypes
  refine ⟨type, last, hparse, ?_⟩
  have hconvert : converting (parseFunc F archi findByTypeInfo funcType) s = .ok type ⟨last, s.proto⟩ := by
    unfold converting
    rw [hparse]
  rw [update_eq ea i funcType hfunc, bind_ok]
  refine ⟨type, ⟨last, s.proto⟩, hconvert, ?_⟩
  rw [bind_ok]
  refine ⟨_, _, rfl, ?_⟩
  have hslots : (getPieces last.factory type).innames.length = types.tail.length := by
    rw [hgets]
    exact hlength
  simp only [hslots, eq_comm]
  split
  · rw [hgets]
    rfl
  · rfl

theorem update_of_error (ea : UInt64) (s : Updating σ D) (i : ι) (funcType : FuncInfo ι) (session' : Session σ D)
    (e : TypeError) (hfunc : functionAt G build ea = some (i, funcType))
    (herror : funcType.getFuncPrototype.mapM findByTypeInfo (Session.after F s.session .getTypeVoid) =
      .error e session') :
    update F G archi findByTypeInfo build getFuncParamName getPieces ea s = .error e ⟨session', s.proto⟩ := by
  have hconvert : converting (parseFunc F archi findByTypeInfo funcType) s = .error e ⟨session', s.proto⟩ := by
    unfold converting
    rw [parseFunc_of_error funcType s.session session' e herror]
  rw [update_eq ea i funcType hfunc, bind_error]
  exact Or.inl hconvert

variable (F G archi findByTypeInfo build getFuncParamName getPieces)

/-- There is a function, its types convert, and it has as many names as parameters. -/
def Updates (ea : UInt64) (session : Session σ D) (i : ι) (funcType : FuncInfo ι) (types : List D) : Prop :=
  functionAt G build ea = some (i, funcType) ∧ (∃ session', Converts F findByTypeInfo funcType session session' types) ∧
    funcType.getFuncPrototype.tail.length = (getFuncParamName i).length

end TypeManager

/-! ## A table that keeps prototypes -/

structure CodeTable where
  table : TypeTable
  prototypes : Nat → PrototypePieces Nat

namespace CodeTable

def exec (call : TypeCall Nat) (t : CodeTable) : Nat × CodeTable :=
  ((TypeTable.exec call t.table).1, ⟨(TypeTable.exec call t.table).2,
    match call with
    | .getTypeCode model outtype intypes dotdotdot =>
      Function.update t.prototypes (TypeTable.exec call t.table).1
        ⟨model, outtype, intypes, intypes.map fun _ => [], dotdotdot⟩
    | _ => t.prototypes⟩)

def factory : TypeFactory CodeTable Nat where
  exec := exec
  findByIdLocal t := t.table.find
  named t := TypeTable.factory.named t.table
  getName t := TypeTable.factory.getName t.table
  getSize t := TypeTable.factory.getSize t.table
  isIncomplete t := TypeTable.factory.isIncomplete t.table

theorem getsPieces : TypeManager.GetsPieces factory prototypes := by
  intro model outtype intypes dotdotdot n t
  refine ⟨intypes.map fun _ => [], List.length_map _, ?_⟩
  exact Function.update_self _ _ _

/-! Prototypes are no part of what the laws are about. -/

theorem extends_table (t t' : CodeTable) (h : TypeTable.factory.Extends t.table t'.table) : factory.Extends t t' :=
  ⟨h.named, h.getName, h.getSize, h.isIncomplete, h.found⟩

theorem madeSize_table (call : TypeCall Nat) (t : CodeTable) :
    factory.madeSize t call = TypeTable.factory.madeSize t.table call := by
  cases call <;> rfl

theorem laws : factory.Laws where
  found_named t := TypeTable.laws.found_named t.table
  make_extends call t size h :=
    extends_table _ _ (TypeTable.laws.make_extends call t.table size (madeSize_table call t ▸ h))
  make_named call t size h := TypeTable.laws.make_named call t.table size (madeSize_table call t ▸ h)
  make_unnamed call t size h := TypeTable.laws.make_unnamed call t.table size (madeSize_table call t ▸ h)
  make_getSize call t size h := TypeTable.laws.make_getSize call t.table size (madeSize_table call t ▸ h)
  make_complete call t size h := TypeTable.laws.make_complete call t.table size (madeSize_table call t ▸ h)
  void_extends t := extends_table _ _ (TypeTable.laws.void_extends t.table)
  void_named t := TypeTable.laws.void_named t.table
  setName_extends ct n t h := extends_table _ _ (TypeTable.laws.setName_extends ct n t.table h)
  setName_named ct n t := TypeTable.laws.setName_named ct n t.table
  setName_getName ct n t := TypeTable.laws.setName_getName ct n t.table
  setName_getSize ct n t := TypeTable.laws.setName_getSize ct n t.table
  setName_complete ct n t := TypeTable.laws.setName_complete ct n t.table
  setName_found ct n t := TypeTable.laws.setName_found ct n t.table
  struct_extends n t h := extends_table _ _ (TypeTable.laws.struct_extends n t.table h)
  struct_named n t := TypeTable.laws.struct_named n t.table
  struct_unnamed n t := TypeTable.laws.struct_unnamed n t.table
  struct_getName n t := TypeTable.laws.struct_getName n t.table
  struct_getSize n t := TypeTable.laws.struct_getSize n t.table
  struct_incomplete n t := TypeTable.laws.struct_incomplete n t.table
  struct_found n t := TypeTable.laws.struct_found n t.table
  fields_named fields ct t := TypeTable.laws.fields_named fields ct t.table
  fields_getName fields ct t := TypeTable.laws.fields_getName fields ct t.table
  fields_getSize fields ct t := TypeTable.laws.fields_getSize fields ct t.table
  fields_complete fields ct t := TypeTable.laws.fields_complete fields ct t.table
  fields_other_getSize fields ct t := TypeTable.laws.fields_other_getSize fields ct t.table
  fields_other_complete fields ct t := TypeTable.laws.fields_other_complete fields ct t.table
  fields_found fields ct t := TypeTable.laws.fields_found fields ct t.table

def coreTable : CodeTable := ⟨TypeTable.coreTypes, fun _ => ⟨[], 0, [], [], false⟩⟩

end CodeTable

/-- The type of `int __cdecl main(int argc, char *)`, and a pointer to it. -/
def mainInfo : Fin 5 → TypeInfo (Fin 5)
  | 0 => { plainInfo (ascii "int") 4 with isInt := true }
  | 1 => { plainInfo (ascii "char") 1 with isChar := true }
  | 2 => { plainInfo (ascii "char *") 8 with toPtr := some 1 }
  | 3 => { plainInfo (ascii "int (int, char *)") 1 with
      toFunc := some ⟨false, [0, 0, 2], some (ascii "__cdecl"), ascii "int (int, char *)"⟩ }
  | 4 => { plainInfo (ascii "int (*)(int, char *)") 8 with toPtr := some 3 }

def mainTypes : TypeGraph (Fin 5) where
  info := mainInfo
  build name := (List.finRange 5).find? fun i => (mainInfo i).getName = name
  getName_injective := by decide
  getName_ne_nil := by decide
  build_getName name i h := by simpa using List.find?_some h
  func_getName := by decide

namespace TypeManager

end TypeManager

end Yagi
