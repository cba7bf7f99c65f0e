import Yagi.Lib.Effect
import Yagi.Types.Spec

/-!
# What a conversion does

The tests of `parseTypeInfo` pick one of six plans. A conversion follows the plan
of the type info, unless its name is known already.
-/

open Text Effect

namespace Yagi

inductive BaseType where
  | base (size : Int32) (metatype : Metatype) (name : Str)
  | unicode (name : Str) (size : Int32) (metatype : Metatype)
  | char (name : Str)

def BaseType.call {D : Type} : BaseType → TypeCall D
  | .base size metatype name => .newTypeBase size metatype name
  | .unicode name size metatype => .newTypeUnicode name size metatype
  | .char name => .newTypeChar name

def BaseType.size : BaseType → Int
  | .base size _ _ => size.toInt
  | .unicode _ size _ => size.toInt
  | .char _ => 1

inductive Plan (ι : Type) where
  | make (base : BaseType)
  | pointer (pointed : ι)
  | struct (fields : List (TypeStructField ι))
  | func (func : FuncInfo ι)
  | element (array : ι)
  | array (count : Int32) (element : ι)

namespace Plan

variable {ι : Type}

/-- The type infos that are converted on the way. -/
def parts : Plan ι → List ι
  | .make _ => []
  | .pointer pointed => [pointed]
  | .struct fields => fields.map (·.type)
  | .func info => info.getFuncPrototype
  | .element inner => [inner]
  | .array _ inner => [inner]

/-- The parts that the type contains, not only refers to. -/
def contents : Plan ι → List ι
  | .struct fields => fields.map (·.type)
  | .element inner => [inner]
  | .array _ inner => [inner]
  | _ => []

def isStruct : Plan ι → Bool
  | .struct _ => true
  | _ => false

end Plan

namespace TypeInfo

variable {ι : Type} (archi : TypeArchitecture)

/-- The plan of a type info that is neither a pointer, nor a scalar, nor a struct. -/
def otherPlan (info : TypeInfo ι) : Plan ι :=
  if info.isVoid then
    let size := if info.getSize = 0 then archi.getAddrSize.toUInt64 else info.getSize
    .make (.base (int4 size) .TYPE_VOID info.getName)
  else match info.toFunc with
  | some func => .func func
  | none => match info.toArray with
    | some array =>
      if info.getSize = 0 then .element array.getPointedObject
      else .array (int4 info.getSize) array.getPointedObject
    | none =>
      let unknownSize := if info.getSize = -1 then archi.getAddrSize.toUInt64 else info.getSize
      .make (.base (int4 unknownSize) .TYPE_UNKNOWN info.getName)

def plan (info : TypeInfo ι) : Plan ι :=
  match info.toPtr with
  | some pointed => .pointer pointed
  | none =>
    if info.isBool then .make (.base (int4 info.getSize) .TYPE_BOOL info.getName)
    else if info.isUnicode then .make (.unicode info.getName (int4 info.getSize) .TYPE_INT)
    else if info.isChar then .make (.char info.getName)
    else if info.isInt then .make (.base (int4 info.getSize) .TYPE_INT info.getName)
    else if info.isFloat then .make (.base (int4 info.getSize) .TYPE_FLOAT info.getName)
    else match info.toStruct with
    | some fields => .struct fields
    | none => otherPlan archi info

theorem otherPlan_func (info : TypeInfo ι) (func : FuncInfo ι) (h : info.otherPlan archi = .func func) :
    info.toFunc = some func := by
  unfold otherPlan at h
  grind

theorem plan_func (info : TypeInfo ι) (func : FuncInfo ι) (h : info.plan archi = .func func) :
    info.toFunc = some func := by
  unfold plan at h
  grind [otherPlan_func]

end TypeInfo

theorem TypeGraph.plan_getName {ι : Type} (G : TypeGraph ι) (archi : TypeArchitecture) (i : ι) (func : FuncInfo ι)
    (h : (G.info i).plan archi = .func func) : func.getName = G.getName i :=
  G.func_getName i func (TypeInfo.plan_func archi _ func h)

namespace TypeManager

variable {σ D ι : Type} (F : TypeFactory σ D) (G : TypeGraph ι) (archi : TypeArchitecture)
  (findByTypeInfo : ι → Conversion σ D D)

def carryOut (name : Str) : Plan ι → Conversion σ D D
  | .make base => makeNamed F base.call name
  | .pointer pointed => do
    let pointee ← findByTypeInfo pointed
    makeNamed F (.getTypePointer archi.getAddrSize.toInt32 pointee archi.getWordSize) name
  | .struct fields => parseStruct F findByTypeInfo fields name
  | .func func => parseFunc F archi findByTypeInfo func
  | .element element => findByTypeInfo element
  | .array count element => do
    let element ← findByTypeInfo element
    makeNamed F (.getTypeArray count element) name

theorem parseTypeInfo_eq (info : TypeInfo ι) :
    parseTypeInfo F archi findByTypeInfo info = carryOut F archi findByTypeInfo info.getName (info.plan archi) := by
  unfold parseTypeInfo TypeInfo.plan TypeInfo.otherPlan
  cases info.toPtr with
  | some pointed => rfl
  | none =>
    cases info.isBool with
    | true => rfl
    | false => cases info.isUnicode with
      | true => rfl
      | false => cases info.isChar with
        | true => rfl
        | false => cases info.isInt with
          | true => rfl
          | false => cases info.isFloat with
            | true => rfl
            | false => cases info.toStruct with
              | some fields => rfl
              | none => cases info.isVoid with
                | true => rfl
                | false => cases info.toFunc with
                  | some func => rfl
                  | none => cases info.toArray with
                    | none => rfl
                    | some array =>
                      by_cases hsize : info.getSize = 0
                      · simp only [hsize, if_true]; rfl
                      · simp only [hsize, if_false]; rfl

/-! ## Errors -/

theorem perform_ne_error (c : TypeCall D) (st st' : Session σ D) (e : TypeError) : perform F c st ≠ .error e st' := by
  simp [perform]

theorem makeNamed_ne_error (c : TypeCall D) (n : Str) (st st' : Session σ D) (e : TypeError) :
    makeNamed F c n st ≠ .error e st' := by
  simp [makeNamed, perform, bind, EStateM.bind, pure, EStateM.pure]

theorem carryOut_error (name : Str) (plan : Plan ι) (st st' : Session σ D) (e : TypeError)
    (h : carryOut F archi findByTypeInfo name plan st = .error e st') :
    ∃ i t, findByTypeInfo i t = .error e st' := by
  cases plan with
  | make base => exact absurd h (makeNamed_ne_error F _ _ _ _ _)
  | pointer pointed =>
    rcases (bind_error _ _ _ _ _).mp h with h | ⟨a, t, -, h⟩
    · exact ⟨_, _, h⟩
    · exact absurd h (makeNamed_ne_error F _ _ _ _ _)
  | struct fields =>
    rcases (bind_error _ _ _ _ _).mp h with h | ⟨ct, t, -, h⟩
    · exact absurd h (perform_ne_error F _ _ _ _)
    · rcases (bind_error _ _ _ _ _).mp h with h | ⟨result, u, -, h⟩
      · obtain ⟨field, -, v, hfield⟩ := mapM_error _ _ _ _ _ h
        rcases (bind_error _ _ _ _ _).mp hfield with h | ⟨a, w, -, h⟩
        · exact ⟨_, _, h⟩
        · exact absurd h (pure_ne_error _ _ _ _)
      · rcases (bind_error _ _ _ _ _).mp h with h | ⟨a, w, -, h⟩
        · exact absurd h (perform_ne_error F _ _ _ _)
        · exact absurd h (pure_ne_error _ _ _ _)
  | func func =>
    rcases (bind_error _ _ _ _ _).mp h with h | ⟨void, t, -, h⟩
    · exact absurd h (perform_ne_error F _ _ _ _)
    · rcases (bind_error _ _ _ _ _).mp h with h | ⟨types, u, -, h⟩
      · cases hproto : func.getFuncPrototype with
        | nil => rw [hproto] at h; exact absurd h (pure_ne_error _ _ _ _)
        | cons ret params =>
          rw [hproto] at h
          rcases (bind_error _ _ _ _ _).mp h with h | ⟨a, w, -, h⟩
          · exact ⟨_, _, h⟩
          · rcases (bind_error _ _ _ _ _).mp h with h | ⟨b, x, -, h⟩
            · obtain ⟨param, -, v, hparam⟩ := mapM_error _ _ _ _ _ h
              exact ⟨_, _, hparam⟩
            · exact absurd h (pure_ne_error _ _ _ _)
      · exact absurd h (makeNamed_ne_error F _ _ _ _ _)
  | element element => exact ⟨_, _, h⟩
  | array count element =>
    rcases (bind_error _ _ _ _ _).mp h with h | ⟨a, t, -, h⟩
    · exact ⟨_, _, h⟩
    · exact absurd h (makeNamed_ne_error F _ _ _ _ _)

/-! ## One level of the recursion -/

theorem findById_eq (n : Str) (st : Session σ D) :
    findById F G archi findByTypeInfo n st = match F.findByIdLocal st.factory n with
      | some d => .ok d st
      | none => match G.build n with
        | none => .error (.UnknownTypeError n) st
        | some i => carryOut F archi findByTypeInfo (G.getName i) ((G.info i).plan archi) st := by
  unfold findById
  show EStateM.bind (findByIdLocal F n) _ st = _
  unfold EStateM.bind findByIdLocal
  simp only
  cases F.findByIdLocal st.factory n with
  | some d => rfl
  | none =>
    simp only
    cases G.build n with
    | none => rfl
    | some i => simp only [parseTypeInfo_eq]; rfl

theorem findOrParse_eq (i : ι) (st : Session σ D)
    (hrec : ∀ j t n t', findByTypeInfo j t ≠ .error (.UnknownTypeError n) t') :
    findOrParse F G archi findByTypeInfo i st = match F.findByIdLocal st.factory (G.getName i) with
      | some d => .ok d st
      | none => carryOut F archi findByTypeInfo (G.getName i) ((G.info i).plan archi) st := by
  have hfound := findById_eq F G archi findByTypeInfo (G.getName i) st
  unfold findOrParse findByName
  cases hlocal : F.findByIdLocal st.factory (G.getName i) with
  | some d =>
    rw [hlocal] at hfound
    exact tryCatch_ok _ _ _ _ _ hfound
  | none =>
    rw [hlocal] at hfound
    cases hbuild : G.build (G.getName i) with
    | none =>
      rw [hbuild] at hfound
      rw [tryCatch_error _ _ _ _ _ hfound]
      simp only [parseTypeInfo_eq]
      rfl
    | some j =>
      obtain rfl : j = i := G.getName_injective j i (G.build_getName _ _ hbuild)
      rw [hbuild] at hfound
      simp only at hfound ⊢
      cases hrun : carryOut F archi findByTypeInfo (G.getName j) ((G.info j).plan archi) st with
      | ok d st' => exact tryCatch_ok _ _ _ _ _ (hfound.trans hrun)
      | error e st' =>
        rw [tryCatch_error _ _ _ _ _ (hfound.trans hrun)]
        obtain ⟨k, t, hk⟩ := carryOut_error F archi findByTypeInfo _ _ _ _ _ hrun
        cases e with
        | UnknownTypeError n => exact absurd hk (hrec k t n st')
        | stack_overflow => rfl

theorem findByTypeInfo_ne_unknown (fuel : Nat) (i : ι) (st : Session σ D) (n : Str) (st' : Session σ D) :
    TypeManager.findByTypeInfo F G archi fuel i st ≠ .error (.UnknownTypeError n) st' := by
  induction fuel generalizing i st n st' with
  | zero =>
    intro h
    exact absurd ((throw_error _ _ _ _).mp h).1 (by simp)
  | succ fuel ih =>
    rw [TypeManager.findByTypeInfo, findOrParse_eq F G archi _ i st ih]
    split
    · simp
    · intro h
      obtain ⟨k, t, hk⟩ := carryOut_error F archi _ _ _ _ _ _ h
      exact ih k t n st' hk

theorem findByTypeInfo_succ (fuel : Nat) (i : ι) (st : Session σ D) :
    TypeManager.findByTypeInfo F G archi (fuel + 1) i st = match F.findByIdLocal st.factory (G.getName i) with
      | some d => .ok d st
      | none => carryOut F archi (TypeManager.findByTypeInfo F G archi fuel) (G.getName i)
          ((G.info i).plan archi) st := by
  rw [TypeManager.findByTypeInfo]
  exact findOrParse_eq F G archi _ i st (findByTypeInfo_ne_unknown F G archi fuel)

variable {F G archi}

theorem findByTypeInfo_ok (fuel : Nat) (i : ι) (st st' : Session σ D) (d : D)
    (h : TypeManager.findByTypeInfo F G archi fuel i st = .ok d st') :
    ∃ less, fuel = less + 1 ∧
      (F.findByIdLocal st.factory (G.getName i) = some d ∧ st' = st ∨
        F.findByIdLocal st.factory (G.getName i) = none ∧
          carryOut F archi (TypeManager.findByTypeInfo F G archi less) (G.getName i) ((G.info i).plan archi) st =
            .ok d st') := by
  cases fuel with
  | zero => exact (throw_ok _ _ _ _ h).elim
  | succ less =>
    rw [findByTypeInfo_succ] at h
    refine ⟨less, rfl, ?_⟩
    cases hfind : F.findByIdLocal st.factory (G.getName i) with
    | some cached =>
      rw [hfind] at h
      simp only [EStateM.Result.ok.injEq] at h
      obtain ⟨rfl, rfl⟩ := h
      exact Or.inl ⟨rfl, rfl⟩
    | none =>
      rw [hfind] at h
      exact Or.inr ⟨rfl, h⟩

/-- What holds of a name that is found, and of a plan when it holds of the parts, holds of every conversion
that returns. -/
theorem findByTypeInfo_induction (P : ι → Session σ D → D → Session σ D → Prop)
    (hfound : ∀ i st d, F.findByIdLocal st.factory (G.getName i) = some d → P i st d st)
    (hmade : ∀ fuel i st d st', F.findByIdLocal st.factory (G.getName i) = none →
      (∀ j s e s', TypeManager.findByTypeInfo F G archi fuel j s = .ok e s' → P j s e s') →
      carryOut F archi (TypeManager.findByTypeInfo F G archi fuel) (G.getName i) ((G.info i).plan archi) st =
        .ok d st' → P i st d st')
    (fuel : Nat) (i : ι) (st st' : Session σ D) (d : D)
    (h : TypeManager.findByTypeInfo F G archi fuel i st = .ok d st') : P i st d st' := by
  induction fuel generalizing i st st' d with
  | zero => exact (throw_ok _ _ _ _ h).elim
  | succ fuel ih =>
    obtain ⟨_, hless, ⟨hfind, rfl⟩ | ⟨hfind, hcarry⟩⟩ := findByTypeInfo_ok _ _ _ _ _ h
    · exact hfound i st' d hfind
    · cases hless
      exact hmade fuel i st d st' hfind (fun j s e s' he => ih j s s' e he) hcarry

end TypeManager

end Yagi
