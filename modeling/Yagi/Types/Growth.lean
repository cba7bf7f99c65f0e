import Yagi.Types.Plan

/-!
# What a conversion leaves alone

A conversion changes no type that was there before, and sets the fields of each
struct that it makes once.
-/

open Text Effect

namespace Yagi.TypeManager

variable {σ D ι : Type} (F : TypeFactory σ D) (G : TypeGraph ι) (archi : TypeArchitecture)

def laidOut (steps : List (FactoryStep σ D)) : List D :=
  steps.filterMap fun step => match step.call with
    | .setFields _ ct _ _ => some ct
    | _ => none

theorem laidOut_append (xs ys : List (FactoryStep σ D)) : laidOut (xs ++ ys) = laidOut xs ++ laidOut ys :=
  List.filterMap_append

/-- Old types are as they were, and the structs that got their fields are new and different. -/
structure Grows (st st' : Session σ D) : Prop where
  extends_ : F.Extends st.factory st'.factory
  steps : ∃ new, st'.steps = st.steps ++ new ∧ (laidOut new).Nodup ∧
    ∀ x ∈ laidOut new, ¬ F.named st.factory x ∧ F.named st'.factory x

namespace Grows

variable {F}

theorem refl (st : Session σ D) : Grows F st st :=
  ⟨TypeFactory.Extends.refl F _, [], by simp, by simp [laidOut], by simp [laidOut]⟩

theorem trans (s t u : Session σ D) (h₁ : Grows F s t) (h₂ : Grows F t u) : Grows F s u := by
  obtain ⟨hext₁, new₁, hsteps₁, hnodup₁, hnew₁⟩ := h₁
  obtain ⟨hext₂, new₂, hsteps₂, hnodup₂, hnew₂⟩ := h₂
  refine ⟨hext₁.trans hext₂, new₁ ++ new₂, by rw [hsteps₂, hsteps₁, List.append_assoc], ?_, ?_⟩
  · rw [laidOut_append, List.nodup_append]
    refine ⟨hnodup₁, hnodup₂, ?_⟩
    rintro x hx y hy rfl
    exact (hnew₂ x hy).1 (hnew₁ x hx).2
  · intro x hx
    rw [laidOut_append, List.mem_append] at hx
    rcases hx with hx | hx
    · exact ⟨(hnew₁ x hx).1, hext₂.named x (hnew₁ x hx).2⟩
    · exact ⟨fun h => (hnew₂ x hx).1 (hext₁.named x h), (hnew₂ x hx).2⟩

end Grows

/-! ## Single calls -/

theorem after_grows (st : Session σ D) (c : TypeCall D) (hext : F.Extends st.factory (F.exec c st.factory).2)
    (hc : laidOut [⟨st.factory, c⟩] = []) : Grows F st (Session.after F st c) :=
  ⟨hext, [⟨st.factory, c⟩], rfl, by rw [hc]; exact List.nodup_nil, by rw [hc]; simp⟩

theorem laidOut_make (s : σ) (c : TypeCall D) (size : Int) (hc : F.madeSize s c = some size) :
    laidOut [(⟨s, c⟩ : FactoryStep σ D)] = [] := by
  cases c <;> simp_all [laidOut, TypeFactory.madeSize]

variable {F}

theorem makeNamed_ok (c : TypeCall D) (n : Str) (st st' : Session σ D) (d : D) (h : makeNamed F c n st = .ok d st') :
    d = (F.exec c st.factory).1 ∧ st' = Session.after F (Session.after F st c) (.setName d n) := by
  simp only [makeNamed, bind_ok, pure_ok] at h
  obtain ⟨ct, t, ht, _, u, hu, rfl, rfl⟩ := h
  simp only [perform, EStateM.Result.ok.injEq] at ht hu
  obtain ⟨rfl, rfl⟩ := ht
  exact ⟨rfl, hu.2.symm⟩

theorem make_unnamed_after (hF : F.Laws) (c : TypeCall D) (s : σ) (size : Int) (hc : F.madeSize s c = some size) :
    ¬ F.named (F.exec c s).2 (F.exec c s).1 := by
  rw [hF.make_named c s size hc]
  exact hF.make_unnamed c s size hc

theorem makeNamed_grows (hF : F.Laws) (c : TypeCall D) (n : Str) (st st' : Session σ D) (d : D) (size : Int)
    (hc : F.madeSize st.factory c = some size) (h : makeNamed F c n st = .ok d st') :
    Grows F st st' ∧ F.named st'.factory d := by
  obtain ⟨rfl, rfl⟩ := makeNamed_ok c n st st' d h
  have hunnamed := make_unnamed_after hF c st.factory size hc
  constructor
  · exact Grows.trans _ _ _ (after_grows F st c (hF.make_extends c _ size hc) (laidOut_make F _ c size hc))
      (after_grows F _ _ (hF.setName_extends _ n _ hunnamed) rfl)
  · exact (hF.setName_named _ n _ hunnamed _).mpr (Or.inr rfl)

/-! ## A struct -/

theorem parseStruct_ok (findByTypeInfo : ι → Conversion σ D D) (fields : List (TypeStructField ι)) (n : Str)
    (st st' : Session σ D) (d : D) (h : parseStruct F findByTypeInfo fields n st = .ok d st') :
    ∃ result u, d = (F.exec (.getTypeStruct n) st.factory).1 ∧
      fields.mapM (parseField findByTypeInfo) (Session.after F st (.getTypeStruct n)) = .ok result u ∧
      st' = Session.after F u (.setFields result d 0 0) := by
  simp only [parseStruct, bind_ok, pure_ok] at h
  obtain ⟨ct, t, ht, result, u, hu, _, v, hv, rfl, rfl⟩ := h
  simp only [perform, EStateM.Result.ok.injEq] at ht hv
  obtain ⟨rfl, rfl⟩ := ht
  exact ⟨result, u, rfl, hu, hv.2.symm⟩

variable {G archi} in
theorem findByTypeInfo_struct_ok (fuel : Nat) (i : ι) (infos : List (TypeStructField ι)) (st st' : Session σ D) (d : D)
    (hn : F.findByIdLocal st.factory (G.getName i) = none) (hplan : (G.info i).plan archi = .struct infos)
    (h : findByTypeInfo F G archi fuel i st = .ok d st') :
    ∃ less result u, d = (F.exec (.getTypeStruct (G.getName i)) st.factory).1 ∧
      infos.mapM (parseField (findByTypeInfo F G archi less)) (Session.after F st (.getTypeStruct (G.getName i))) =
        .ok result u ∧
      st' = Session.after F u (.setFields result d 0 0) := by
  obtain ⟨less, -, ⟨hfind, -⟩ | ⟨-, hcarry⟩⟩ := findByTypeInfo_ok _ _ _ _ _ h
  · rw [hn] at hfind
    cases hfind
  · rw [hplan] at hcarry
    exact ⟨less, parseStruct_ok _ _ _ _ _ _ hcarry⟩

theorem parseField_ok (findByTypeInfo : ι → Conversion σ D D) (info : TypeStructField ι) (st st' : Session σ D)
    (field : TypeField D) (h : parseField findByTypeInfo info st = .ok field st') :
    findByTypeInfo info.type st = .ok field.type st' ∧ field.offset = int4 info.offset ∧ field.name = info.name := by
  simp only [parseField, bind_ok, pure_ok] at h
  obtain ⟨type, t, ht, rfl, rfl⟩ := h
  exact ⟨ht, rfl, rfl⟩

theorem parsePrototype_ok (findByTypeInfo : ι → Conversion σ D D) (void : D) (prototype : List ι)
    (st st' : Session σ D) (types : D × List D) (h : parsePrototype findByTypeInfo void prototype st = .ok types st') :
    ∃ ds, prototype.mapM findByTypeInfo st = .ok ds st' := by
  cases prototype with
  | nil =>
    obtain ⟨-, rfl⟩ := (pure_ok _ _ _ _).mp h
    exact ⟨[], (mapM_nil_ok _ _ _ _).mpr ⟨rfl, rfl⟩⟩
  | cons ret params =>
    simp only [parsePrototype, bind_ok, pure_ok] at h
    obtain ⟨retType, t, hret, paramType, u, hparams, -, rfl⟩ := h
    exact ⟨retType :: paramType, (mapM_cons_ok _ _ _ _ _ _).mpr ⟨retType, paramType, t, hret, hparams, rfl⟩⟩

theorem parseFunc_ok (findByTypeInfo : ι → Conversion σ D D) (func : FuncInfo ι) (st st' : Session σ D) (d : D)
    (h : parseFunc F archi findByTypeInfo func st = .ok d st') :
    ∃ (ds : List D) (types : D × List D) (u : Session σ D),
      func.getFuncPrototype.mapM findByTypeInfo (Session.after F st .getTypeVoid) = .ok ds u ∧
      makeNamed F (.getTypeCode (archi.callingConv func.getCallingConv) types.1 types.2 func.isDotDotDot) func.getName
        u = .ok d st' := by
  obtain ⟨void, t, hvoid, hrest⟩ := (bind_ok _ _ _ _ _).mp h
  obtain ⟨types, u, htypes, hmake⟩ := (bind_ok _ _ _ _ _).mp hrest
  simp only [perform, EStateM.Result.ok.injEq] at hvoid
  obtain ⟨-, rfl⟩ := hvoid
  obtain ⟨ds, hds⟩ := parsePrototype_ok _ _ _ _ _ _ htypes
  exact ⟨ds, types, u, hds, hmake⟩

theorem struct_open (hF : F.Laws) (n : Str) (st u : Session σ D) (hn : F.findByIdLocal st.factory n = none)
    (hgrows : Grows F (Session.after F st (.getTypeStruct n)) u) :
    F.named u.factory (F.exec (.getTypeStruct n) st.factory).1 ∧
      F.isIncomplete u.factory (F.exec (.getTypeStruct n) st.factory).1 := by
  have hnamed : F.named (Session.after F st (.getTypeStruct n)).factory (F.exec (.getTypeStruct n) st.factory).1 :=
    (hF.struct_named n _ hn _).mpr (Or.inr rfl)
  refine ⟨hgrows.extends_.named _ hnamed, ?_⟩
  rw [hgrows.extends_.isIncomplete _ hnamed]
  exact hF.struct_incomplete n _ hn

theorem struct_name (hF : F.Laws) (n : Str) (st u : Session σ D) (hn : F.findByIdLocal st.factory n = none)
    (hgrows : Grows F (Session.after F st (.getTypeStruct n)) u) :
    F.getName u.factory (F.exec (.getTypeStruct n) st.factory).1 = n := by
  have hnamed : F.named (Session.after F st (.getTypeStruct n)).factory (F.exec (.getTypeStruct n) st.factory).1 :=
    (hF.struct_named n _ hn _).mpr (Or.inr rfl)
  rw [hgrows.extends_.getName _ hnamed]
  exact hF.struct_getName n _ hn

theorem extends_setFields (hF : F.Laws) (s₀ : σ) (ct : D) (fields : List (TypeField D)) (s : σ)
    (hext : F.Extends s₀ s) (hnew : ¬ F.named s₀ ct) (hct : F.named s ct) (hopen : F.isIncomplete s ct) :
    F.Extends s₀ (F.exec (.setFields fields ct 0 0) s).2 := by
  have hother : ∀ x, F.named s₀ x → x ≠ ct := by
    rintro x hx rfl
    exact hnew hx
  refine ⟨?_, ?_, ?_, ?_, ?_⟩
  · intro x hx
    exact (hF.fields_named fields ct _ hct hopen x).mpr (hext.named x hx)
  · intro x hx
    exact (hF.fields_getName fields ct _ hct hopen x (hext.named x hx)).trans (hext.getName x hx)
  · intro x hx
    exact (hF.fields_other_getSize fields ct _ hct hopen x (hext.named x hx) (hother x hx)).trans (hext.getSize x hx)
  · intro x hx
    exact (hF.fields_other_complete fields ct _ hct hopen x (hext.named x hx) (hother x hx)).trans
      (hext.isIncomplete x hx)
  · intro n hn
    exact hF.fields_found fields ct _ hct hopen n (hext.found n hn)

theorem struct_grows (hF : F.Laws) (n : Str) (st u : Session σ D) (result : List (TypeField D))
    (hn : F.findByIdLocal st.factory n = none) (hgrows : Grows F (Session.after F st (.getTypeStruct n)) u) :
    Grows F st (Session.after F u (.setFields result (F.exec (.getTypeStruct n) st.factory).1 0 0)) ∧
      F.named (Session.after F u (.setFields result (F.exec (.getTypeStruct n) st.factory).1 0 0)).factory
        (F.exec (.getTypeStruct n) st.factory).1 := by
  obtain ⟨hnamed, hopen⟩ := struct_open hF n st u hn hgrows
  have hnew := hF.struct_unnamed n _ hn
  have hext := (hF.struct_extends n _ hn).trans hgrows.extends_
  have hfields_named := hF.fields_named result _ _ hnamed hopen
  refine ⟨⟨extends_setFields hF _ _ result _ hext hnew hnamed hopen, ?_⟩, (hfields_named _).mpr hnamed⟩
  · obtain ⟨new, hsteps, hnodup, hfresh⟩ := hgrows.steps
    refine ⟨⟨st.factory, .getTypeStruct n⟩ :: new ++
      [⟨u.factory, .setFields result (F.exec (.getTypeStruct n) st.factory).1 0 0⟩], ?_, ?_, ?_⟩
    · simp [Session.after, hsteps]
    · rw [laidOut_append, List.nodup_append]
      refine ⟨hnodup, by simp [laidOut], ?_⟩
      rintro x hx y hy rfl
      rw [laidOut] at hy
      simp only [List.filterMap_cons, List.filterMap_nil, List.mem_singleton] at hy
      subst hy
      exact (hfresh _ hx).1 ((hF.struct_named n _ hn _).mpr (Or.inr rfl))
    · intro x hx
      rw [laidOut_append, List.mem_append] at hx
      rcases hx with hx | hx
      · refine ⟨fun h => (hfresh x hx).1 ((hF.struct_extends n _ hn).named x h), ?_⟩
        exact (hfields_named x).mpr (hfresh x hx).2
      · rw [laidOut] at hx
        simp only [List.filterMap_cons, List.filterMap_nil, List.mem_singleton] at hx
        subst hx
        exact ⟨hnew, (hfields_named _).mpr hnamed⟩

/-! ## A conversion -/

variable {G archi}

theorem mapM_grows {α β : Type} (f : α → Conversion σ D β) (xs : List α) (st st' : Session σ D) (ys : List β)
    (hf : ∀ x ∈ xs, ∀ s y s', f x s = .ok y s' → Grows F s s') (h : xs.mapM f st = .ok ys st') : Grows F st st' :=
  (mapM_ok f (fun _ => True) (Grows F) (fun _ _ _ => True) Grows.refl Grows.trans (fun _ _ _ _ => trivial)
    (fun _ _ _ _ _ _ => trivial) xs (fun x hx s y s' _ hy => ⟨hf x hx s y s' hy, trivial⟩) st st' ys trivial h).1

theorem parseFields_grows (findByTypeInfo : ι → Conversion σ D D) (infos : List (TypeStructField ι))
    (st st' : Session σ D) (result : List (TypeField D)) (hrec : ∀ i s d s', findByTypeInfo i s = .ok d s' → Grows F s s')
    (h : infos.mapM (parseField findByTypeInfo) st = .ok result st') : Grows F st st' := by
  refine mapM_grows _ infos st st' result ?_ h
  intro info _ s field s' hfield
  exact hrec _ _ _ _ (parseField_ok _ _ _ _ _ hfield).1

theorem madeSize_base (s : σ) (base : BaseType) : F.madeSize s base.call = some base.size := by
  cases base <;> rfl

theorem carryOut_grows (hF : F.Laws) (findByTypeInfo : ι → Conversion σ D D) (name : Str) (plan : Plan ι)
    (st st' : Session σ D) (d : D) (hn : F.findByIdLocal st.factory name = none)
    (hrec : ∀ i s d s', findByTypeInfo i s = .ok d s' → Grows F s s' ∧ F.named s'.factory d)
    (h : carryOut F archi findByTypeInfo name plan st = .ok d st') : Grows F st st' ∧ F.named st'.factory d := by
  have hgrows := fun i s d s' h => (hrec i s d s' h).1
  cases plan with
  | make base => exact makeNamed_grows hF _ _ _ _ _ _ (madeSize_base _ base) h
  | pointer pointed =>
    obtain ⟨pointee, t, hpointee, hmake⟩ := (bind_ok _ _ _ _ _).mp h
    obtain ⟨hmakeGrows, hnamed⟩ := makeNamed_grows hF _ _ _ _ _ _ rfl hmake
    exact ⟨Grows.trans _ _ _ (hgrows _ _ _ _ hpointee) hmakeGrows, hnamed⟩
  | struct fields =>
    obtain ⟨result, u, rfl, hfields, rfl⟩ := parseStruct_ok _ _ _ _ _ _ h
    exact struct_grows hF name st u result hn (parseFields_grows _ fields _ u result hgrows hfields)
  | func func =>
    obtain ⟨ds, types, u, hds, hmake⟩ := parseFunc_ok archi _ _ _ _ _ h
    obtain ⟨hmakeGrows, hnamed⟩ := makeNamed_grows hF _ _ _ _ _ _ rfl hmake
    have hvoidGrows := after_grows F st .getTypeVoid (hF.void_extends _) rfl
    have htypesGrow := mapM_grows _ _ _ _ _ (fun j _ => hgrows j) hds
    exact ⟨Grows.trans _ _ _ hvoidGrows (Grows.trans _ _ _ htypesGrow hmakeGrows), hnamed⟩
  | element inner => exact hrec _ _ _ _ h
  | array count inner =>
    obtain ⟨element, t, helement, hmake⟩ := (bind_ok _ _ _ _ _).mp h
    obtain ⟨hmakeGrows, hnamed⟩ := makeNamed_grows hF _ _ _ _ _ _ rfl hmake
    exact ⟨Grows.trans _ _ _ (hgrows _ _ _ _ helement) hmakeGrows, hnamed⟩

/-- **Growth.** A conversion that returns has grown the session. -/
theorem findByTypeInfo_grows (hF : F.Laws) (fuel : Nat) (i : ι) (st st' : Session σ D) (d : D)
    (h : findByTypeInfo F G archi fuel i st = .ok d st') : Grows F st st' ∧ F.named st'.factory d := by
  refine findByTypeInfo_induction (fun _ st d st' => Grows F st st' ∧ F.named st'.factory d) ?_ ?_ fuel i st st' d h
  · intro i st d hfind
    exact ⟨Grows.refl st, (hF.found_named _ _ _ hfind).1⟩
  · intro fuel i st d st' hfind hrec hcarry
    exact carryOut_grows hF _ _ _ _ _ _ hfind hrec hcarry

end Yagi.TypeManager
