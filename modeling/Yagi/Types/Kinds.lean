import Yagi.Types.DetailTable

/-!
# What the cache holds under a name

A name that is no core name stands for a type that was made for its type info. The
names of the core types stand for the core types, whatever the type info.
-/

open Text Effect

namespace Yagi

def BaseType.metatype : BaseType → DatatypeMeta
  | .base _ metatype _ => .of metatype
  | .unicode _ _ metatype => .of metatype
  | .char _ => .of .TYPE_INT

theorem BaseType.call_metatype {D : Type} (base : BaseType) :
    (base.call : TypeCall D).metatype = some base.metatype := by
  cases base <;> rfl

namespace TypeManager

variable {σ D ι : Type} (F : TypeFactory σ D) (T : TypeDetails σ D) (G : TypeGraph ι) (archi : TypeArchitecture)
  (s₀ : σ)

/-- `d` looks as `i` does, where `i` is made in one call or is a struct. -/
structure Kinded (i : ι) (s : σ) (d : D) : Prop where
  base : ∀ base, (G.info i).plan archi = .make base →
    T.getMetatype s d = base.metatype ∧ F.getSize s d = base.size ∧ F.isIncomplete s d = false
  struct : ((G.info i).plan archi).isStruct → T.getMetatype s d = .TYPE_STRUCT

/-- Every type is a core type, or was made for a type info without a core name. -/
structure Typed (st : Session σ D) : Prop where
  extends_ : F.Extends s₀ st.factory
  core : ∀ d, F.named s₀ d → T.getMetatype st.factory d = T.getMetatype s₀ d
  kinded : ∀ d, F.named st.factory d → F.named s₀ d ∨ ∃ i, F.findByIdLocal s₀ (G.getName i) = none ∧
    F.getName st.factory d = G.getName i ∧ Kinded F T G archi i st.factory d

variable {F T G archi s₀}

theorem Typed.grow (st st' : Session σ D) (hst : Typed F T G archi s₀ st) (hext : F.Extends s₀ st'.factory)
    (hmeta : ∀ x, F.named st.factory x → T.getMetatype st'.factory x = T.getMetatype st.factory x)
    (hnew : ∀ x, F.named st'.factory x →
      (F.named st.factory x ∧ F.getName st'.factory x = F.getName st.factory x ∧
        (F.isIncomplete st.factory x = false →
          F.getSize st'.factory x = F.getSize st.factory x ∧ F.isIncomplete st'.factory x = false)) ∨
      ∃ i, F.findByIdLocal s₀ (G.getName i) = none ∧ F.getName st'.factory x = G.getName i ∧
        Kinded F T G archi i st'.factory x) : Typed F T G archi s₀ st' := by
  refine ⟨hext, ?_, ?_⟩
  · intro d hd
    exact (hmeta d (hst.extends_.named d hd)).trans (hst.core d hd)
  · intro d hd
    rcases hnew d hd with ⟨hold, hname, hcomplete⟩ | hmade
    · rcases hst.kinded d hold with hcore | ⟨i, hi, hdi, hkind⟩
      · exact Or.inl hcore
      · refine Or.inr ⟨i, hi, hname.trans hdi, ?_, ?_⟩
        · intro base hplan
          obtain ⟨hmetatype, hsize, hdone⟩ := hkind.base base hplan
          obtain ⟨hsize', hdone'⟩ := hcomplete hdone
          exact ⟨(hmeta d hold).trans hmetatype, hsize'.trans hsize, hdone'⟩
        · intro hstruct
          exact (hmeta d hold).trans (hkind.struct hstruct)
    · exact Or.inr hmade

theorem Typed.extend (st st' : Session σ D) (hst : Typed F T G archi s₀ st) (hext : F.Extends st.factory st'.factory)
    (hmeta : ∀ x, F.named st.factory x → T.getMetatype st'.factory x = T.getMetatype st.factory x)
    (hnew : ∀ x, F.named st'.factory x → ¬ F.named st.factory x →
      ∃ i, F.findByIdLocal s₀ (G.getName i) = none ∧ F.getName st'.factory x = G.getName i ∧
        Kinded F T G archi i st'.factory x) : Typed F T G archi s₀ st' := by
  refine Typed.grow st st' hst (hst.extends_.trans hext) hmeta ?_
  intro x hx
  by_cases hold : F.named st.factory x
  · exact Or.inl ⟨hold, hext.getName x hold, fun h => ⟨hext.getSize x hold, (hext.isIncomplete x hold).trans h⟩⟩
  · exact Or.inr (hnew x hx hold)

theorem makeNamed_typed (hF : F.Laws) (hT : T.Laws F) (i : ι) (c : TypeCall D) (size : Int) (st st' : Session σ D)
    (d : D) (hst : Typed F T G archi s₀ st) (hi : F.findByIdLocal s₀ (G.getName i) = none)
    (hc : Makes archi ((G.info i).plan archi) c) (hsize : F.madeSize st.factory c = some size)
    (h : makeNamed F c (G.getName i) st = .ok d st') : Typed F T G archi s₀ st' := by
  obtain ⟨hgrows, -⟩ := makeNamed_grows hF c _ st st' d size hsize h
  obtain ⟨rfl, rfl⟩ := makeNamed_ok c _ st st' d h
  have hunnamed := make_unnamed_after hF c st.factory size hsize
  refine Typed.extend st _ hst hgrows.extends_ ?_ ?_
  · intro x hx
    have hmade := (hF.make_named c _ size hsize x).mpr hx
    exact (hT.named_metatype (.setName _ _) _ x hmade).trans (hT.named_metatype c _ x hx)
  · intro x hx hold
    obtain rfl : x = (F.exec c st.factory).1 := by
      refine ((hF.setName_named _ (G.getName i) _ hunnamed x).mp hx).resolve_left ?_
      rwa [hF.make_named c _ size hsize]
    refine ⟨i, hi, hF.setName_getName _ _ _ hunnamed, ?_, ?_⟩
    · intro base hplan
      rw [hplan] at hc
      cases hc
      rw [madeSize_base] at hsize
      cases hsize
      refine ⟨?_, ?_, ?_⟩
      · exact (hT.setName_metatype _ _ _).trans (hT.make_metatype _ _ _ base.call_metatype)
      · exact (hF.setName_getSize _ _ _ hunnamed).trans (hF.make_getSize _ _ _ (madeSize_base _ base))
      · exact (hF.setName_complete _ _ _ hunnamed).trans (hF.make_complete _ _ _ (madeSize_base _ base))
    · intro hstruct
      cases hplan : (G.info i).plan archi with
      | struct infos => rw [hplan] at hc; cases hc
      | _ => rw [hplan] at hstruct; simp [Plan.isStruct] at hstruct

theorem getTypeStruct_typed (hF : F.Laws) (hT : T.Laws F) (i : ι) (infos : List (TypeStructField ι)) (st : Session σ D)
    (hst : Typed F T G archi s₀ st) (hi : F.findByIdLocal s₀ (G.getName i) = none)
    (hplan : (G.info i).plan archi = .struct infos) (hn : F.findByIdLocal st.factory (G.getName i) = none) :
    Typed F T G archi s₀ (Session.after F st (.getTypeStruct (G.getName i))) := by
  refine Typed.extend st _ hst (hF.struct_extends _ _ hn) (fun x hx => hT.named_metatype _ _ x hx) ?_
  intro x hx hold
  obtain rfl := ((hF.struct_named _ _ hn x).mp hx).resolve_left hold
  refine ⟨i, hi, hF.struct_getName _ _ hn, ?_, ?_⟩
  · intro base hbase
    rw [hplan] at hbase
    cases hbase
  · intro _
    exact hT.struct_metatype _ _ hn

theorem setFields_typed (hF : F.Laws) (hT : T.Laws F) (ct : D) (fields : List (TypeField D)) (st : Session σ D)
    (hst : Typed F T G archi s₀ st) (hnew : ¬ F.named s₀ ct) (hct : F.named st.factory ct)
    (hopen : F.isIncomplete st.factory ct) : Typed F T G archi s₀ (Session.after F st (.setFields fields ct 0 0)) := by
  refine Typed.grow st _ hst (extends_setFields hF s₀ ct fields st.factory hst.extends_ hnew hct hopen)
    (fun x hx => hT.named_metatype _ _ x hx) ?_
  intro x hx
  have hx' := (hF.fields_named fields ct _ hct hopen x).mp hx
  refine Or.inl ⟨hx', hF.fields_getName fields ct _ hct hopen x hx', fun hdone => ?_⟩
  -- The struct that gets its fields is not complete.
  have hne : x ≠ ct := by
    rintro rfl
    exact absurd (hopen.symm.trans hdone) (by decide)
  exact ⟨hF.fields_other_getSize fields ct _ hct hopen x hx' hne,
    (hF.fields_other_complete fields ct _ hct hopen x hx' hne).trans hdone⟩

theorem typed_invariant (hF : F.Laws) (hT : T.Laws F) : Invariant F G archi s₀ (Typed F T G archi s₀) where
  extends_ _ hst := hst.extends_
  make i c size st st' d hst hi hc hsize h := makeNamed_typed hF hT i c size st st' d hst hi hc hsize h
  void st hst := Typed.extend st _ hst (hF.void_extends _) (fun x hx => hT.named_metatype _ _ x hx)
    fun x hx hold => absurd ((hF.void_named _ x).mp hx) hold
  struct i infos st hst hi hplan hn := getTypeStruct_typed hF hT i infos st hst hi hplan hn
  fields _ _ ct fields st hst _ _ hnew hct hopen _ _ := setFields_typed hF hT ct fields st hst hnew hct hopen

/-! ## What a request gives -/

theorem typed_start : Typed F T G archi s₀ ⟨s₀, []⟩ :=
  ⟨TypeFactory.Extends.refl F _, fun _ _ => rfl, fun _ hd => Or.inl hd⟩

/-- What the type of a type info should be. -/
structure RightType (F : TypeFactory σ D) (T : TypeDetails σ D) (G : TypeGraph ι) (archi : TypeArchitecture) (i : ι)
    (s : σ) (d : D) : Prop where
  core : ∀ core ∈ coreTable, core.name = G.getName i → T.getMetatype s d = core.metatype ∧ F.getSize s d = core.size.toInt
  base : (∀ core ∈ coreTable, core.name ≠ G.getName i) → ∀ base, (G.info i).plan archi = .make base →
    T.getMetatype s d = base.metatype ∧ F.getSize s d = base.size
  struct : (∀ core ∈ coreTable, core.name ≠ G.getName i) → ((G.info i).plan archi).isStruct →
    T.getMetatype s d = .TYPE_STRUCT

theorem coreTable_nodup : (coreTable.map (·.name)).Nodup := by decide

theorem buildTypegrp_registers (hF : F.Laws) (hC : T.CoreLaws F) (blank : σ) (hblank : ∀ x, ¬ F.named blank x) :
    Registers T F coreTable blank (buildTypegrp T blank) := by
  refine setCoreTypes_registers T F hF hC coreTable coreTable_nodup blank fun core _ => ?_
  cases h : F.findByIdLocal blank core.name with
  | none => rfl
  | some d => exact absurd (hF.found_named _ _ _ h).1 (hblank d)

theorem rightType_of_typed (hF : F.Laws) (hC : T.CoreLaws F) (blank : σ) (hblank : ∀ x, ¬ F.named blank x) (i : ι)
    (st : Session σ D) (d : D) (hst : Typed F T G archi (buildTypegrp T blank) st)
    (hd : Bears F G archi (buildTypegrp T blank) i d st.factory) : RightType F T G archi i st.factory d := by
  have hR := buildTypegrp_registers hF hC blank hblank
  obtain ⟨hnamed, hname⟩ := hd
  -- A core type is registered under its own name.
  have hcoreName : F.named (buildTypegrp T blank) d → ∃ core ∈ coreTable,
      F.findByIdLocal (buildTypegrp T blank) core.name = some d ∧ core.name = F.getName st.factory d := by
    intro hd
    obtain ⟨core, hcore, hfound⟩ := (hR.named d hd).resolve_left (hblank d)
    exact ⟨core, hcore, hfound, (hF.found_named _ _ _ hfound).2.symm.trans (hst.extends_.getName d hd).symm⟩
  have hmade : (∀ core ∈ coreTable, core.name ≠ G.getName i) →
      (∀ inner, (G.info i).plan archi ≠ .element inner) → Kinded F T G archi i st.factory d := by
    intro hnot hplan
    have hdi := hname (Or.inl hplan)
    rcases hst.kinded d hnamed with hd | ⟨j, -, hj, hkind⟩
    · obtain ⟨core, hcore, -, heq⟩ := hcoreName hd
      exact absurd (heq.trans hdi) (hnot core hcore)
    · obtain rfl : j = i := G.getName_injective j i (hj.symm.trans hdi)
      exact hkind
  refine ⟨?_, ?_, ?_⟩
  · intro core hcore hi
    obtain ⟨e, hfound, hsize, hmeta⟩ := hR.core core hcore
    have hdi := hname (Or.inr (by rw [← hi, hfound]; simp))
    rcases hst.kinded d hnamed with hd | ⟨j, hj, hdj, -⟩
    · obtain ⟨core', hcore', hfound', heq⟩ := hcoreName hd
      rw [heq.trans (hdi.trans hi.symm), hfound] at hfound'
      cases hfound'
      exact ⟨(hst.core d hd).trans hmeta, (hst.extends_.getSize d hd).trans hsize⟩
    · rw [← hdj, hdi, ← hi, hfound] at hj
      cases hj
  · intro hnot base hplan
    obtain ⟨hmetatype, hsize, -⟩ := (hmade hnot (by rw [hplan]; simp)).base base hplan
    exact ⟨hmetatype, hsize⟩
  · intro hnot hstruct
    refine (hmade hnot ?_).struct hstruct
    rintro inner hplan
    rw [hplan] at hstruct
    simp [Plan.isStruct] at hstruct

/-- **The cache is sound.** A request gives the core type where the name is a core name. Else a scalar has the
metatype and the size of its type info, and a struct is a struct. -/
theorem cached_types_sound (hF : F.Laws) (hT : T.Laws F) (hC : T.CoreLaws F) (blank : σ)
    (hblank : ∀ x, ¬ F.named blank x) (fuel : Nat) (requests : List ι) (st : Session σ D) (ds : List D)
    (h : convert F G archi fuel requests ⟨buildTypegrp T blank, []⟩ = .ok ds st) :
    List.Forall₂ (fun i d => RightType F T G archi i st.factory d) requests ds := by
  have hI : Invariant F G archi (buildTypegrp T blank) (Typed F T G archi (buildTypegrp T blank)) :=
    typed_invariant hF hT
  obtain ⟨-, hst, hds⟩ := mapM_keeps (Typed F T G archi (buildTypegrp T blank)) _
    (Bears F G archi (buildTypegrp T blank)) requests (fun i d s t => Bears.extend i d s t) (fun i _ s d s' hs hd =>
      ⟨(findByTypeInfo_grows hF fuel i s s' d hd).1, hI.findByTypeInfo hF fuel i s s' d hs hd,
        findByTypeInfo_bears hF fuel i s s' d hs.extends_ hd⟩) _ st ds typed_start h
  exact hds.imp fun i d hd => rightType_of_typed hF hC blank hblank i st d hst hd

theorem cached_types_sound_linked :
    ∃ ds st, convert DetailTable.factory linked archi64 20 [1, 3] coreSession = .ok ds st ∧
      List.Forall₂ (fun i d => RightType DetailTable.factory DetailTable.typeDetails linked archi64 i st.factory d)
        [1, 3] ds := by
  obtain ⟨ds, st, h⟩ : ∃ ds st, convert DetailTable.factory linked archi64 20 [1, 3] coreSession = .ok ds st :=
    ⟨_, _, rfl⟩
  exact ⟨ds, st, h, cached_types_sound DetailTable.laws DetailTable.details_laws DetailTable.core_laws
    DetailTable.blank DetailTable.blank_named 20 [1, 3] st ds h⟩

/-- An integer and a struct get the core types of their names. -/
theorem core_names_win :
    (namesakes.info 0).plan archi64 = .make (.base 1 .TYPE_INT (ascii "uint8_t")) ∧
      ((namesakes.info 1).plan archi64).isStruct ∧
      ∃ d e st, convert DetailTable.factory namesakes archi64 20 [0, 1] coreSession = .ok [d, e] st ∧
        DetailTable.typeDetails.getMetatype st.factory d = .TYPE_UINT ∧
        DetailTable.typeDetails.getMetatype st.factory e = .TYPE_CODE ∧
        DetailTable.factory.getSize st.factory e = 1 := by
  refine ⟨rfl, rfl, _, _, _, rfl, ?_, ?_, ?_⟩ <;> decide +kernel

end TypeManager

end Yagi
