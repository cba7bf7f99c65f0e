import Mathlib.Order.Bounds.Basic
import Yagi.Types.Kinds
import Yagi.Types.Requests
import Yagi.Types.Termination

/-!
# The size of a struct

`setFields` is given no size, so that a struct ends where the last of its fields ends.
-/

open Text Effect

namespace Yagi

theorem foldl_max_isGreatest (xs : List Int) (a : Int) : IsGreatest {x | x = a ∨ x ∈ xs} (xs.foldl max a) := by
  induction xs generalizing a with
  | nil => exact ⟨Or.inl rfl, by rintro x (rfl | hx); exacts [le_rfl, absurd hx List.not_mem_nil]⟩
  | cons y xs ih =>
    obtain ⟨hmem, hle⟩ := ih (max a y)
    refine ⟨?_, ?_⟩
    · rcases hmem with hmem | hmem
      · rcases max_choice a y with h | h
        · exact Or.inl (hmem.trans h)
        · exact Or.inr (List.mem_cons.mpr (Or.inl (hmem.trans h)))
      · exact Or.inr (List.mem_cons_of_mem _ hmem)
    · have hstart : max a y ≤ xs.foldl max (max a y) := hle (Or.inl rfl)
      rintro x (rfl | hx)
      · exact (le_max_left _ _).trans hstart
      · rcases List.mem_cons.mp hx with rfl | hx
        · exact (le_max_right _ _).trans hstart
        · exact hle (Or.inr hx)

section

variable {σ D ι : Type} (F : TypeFactory σ D) (G : TypeGraph ι) (archi : TypeArchitecture) (s₀ : σ)

/-- Scalars, pointers, and structs of such types. -/
inductive Composed : ι → Prop where
  | make (i : ι) (base : BaseType) (hplan : (G.info i).plan archi = .make base) : Composed i
  | pointer (i pointed : ι) (hplan : (G.info i).plan archi = .pointer pointed) : Composed i
  | struct (i : ι) (infos : List (TypeStructField ι)) (hplan : (G.info i).plan archi = .struct infos)
    (hfields : ∀ info ∈ infos, Composed info.type) : Composed i

/-- `EndsAt i e`: a scalar or a pointer in the type of `i`, at any depth, ends at the byte `e`, or a struct
starts there. -/
inductive EndsAt : ι → Int → Prop where
  | core (i : ι) (d : D) (h : F.findByIdLocal s₀ (G.getName i) = some d) : EndsAt i (F.getSize s₀ d)
  | make (i : ι) (base : BaseType) (h : F.findByIdLocal s₀ (G.getName i) = none)
    (hplan : (G.info i).plan archi = .make base) : EndsAt i base.size
  | pointer (i pointed : ι) (h : F.findByIdLocal s₀ (G.getName i) = none)
    (hplan : (G.info i).plan archi = .pointer pointed) : EndsAt i archi.getAddrSize.toInt32.toInt
  | start (i : ι) (h : F.findByIdLocal s₀ (G.getName i) = none) (hplan : ((G.info i).plan archi).isStruct) :
    EndsAt i 0
  | field (i : ι) (infos : List (TypeStructField ι)) (info : TypeStructField ι) (e : Int)
    (h : F.findByIdLocal s₀ (G.getName i) = none) (hplan : (G.info i).plan archi = .struct infos)
    (hinfo : info ∈ infos) (he : EndsAt info.type e) : EndsAt i ((int4 info.offset).toInt + e)

variable {F G archi s₀}

theorem Lists.offset (infos : List (TypeStructField ι)) (fields : List FieldLayout) (h : Lists infos fields) (k : Nat) :
    fields[k]?.map (·.offset) = infos[k]?.map fun info => int4 info.offset := by
  have hk := congrArg (fun pairs => pairs[k]?.map Prod.fst) h
  simpa [List.getElem?_map, Option.map_map, Function.comp_def] using hk

theorem layoutSize_isGreatest (i : ι) (infos : List (TypeStructField ι)) (fields : List FieldLayout)
    (h : F.findByIdLocal s₀ (G.getName i) = none) (hplan : (G.info i).plan archi = .struct infos)
    (hlists : Lists infos fields)
    (hends : ∀ (k : Nat) (info : TypeStructField ι) (field : FieldLayout), infos[k]? = some info →
      fields[k]? = some field → IsGreatest {e | EndsAt F G archi s₀ info.type e} field.size) :
    IsGreatest {e | EndsAt F G archi s₀ i e} (layoutSize fields) := by
  obtain ⟨hmem, hle⟩ := foldl_max_isGreatest (fields.map fun field => field.offset.toInt + field.size) 0
  refine ⟨?_, ?_⟩
  · rcases hmem with hmem | hmem
    · show EndsAt F G archi s₀ i (List.foldl max 0 _)
      rw [hmem]
      exact EndsAt.start i h (by rw [hplan]; rfl)
    · obtain ⟨field, hfield, heq⟩ := List.mem_map.mp hmem
      obtain ⟨k, hk⟩ := List.getElem?_of_mem hfield
      have hoffsets := hlists.offset infos fields k
      rw [hk] at hoffsets
      obtain ⟨info, hinfo, (hoffset : int4 info.offset = field.offset)⟩ := Option.map_eq_some_iff.mp hoffsets.symm
      show EndsAt F G archi s₀ i (List.foldl max 0 _)
      rw [← heq, ← hoffset]
      exact EndsAt.field i infos info _ h hplan (List.mem_of_getElem? hinfo) (hends k info field hinfo hk).1
  · intro e he
    cases he with
    | start => exact hle (Or.inl rfl)
    | field _ infos' info e _ hplan' hinfo he =>
      rw [hplan] at hplan'
      cases hplan'
      obtain ⟨k, hk⟩ := List.getElem?_of_mem hinfo
      have hoffsets := hlists.offset infos fields k
      rw [hk] at hoffsets
      obtain ⟨field, hfield, (hoffset : field.offset = int4 info.offset)⟩ := Option.map_eq_some_iff.mp hoffsets
      have hsize : e ≤ field.size := (hends k info field hk hfield).2 he
      have hfold : field.offset.toInt + field.size ≤ layoutSize fields :=
        hle (Or.inr (List.mem_map_of_mem (f := fun field : FieldLayout => field.offset.toInt + field.size)
          (List.mem_of_getElem? hfield)))
      rw [← hoffset]
      omega
    | core _ d hd => rw [h] at hd; cases hd
    | make _ base _ hplan' => rw [hplan] at hplan'; cases hplan'
    | pointer _ pointed _ hplan' => rw [hplan] at hplan'; cases hplan'

theorem Shape.isGreatest (i : ι) (n : Str) (z : Int) (h : Shape F G archi s₀ i n z) (hi : Composed G archi i) :
    IsGreatest {e | EndsAt F G archi s₀ i e} z := by
  induction h with
  | core i d hd =>
    refine ⟨EndsAt.core i d hd, ?_⟩
    intro e he
    cases he with
    | core _ d' hd' =>
      rw [hd] at hd'
      cases hd'
      exact le_rfl
    | _ => simp_all
  | make i base hn hplan =>
    refine ⟨EndsAt.make i base hn hplan, ?_⟩
    intro e he
    cases he with
    | make _ base' _ hplan' =>
      rw [hplan] at hplan'
      cases hplan'
      exact le_rfl
    | _ => simp_all [Plan.isStruct]
  | pointer i pointed hn hplan =>
    refine ⟨EndsAt.pointer i pointed hn hplan, ?_⟩
    intro e he
    cases he with
    | pointer => exact le_rfl
    | _ => simp_all [Plan.isStruct]
  | struct i infos fields hn hplan hlists hfields ih =>
    cases hi with
    | struct _ infos' hplan' hcomposed =>
      rw [hplan] at hplan'
      cases hplan'
      exact layoutSize_isGreatest i infos fields hn hplan hlists fun k info field hk hfield =>
        ih k info field hk hfield (hcomposed info (List.mem_of_getElem? hk))
    | _ => simp_all
  | func i func hn hplan => cases hi <;> simp_all
  | element i inner n z hn hplan => cases hi <;> simp_all
  | array i count inner n z hn hplan => cases hi <;> simp_all

end

namespace TypeManager

variable {σ D ι : Type} {F : TypeFactory σ D} {T : TypeDetails σ D} {G : TypeGraph ι} {archi : TypeArchitecture}

theorem buildTypegrp_fresh (hF : F.Laws) (hC : T.CoreLaws F) (blank : σ) (hblank : ∀ x, ¬ F.named blank x) :
    Fresh F (buildTypegrp T blank) := by
  intro d hd
  obtain ⟨core, -, hfound⟩ := ((buildTypegrp_registers hF hC blank hblank).named d hd).resolve_left (hblank d)
  rw [(hF.found_named _ _ _ hfound).2]
  exact hfound

theorem buildTypegrp_other (hF : F.Laws) (hC : T.CoreLaws F) (blank : σ) (hblank : ∀ x, ¬ F.named blank x) (n : Str)
    (hn : ∀ core ∈ coreTable, core.name ≠ n) : F.findByIdLocal (buildTypegrp T blank) n = none := by
  rw [(buildTypegrp_registers hF hC blank hblank).other n hn]
  cases h : F.findByIdLocal blank n with
  | none => rfl
  | some d => exact absurd (hF.found_named _ _ _ h).1 (hblank d)

theorem coreTable_no_struct : ∀ core ∈ coreTable, core.metatype ≠ .TYPE_STRUCT := by decide

/-- `d` is a struct, and has as many bytes as `i`. -/
structure KeepsSize (F : TypeFactory σ D) (T : TypeDetails σ D) (G : TypeGraph ι) (i : ι) (state : σ) (d : D) :
    Prop where
  metatype : T.getMetatype state d = .TYPE_STRUCT
  size : F.getSize state d = (G.info i).getSize.toNat

theorem struct_complete (hF : F.Laws) (fuel : Nat) (i : ι) (infos : List (TypeStructField ι)) (st st' : Session σ D)
    (d : D) (hn : F.findByIdLocal st.factory (G.getName i) = none) (hplan : (G.info i).plan archi = .struct infos)
    (h : findByTypeInfo F G archi fuel i st = .ok d st') : F.isIncomplete st'.factory d = false := by
  obtain ⟨less, result, u, rfl, hfields, rfl⟩ := findByTypeInfo_struct_ok fuel i infos st st' d hn hplan h
  have hgrows := parseFields_grows _ infos _ u result
    (fun j s e s' he => (findByTypeInfo_grows hF less j s s' e he).1) hfields
  obtain ⟨hnamed, hopen⟩ := struct_open hF _ st u hn hgrows
  exact hF.fields_complete result _ _ hnamed hopen

theorem struct_ends (hF : F.Laws) (s₀ : σ) (hs₀ : Fresh F s₀) (i : ι) (hi : Composed G archi i)
    (hstruct : ((G.info i).plan archi).isStruct) (hn : F.findByIdLocal s₀ (G.getName i) = none) (fuel : Nat)
    (st : Session σ D) (d : D) (h : findByTypeInfo F G archi fuel i ⟨s₀, []⟩ = .ok d st)
    (hwhole : ∀ step ∈ st.steps, Whole F step) :
    IsGreatest {e | EndsAt F G archi s₀ i e} (F.getSize st.factory d) := by
  obtain ⟨hst, hd⟩ := findByTypeInfo_sound hF fuel i _ st d (fresh_sound hs₀) h
  cases hplan : (G.info i).plan archi with
  | struct infos =>
    have hshape := hd.shape i _ d (hst.whole hwhole).1 (struct_complete hF fuel i infos _ st d hn hplan h)
    exact Shape.isGreatest i _ _ hshape hi
  | _ => simp [hplan, Plan.isStruct] at hstruct

/-! ## An upper bound -/

/-- Every type of a composed type info ends no later than the last thing in it, also where an incomplete type was
taken in. -/
structure Below (F : TypeFactory σ D) (G : TypeGraph ι) (archi : TypeArchitecture) (s₀ : σ) (st : Session σ D) :
    Prop where
  extends_ : F.Extends s₀ st.factory
  below : ∀ x, F.named st.factory x → ∀ i, Composed G archi i → G.getName i = F.getName st.factory x →
    ∃ e, EndsAt F G archi s₀ i e ∧ F.getSize st.factory x ≤ e

theorem Below.extend (s₀ : σ) (st st' : Session σ D) (hst : Below F G archi s₀ st)
    (hext : F.Extends st.factory st'.factory)
    (hnew : ∀ x, F.named st'.factory x → ¬ F.named st.factory x → ∀ i, Composed G archi i →
      G.getName i = F.getName st'.factory x → ∃ e, EndsAt F G archi s₀ i e ∧ F.getSize st'.factory x ≤ e) :
    Below F G archi s₀ st' := by
  refine ⟨hst.extends_.trans hext, ?_⟩
  intro x hx i hi hname
  by_cases hold : F.named st.factory x
  · rw [hext.getSize x hold]
    exact hst.below x hold i hi (hname.trans (hext.getName x hold))
  · exact hnew x hx hold i hi hname

theorem makeNamed_below (hF : F.Laws) (s₀ : σ) (i : ι) (c : TypeCall D) (size : Int) (st st' : Session σ D) (d : D)
    (hst : Below F G archi s₀ st) (hi : F.findByIdLocal s₀ (G.getName i) = none)
    (hc : Makes archi ((G.info i).plan archi) c) (hsize : F.madeSize st.factory c = some size)
    (h : makeNamed F c (G.getName i) st = .ok d st') : Below F G archi s₀ st' := by
  obtain ⟨hgrows, -⟩ := makeNamed_grows hF c _ st st' d size hsize h
  obtain ⟨rfl, rfl⟩ := makeNamed_ok c _ st st' d h
  have hunnamed := make_unnamed_after hF c st.factory size hsize
  refine Below.extend s₀ st _ hst hgrows.extends_ ?_
  intro x hx hold j hj hname
  obtain rfl : x = (F.exec c st.factory).1 := by
    refine ((hF.setName_named _ (G.getName i) _ hunnamed x).mp hx).resolve_left ?_
    rwa [hF.make_named c _ size hsize]
  obtain rfl : j = i := G.getName_injective j i (hname.trans (hF.setName_getName _ _ _ hunnamed))
  have hmade : F.getSize (Session.after F (Session.after F st c) (.setName (F.exec c st.factory).1 (G.getName j))).factory
      (F.exec c st.factory).1 = size :=
    (hF.setName_getSize _ _ _ hunnamed).trans (hF.make_getSize _ _ _ hsize)
  refine ⟨size, ?_, hmade.le⟩
  cases hj with
  | make _ base hplan =>
    rw [hplan] at hc
    cases hc
    rw [madeSize_base] at hsize
    cases hsize
    exact EndsAt.make j base hi hplan
  | pointer _ pointed hplan =>
    rw [hplan] at hc
    cases hc
    cases hsize
    exact EndsAt.pointer j pointed hi hplan
  | struct _ infos hplan =>
    rw [hplan] at hc
    cases hc

theorem getTypeStruct_below (hF : F.Laws) (s₀ : σ) (i : ι) (infos : List (TypeStructField ι)) (st : Session σ D)
    (hst : Below F G archi s₀ st) (hi : F.findByIdLocal s₀ (G.getName i) = none)
    (hplan : (G.info i).plan archi = .struct infos) (hn : F.findByIdLocal st.factory (G.getName i) = none) :
    Below F G archi s₀ (Session.after F st (.getTypeStruct (G.getName i))) := by
  refine Below.extend s₀ st _ hst (hF.struct_extends _ _ hn) ?_
  intro x hx hold j _ hname
  obtain rfl := ((hF.struct_named _ _ hn x).mp hx).resolve_left hold
  obtain rfl : j = i := G.getName_injective j i (hname.trans (hF.struct_getName _ _ hn))
  exact ⟨0, EndsAt.start j hi (by rw [hplan]; rfl), (hF.struct_getSize _ _ hn).le⟩

theorem extent_below (s₀ : σ) (i : ι) (infos : List (TypeStructField ι)) (fields : List (TypeField D))
    (st : Session σ D) (hst : Below F G archi s₀ st) (hi : F.findByIdLocal s₀ (G.getName i) = none)
    (hplan : (G.info i).plan archi = .struct infos) (hcomposed : ∀ info ∈ infos, Composed G archi info.type)
    (hfields : List.Forall₂ (FieldBears F G archi s₀ · · st.factory) infos fields) :
    ∃ e, EndsAt F G archi s₀ i e ∧ F.extent st.factory fields ≤ e := by
  rcases (foldl_max_isGreatest (fields.map fun field => field.offset.toInt + F.getSize st.factory field.type) 0).1 with
    hzero | hfield
  · exact ⟨0, EndsAt.start i hi (by rw [hplan]; rfl), hzero.le⟩
  · obtain ⟨field, hmem, hextent⟩ := List.mem_map.mp hfield
    obtain ⟨k, hk, rfl⟩ := List.getElem_of_mem hmem
    have hlt : k < infos.length := by rw [hfields.length_eq]; exact hk
    obtain ⟨hplace, -, hnamed, hname⟩ := hfields.get hlt hk
    have hoffset : fields[k].offset = int4 infos[k].offset := hplace
    have hinfo : infos[k] ∈ infos := List.getElem_mem hlt
    have hnotElement : ∀ inner, (G.info (infos[k]).type).plan archi ≠ .element inner := by
      intro inner hinner
      cases hcomposed _ hinfo <;> simp_all
    obtain ⟨e, he, hle⟩ := hst.below _ hnamed _ (hcomposed _ hinfo) (hname (Or.inl hnotElement)).symm
    refine ⟨_, EndsAt.field i infos infos[k] e hi hplan hinfo he, ?_⟩
    show List.foldl max 0 _ ≤ _
    rw [← hextent, hoffset]
    exact Int.add_le_add_left hle _

theorem setFields_below (hF : F.Laws) (s₀ : σ) (i : ι) (infos : List (TypeStructField ι)) (ct : D)
    (fields : List (TypeField D)) (st : Session σ D) (hst : Below F G archi s₀ st)
    (hi : F.findByIdLocal s₀ (G.getName i) = none) (hplan : (G.info i).plan archi = .struct infos)
    (hnew : ¬ F.named s₀ ct) (hct : F.named st.factory ct) (hopen : F.isIncomplete st.factory ct)
    (hname : F.getName st.factory ct = G.getName i)
    (hfields : List.Forall₂ (FieldBears F G archi s₀ · · st.factory) infos fields) :
    Below F G archi s₀ (Session.after F st (.setFields fields ct 0 0)) := by
  refine ⟨extends_setFields hF s₀ ct fields st.factory hst.extends_ hnew hct hopen, ?_⟩
  intro x hx j hj hxj
  have hx' := (hF.fields_named fields ct _ hct hopen x).mp hx
  have hname' := hF.fields_getName fields ct _ hct hopen x hx'
  by_cases hne : x = ct
  · subst hne
    obtain rfl : j = i := G.getName_injective j i (hxj.trans (hname'.trans hname))
    rw [Session.after, hF.fields_getSize fields x _ hct hopen]
    cases hj with
    | struct _ infos' hplan' hcomposed =>
      rw [hplan] at hplan'
      cases hplan'
      exact extent_below s₀ j infos fields st hst hi hplan hcomposed hfields
    | _ => simp_all
  · rw [Session.after, hF.fields_other_getSize fields ct _ hct hopen x hx' hne]
    exact hst.below x hx' j hj (hxj.trans hname')

theorem below_invariant (hF : F.Laws) (s₀ : σ) : Invariant F G archi s₀ (Below F G archi s₀) where
  extends_ _ hst := hst.extends_
  make i c size st st' d hst hi hc hsize h := makeNamed_below hF s₀ i c size st st' d hst hi hc hsize h
  void st hst := Below.extend s₀ st _ hst (hF.void_extends _) fun x hx hold => absurd ((hF.void_named _ x).mp hx) hold
  struct i infos st hst hi hplan hn := getTypeStruct_below hF s₀ i infos st hst hi hplan hn
  fields i infos ct fields st hst hi hplan hnew hct hopen hname hfields :=
    setFields_below hF s₀ i infos ct fields st hst hi hplan hnew hct hopen hname hfields

theorem below_start (s₀ : σ) (hs₀ : Fresh F s₀) : Below F G archi s₀ ⟨s₀, []⟩ := by
  refine ⟨TypeFactory.Extends.refl F _, ?_⟩
  intro x hx i _ hname
  refine ⟨F.getSize s₀ x, EndsAt.core i x ?_, le_rfl⟩
  rw [hname]
  exact hs₀ x hx

theorem struct_below (hF : F.Laws) (s₀ : σ) (hs₀ : Fresh F s₀) (i : ι) (hi : Composed G archi i)
    (hstruct : ((G.info i).plan archi).isStruct) (fuel : Nat) (st : Session σ D) (d : D)
    (h : findByTypeInfo F G archi fuel i ⟨s₀, []⟩ = .ok d st) :
    ∃ e, EndsAt F G archi s₀ i e ∧ F.getSize st.factory d ≤ e := by
  have hbelow := (below_invariant hF s₀).findByTypeInfo hF fuel i _ st d (below_start s₀ hs₀) h
  obtain ⟨hnamed, hname⟩ := findByTypeInfo_bears hF fuel i _ st d (TypeFactory.Extends.refl F s₀) h
  refine hbelow.below d hnamed i hi (hname (Or.inl ?_)).symm
  intro inner hinner
  rw [hinner] at hstruct
  simp [Plan.isStruct] at hstruct

theorem findByTypeInfo_eventually [Finite ι] (hF : F.Laws) (hacyclic : Rank.Acyclic (StructFree G archi)) (i : ι)
    (st : Session σ D) : ∃ enough, ∀ fuel, enough ≤ fuel → ∃ d st', findByTypeInfo F G archi fuel i st = .ok d st' := by
  cases nonempty_fintype ι
  exact ⟨measure F G archi st.factory i + 1, fun fuel hfuel => findByTypeInfo_returns hF hacyclic fuel i st (by omega)⟩

/-- **Sizes of structs.** A struct is converted, at the latest when the graph is finite and has only cycles
through structs. It never keeps its size when its name is a core name or it is padded after the last thing in it.
When no incomplete type is taken in by value, it keeps its size exactly when its name is no core name and the last
thing in it ends where the struct ends. -/
theorem struct_keeps_size_iff (hF : F.Laws) (hT : T.Laws F) (hC : T.CoreLaws F) (blank : σ)
    (hblank : ∀ x, ¬ F.named blank x) (i : ι) (hstruct : ((G.info i).plan archi).isStruct) (hi : Composed G archi i) :
    (Finite ι → Rank.Acyclic (StructFree G archi) → ∃ enough, ∀ fuel, enough ≤ fuel →
      ∃ d st, findByTypeInfo F G archi fuel i ⟨buildTypegrp T blank, []⟩ = .ok d st) ∧
    ∀ fuel d st, findByTypeInfo F G archi fuel i ⟨buildTypegrp T blank, []⟩ = .ok d st →
      (KeepsSize F T G i st.factory d → (∀ core ∈ coreTable, core.name ≠ G.getName i) ∧
        ∃ e, EndsAt F G archi (buildTypegrp T blank) i e ∧ (G.info i).getSize.toNat ≤ e) ∧
      ((∀ step ∈ st.steps, Whole F step) →
        (KeepsSize F T G i st.factory d ↔ (∀ core ∈ coreTable, core.name ≠ G.getName i) ∧
          IsGreatest {e | EndsAt F G archi (buildTypegrp T blank) i e} (G.info i).getSize.toNat)) := by
  refine ⟨fun _ hacyclic => findByTypeInfo_eventually hF hacyclic i _, ?_⟩
  intro fuel d st h
  have hright : RightType F T G archi i st.factory d :=
    rightType_of_typed hF hC blank hblank i st d
      ((typed_invariant hF hT).findByTypeInfo hF fuel i _ st d typed_start h)
      (findByTypeInfo_bears hF fuel i _ st d (TypeFactory.Extends.refl F _) h)
  have hnotCore : KeepsSize F T G i st.factory d → ∀ core ∈ coreTable, core.name ≠ G.getName i := by
    intro hkeeps core hmem hname
    exact coreTable_no_struct core hmem ((hright.core core hmem hname).1.symm.trans hkeeps.metatype)
  have hfresh := buildTypegrp_fresh hF hC blank hblank
  refine ⟨?_, ?_⟩
  · intro hkeeps
    refine ⟨hnotCore hkeeps, ?_⟩
    rw [← hkeeps.size]
    exact struct_below hF _ hfresh i hi hstruct fuel st d h
  · intro hwhole
    have hgreatest : (∀ core ∈ coreTable, core.name ≠ G.getName i) →
        IsGreatest {e | EndsAt F G archi (buildTypegrp T blank) i e} (F.getSize st.factory d) := fun hcore =>
      struct_ends hF _ hfresh i hi hstruct (buildTypegrp_other hF hC blank hblank _ hcore) fuel st d h hwhole
    constructor
    · intro hkeeps
      refine ⟨hnotCore hkeeps, ?_⟩
      rw [← hkeeps.size]
      exact hgreatest (hnotCore hkeeps)
    · rintro ⟨hcore, hend⟩
      exact ⟨hright.struct hcore hstruct, (hgreatest hcore).unique hend⟩

/-! ## A padded struct -/

theorem padded_composed : Composed declarations archi64 4 ∧ Composed declarations archi64 5 := by
  have hint : Composed declarations archi64 0 := Composed.make 0 _ rfl
  have hchar : Composed declarations archi64 1 := Composed.make 1 _ rfl
  have hS : Composed declarations archi64 4 := by
    refine Composed.struct 4 _ rfl ?_
    simp [hint, hchar]
  have hT : Composed declarations archi64 5 := by
    refine Composed.struct 5 _ rfl ?_
    simp [hint, hS]
  exact ⟨hS, hT⟩

/-- `T` keeps its size, although its `S` does not. -/
theorem struct_keeps_size_iff_padded :
    ∃ d st, findByTypeInfo DetailTable.factory declarations archi64 3 5 coreSession = .ok d st ∧
      (KeepsSize DetailTable.factory DetailTable.typeDetails declarations 5 st.factory d ↔
        (∀ core ∈ coreTable, core.name ≠ declarations.getName 5) ∧
        IsGreatest {e | EndsAt DetailTable.factory declarations archi64 coreSession.factory 5 e} 12) := by
  obtain ⟨d, st, h, hwhole⟩ : ∃ d st, findByTypeInfo DetailTable.factory declarations archi64 3 5 coreSession = .ok d st ∧
      ∀ step ∈ st.steps, Whole DetailTable.factory step := ⟨_, _, rfl, by decide +kernel⟩
  exact ⟨d, st, h, (struct_keeps_size_iff DetailTable.laws DetailTable.details_laws DetailTable.core_laws
    DetailTable.blank DetailTable.blank_named 5 rfl padded_composed.2).2 3 d st h |>.2 hwhole⟩

/-- `S` gets 5 bytes. -/
theorem struct_loses_padding :
    Composed declarations archi64 4 ∧ ((declarations.info 4).plan archi64).isStruct ∧ (declarations.info 4).getSize = 8 ∧
      ∃ d st, findByTypeInfo DetailTable.factory declarations archi64 2 4 coreSession = .ok d st ∧
        DetailTable.factory.getSize st.factory d = 5 := by
  refine ⟨padded_composed.1, rfl, rfl, _, _, rfl, ?_⟩
  decide +kernel

end TypeManager

end Yagi
