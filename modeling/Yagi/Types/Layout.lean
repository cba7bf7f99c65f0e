import Yagi.Types.Growth
import Yagi.Types.Shape

/-!
# How structs are laid out

As long as no type is taken in by value before it is complete, every type that is
made has the shape of its type info.
-/

open Text Effect

namespace Yagi.TypeManager

variable {σ D ι : Type} (F : TypeFactory σ D) (G : TypeGraph ι) (archi : TypeArchitecture) (s₀ : σ)

def fieldLayout (s : σ) (field : TypeField D) : FieldLayout :=
  ⟨field.offset, field.name, F.getName s field.type, F.getSize s field.type⟩

def layoutOf (step : FactoryStep σ D) : Option StructLayout :=
  match step.call with
  | .setFields fields ct _ _ =>
    some ⟨F.getName step.state ct, F.getSize (F.exec step.call step.state).2 ct, fields.map (fieldLayout F step.state)⟩
  | _ => none

def layouts (steps : List (FactoryStep σ D)) : List StructLayout := steps.filterMap (layoutOf F)

/-- The types that a call takes in by value. -/
def embedded : TypeCall D → List D
  | .setFields fields _ _ _ => fields.map (·.type)
  | .getTypeArray _ element => [element]
  | _ => []

/-- No incomplete type is taken in by value. -/
def Whole (step : FactoryStep σ D) : Prop := ∀ d ∈ embedded step.call, F.isIncomplete step.state d = false

instance (step : FactoryStep σ D) : Decidable (Whole F step) :=
  inferInstanceAs (Decidable (∀ d ∈ embedded step.call, F.isIncomplete step.state d = false))

/-- In a fresh cache there are the core types, and each has a name of its own. -/
def Fresh (s : σ) : Prop := ∀ d, F.named s d → F.findByIdLocal s (F.getName s d) = some d

/-! ## Right layouts -/

/-- Every complete type has the shape of its type info. -/
def Shaped (s : σ) : Prop :=
  ∀ d, F.named s d → F.isIncomplete s d = false → ∀ i, G.getName i = F.getName s d →
    Shape F G archi s₀ i (F.getName s d) (F.getSize s d)

/-- The layout has the fields of its struct, with types of the right shape. -/
def RightLayout (layout : StructLayout) : Prop :=
  ∃ i infos, (G.info i).plan archi = .struct infos ∧ layout.name = G.getName i ∧
    layout.size = layoutSize layout.fields ∧ Lists infos layout.fields ∧
    ∀ (k : Nat) (info : TypeStructField ι) (field : FieldLayout), infos[k]? = some info →
      layout.fields[k]? = some field → Shape F G archi s₀ info.type field.typeName field.size

/-- What holds between two calls. -/
structure Sound (st : Session σ D) : Prop where
  extends_ : F.Extends s₀ st.factory
  whole : (∀ step ∈ st.steps, Whole F step) →
    Shaped F G archi s₀ st.factory ∧ ∀ layout ∈ layouts F st.steps, RightLayout F G archi s₀ layout

/-- `d` is the type of a type info that has the shape of `i`. -/
def Converted (i : ι) (s : σ) (d : D) : Prop :=
  F.named s d ∧ ∃ j, G.getName j = F.getName s d ∧
    ∀ n z, Shape F G archi s₀ j n z → Shape F G archi s₀ i n z

variable {F G archi s₀}

theorem RightLayout.unique (l l' : StructLayout) (h : RightLayout F G archi s₀ l) (h' : RightLayout F G archi s₀ l')
    (hname : l.name = l'.name) : l = l' := by
  obtain ⟨i, infos, hplan, hi, hsize, hlists, hshape⟩ := h
  obtain ⟨i', infos', hplan', hi', hsize', hlists', hshape'⟩ := h'
  obtain rfl : i = i' := G.getName_injective i i' (hi.symm.trans (hname.trans hi'))
  rw [hplan] at hplan'
  cases hplan'
  have hfields : l.fields = l'.fields := Lists.unique infos _ _ hlists hlists' fun k info field field' hk hf hf' =>
    Shape.unique _ _ _ _ _ (hshape k info field hk hf) (hshape' k info field' hk hf')
  exact StructLayout.ext hname (by rw [hsize, hsize', hfields]) hfields

theorem Converted.extend (i : ι) (s t : σ) (d : D) (hext : F.Extends s t) (h : Converted F G archi s₀ i s d) :
    Converted F G archi s₀ i t d := by
  obtain ⟨hnamed, j, hj, hshape⟩ := h
  exact ⟨hext.named d hnamed, j, hj.trans (hext.getName d hnamed).symm, hshape⟩

theorem Converted.shape (i : ι) (s : σ) (d : D) (h : Converted F G archi s₀ i s d) (hs : Shaped F G archi s₀ s)
    (hd : F.isIncomplete s d = false) : Shape F G archi s₀ i (F.getName s d) (F.getSize s d) := by
  obtain ⟨hnamed, j, hj, hshape⟩ := h
  exact hshape _ _ (hs d hnamed hd j hj)

/-! ## Keeping the shapes -/

theorem Shaped.of_agree (s t : σ) (d : D) (hs : Shaped F G archi s₀ s)
    (hold : ∀ x, F.named t x → x ≠ d → F.named s x ∧ F.getName t x = F.getName s x ∧
      F.getSize t x = F.getSize s x ∧ F.isIncomplete t x = F.isIncomplete s x)
    (hd : F.named t d → F.isIncomplete t d = false → ∀ i, G.getName i = F.getName t d →
      Shape F G archi s₀ i (F.getName t d) (F.getSize t d)) : Shaped F G archi s₀ t := by
  intro x hx hcomplete i hi
  by_cases hxd : x = d
  · subst hxd
    exact hd hx hcomplete i hi
  · obtain ⟨hnamed, hname, hsize, hincomplete⟩ := hold x hx hxd
    rw [hname, hsize]
    exact hs x hnamed (hincomplete.symm.trans hcomplete) i (hi.trans hname)

theorem Shaped.of_extends (s t : σ) (d : D) (hs : Shaped F G archi s₀ s) (hext : F.Extends s t)
    (hnew : ∀ x, F.named t x → x ≠ d → F.named s x)
    (hd : F.named t d → F.isIncomplete t d = false → ∀ i, G.getName i = F.getName t d →
      Shape F G archi s₀ i (F.getName t d) (F.getSize t d)) : Shaped F G archi s₀ t := by
  refine Shaped.of_agree s t d hs ?_ hd
  intro x hx hxd
  have hnamed := hnew x hx hxd
  exact ⟨hnamed, hext.getName x hnamed, hext.getSize x hnamed, hext.isIncomplete x hnamed⟩

theorem layouts_append (xs ys : List (FactoryStep σ D)) : layouts F (xs ++ ys) = layouts F xs ++ layouts F ys :=
  List.filterMap_append

theorem Sound.grow (st st' : Session σ D) (new : List (FactoryStep σ D)) (hst : Sound F G archi s₀ st)
    (hext : F.Extends s₀ st'.factory) (hsteps : st'.steps = st.steps ++ new)
    (h : (∀ step ∈ new, Whole F step) → Shaped F G archi s₀ st.factory →
      Shaped F G archi s₀ st'.factory ∧ ∀ layout ∈ layouts F new, RightLayout F G archi s₀ layout) :
    Sound F G archi s₀ st' := by
  refine ⟨hext, fun hwhole => ?_⟩
  rw [hsteps] at hwhole ⊢
  obtain ⟨hshaped, hright⟩ := hst.whole fun step hstep => hwhole step (List.mem_append_left _ hstep)
  obtain ⟨hshaped', hright'⟩ := h (fun step hstep => hwhole step (List.mem_append_right _ hstep)) hshaped
  refine ⟨hshaped', fun layout hlayout => ?_⟩
  rw [layouts_append, List.mem_append] at hlayout
  exact hlayout.elim (hright layout) (hright' layout)

theorem Sound.notCore (st : Session σ D) (n : Str) (hst : Sound F G archi s₀ st)
    (hn : F.findByIdLocal st.factory n = none) : F.findByIdLocal s₀ n = none := by
  by_contra h
  exact hst.extends_.found n h hn

/-! ## Single calls -/

theorem makeNamed_sound (hF : F.Laws) (i : ι) (c : TypeCall D) (st st' : Session σ D) (d : D) (size : Int)
    (hst : Sound F G archi s₀ st) (hc : F.madeSize st.factory c = some size)
    (hshape : Whole F ⟨st.factory, c⟩ → Shaped F G archi s₀ st.factory → Shape F G archi s₀ i (G.getName i) size)
    (h : makeNamed F c (G.getName i) st = .ok d st') :
    Sound F G archi s₀ st' ∧ Converted F G archi s₀ i st'.factory d := by
  obtain ⟨hgrows, hnamed⟩ := makeNamed_grows hF c _ st st' d size hc h
  obtain ⟨rfl, rfl⟩ := makeNamed_ok c _ st st' d h
  have hunnamed := make_unnamed_after hF c st.factory size hc
  have hname := hF.setName_getName _ (G.getName i) _ hunnamed
  have hsize := (hF.setName_getSize _ (G.getName i) _ hunnamed).trans (hF.make_getSize c _ size hc)
  refine ⟨?_, hnamed, i, hname.symm, fun _ _ h => h⟩
  refine Sound.grow st _ [⟨st.factory, c⟩, ⟨(F.exec c st.factory).2, .setName (F.exec c st.factory).1 (G.getName i)⟩]
    hst (hst.extends_.trans hgrows.extends_) (by simp [Session.after]) ?_
  intro hwhole hshaped
  refine ⟨?_, ?_⟩
  · refine Shaped.of_extends _ _ (F.exec c st.factory).1 hshaped hgrows.extends_ ?_ ?_
    · intro x hx hne
      have := (hF.setName_named _ (G.getName i) _ hunnamed x).mp hx
      exact (hF.make_named c _ size hc x).mp (this.resolve_right hne)
    · intro _ _ j hj
      obtain rfl : j = i := G.getName_injective j i (hj.trans hname)
      exact Shape.of_eq j _ _ _ _ (hshape (hwhole _ List.mem_cons_self) hshaped) hname hsize
  · intro layout hlayout
    have hmake : layoutOf F ⟨st.factory, c⟩ = none := by
      cases c <;> first | rfl | simp [TypeFactory.madeSize] at hc
    have hset : layoutOf F ⟨(F.exec c st.factory).2, .setName (F.exec c st.factory).1 (G.getName i)⟩ = none := rfl
    simp [layouts, hmake, hset] at hlayout

theorem after_sound (st : Session σ D) (c : TypeCall D) (hst : Sound F G archi s₀ st)
    (hext : F.Extends st.factory (F.exec c st.factory).2)
    (hnamed : ∀ x, F.named (F.exec c st.factory).2 x ↔ F.named st.factory x)
    (hlayout : layoutOf F ⟨st.factory, c⟩ = none) : Sound F G archi s₀ (Session.after F st c) := by
  refine Sound.grow st _ [⟨st.factory, c⟩] hst (hst.extends_.trans hext) rfl ?_
  intro _ hshaped
  refine ⟨?_, by simp [layouts, hlayout]⟩
  intro x hx hcomplete i hi
  have hx' := (hnamed x).mp hx
  refine Shape.of_eq i _ _ _ _ (hshaped x hx' ?_ i ?_) (hext.getName x hx') (hext.getSize x hx')
  · exact (hext.isIncomplete x hx').symm.trans hcomplete
  · exact hi.trans (hext.getName x hx')

/-! ## A struct -/

theorem getTypeStruct_sound (hF : F.Laws) (st : Session σ D) (n : Str) (hst : Sound F G archi s₀ st)
    (hn : F.findByIdLocal st.factory n = none) : Sound F G archi s₀ (Session.after F st (.getTypeStruct n)) := by
  have hext := hF.struct_extends n _ hn
  refine Sound.grow st _ [⟨st.factory, .getTypeStruct n⟩] hst (hst.extends_.trans hext) rfl ?_
  intro _ hshaped
  refine ⟨?_, by simp [layouts, layoutOf]⟩
  refine Shaped.of_extends _ _ (F.exec (.getTypeStruct n) st.factory).1 hshaped hext ?_ ?_
  · intro x hx hne
    exact ((hF.struct_named n _ hn x).mp hx).resolve_right hne
  · intro _ hcomplete
    have := hF.struct_incomplete n _ hn
    exact absurd (this.symm.trans hcomplete) (by decide)

def FieldConverted (F : TypeFactory σ D) (G : TypeGraph ι) (archi : TypeArchitecture) (s₀ : σ)
    (info : TypeStructField ι) (field : TypeField D) (s : σ) : Prop :=
  field.offset = int4 info.offset ∧ field.name = info.name ∧ Converted F G archi s₀ info.type s field.type

theorem extent_eq (s : σ) (result : List (TypeField D)) :
    F.extent s result = layoutSize (result.map (fieldLayout F s)) := by
  unfold TypeFactory.extent layoutSize
  rw [List.map_map]
  rfl

theorem fields_lists (infos : List (TypeStructField ι)) (result : List (TypeField D)) (s : σ)
    (h : List.Forall₂ (FieldConverted F G archi s₀ · · s) infos result) :
    Lists infos (result.map (fieldLayout F s)) := by
  unfold Lists
  induction h with
  | nil => rfl
  | cons hfield _ ih =>
    obtain ⟨hoffset, hname, -⟩ := hfield
    simp only [List.map_cons, ih]
    rw [fieldLayout, hoffset, hname]

theorem fields_shape (infos : List (TypeStructField ι)) (result : List (TypeField D)) (s : σ)
    (h : List.Forall₂ (FieldConverted F G archi s₀ · · s) infos result) (hs : Shaped F G archi s₀ s)
    (hwhole : ∀ field ∈ result, F.isIncomplete s field.type = false) (k : Nat) (info : TypeStructField ι)
    (layout : FieldLayout) (hk : infos[k]? = some info) (hlayout : (result.map (fieldLayout F s))[k]? = some layout) :
    Shape F G archi s₀ info.type layout.typeName layout.size := by
  rw [List.getElem?_map, Option.map_eq_some_iff] at hlayout
  obtain ⟨field, hfield, rfl⟩ := hlayout
  obtain ⟨hlt, rfl⟩ := List.getElem?_eq_some_iff.mp hk
  obtain ⟨hlt', rfl⟩ := List.getElem?_eq_some_iff.mp hfield
  obtain ⟨-, -, hconverted⟩ := h.get hlt hlt'
  exact hconverted.shape _ _ _ hs (hwhole _ (List.getElem_mem hlt'))

theorem setFields_sound (hF : F.Laws) (i : ι) (infos : List (TypeStructField ι)) (result : List (TypeField D))
    (st u : Session σ D) (hst : Sound F G archi s₀ st) (hu : Sound F G archi s₀ u)
    (hn : F.findByIdLocal st.factory (G.getName i) = none) (hplan : (G.info i).plan archi = .struct infos)
    (hgrows : Grows F (Session.after F st (.getTypeStruct (G.getName i))) u)
    (hresult : List.Forall₂ (FieldConverted F G archi s₀ · · u.factory) infos result) :
    Sound F G archi s₀
        (Session.after F u (.setFields result (F.exec (.getTypeStruct (G.getName i)) st.factory).1 0 0)) ∧
      Converted F G archi s₀ i (F.exec (.setFields result (F.exec (.getTypeStruct (G.getName i)) st.factory).1 0 0)
        u.factory).2 (F.exec (.getTypeStruct (G.getName i)) st.factory).1 := by
  obtain ⟨hstructGrows, hnamed⟩ := struct_grows hF _ st u result hn hgrows
  obtain ⟨hopenNamed, hopen⟩ := struct_open hF _ st u hn hgrows
  have hopenName := struct_name hF _ st u hn hgrows
  generalize (F.exec (.getTypeStruct (G.getName i)) st.factory).1 = ct at *
  have hname := (hF.fields_getName result ct _ hopenNamed hopen ct hopenNamed).trans hopenName
  have hsize := (hF.fields_getSize result ct _ hopenNamed hopen).trans (extent_eq _ _)
  have hlists := fields_lists infos result u.factory hresult
  refine ⟨?_, hnamed, i, hname.symm, fun _ _ h => h⟩
  refine Sound.grow u _ [⟨u.factory, .setFields result ct 0 0⟩] hu (hst.extends_.trans hstructGrows.extends_) rfl ?_
  intro hwhole hshaped
  have hcomplete : ∀ field ∈ result, F.isIncomplete u.factory field.type = false := fun field hfield =>
    hwhole _ List.mem_cons_self field.type (List.mem_map_of_mem hfield)
  have hshapes := fields_shape infos result u.factory hresult hshaped hcomplete
  refine ⟨?_, ?_⟩
  · refine Shaped.of_agree _ _ ct hshaped ?_ ?_
    · intro x hx hne
      have hx' := (hF.fields_named result ct _ hopenNamed hopen x).mp hx
      exact ⟨hx', hF.fields_getName result ct _ hopenNamed hopen x hx',
        hF.fields_other_getSize result ct _ hopenNamed hopen x hx' hne,
        hF.fields_other_complete result ct _ hopenNamed hopen x hx' hne⟩
    · intro _ _ j hj
      obtain rfl : j = i := G.getName_injective j i (hj.trans hname)
      exact Shape.of_eq j _ _ _ _ (Shape.struct j infos _ (hst.notCore _ _ hn) hplan hlists hshapes) hname
        hsize
  · intro layout hlayout
    simp only [layouts, layoutOf, List.filterMap_cons, List.filterMap_nil, List.mem_singleton] at hlayout
    subst hlayout
    exact ⟨i, infos, hplan, hopenName, hsize, hlists, hshapes⟩

end Yagi.TypeManager
