import Yagi.Types.Growth

/-!
# Invariants of a conversion

What holds of the core types and is kept by each call that a conversion makes
holds after every conversion.
-/

open Text Effect

namespace Yagi.TypeManager

variable {σ D ι : Type} {F : TypeFactory σ D} {G : TypeGraph ι} {archi : TypeArchitecture} {s₀ : σ}

/-! ## The names of converted types -/

/-- The type bears the name of the type info, unless the info is an array without elements. -/
def Bears (F : TypeFactory σ D) (G : TypeGraph ι) (archi : TypeArchitecture) (s₀ : σ) (i : ι) (d : D) (s : σ) : Prop :=
  F.named s d ∧ ((∀ inner, (G.info i).plan archi ≠ .element inner) ∨ F.findByIdLocal s₀ (G.getName i) ≠ none →
    F.getName s d = G.getName i)

theorem Bears.extend (i : ι) (d : D) (s t : σ) (hext : F.Extends s t) (h : Bears F G archi s₀ i d s) :
    Bears F G archi s₀ i d t :=
  ⟨hext.named d h.1, fun hplan => (hext.getName d h.1).trans (h.2 hplan)⟩

theorem makeNamed_name (hF : F.Laws) (c : TypeCall D) (n : Str) (st st' : Session σ D) (d : D) (size : Int)
    (hsize : F.madeSize st.factory c = some size) (h : makeNamed F c n st = .ok d st') : F.getName st'.factory d = n := by
  obtain ⟨rfl, rfl⟩ := makeNamed_ok c n st st' d h
  exact hF.setName_getName _ n _ (make_unnamed_after hF c st.factory size hsize)

theorem carryOut_name (hF : F.Laws) (findByTypeInfo : ι → Conversion σ D D) (i : ι) (st st' : Session σ D) (d : D)
    (hn : F.findByIdLocal st.factory (G.getName i) = none)
    (hrec : ∀ j s d s', findByTypeInfo j s = .ok d s' → Grows F s s')
    (hplan : ∀ inner, (G.info i).plan archi ≠ .element inner)
    (h : carryOut F archi findByTypeInfo (G.getName i) ((G.info i).plan archi) st = .ok d st') :
    F.getName st'.factory d = G.getName i := by
  cases hp : (G.info i).plan archi with
  | make base =>
    rw [hp] at h
    exact makeNamed_name hF _ _ _ _ _ _ (madeSize_base _ base) h
  | pointer pointed =>
    rw [hp] at h
    obtain ⟨pointee, t, -, hnamed⟩ := (bind_ok _ _ _ _ _).mp h
    exact makeNamed_name hF _ _ _ _ _ _ rfl hnamed
  | struct infos =>
    rw [hp] at h
    obtain ⟨result, u, rfl, hfields, rfl⟩ := parseStruct_ok _ _ _ _ _ _ h
    have hgrows := parseFields_grows _ infos _ u result hrec hfields
    obtain ⟨hnamed, hopen⟩ := struct_open hF _ st u hn hgrows
    exact (hF.fields_getName result _ _ hnamed hopen _ hnamed).trans (struct_name hF _ st u hn hgrows)
  | func func =>
    rw [hp] at h
    obtain ⟨ds, types, u, -, hnamed⟩ := parseFunc_ok archi _ _ _ _ _ h
    rw [G.plan_getName archi i func hp] at hnamed
    exact makeNamed_name hF _ _ _ _ _ _ rfl hnamed
  | element inner => exact absurd hp (hplan inner)
  | array count inner =>
    rw [hp] at h
    obtain ⟨element, t, -, hnamed⟩ := (bind_ok _ _ _ _ _).mp h
    exact makeNamed_name hF _ _ _ _ _ _ rfl hnamed

theorem findByTypeInfo_bears (hF : F.Laws) (fuel : Nat) (i : ι) (st st' : Session σ D) (d : D)
    (hst : F.Extends s₀ st.factory) (h : findByTypeInfo F G archi fuel i st = .ok d st') :
    Bears F G archi s₀ i d st'.factory := by
  refine ⟨(findByTypeInfo_grows hF fuel i st st' d h).2, fun hplan => ?_⟩
  obtain ⟨less, -, ⟨hfind, rfl⟩ | ⟨hfind, hcarry⟩⟩ := findByTypeInfo_ok _ _ _ _ _ h
  · exact (hF.found_named _ _ _ hfind).2
  · refine carryOut_name hF _ i st st' d hfind (fun j s d s' hd => (findByTypeInfo_grows hF _ _ _ _ _ hd).1) ?_ hcarry
    exact hplan.resolve_right fun hcore => hst.found _ hcore hfind

/-! ## What the calls keep -/

variable (F G archi s₀)

/-- The calls that make the type of a plan. -/
inductive Makes : Plan ι → TypeCall D → Prop where
  | base (base : BaseType) : Makes (.make base) base.call
  | pointer (pointed : ι) (pointee : D) :
    Makes (.pointer pointed) (.getTypePointer archi.getAddrSize.toInt32 pointee archi.getWordSize)
  | func (func : FuncInfo ι) (model : Str) (outtype : D) (intypes : List D) (dotdotdot : Bool) :
    Makes (.func func) (.getTypeCode model outtype intypes dotdotdot)
  | array (count : Int32) (inner : ι) (element : D) : Makes (.array count inner) (.getTypeArray count element)

/-- `field` has the place, the name and the type that `info` asks for. -/
def FieldBears (info : TypeStructField ι) (field : TypeField D) (s : σ) : Prop :=
  field.offset = int4 info.offset ∧ field.name = info.name ∧ Bears F G archi s₀ info.type field.type s

/-- No call of a conversion breaks `Inv`. -/
structure Invariant (Inv : Session σ D → Prop) : Prop where
  extends_ : ∀ st, Inv st → F.Extends s₀ st.factory
  make : ∀ i c size st st' d, Inv st → F.findByIdLocal s₀ (G.getName i) = none →
    Makes archi ((G.info i).plan archi) c → F.madeSize st.factory c = some size →
    makeNamed F c (G.getName i) st = .ok d st' → Inv st'
  void : ∀ st, Inv st → Inv (Session.after F st .getTypeVoid)
  struct : ∀ i infos st, Inv st → F.findByIdLocal s₀ (G.getName i) = none → (G.info i).plan archi = .struct infos →
    F.findByIdLocal st.factory (G.getName i) = none → Inv (Session.after F st (.getTypeStruct (G.getName i)))
  fields : ∀ i infos ct fields st, Inv st → F.findByIdLocal s₀ (G.getName i) = none →
    (G.info i).plan archi = .struct infos → ¬ F.named s₀ ct → F.named st.factory ct → F.isIncomplete st.factory ct →
    F.getName st.factory ct = G.getName i →
    List.Forall₂ (FieldBears F G archi s₀ · · st.factory) infos fields →
    Inv (Session.after F st (.setFields fields ct 0 0))

variable {F G archi s₀}

theorem FieldBears.extend (info : TypeStructField ι) (field : TypeField D) (s t : σ) (hext : F.Extends s t)
    (h : FieldBears F G archi s₀ info field s) : FieldBears F G archi s₀ info field t :=
  ⟨h.1, h.2.1, h.2.2.extend info.type field.type s t hext⟩

theorem mapM_keeps {α β : Type} (Inv : Session σ D → Prop) (f : α → Conversion σ D β) (Q : α → β → σ → Prop)
    (xs : List α) (hQ : ∀ x y s t, F.Extends s t → Q x y s → Q x y t)
    (hf : ∀ x ∈ xs, ∀ s y s', Inv s → f x s = .ok y s' → Grows F s s' ∧ Inv s' ∧ Q x y s'.factory)
    (st st' : Session σ D) (ys : List β) (hst : Inv st) (h : xs.mapM f st = .ok ys st') :
    Grows F st st' ∧ Inv st' ∧ List.Forall₂ (Q · · st'.factory) xs ys := by
  have hstep : ∀ x ∈ xs, ∀ s y s', Inv s → f x s = .ok y s' →
      (Grows F s s' ∧ (Inv s → Inv s')) ∧ Q x y s'.factory := by
    intro x hx s y s' hs hy
    obtain ⟨hgrows, hinv, hQy⟩ := hf x hx s y s' hs hy
    exact ⟨⟨hgrows, fun _ => hinv⟩, hQy⟩
  obtain ⟨⟨hgrows, hinv⟩, hys⟩ := mapM_ok f Inv (fun s s' => Grows F s s' ∧ (Inv s → Inv s'))
    (fun x y s => Q x y s.factory) (fun s => ⟨Grows.refl s, id⟩)
    (fun s t u h₁ h₂ => ⟨Grows.trans s t u h₁.1 h₂.1, h₂.2 ∘ h₁.2⟩) (fun _ _ hs hR => hR.2 hs)
    (fun x y s t hR => hQ x y _ _ hR.1.extends_) xs hstep st st' ys hst h
  exact ⟨hgrows, hinv hst, hys⟩

namespace Invariant

variable {Inv : Session σ D → Prop}

theorem notCore (hI : Invariant F G archi s₀ Inv) (st : Session σ D) (n : Str) (hst : Inv st)
    (hn : F.findByIdLocal st.factory n = none) : F.findByIdLocal s₀ n = none := by
  by_contra h
  exact (hI.extends_ st hst).found n h hn

theorem carryOut (hF : F.Laws) (hI : Invariant F G archi s₀ Inv) (findByTypeInfo : ι → Conversion σ D D) (i : ι)
    (st st' : Session σ D) (d : D) (hst : Inv st) (hn : F.findByIdLocal st.factory (G.getName i) = none)
    (hrec : ∀ j s d s', Inv s → findByTypeInfo j s = .ok d s' →
      Grows F s s' ∧ Inv s' ∧ Bears F G archi s₀ j d s'.factory)
    (h : TypeManager.carryOut F archi findByTypeInfo (G.getName i) ((G.info i).plan archi) st = .ok d st') :
    Inv st' := by
  have hcore := hI.notCore st _ hst hn
  have hloop : ∀ (xs : List ι) s ys s', Inv s → xs.mapM findByTypeInfo s = .ok ys s' → Inv s' := by
    intro xs s ys s' hs hys
    exact (mapM_keeps Inv findByTypeInfo (fun _ _ _ => True) xs (fun _ _ _ _ _ h => h)
      (fun j _ s d s' hs hd => ⟨(hrec j s d s' hs hd).1, (hrec j s d s' hs hd).2.1, trivial⟩) s s' ys hs hys).2.1
  have hmake := fun c size t (ht : Inv t) hc hsize => hI.make i c size t st' d ht hcore hc hsize
  cases hplan : (G.info i).plan archi with
  | make base =>
    rw [hplan] at h hmake
    exact hmake _ _ st hst (Makes.base base) (madeSize_base _ base) h
  | pointer pointed =>
    rw [hplan] at h hmake
    obtain ⟨pointee, t, hpointee, hnamed⟩ := (bind_ok _ _ _ _ _).mp h
    exact hmake _ _ t (hrec _ _ _ _ hst hpointee).2.1 (Makes.pointer pointed pointee) rfl hnamed
  | struct infos =>
    rw [hplan] at h
    obtain ⟨result, u, rfl, hfields, rfl⟩ := parseStruct_ok _ _ _ _ _ _ h
    have hfield : ∀ info ∈ infos, ∀ s field s', Inv s → parseField findByTypeInfo info s = .ok field s' →
        Grows F s s' ∧ Inv s' ∧ FieldBears F G archi s₀ info field s'.factory := by
      intro info _ s field s' hs hfield
      obtain ⟨htype, hoffset, hname⟩ := parseField_ok _ _ _ _ _ hfield
      obtain ⟨hgrows, hinv, hbears⟩ := hrec _ _ _ _ hs htype
      exact ⟨hgrows, hinv, hoffset, hname, hbears⟩
    obtain ⟨hgrows, hu, hresult⟩ := mapM_keeps Inv (parseField findByTypeInfo) (FieldBears F G archi s₀) infos
      (fun info field s t => FieldBears.extend info field s t) hfield _ _ _ (hI.struct i infos st hst hcore hplan hn)
      hfields
    obtain ⟨hnamed, hopen⟩ := struct_open hF _ st u hn hgrows
    have hnew := hF.struct_unnamed (G.getName i) _ hn
    exact hI.fields i infos _ result u hu hcore hplan (fun h => hnew ((hI.extends_ st hst).named _ h)) hnamed hopen
      (struct_name hF _ st u hn hgrows) hresult
  | func func =>
    rw [hplan] at h hmake
    obtain ⟨ds, types, u, hds, hnamed⟩ := parseFunc_ok archi _ _ _ _ _ h
    have hu := hloop func.getFuncPrototype _ ds u (hI.void st hst) hds
    rw [G.plan_getName archi i func hplan] at hnamed
    exact hmake _ _ u hu (Makes.func func _ _ _ _) rfl hnamed
  | element inner =>
    rw [hplan] at h
    exact (hrec _ _ _ _ hst h).2.1
  | array count inner =>
    rw [hplan] at h hmake
    obtain ⟨element, t, helement, hnamed⟩ := (bind_ok _ _ _ _ _).mp h
    exact hmake _ _ t (hrec _ _ _ _ hst helement).2.1 (Makes.array count inner element) rfl hnamed

/-- **Invariants.** A conversion that returns keeps every invariant of its calls. -/
theorem findByTypeInfo (hF : F.Laws) (hI : Invariant F G archi s₀ Inv) (fuel : Nat) (i : ι) (st st' : Session σ D)
    (d : D) (hst : Inv st) (h : TypeManager.findByTypeInfo F G archi fuel i st = .ok d st') : Inv st' := by
  refine findByTypeInfo_induction (fun _ st _ st' => Inv st → Inv st') ?_ ?_ fuel i st st' d h hst
  · intro i st d _ hst
    exact hst
  · intro fuel i st d st' hfind hrec hcarry hst
    refine hI.carryOut hF _ i st st' d hst hfind ?_ hcarry
    intro j s e s' hs he
    exact ⟨(findByTypeInfo_grows hF _ _ _ _ _ he).1, hrec j s e s' he hs,
      findByTypeInfo_bears hF fuel j s s' e (hI.extends_ s hs) he⟩

end Invariant

end Yagi.TypeManager
