import Mathlib.Logic.Relation
import Yagi.Types.Kinds
import Yagi.Types.Requests

/-!
# When no incomplete type is taken in by value

The types that are incomplete at any time are the structs on the way to the type
info that is converted. If none of them leads back to what contains it, no type is
taken in before it is complete.
-/

open Text Effect Relation

namespace Yagi.TypeManager

variable {σ D ι : Type} (F : TypeFactory σ D) (G : TypeGraph ι) (archi : TypeArchitecture)

def Leads : ι → ι → Prop := ReflTransGen fun i j => j ∈ ((G.info i).plan archi).parts

/-- No struct leads back to a type info that contains it. -/
def NoWayBack : Prop :=
  ∀ i k, TransGen (Contains G archi) i k → ((G.info k).plan archi).isStruct → ¬ Leads G archi k i

/-- The incomplete types are structs that lead to `i`. -/
def OpenAbove (i : ι) (s : σ) : Prop :=
  ∀ x, F.named s x → F.isIncomplete s x →
    ∃ k, G.getName k = F.getName s x ∧ ((G.info k).plan archi).isStruct ∧ Leads G archi k i

/-- `d` is the type of `i`, or of what `i` is an array without elements of. -/
def Answers (i : ι) (s : σ) (d : D) : Prop :=
  F.named s d ∧ ∃ j, ReflTransGen (Contains G archi) i j ∧ G.getName j = F.getName s d

/-- No type is left incomplete, and none was taken in so. -/
structure Closes (st st' : Session σ D) : Prop where
  incomplete : ∀ x, F.named st'.factory x → F.isIncomplete st'.factory x →
    F.named st.factory x ∧ F.isIncomplete st.factory x
  steps : (∀ step ∈ st.steps, Whole F step) → ∀ step ∈ st'.steps, Whole F step

variable {F G archi}

theorem contains_of_plan (i j : ι) (plan : Plan ι) (hplan : (G.info i).plan archi = plan) (hj : j ∈ plan.contents) :
    Contains G archi i j := by
  unfold Contains
  rw [hplan]
  exact hj

theorem Closes.refl (st : Session σ D) : Closes F st st := ⟨fun _ hx hopen => ⟨hx, hopen⟩, fun h => h⟩

theorem Closes.trans (s t u : Session σ D) (h₁ : Closes F s t) (h₂ : Closes F t u) : Closes F s u := by
  refine ⟨?_, fun h => h₂.steps (h₁.steps h)⟩
  intro x hx hopen
  obtain ⟨hx', hopen'⟩ := h₂.incomplete x hx hopen
  exact h₁.incomplete x hx' hopen'

theorem OpenAbove.grow (i : ι) (st st' : Session σ D) (h : OpenAbove F G archi i st.factory)
    (hext : F.Extends st.factory st'.factory) (hcloses : Closes F st st') : OpenAbove F G archi i st'.factory := by
  intro x hx hopen
  obtain ⟨hx', hopen'⟩ := hcloses.incomplete x hx hopen
  obtain ⟨k, hk, hstruct, hleads⟩ := h x hx' hopen'
  exact ⟨k, hk.trans (hext.getName x hx').symm, hstruct, hleads⟩

theorem OpenAbove.part (i j : ι) (s : σ) (h : OpenAbove F G archi i s) (hj : j ∈ ((G.info i).plan archi).parts) :
    OpenAbove F G archi j s := by
  intro x hx hopen
  obtain ⟨k, hk, hstruct, hleads⟩ := h x hx hopen
  exact ⟨k, hk, hstruct, hleads.tail hj⟩

theorem Answers.extend (i : ι) (s t : σ) (d : D) (hext : F.Extends s t) (h : Answers F G archi i s d) :
    Answers F G archi i t d := by
  obtain ⟨hnamed, j, hj, hname⟩ := h
  exact ⟨hext.named d hnamed, j, hj, hname.trans (hext.getName d hnamed).symm⟩

theorem Answers.complete (hback : NoWayBack G archi) (i j : ι) (s : σ) (d : D) (hopen : OpenAbove F G archi i s)
    (hj : Contains G archi i j) (h : Answers F G archi j s d) : F.isIncomplete s d = false := by
  obtain ⟨hnamed, k, hk, hname⟩ := h
  cases hd : F.isIncomplete s d with
  | false => rfl
  | true =>
    obtain ⟨k', hk', hstruct, hleads⟩ := hopen d hnamed hd
    obtain rfl : k' = k := G.getName_injective k' k (hk'.trans hname.symm)
    exact absurd hleads (hback i k' (TransGen.head' hj hk) hstruct)

/-! ## Single calls -/

theorem after_whole (st : Session σ D) (c : TypeCall D) (hwhole : Whole F ⟨st.factory, c⟩)
    (h : ∀ step ∈ st.steps, Whole F step) : ∀ step ∈ (Session.after F st c).steps, Whole F step := by
  intro step hstep
  rcases List.mem_append.mp hstep with hstep | hstep
  · exact h step hstep
  · obtain rfl := List.mem_singleton.mp hstep
    exact hwhole

theorem after_closes (st : Session σ D) (c : TypeCall D) (hwhole : Whole F ⟨st.factory, c⟩)
    (hincomplete : ∀ x, F.named (F.exec c st.factory).2 x → F.isIncomplete (F.exec c st.factory).2 x →
      F.named st.factory x ∧ F.isIncomplete st.factory x) : Closes F st (Session.after F st c) :=
  ⟨hincomplete, after_whole st c hwhole⟩

theorem whole_of_embedded (step : FactoryStep σ D) (h : embedded step.call = []) : Whole F step := by
  unfold Whole
  rw [h]
  simp

theorem makeNamed_closes (hF : F.Laws) (c : TypeCall D) (n : Str) (st st' : Session σ D) (d : D) (size : Int)
    (hc : F.madeSize st.factory c = some size) (hwhole : Whole F ⟨st.factory, c⟩)
    (h : makeNamed F c n st = .ok d st') : Closes F st st' := by
  obtain ⟨rfl, rfl⟩ := makeNamed_ok c n st st' d h
  have hunnamed := make_unnamed_after hF c st.factory size hc
  refine Closes.trans _ _ _ (after_closes st c hwhole ?_) (after_closes _ _ (whole_of_embedded _ rfl) ?_)
  · intro x hx hopen
    have hx' := (hF.make_named c _ size hc x).mp hx
    exact ⟨hx', ((hF.make_extends c _ size hc).isIncomplete x hx').symm.trans hopen⟩
  · intro x hx hopen
    have hx' : F.named (F.exec c st.factory).2 x := by
      refine ((hF.setName_named _ n _ hunnamed x).mp hx).resolve_right ?_
      rintro rfl
      -- What was made is complete.
      have hcomplete := (hF.setName_complete _ n _ hunnamed).trans (hF.make_complete c _ size hc)
      exact absurd (hcomplete.symm.trans hopen) (by decide)
    exact ⟨hx', ((hF.setName_extends _ n _ hunnamed).isIncomplete x hx').symm.trans hopen⟩

theorem makeNamed_answers (hF : F.Laws) (i : ι) (c : TypeCall D) (st st' : Session σ D) (d : D) (size : Int)
    (hc : F.madeSize st.factory c = some size) (h : makeNamed F c (G.getName i) st = .ok d st') :
    Answers F G archi i st'.factory d :=
  ⟨(makeNamed_grows hF c _ st st' d size hc h).2, i, ReflTransGen.refl, (makeNamed_name hF c _ st st' d size hc h).symm⟩

/-! ## A conversion -/

/-- What the conversion of a part of `i` does. -/
def PartCloses (F : TypeFactory σ D) (G : TypeGraph ι) (archi : TypeArchitecture)
    (findByTypeInfo : ι → Conversion σ D D) (i : ι) : Prop :=
  ∀ j ∈ ((G.info i).plan archi).parts, ∀ s d s', OpenAbove F G archi i s.factory → findByTypeInfo j s = .ok d s' →
    Grows F s s' ∧ Closes F s s' ∧ Answers F G archi j s'.factory d

theorem loop_closes {α β : Type} (i : ι) (f : α → Conversion σ D β) (part : α → ι) (type : β → D) (xs : List α)
    (hxs : ∀ x ∈ xs, ∀ s y s', OpenAbove F G archi i s.factory → f x s = .ok y s' →
      Grows F s s' ∧ Closes F s s' ∧ Answers F G archi (part x) s'.factory (type y))
    (st st' : Session σ D) (ys : List β) (hst : OpenAbove F G archi i st.factory) (h : xs.mapM f st = .ok ys st') :
    Grows F st st' ∧ OpenAbove F G archi i st'.factory ∧ Closes F st st' ∧
      List.Forall₂ (fun x y => Answers F G archi (part x) st'.factory (type y)) xs ys := by
  have hstep : ∀ x ∈ xs, ∀ s y s', OpenAbove F G archi i s.factory ∧ Closes F st s → f x s = .ok y s' →
      Grows F s s' ∧ (OpenAbove F G archi i s'.factory ∧ Closes F st s') ∧
        Answers F G archi (part x) s'.factory (type y) := by
    rintro x hx s y s' ⟨hs, hcloses⟩ hy
    obtain ⟨hgrows, hcloses', hanswers⟩ := hxs x hx s y s' hs hy
    exact ⟨hgrows, ⟨hs.grow i s s' hgrows.extends_ hcloses', hcloses.trans _ _ _ hcloses'⟩, hanswers⟩
  obtain ⟨hgrows, ⟨hopen, hcloses⟩, hys⟩ := mapM_keeps (fun s => OpenAbove F G archi i s.factory ∧ Closes F st s) f
    (fun x y s => Answers F G archi (part x) s (type y)) xs (fun x y s t => Answers.extend (part x) s t (type y))
    hstep st st' ys ⟨hst, Closes.refl st⟩ h
  exact ⟨hgrows, hopen, hcloses, hys⟩

theorem struct_closes (hF : F.Laws) (hback : NoWayBack G archi) (findByTypeInfo : ι → Conversion σ D D) (i : ι)
    (infos : List (TypeStructField ι)) (st st' : Session σ D) (d : D) (hopen : OpenAbove F G archi i st.factory)
    (hn : F.findByIdLocal st.factory (G.getName i) = none) (hplan : (G.info i).plan archi = .struct infos)
    (hrec : PartCloses F G archi findByTypeInfo i)
    (h : parseStruct F findByTypeInfo infos (G.getName i) st = .ok d st') :
    Closes F st st' ∧ Answers F G archi i st'.factory d := by
  obtain ⟨result, u, rfl, hfields, rfl⟩ := parseStruct_ok _ _ _ _ _ _ h
  have hstart : OpenAbove F G archi i (Session.after F st (.getTypeStruct (G.getName i))).factory := by
    intro x hx hopen'
    have hext := hF.struct_extends _ _ hn
    rcases (hF.struct_named _ _ hn x).mp hx with hx | rfl
    · obtain ⟨k, hk, hstruct, hleads⟩ := hopen x hx ((hext.isIncomplete x hx).symm.trans hopen')
      exact ⟨k, hk.trans (hext.getName x hx).symm, hstruct, hleads⟩
    · exact ⟨i, (hF.struct_getName _ _ hn).symm, by rw [hplan]; rfl, ReflTransGen.refl⟩
  obtain ⟨hgrows, hu, hcloses, hresult⟩ := loop_closes i _ (·.type) (·.type) infos
    (fun info hinfo s field s' hs hfield => hrec info.type (by rw [hplan]; exact List.mem_map_of_mem hinfo) s _ s' hs
      (parseField_ok _ _ _ _ _ hfield).1) _ _ _ hstart hfields
  obtain ⟨hnamed, hopenStruct⟩ := struct_open hF _ st u hn hgrows
  have hname := (hF.fields_getName result _ _ hnamed hopenStruct _ hnamed).trans (struct_name hF _ st u hn hgrows)
  have hcomplete := hF.fields_complete result _ _ hnamed hopenStruct
  refine ⟨?_, (hF.fields_named result _ _ hnamed hopenStruct _).mpr hnamed, i, ReflTransGen.refl, hname.symm⟩
  have hwhole : Whole F ⟨u.factory, .setFields result (F.exec (.getTypeStruct (G.getName i)) st.factory).1 0 0⟩ := by
    intro type htype
    obtain ⟨field, hfield, rfl⟩ := List.mem_map.mp htype
    obtain ⟨k, hk, rfl⟩ := List.getElem_of_mem hfield
    have hlt : k < infos.length := by rw [hresult.length_eq]; exact hk
    exact Answers.complete hback i _ _ _ hu (contains_of_plan i _ _ hplan (List.mem_map_of_mem (List.getElem_mem hlt)))
      (hresult.get hlt hk)
  refine ⟨?_, ?_⟩
  · intro x hx hopenx
    have hx' := (hF.fields_named result _ _ hnamed hopenStruct x).mp hx
    have hne : x ≠ (F.exec (.getTypeStruct (G.getName i)) st.factory).1 := by
      rintro rfl
      exact absurd (hcomplete.symm.trans hopenx) (by decide)
    have hopen' := (hF.fields_other_complete result _ _ hnamed hopenStruct x hx' hne).symm.trans hopenx
    obtain ⟨hold, hopen''⟩ := hcloses.incomplete x hx' hopen'
    have hx'' := ((hF.struct_named _ _ hn x).mp hold).resolve_right hne
    exact ⟨hx'', ((hF.struct_extends _ _ hn).isIncomplete x hx'').symm.trans hopen''⟩
  · intro hsteps
    exact after_whole u _ hwhole (hcloses.steps (after_whole st _ (whole_of_embedded _ rfl) hsteps))

theorem carryOut_closes (hF : F.Laws) (hback : NoWayBack G archi) (findByTypeInfo : ι → Conversion σ D D) (i : ι)
    (st st' : Session σ D) (d : D) (hopen : OpenAbove F G archi i st.factory)
    (hn : F.findByIdLocal st.factory (G.getName i) = none) (hrec : PartCloses F G archi findByTypeInfo i)
    (h : carryOut F archi findByTypeInfo (G.getName i) ((G.info i).plan archi) st = .ok d st') :
    Closes F st st' ∧ Answers F G archi i st'.factory d := by
  cases hplan : (G.info i).plan archi with
  | make base =>
    rw [hplan] at h
    have hsize := madeSize_base (F := F) st.factory base
    have hwhole : Whole F ⟨st.factory, base.call⟩ := whole_of_embedded _ (by cases base <;> rfl)
    exact ⟨makeNamed_closes hF _ _ _ _ _ _ hsize hwhole h, makeNamed_answers hF i _ _ _ _ _ hsize h⟩
  | pointer pointed =>
    rw [hplan] at h
    obtain ⟨pointee, t, hpointee, hmake⟩ := (bind_ok _ _ _ _ _).mp h
    obtain ⟨-, hcloses, -⟩ := hrec pointed (by rw [hplan]; exact List.mem_singleton_self _) _ _ _ hopen hpointee
    exact ⟨hcloses.trans _ _ _ (makeNamed_closes hF _ _ _ _ _ _ rfl (whole_of_embedded _ rfl) hmake),
      makeNamed_answers hF i _ _ _ _ _ rfl hmake⟩
  | struct infos =>
    rw [hplan] at h
    exact struct_closes hF hback _ i infos st st' d hopen hn hplan hrec h
  | func func =>
    rw [hplan] at h
    obtain ⟨ds, types, u, hds, hmake⟩ := parseFunc_ok archi _ _ _ _ _ h
    have hvoidCloses : Closes F st (Session.after F st .getTypeVoid) := by
      refine after_closes st _ (whole_of_embedded _ rfl) ?_
      intro x hx hopen'
      have hx' := (hF.void_named _ x).mp hx
      exact ⟨hx', ((hF.void_extends _).isIncomplete x hx').symm.trans hopen'⟩
    obtain ⟨-, -, hcloses, -⟩ := loop_closes i findByTypeInfo id id func.getFuncPrototype
      (fun j hj => hrec j (by rw [hplan]; exact hj)) _ u ds (hopen.grow i _ _ (hF.void_extends _) hvoidCloses) hds
    rw [G.plan_getName archi i func hplan] at hmake
    have hmakeCloses := makeNamed_closes hF _ _ _ _ _ _ rfl (whole_of_embedded _ rfl) hmake
    exact ⟨hvoidCloses.trans _ _ _ (hcloses.trans _ _ _ hmakeCloses), makeNamed_answers hF i _ _ _ _ _ rfl hmake⟩
  | element inner =>
    rw [hplan] at h
    obtain ⟨-, hcloses, hnamed, j, hj, hname⟩ := hrec inner (by rw [hplan]; exact List.mem_singleton_self _) _ _ _ hopen h
    have hcontains := contains_of_plan i inner _ hplan (List.mem_singleton_self _)
    exact ⟨hcloses, hnamed, j, ReflTransGen.head hcontains hj, hname⟩
  | array count inner =>
    rw [hplan] at h
    obtain ⟨element, t, helement, hmake⟩ := (bind_ok _ _ _ _ _).mp h
    obtain ⟨hgrows, hcloses, hanswers⟩ := hrec inner (by rw [hplan]; exact List.mem_singleton_self _) _ _ _ hopen helement
    have hwhole : Whole F ⟨t.factory, .getTypeArray count element⟩ := by
      intro type htype
      obtain rfl := List.mem_singleton.mp htype
      exact Answers.complete hback i inner _ _ (hopen.grow i _ _ hgrows.extends_ hcloses)
        (contains_of_plan i inner _ hplan (List.mem_singleton_self _)) hanswers
    exact ⟨hcloses.trans _ _ _ (makeNamed_closes hF _ _ _ _ _ _ rfl hwhole hmake),
      makeNamed_answers hF i _ _ _ _ _ rfl hmake⟩

theorem findByTypeInfo_closes (hF : F.Laws) (hback : NoWayBack G archi) (fuel : Nat) (i : ι) (st st' : Session σ D)
    (d : D) (hopen : OpenAbove F G archi i st.factory) (h : findByTypeInfo F G archi fuel i st = .ok d st') :
    Closes F st st' ∧ Answers F G archi i st'.factory d := by
  refine findByTypeInfo_induction (fun i st d st' => OpenAbove F G archi i st.factory →
    Closes F st st' ∧ Answers F G archi i st'.factory d) ?_ ?_ fuel i st st' d h hopen
  · intro i st d hfind _
    obtain ⟨hnamed, hname⟩ := hF.found_named _ _ _ hfind
    exact ⟨Closes.refl st, hnamed, i, ReflTransGen.refl, hname.symm⟩
  · intro fuel i st d st' hfind hrec hcarry hopen
    refine carryOut_closes hF hback _ i st st' d hopen hfind ?_ hcarry
    intro j hj s e s' hs he
    exact ⟨(findByTypeInfo_grows hF _ _ _ _ _ he).1, hrec j s e s' he (hs.part i j _ hj)⟩

/-- **Whole runs.** From a cache of complete types, in a graph in which no struct leads back to what contains
it, no run takes in an incomplete type. -/
theorem convert_whole (hF : F.Laws) (hback : NoWayBack G archi) (s₀ : σ)
    (hs₀ : ∀ x, F.named s₀ x → F.isIncomplete s₀ x = false) (fuel : Nat) (requests : List ι) (st : Session σ D)
    (ds : List D) (h : convert F G archi fuel requests ⟨s₀, []⟩ = .ok ds st) : ∀ step ∈ st.steps, Whole F step := by
  -- Between two requests no type is incomplete.
  have hopen : ∀ (s : Session σ D) i, Closes F ⟨s₀, []⟩ s → OpenAbove F G archi i s.factory := by
    intro s i hs x hx hopen
    obtain ⟨hx', hopen'⟩ := hs.incomplete x hx hopen
    exact absurd ((hs₀ x hx').symm.trans hopen') (by decide)
  have hstep : ∀ i ∈ requests, ∀ s d s', Closes F ⟨s₀, []⟩ s → findByTypeInfo F G archi fuel i s = .ok d s' →
      Grows F s s' ∧ Closes F ⟨s₀, []⟩ s' ∧ True := by
    intro i _ s d s' hs hd
    obtain ⟨hcloses, -⟩ := findByTypeInfo_closes hF hback fuel i s s' d (hopen s i hs) hd
    exact ⟨(findByTypeInfo_grows hF fuel i s s' d hd).1, hs.trans _ _ _ hcloses, trivial⟩
  obtain ⟨-, hcloses, -⟩ := mapM_keeps (Closes F ⟨s₀, []⟩) _ (fun _ _ _ => True) requests (fun _ _ _ _ _ h => h)
    hstep _ st ds (Closes.refl _) h
  exact hcloses.steps fun _ hstep => absurd hstep List.not_mem_nil

/-! ## Any order of requests -/

section

variable (level : ι → Nat) (hparts : ∀ i, ∀ j ∈ ((G.info i).plan archi).parts, level j ≤ level i)
  (hcontents : ∀ i, ∀ j ∈ ((G.info i).plan archi).contents,
    ((G.info j).plan archi).isStruct ∨ ((G.info j).plan archi).contents ≠ [] → level j < level i)

include hparts in
theorem level_of_leads (k i : ι) (h : Leads G archi k i) : level i ≤ level k := by
  induction h with
  | refl => exact Nat.le_refl _
  | tail _ hpart ih => exact (hparts _ _ hpart).trans ih

include hcontents in
theorem level_of_contains (i k : ι) (h : TransGen (Contains G archi) i k) (hk : ((G.info k).plan archi).isStruct) :
    level k < level i := by
  induction h using TransGen.head_induction_on with
  | single hik => exact hcontents _ _ hik (Or.inl hk)
  | head hij hjk ih =>
    obtain ⟨m, hm, -⟩ := TransGen.head'_iff.mp hjk
    exact ih.trans (hcontents _ _ hij (Or.inr (List.ne_nil_of_mem hm)))

include hparts hcontents in
/-- References may lead to the same level, and what a struct holds by value is below it. -/
theorem noWayBack_of_levels : NoWayBack G archi := by
  intro i k hik hk hki
  have hlt := level_of_contains level hcontents i k hik hk
  have hle := level_of_leads level hparts k i hki
  omega

end

/-- **Any order.** Where no struct leads back to what contains it, any two runs lay out a struct in the same way. -/
theorem layouts_order_free (hF : F.Laws) (hback : NoWayBack G archi) (s₀ : σ) (hfresh : Fresh F s₀)
    (hs₀ : ∀ x, F.named s₀ x → F.isIncomplete s₀ x = false) (fuel fuel' : Nat) (requests requests' : List ι)
    (st st' : Session σ D) (ds ds' : List D) (h : convert F G archi fuel requests ⟨s₀, []⟩ = .ok ds st)
    (h' : convert F G archi fuel' requests' ⟨s₀, []⟩ = .ok ds' st') (l l' : StructLayout)
    (hl : l ∈ layouts F st.steps) (hl' : l' ∈ layouts F st'.steps) (hname : l.name = l'.name) : l = l' := by
  have hst := convert_sound hF _ _ _ _ _ (fresh_sound hfresh) h
  have hst' := convert_sound hF _ _ _ _ _ (fresh_sound hfresh) h'
  have hwhole := convert_whole hF hback s₀ hs₀ fuel requests st ds h
  have hwhole' := convert_whole hF hback s₀ hs₀ fuel' requests' st' ds' h'
  exact RightLayout.unique l l' ((hst.whole hwhole).2 l hl) ((hst'.whole hwhole').2 l' hl') hname

/-- `struct node { int value; node *next; }` and `struct list { node head; int size; char tag; bool sorted; }`. -/
def nodeInfo : Fin 6 → TypeInfo (Fin 6)
  | 0 => { plainInfo (ascii "node") 16 with toStruct := some [⟨0, ascii "value", 2⟩, ⟨8, ascii "next", 1⟩] }
  | 1 => { plainInfo (ascii "node *") 8 with toPtr := some 0 }
  | 2 => { plainInfo (ascii "int") 4 with isInt := true }
  | 3 => { plainInfo (ascii "list") 24 with
      toStruct := some [⟨0, ascii "head", 0⟩, ⟨16, ascii "size", 2⟩, ⟨20, ascii "tag", 4⟩, ⟨21, ascii "sorted", 5⟩] }
  | 4 => { plainInfo (ascii "char") 1 with isChar := true }
  | 5 => { plainInfo (ascii "bool") 1 with isBool := true }

def nodes : TypeGraph (Fin 6) := .ofInfos nodeInfo (by decide) (by decide) (by decide)

theorem coreTypes_complete (x : Nat) (_ : TypeTable.factory.named TypeTable.coreTypes x) :
    TypeTable.factory.isIncomplete TypeTable.coreTypes x = false := by
  cases x <;> rfl

theorem nodes_noWayBack : NoWayBack nodes archi64 := by
  apply noWayBack_of_levels fun i => if i = 3 then 2 else if i < 2 then 1 else 0
  · decide
  · decide

theorem layouts_order_free_nodes :
    ∃ ds st ds' st', convert TypeTable.factory nodes archi64 20 [1, 3] ⟨TypeTable.coreTypes, []⟩ = .ok ds st ∧
      convert TypeTable.factory nodes archi64 20 [3] ⟨TypeTable.coreTypes, []⟩ = .ok ds' st' ∧
      (layouts TypeTable.factory st.steps).map (·.name) = [ascii "node", ascii "list"] ∧
      ∀ l ∈ layouts TypeTable.factory st.steps, ∀ l' ∈ layouts TypeTable.factory st'.steps,
        l.name = l'.name → l = l' := by
  obtain ⟨ds, st, h, hnames⟩ : ∃ ds st,
      convert TypeTable.factory nodes archi64 20 [1, 3] ⟨TypeTable.coreTypes, []⟩ = .ok ds st ∧
      (layouts TypeTable.factory st.steps).map (·.name) = [ascii "node", ascii "list"] :=
    ⟨_, _, rfl, by decide +kernel⟩
  obtain ⟨ds', st', h'⟩ : ∃ ds' st',
      convert TypeTable.factory nodes archi64 20 [3] ⟨TypeTable.coreTypes, []⟩ = .ok ds' st' := ⟨_, _, rfl⟩
  refine ⟨ds, st, ds', st', h, h', hnames, ?_⟩
  intro l hl l' hl' hname
  exact layouts_order_free TypeTable.laws nodes_noWayBack TypeTable.coreTypes coreTypes_fresh coreTypes_complete 20 20
    [1, 3] [3] st st' ds ds' h h' l l' hl hl' hname

end Yagi.TypeManager
