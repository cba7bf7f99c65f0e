import Yagi.Lib.Rank
import Yagi.Types.Invariant
import Yagi.Types.Layout
import Yagi.Types.Table

/-!
# Two sequences of requests

Whatever was converted before, a struct is laid out in the same way, as long as no
incomplete type is taken in by value.
-/

open Text Effect

namespace Yagi.TypeManager

variable {σ D ι : Type} {F : TypeFactory σ D} {G : TypeGraph ι} {archi : TypeArchitecture} {s₀ : σ}

/-! ## A conversion -/

theorem parseField_sound (findByTypeInfo : ι → Conversion σ D D) (info : TypeStructField ι) (st st' : Session σ D)
    (field : TypeField D) (hst : Sound F G archi s₀ st)
    (hrec : ∀ j s d s', Sound F G archi s₀ s → findByTypeInfo j s = .ok d s' →
      Grows F s s' ∧ Sound F G archi s₀ s' ∧ Converted F G archi s₀ j s'.factory d)
    (h : parseField findByTypeInfo info st = .ok field st') :
    Grows F st st' ∧ Sound F G archi s₀ st' ∧ FieldConverted F G archi s₀ info field st'.factory := by
  obtain ⟨htype, hoffset, hname⟩ := parseField_ok _ _ _ _ _ h
  obtain ⟨hgrows, hsound, hconverted⟩ := hrec _ _ _ _ hst htype
  exact ⟨hgrows, hsound, hoffset, hname, hconverted⟩

theorem carryOut_sound (hF : F.Laws) (findByTypeInfo : ι → Conversion σ D D) (i : ι) (st st' : Session σ D) (d : D)
    (hst : Sound F G archi s₀ st) (hn : F.findByIdLocal st.factory (G.getName i) = none)
    (hrec : ∀ j s d s', Sound F G archi s₀ s → findByTypeInfo j s = .ok d s' →
      Grows F s s' ∧ Sound F G archi s₀ s' ∧ Converted F G archi s₀ j s'.factory d)
    (h : carryOut F archi findByTypeInfo (G.getName i) ((G.info i).plan archi) st = .ok d st') :
    Sound F G archi s₀ st' ∧ Converted F G archi s₀ i st'.factory d := by
  have hcore := hst.notCore _ _ hn
  cases hplan : (G.info i).plan archi with
  | make base =>
    rw [hplan] at h
    exact makeNamed_sound hF i _ _ _ _ _ hst (madeSize_base _ base) (fun _ _ => Shape.make i base hcore hplan) h
  | pointer pointed =>
    rw [hplan] at h
    obtain ⟨pointee, t, hpointee, hmake⟩ := (bind_ok _ _ _ _ _).mp h
    obtain ⟨-, ht, -⟩ := hrec _ _ _ _ hst hpointee
    exact makeNamed_sound hF i _ _ _ _ _ ht rfl (fun _ _ => Shape.pointer i pointed hcore hplan) hmake
  | struct infos =>
    rw [hplan] at h
    obtain ⟨result, u, rfl, hfields, rfl⟩ := parseStruct_ok _ _ _ _ _ _ h
    obtain ⟨hgrows, hu, hresult⟩ := mapM_keeps (Sound F G archi s₀) _ (FieldConverted F G archi s₀) infos
      (fun _ _ s t hext hfield => ⟨hfield.1, hfield.2.1, Converted.extend _ s t _ hext hfield.2.2⟩)
      (fun info _ s field s' hs hfield => parseField_sound _ info s s' field hs hrec hfield)
      _ _ _ (getTypeStruct_sound hF st _ hst hn) hfields
    exact setFields_sound hF i infos result st u hst hu hn hplan hgrows hresult
  | func func =>
    rw [hplan] at h
    obtain ⟨ds, types, u, hds, hmake⟩ := parseFunc_ok archi _ _ _ _ _ h
    have hvoidSound := after_sound st .getTypeVoid hst (hF.void_extends _) (hF.void_named _) rfl
    obtain ⟨-, hu, -⟩ := mapM_keeps (Sound F G archi s₀) findByTypeInfo (fun i d s => Converted F G archi s₀ i s d)
      func.getFuncPrototype (fun i d s t => Converted.extend i s t d) (fun i _ => hrec i) _ u ds hvoidSound hds
    rw [G.plan_getName archi i func hplan] at hmake
    exact makeNamed_sound hF i _ _ _ _ _ hu rfl (fun _ _ => Shape.func i func hcore hplan) hmake
  | element inner =>
    rw [hplan] at h
    obtain ⟨-, hsound, hnamed, j, hj, hshape⟩ := hrec _ _ _ _ hst h
    exact ⟨hsound, hnamed, j, hj, fun n z hjz => Shape.element i inner n z hcore hplan (hshape n z hjz)⟩
  | array count inner =>
    rw [hplan] at h
    obtain ⟨element, t, helement, hmake⟩ := (bind_ok _ _ _ _ _).mp h
    obtain ⟨-, ht, hconverted⟩ := hrec _ _ _ _ hst helement
    refine makeNamed_sound hF i _ _ _ _ _ ht rfl (fun hwhole hshaped => ?_) hmake
    exact Shape.array i count inner _ _ hcore hplan (hconverted.shape _ _ _ hshaped (hwhole _ List.mem_cons_self))

theorem findByTypeInfo_sound (hF : F.Laws) (fuel : Nat) (i : ι) (st st' : Session σ D) (d : D)
    (hst : Sound F G archi s₀ st) (h : findByTypeInfo F G archi fuel i st = .ok d st') :
    Sound F G archi s₀ st' ∧ Converted F G archi s₀ i st'.factory d := by
  refine findByTypeInfo_induction (fun i st d st' => Sound F G archi s₀ st →
    Sound F G archi s₀ st' ∧ Converted F G archi s₀ i st'.factory d) ?_ ?_ fuel i st st' d h hst
  · intro i st d hfind hst
    obtain ⟨hnamed, hname⟩ := hF.found_named _ _ _ hfind
    exact ⟨hst, hnamed, i, hname.symm, fun _ _ h => h⟩
  · intro fuel i st d st' hfind hrec hcarry hst
    refine carryOut_sound hF _ i st st' d hst hfind ?_ hcarry
    intro j s e s' hs he
    exact ⟨(findByTypeInfo_grows hF _ _ _ _ _ he).1, hrec j s e s' he hs⟩

/-! ## Requests -/

theorem fresh_sound (hs₀ : Fresh F s₀) : Sound F G archi s₀ ⟨s₀, []⟩ := by
  refine ⟨TypeFactory.Extends.refl F s₀, fun _ => ⟨?_, by simp [layouts]⟩⟩
  intro d hd _ i hi
  have hfound : F.findByIdLocal s₀ (G.getName i) = some d := by
    rw [hi]
    exact hs₀ d hd
  exact Shape.of_eq i _ _ _ _ (Shape.core i d hfound) hi.symm rfl

theorem convert_sound (hF : F.Laws) (fuel : Nat) (requests : List ι) (st st' : Session σ D) (ds : List D)
    (hst : Sound F G archi s₀ st) (h : convert F G archi fuel requests st = .ok ds st') : Sound F G archi s₀ st' := by
  unfold convert at h
  refine (mapM_keeps (Sound F G archi s₀) _ (fun i d s => Converted F G archi s₀ i s d) requests
    (fun i d s t => Converted.extend i s t d) ?_ _ _ _ hst h).2.1
  intro i _ s d s' hs hd
  exact ⟨(findByTypeInfo_grows hF _ _ _ _ _ hd).1, findByTypeInfo_sound hF fuel i s s' d hs hd⟩

/-- **Order of requests.** In two runs from a fresh cache that take in no incomplete type by value, a
struct that both convert has one layout. -/
theorem layouts_agree (hF : F.Laws) (hs₀ : Fresh F s₀) (fuel fuel' : Nat) (requests requests' : List ι)
    (st st' : Session σ D) (ds ds' : List D) (h : convert F G archi fuel requests ⟨s₀, []⟩ = .ok ds st)
    (h' : convert F G archi fuel' requests' ⟨s₀, []⟩ = .ok ds' st') (hwhole : ∀ step ∈ st.steps, Whole F step)
    (hwhole' : ∀ step ∈ st'.steps, Whole F step) (l l' : StructLayout) (hl : l ∈ layouts F st.steps)
    (hl' : l' ∈ layouts F st'.steps) (hname : l.name = l'.name) : l = l' := by
  have hstart : Sound F G archi s₀ ⟨s₀, []⟩ := fresh_sound hs₀
  have hst := convert_sound hF _ _ _ _ _ hstart h
  have hst' := convert_sound hF _ _ _ _ _ hstart h'
  exact RightLayout.unique l l' ((hst.whole hwhole).2 l hl) ((hst'.whole hwhole').2 l' hl') hname

theorem coreTypes_fresh : Fresh TypeTable.factory TypeTable.coreTypes := by
  intro d hd
  have hlt : d < TypeTable.coreTypes.length := by
    apply Table.lt_length_of_get_ne TypeRow.blank
    rintro hblank
    rw [show TypeTable.factory.named TypeTable.coreTypes d ↔ (TypeTable.coreTypes.row d).named from Iff.rfl,
      TypeTable.row, hblank] at hd
    exact absurd hd (by decide)
  obtain rfl : d = 0 := Nat.lt_one_iff.mp hlt
  decide

theorem layouts_agree_linked :
    ∃ ds st ds' st', convert TypeTable.factory linked archi64 20 [1] ⟨TypeTable.coreTypes, []⟩ = .ok ds st ∧
      convert TypeTable.factory linked archi64 20 [2, 0] ⟨TypeTable.coreTypes, []⟩ = .ok ds' st' ∧
      (layouts TypeTable.factory st.steps).map (·.name) = [ascii "A", ascii "B"] ∧
      (layouts TypeTable.factory st'.steps).map (·.name) = [ascii "A", ascii "B"] ∧
      ∀ l ∈ layouts TypeTable.factory st.steps, ∀ l' ∈ layouts TypeTable.factory st'.steps,
        l.name = l'.name → l = l' := by
  obtain ⟨ds, st, h, hwhole, hnames⟩ : ∃ ds st,
      convert TypeTable.factory linked archi64 20 [1] ⟨TypeTable.coreTypes, []⟩ = .ok ds st ∧
      (∀ step ∈ st.steps, Whole TypeTable.factory step) ∧
      (layouts TypeTable.factory st.steps).map (·.name) = [ascii "A", ascii "B"] :=
    ⟨_, _, rfl, by decide +kernel, by decide +kernel⟩
  obtain ⟨ds', st', h', hwhole', hnames'⟩ : ∃ ds' st',
      convert TypeTable.factory linked archi64 20 [2, 0] ⟨TypeTable.coreTypes, []⟩ = .ok ds' st' ∧
      (∀ step ∈ st'.steps, Whole TypeTable.factory step) ∧
      (layouts TypeTable.factory st'.steps).map (·.name) = [ascii "A", ascii "B"] :=
    ⟨_, _, rfl, by decide +kernel, by decide +kernel⟩
  refine ⟨ds, st, ds', st', h, h', hnames, hnames', ?_⟩
  intro l hl l' hl' hname
  exact layouts_agree TypeTable.laws coreTypes_fresh 20 20 [1] [2, 0] st st' ds ds' h h' hwhole hwhole' l l' hl hl' hname

def Contains (G : TypeGraph ι) (archi : TypeArchitecture) (i j : ι) : Prop :=
  j ∈ ((G.info i).plan archi).contents

/-- When `A` is asked for first, `B` is laid out around an `A` that has no fields yet. -/
theorem layouts_depend_on_requests :
    TypeTable.factory.Laws ∧ Fresh TypeTable.factory TypeTable.coreTypes ∧
      Rank.Acyclic (Contains linked archi64) ∧
      ∃ ds st ds' st', convert TypeTable.factory linked archi64 20 [0] ⟨TypeTable.coreTypes, []⟩ = .ok ds st ∧
        convert TypeTable.factory linked archi64 20 [1] ⟨TypeTable.coreTypes, []⟩ = .ok ds' st' ∧
        ⟨ascii "B", 0, [⟨0, ascii "a", ascii "A", 0⟩]⟩ ∈ layouts TypeTable.factory st.steps ∧
        ⟨ascii "B", 12, [⟨0, ascii "a", ascii "A", 12⟩]⟩ ∈ layouts TypeTable.factory st'.steps := by
  refine ⟨TypeTable.laws, coreTypes_fresh, ?_, _, _, _, _, rfl, rfl, by decide +kernel, by decide +kernel⟩
  apply Rank.acyclic_of_decreasing _ fun i => if i = 1 then 2 else if i = 0 then 1 else 0
  unfold Contains
  decide

end Yagi.TypeManager
