import Yagi.Lib.Rank
import Yagi.Types.Growth
import Yagi.Types.Table

/-!
# Conversions end

On the way down a conversion either names a struct for the first time, or stays
among the types that are no structs, where there is no cycle.
-/

open Text Effect

namespace Yagi.TypeManager

variable {σ D ι : Type} (F : TypeFactory σ D) (G : TypeGraph ι) (archi : TypeArchitecture)

/-- The parts of the types that are not structs. -/
def StructFree (i j : ι) : Prop :=
  ((G.info i).plan archi).isStruct = false ∧ j ∈ ((G.info i).plan archi).parts

/-! ## More fuel -/

section

variable {F archi} (f g : ι → Conversion σ D D)

theorem parsePrototype_mono (hfg : ∀ i s d s', f i s = .ok d s' → g i s = .ok d s') (void : D) (prototype : List ι)
    (st st' : Session σ D) (types : D × List D) (h : parsePrototype f void prototype st = .ok types st') :
    parsePrototype g void prototype st = .ok types st' := by
  cases prototype with
  | nil => exact h
  | cons ret params =>
    simp only [parsePrototype, bind_ok, pure_ok] at h ⊢
    obtain ⟨retType, t, hret, paramType, u, hparams, rfl, rfl⟩ := h
    exact ⟨retType, t, hfg _ _ _ _ hret, paramType, u, mapM_mono f g hfg _ _ _ _ hparams, rfl, rfl⟩

theorem carryOut_mono (hfg : ∀ i s d s', f i s = .ok d s' → g i s = .ok d s') (name : Str) (plan : Plan ι)
    (st st' : Session σ D) (d : D) (h : carryOut F archi f name plan st = .ok d st') :
    carryOut F archi g name plan st = .ok d st' := by
  cases plan with
  | make base => exact h
  | pointer pointed =>
    obtain ⟨pointee, t, hpointee, hmake⟩ := (bind_ok _ _ _ _ _).mp h
    exact (bind_ok _ _ _ _ _).mpr ⟨pointee, t, hfg _ _ _ _ hpointee, hmake⟩
  | struct fields =>
    obtain ⟨ct, t, hct, hrest⟩ := (bind_ok _ _ _ _ _).mp h
    obtain ⟨result, u, hresult, hset⟩ := (bind_ok _ _ _ _ _).mp hrest
    have hfield : ∀ info s field s', parseField f info s = .ok field s' → parseField g info s = .ok field s' := by
      intro info s field s' hok
      simp only [parseField, bind_ok, pure_ok] at hok ⊢
      obtain ⟨type, v, htype, rfl, rfl⟩ := hok
      exact ⟨type, v, hfg _ _ _ _ htype, rfl, rfl⟩
    refine (bind_ok _ _ _ _ _).mpr ⟨ct, t, hct, ?_⟩
    exact (bind_ok _ _ _ _ _).mpr ⟨result, u, mapM_mono _ _ hfield _ _ _ _ hresult, hset⟩
  | func func =>
    obtain ⟨void, t, hvoid, hrest⟩ := (bind_ok _ _ _ _ _).mp h
    obtain ⟨types, u, htypes, hmake⟩ := (bind_ok _ _ _ _ _).mp hrest
    refine (bind_ok _ _ _ _ _).mpr ⟨void, t, hvoid, ?_⟩
    exact (bind_ok _ _ _ _ _).mpr ⟨types, u, parsePrototype_mono f g hfg _ _ _ _ _ htypes, hmake⟩
  | element inner => exact hfg _ _ _ _ h
  | array count inner =>
    obtain ⟨element, t, helement, hmake⟩ := (bind_ok _ _ _ _ _).mp h
    exact (bind_ok _ _ _ _ _).mpr ⟨element, t, hfg _ _ _ _ helement, hmake⟩

end

variable {F G archi}

theorem findByTypeInfo_mono (fuel : Nat) (i : ι) (st st' : Session σ D) (d : D)
    (h : findByTypeInfo F G archi fuel i st = .ok d st') :
    findByTypeInfo F G archi (fuel + 1) i st = .ok d st' := by
  induction fuel generalizing i st st' d with
  | zero => exact (throw_ok _ _ _ _ h).elim
  | succ fuel ih =>
    rw [findByTypeInfo_succ] at h ⊢
    cases hfind : F.findByIdLocal st.factory (G.getName i) with
    | some cached =>
      rw [hfind] at h
      exact h
    | none =>
      rw [hfind] at h
      exact carryOut_mono _ _ (fun j s d s' => ih j s s' d) _ _ _ _ _ h

theorem findByTypeInfo_le (fuel fuel' : Nat) (hle : fuel ≤ fuel') (i : ι) (st st' : Session σ D) (d : D)
    (h : findByTypeInfo F G archi fuel i st = .ok d st') : findByTypeInfo F G archi fuel' i st = .ok d st' := by
  induction hle with
  | refl => exact h
  | step _ ih => exact findByTypeInfo_mono _ _ _ _ _ ih

/-! ## One plan -/

variable (F) in
/-- The state that the first part is converted in. -/
def entered (name : Str) (plan : Plan ι) (st : Session σ D) : Session σ D :=
  match plan with
  | .struct _ => Session.after F st (.getTypeStruct name)
  | .func _ => Session.after F st .getTypeVoid
  | _ => st

variable (F) in
theorem makeNamed_succeeds (c : TypeCall D) (n : Str) (st : Session σ D) : ∃ d st', makeNamed F c n st = .ok d st' :=
  ⟨_, _, rfl⟩

/-- A plan is carried out when its parts can be converted from all that the factory can become. -/
theorem carryOut_succeeds (findByTypeInfo : ι → Conversion σ D D) (name : Str) (plan : Plan ι) (st : Session σ D)
    (hrec : ∀ j ∈ plan.parts, ∀ t, F.Extends (entered F name plan st).factory t.factory →
      ∃ d t', findByTypeInfo j t = .ok d t' ∧ F.Extends t.factory t'.factory) :
    ∃ d st', carryOut F archi findByTypeInfo name plan st = .ok d st' := by
  -- While the parts are converted, the factory extends the one that was entered.
  have hpart : ∀ j ∈ plan.parts, ∀ t, F.Extends (entered F name plan st).factory t.factory →
      ∃ d t', findByTypeInfo j t = .ok d t' ∧ F.Extends (entered F name plan st).factory t'.factory := by
    intro j hj t ht
    obtain ⟨d, t', hd, ht'⟩ := hrec j hj t ht
    exact ⟨d, t', hd, ht.trans ht'⟩
  have hstart := TypeFactory.Extends.refl F (entered F name plan st).factory
  cases plan with
  | make base => exact makeNamed_succeeds F _ _ _
  | pointer pointed =>
    obtain ⟨pointee, t, hpointee, -⟩ := hpart pointed (by simp [Plan.parts]) st hstart
    obtain ⟨d, st', hmake⟩ := makeNamed_succeeds F
      (.getTypePointer archi.getAddrSize.toInt32 pointee archi.getWordSize) name t
    exact ⟨d, st', (bind_ok _ _ _ _ _).mpr ⟨pointee, t, hpointee, hmake⟩⟩
  | struct fields =>
    have hfield : ∀ info ∈ fields, ∀ t,
        F.Extends (entered F name (.struct fields) st).factory t.factory →
        ∃ field t', parseField findByTypeInfo info t = .ok field t' ∧
          F.Extends (entered F name (.struct fields) st).factory t'.factory := by
      intro info hinfo t ht
      obtain ⟨type, t', htype, ht'⟩ := hpart info.type (List.mem_map_of_mem hinfo) t ht
      exact ⟨_, t', (bind_ok _ _ _ _ _).mpr ⟨type, t', htype, rfl⟩, ht'⟩
    obtain ⟨result, u, hresult, -⟩ := mapM_succeeds _ _ fields hfield _ hstart
    exact ⟨_, _, (bind_ok _ _ _ _ _).mpr ⟨_, _, rfl, (bind_ok _ _ _ _ _).mpr ⟨result, u, hresult, rfl⟩⟩⟩
  | func func =>
    have htypes : ∃ types u, parsePrototype findByTypeInfo (F.exec .getTypeVoid st.factory).1
        func.getFuncPrototype (entered F name (.func func) st) = .ok types u := by
      have hpart' : ∀ j ∈ func.getFuncPrototype, _ := hpart
      cases hproto : func.getFuncPrototype with
      | nil => exact ⟨_, _, rfl⟩
      | cons ret params =>
        rw [hproto] at hpart'
        obtain ⟨retType, t, hret, ht⟩ := hpart' ret List.mem_cons_self _ hstart
        obtain ⟨paramType, u, hparams, -⟩ := mapM_succeeds _ _ params
          (fun param hparam => hpart' param (List.mem_cons_of_mem _ hparam)) t ht
        exact ⟨_, u, (bind_ok _ _ _ _ _).mpr ⟨retType, t, hret, (bind_ok _ _ _ _ _).mpr ⟨paramType, u, hparams, rfl⟩⟩⟩
    obtain ⟨types, u, htypes⟩ := htypes
    exact ⟨_, _, (bind_ok _ _ _ _ _).mpr ⟨_, _, rfl, (bind_ok _ _ _ _ _).mpr ⟨types, u, htypes, rfl⟩⟩⟩
  | element inner =>
    obtain ⟨d, st', hd, -⟩ := hpart inner (by simp [Plan.parts]) st hstart
    exact ⟨d, st', hd⟩
  | array count inner =>
    obtain ⟨element, t, helement, -⟩ := hpart inner (by simp [Plan.parts]) st hstart
    obtain ⟨d, st', hmake⟩ := makeNamed_succeeds F (.getTypeArray count element) name t
    exact ⟨d, st', (bind_ok _ _ _ _ _).mpr ⟨element, t, helement, hmake⟩⟩

/-! ## The measure -/

section

variable [Fintype ι]

open Classical in
variable (F G archi) in
noncomputable def pending (s : σ) : Finset ι :=
  Finset.univ.filter fun i => ((G.info i).plan archi).isStruct ∧ F.findByIdLocal s (G.getName i) = none

theorem mem_pending (s : σ) (i : ι) :
    i ∈ pending F G archi s ↔ ((G.info i).plan archi).isStruct ∧ F.findByIdLocal s (G.getName i) = none := by
  simp [pending]

theorem pending_subset (s t : σ) (hext : F.Extends s t) : pending F G archi t ⊆ pending F G archi s := by
  intro i hi
  rw [mem_pending] at hi ⊢
  refine ⟨hi.1, ?_⟩
  by_contra hne
  exact hext.found _ hne hi.2

theorem pending_lt (s t : σ) (i : ι) (hext : F.Extends s t) (hi : i ∈ pending F G archi s)
    (hfound : F.findByIdLocal t (G.getName i) ≠ none) :
    (pending F G archi t).card < (pending F G archi s).card := by
  apply Finset.card_lt_card
  refine ⟨pending_subset s t hext, ?_⟩
  intro hsub
  exact hfound ((mem_pending t i).mp (hsub hi)).2

variable (F G archi) in
noncomputable def measure (s : σ) (i : ι) : Nat :=
  (pending F G archi s).card * Fintype.card ι + Rank.rank (StructFree G archi) i

variable (hF : F.Laws) (hacyclic : Rank.Acyclic (StructFree G archi))

include hF hacyclic

theorem measure_lt_struct (s t : σ) (i j : ι) (hi : i ∈ pending F G archi s)
    (hext : F.Extends (F.exec (.getTypeStruct (G.getName i)) s).2 t) :
    measure F G archi t j < measure F G archi s i := by
  have hn := ((mem_pending s i).mp hi).2
  have hlt := pending_lt s t i ((hF.struct_extends _ s hn).trans hext) hi
    (hext.found _ (hF.struct_found _ s hn (G.getName_ne_nil i)))
  have hrank := Rank.rank_lt_card (StructFree G archi) hacyclic j
  have hmul := Nat.mul_le_mul_right (Fintype.card ι) (Nat.succ_le_of_lt hlt)
  unfold measure
  rw [Nat.succ_mul] at hmul
  omega

omit hF in
theorem measure_lt_part (s t : σ) (i j : ι) (hij : StructFree G archi i j) (hext : F.Extends s t) :
    measure F G archi t j < measure F G archi s i := by
  have hsub : pending F G archi t ⊆ pending F G archi s := pending_subset s t hext
  have hle := Finset.card_le_card hsub
  have hrank := Rank.rank_lt (StructFree G archi) hacyclic i j hij
  have hmul := Nat.mul_le_mul_right (Fintype.card ι) hle
  unfold measure
  omega

theorem measure_lt (i j : ι) (st : Session σ D) (t : σ) (hn : F.findByIdLocal st.factory (G.getName i) = none)
    (hj : j ∈ ((G.info i).plan archi).parts)
    (hext : F.Extends (entered F (G.getName i) ((G.info i).plan archi) st).factory t) :
    measure F G archi t j < measure F G archi st.factory i := by
  cases hplan : (G.info i).plan archi with
  | struct fields =>
    rw [hplan] at hext
    exact measure_lt_struct hF hacyclic _ _ _ _ ((mem_pending _ _).mpr ⟨by rw [hplan]; rfl, hn⟩) hext
  | func func =>
    rw [hplan] at hext
    exact measure_lt_part hacyclic _ _ _ _ ⟨by rw [hplan]; rfl, hj⟩ ((hF.void_extends _).trans hext)
  | make base | pointer pointed | element inner | array count inner =>
    rw [hplan] at hext
    exact measure_lt_part hacyclic _ _ _ _ ⟨by rw [hplan]; rfl, hj⟩ hext

/-! ## A conversion -/

theorem findByTypeInfo_returns (fuel : Nat) (i : ι) (st : Session σ D) (h : measure F G archi st.factory i < fuel) :
    ∃ d st', findByTypeInfo F G archi fuel i st = .ok d st' := by
  induction fuel generalizing i st with
  | zero => omega
  | succ fuel ih =>
    rw [findByTypeInfo_succ]
    cases hfind : F.findByIdLocal st.factory (G.getName i) with
    | some cached => exact ⟨cached, st, rfl⟩
    | none =>
      apply carryOut_succeeds
      intro j hj t hext
      have hlt := measure_lt hF hacyclic i j st t.factory hfind hj hext
      obtain ⟨d, t', hd⟩ := ih j t (by omega)
      exact ⟨d, t', hd, (findByTypeInfo_grows hF _ _ _ _ _ hd).1.extends_⟩

omit hF in
theorem measure_bound (s : σ) (i : ι) : measure F G archi s i < Fintype.card ι * (Fintype.card ι + 1) := by
  have hrank := Rank.rank_lt_card (StructFree G archi) hacyclic i
  have hcard := Finset.card_le_univ (pending F G archi s)
  have hmul := Nat.mul_le_mul_right (Fintype.card ι) hcard
  unfold measure
  rw [Nat.mul_succ]
  omega

/-- **Termination.** From any cache, when every cycle of the graph goes through a struct, a conversion
returns a type, however much deeper it could still go, and sets the fields of each struct once. -/
theorem findByTypeInfo_terminates (s : σ) (i : ι) :
    ∃ d st', (∀ fuel, Fintype.card ι * (Fintype.card ι + 1) ≤ fuel →
        findByTypeInfo F G archi fuel i ⟨s, []⟩ = .ok d st') ∧ (laidOut st'.steps).Nodup := by
  obtain ⟨d, st', hd⟩ := findByTypeInfo_returns hF hacyclic _ i ⟨s, []⟩ (measure_bound hacyclic s i)
  refine ⟨d, st', fun fuel hfuel => findByTypeInfo_le _ _ hfuel _ _ _ _ hd, ?_⟩
  obtain ⟨new, hsteps, hnodup, -⟩ := (findByTypeInfo_grows hF _ _ _ _ _ hd).1.steps
  rw [hsteps]
  exact hnodup

end

theorem linked_structFree : Rank.Acyclic (StructFree linked archi64) := by
  apply Rank.acyclic_of_decreasing _ fun i => if i = 2 then 1 else 0
  unfold StructFree
  decide

theorem findByTypeInfo_terminates_linked :
    ∃ d st', (∀ fuel, Fintype.card (Fin 4) * (Fintype.card (Fin 4) + 1) ≤ fuel →
        findByTypeInfo TypeTable.factory linked archi64 fuel 0 ⟨TypeTable.coreTypes, []⟩ = .ok d st') ∧
      (laidOut st'.steps).Nodup :=
  findByTypeInfo_terminates TypeTable.laws linked_structFree TypeTable.coreTypes 0

end Yagi.TypeManager
