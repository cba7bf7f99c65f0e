import Mathlib.Data.Set.Function

/-!
# Loops that insert what is not there

A loop over keys looks each of them up, and adds a new value where it finds
none. It adds one value for each key that was free, however often the key comes.
-/

namespace Inserts

variable {σ K V : Type}

/-- `Adds k st v st'` says that value `v` is added under `k`. -/
inductive Run (find : σ → K → Option V) (Adds : K → σ → V → σ → Prop) : List K → σ → σ → Prop
  | nil (st) : Run find Adds [] st st
  | skip (k keys st st') : find st k ≠ none → Run find Adds keys st st' → Run find Adds (k :: keys) st st'
  | add (k keys st v st₁ st') : find st k = none → Adds k st v st₁ → Run find Adds keys st₁ st' →
      Run find Adds (k :: keys) st st'

/-- An added value is new, and is found under its key only. -/
structure Laws (find : σ → K → Option V) (values : σ → Set V) (Adds : K → σ → V → σ → Prop) : Prop where
  fresh : ∀ k st v st', Adds k st v st' → v ∉ values st
  values_add : ∀ k st v st', Adds k st v st' → values st' = insert v (values st)
  find_add : ∀ k st v st', find st k = none → Adds k st v st' → find st' k = some v
  find_other : ∀ k st v st' k', Adds k st v st' → k' ≠ k → find st' k' = find st k'

variable {find : σ → K → Option V} {values : σ → Set V} {Adds : K → σ → V → σ → Prop}
  (laws : Laws find values Adds) {keys : List K} {st st' : σ}

include laws

theorem Run.values_subset (h : Run find Adds keys st st') : values st ⊆ values st' := by
  induction h with
  | nil st => exact fun v hv => hv
  | skip k keys st st' _ _ ih => exact ih
  | add k keys st v st₁ st' _ hadd _ ih =>
    rw [laws.values_add k st v st₁ hadd] at ih
    exact (Set.subset_insert v (values st)).trans ih

theorem Run.find_kept (h : Run find Adds keys st st') (x : K) (hx : x ∉ keys ∨ find st x ≠ none) :
    find st' x = find st x := by
  induction h with
  | nil st => rfl
  | skip k keys st st' _ _ ih =>
    refine ih (hx.imp_left fun hnot hmem => hnot (List.mem_cons_of_mem _ hmem))
  | add k keys st v st₁ st' hfree hadd _ ih =>
    have hne : x ≠ k := by
      rintro rfl
      rcases hx with hnot | hfound
      · exact hnot List.mem_cons_self
      · exact hfound hfree
    have hother := laws.find_other k st v st₁ x hadd hne
    rw [ih, hother]
    rw [hother]
    exact hx.imp_left fun hnot hmem => hnot (List.mem_cons_of_mem _ hmem)

theorem Run.find_new (h : Run find Adds keys st st') (x : K) (hx : x ∈ keys) (hfree : find st x = none) :
    ∃ v, find st' x = some v ∧ v ∈ values st' \ values st := by
  induction h with
  | nil st => exact absurd hx List.not_mem_nil
  | skip k keys st st' hfound _ ih =>
    rcases List.mem_cons.mp hx with rfl | hx
    · exact absurd hfree hfound
    · exact ih hx hfree
  | add k keys st v st₁ st' hkfree hadd hrun ih =>
    by_cases hne : x = k
    · subst hne
      have hfind := laws.find_add x st v st₁ hkfree hadd
      refine ⟨v, ?_, hrun.values_subset laws ?_, laws.fresh x st v st₁ hadd⟩
      · rw [hrun.find_kept laws x (Or.inr (by simp [hfind])), hfind]
      · rw [laws.values_add x st v st₁ hadd]
        exact Set.mem_insert v (values st)
    · have hmem := (List.mem_cons.mp hx).resolve_left hne
      obtain ⟨w, hw, hw', hnew⟩ := ih hmem ((laws.find_other k st v st₁ x hadd hne).trans hfree)
      rw [laws.values_add k st v st₁ hadd] at hnew
      exact ⟨w, hw, hw', fun hold => hnew (Set.mem_insert_of_mem v hold)⟩

theorem Run.find_ne_none (h : Run find Adds keys st st') (x : K) (hx : x ∈ keys) : find st' x ≠ none := by
  by_cases hfree : find st x = none
  · obtain ⟨v, hv, -⟩ := h.find_new laws x hx hfree
    simp [hv]
  · rw [h.find_kept laws x (Or.inr hfree)]
    exact hfree

theorem Run.find_injOn (h : Run find Adds keys st st') :
    Set.InjOn (find st') {x | x ∈ keys ∧ find st x = none} := by
  induction h with
  | nil st => exact fun x hx => absurd hx.1 List.not_mem_nil
  | skip k keys st st' hfound _ ih =>
    refine Set.InjOn.mono ?_ ih
    rintro x ⟨hx, hfree⟩
    refine ⟨(List.mem_cons.mp hx).resolve_left ?_, hfree⟩
    rintro rfl
    exact hfound hfree
  | add k keys st v st₁ st' hkfree hadd hrun ih =>
    have hfind := laws.find_add k st v st₁ hkfree hadd
    have hk : find st' k = some v := by rw [hrun.find_kept laws k (Or.inr (by simp [hfind])), hfind]
    have hrest : ∀ x, x ∈ k :: keys ∧ find st x = none → x ≠ k → x ∈ keys ∧ find st₁ x = none :=
      fun x hx hne => ⟨(List.mem_cons.mp hx.1).resolve_left hne,
        (laws.find_other k st v st₁ x hadd hne).trans hx.2⟩
    -- The value of `k` is there before the other ones are added.
    have hapart : ∀ x, x ∈ k :: keys ∧ find st x = none → x ≠ k → find st' x ≠ some v := by
      intro x hx hne hxv
      obtain ⟨w, hw, -, hnew⟩ := hrun.find_new laws x (hrest x hx hne).1 (hrest x hx hne).2
      obtain rfl : v = w := Option.some.inj (hxv.symm.trans hw)
      rw [laws.values_add k st v st₁ hadd] at hnew
      exact hnew (Set.mem_insert v (values st))
    intro x hx y hy heq
    by_cases hxk : x = k
    · by_cases hyk : y = k
      · rw [hxk, hyk]
      · rw [hxk, hk] at heq
        exact absurd heq.symm (hapart y hy hyk)
    · by_cases hyk : y = k
      · rw [hyk, hk] at heq
        exact absurd heq (hapart x hx hxk)
      · exact ih (hrest x hx hxk) (hrest y hy hyk) heq

theorem Run.exists_key (h : Run find Adds keys st st') (w : V) (hw : w ∈ values st' \ values st) :
    ∃ x, (x ∈ keys ∧ find st x = none) ∧ find st' x = some w := by
  induction h with
  | nil st => exact absurd hw.1 hw.2
  | skip k keys st st' _ _ ih =>
    obtain ⟨x, ⟨hx, hfree⟩, hfind⟩ := ih hw
    exact ⟨x, ⟨List.mem_cons_of_mem _ hx, hfree⟩, hfind⟩
  | add k keys st v st₁ st' hkfree hadd hrun ih =>
    have hfind := laws.find_add k st v st₁ hkfree hadd
    by_cases hwv : w = v
    · subst hwv
      exact ⟨k, ⟨List.mem_cons_self, hkfree⟩, by rw [hrun.find_kept laws k (Or.inr (by simp [hfind])), hfind]⟩
    · have hnew : w ∉ values st₁ := by
        rw [laws.values_add k st v st₁ hadd]
        exact fun h => hw.2 (Set.mem_of_mem_insert_of_ne h hwv)
      obtain ⟨x, ⟨hx, hfree⟩, hxw⟩ := ih ⟨hw.1, hnew⟩
      have hne : x ≠ k := by
        rintro rfl
        simp [hfind] at hfree
      exact ⟨x, ⟨List.mem_cons_of_mem _ hx, (laws.find_other k st v st₁ x hadd hne).symm.trans hfree⟩, hxw⟩

/-- **Once each.** The new values are those of the keys that were free, one for each. -/
theorem Run.bijOn (h : Run find Adds keys st st') :
    Set.BijOn (find st') {x | x ∈ keys ∧ find st x = none} (some '' (values st' \ values st)) := by
  refine ⟨?_, h.find_injOn laws, ?_⟩
  · intro x hx
    obtain ⟨v, hv, hnew⟩ := h.find_new laws x hx.1 hx.2
    exact ⟨v, hnew, hv.symm⟩
  · rintro - ⟨w, hw, rfl⟩
    exact h.exists_key laws w hw

end Inserts
