import Mathlib.Data.List.Induction

/-!
# Runs and invariants

A run is a list of calls, each of which changes the state. When one step keeps
the invariant exactly under a condition, a run keeps it in every state exactly
when each of its steps meets the condition.
-/

namespace Runs

variable {σ C : Type}

def run (step : σ → C → σ) (s : σ) (calls : List C) : σ := calls.foldl step s

@[simp] theorem run_nil (step : σ → C → σ) (s : σ) : run step s [] = s := rfl

@[simp] theorem run_append (step : σ → C → σ) (s : σ) (xs ys : List C) :
    run step s (xs ++ ys) = run step (run step s xs) ys := List.foldl_append

@[simp] theorem run_singleton (step : σ → C → σ) (s : σ) (c : C) : run step s [c] = step s c := rfl

/-- The invariant holds in every state that the run goes through. -/
def Keeps (step : σ → C → σ) (Inv : σ → Prop) (s : σ) (calls : List C) : Prop :=
  ∀ before after, calls = before ++ after → Inv (run step s before)

/-- Every call of the run is made in a state where it meets the condition. -/
def AllMeet (step : σ → C → σ) (Meets : σ → C → Prop) (s : σ) (calls : List C) : Prop :=
  ∀ before c after, calls = before ++ c :: after → Meets (run step s before) c

theorem allMeet_nil (step : σ → C → σ) (Meets : σ → C → Prop) (s : σ) : AllMeet step Meets s [] := by
  intro before c after h
  simp at h

theorem allMeet_cons (step : σ → C → σ) (Meets : σ → C → Prop) (s : σ) (c : C) (cs : List C) :
    AllMeet step Meets s (c :: cs) ↔ Meets s c ∧ AllMeet step Meets (step s c) cs := by
  constructor
  · intro h
    refine ⟨h [] c cs rfl, ?_⟩
    intro before d after hcs
    exact h (c :: before) d after (by rw [hcs]; rfl)
  · rintro ⟨hc, hcs⟩ before d after h
    cases before with
    | nil =>
      obtain ⟨rfl, rfl⟩ := List.cons.inj h
      exact hc
    | cons b before =>
      obtain ⟨rfl, htail⟩ := List.cons.inj h
      exact hcs before d after htail

/-- **Runs.** The invariant is kept along a run exactly when all steps meet the condition. -/
theorem keeps_iff_allMeet (step : σ → C → σ) (Inv : σ → Prop) (Meets : σ → C → Prop) (s : σ) (hs : Inv s)
    (hstep : ∀ s c, Inv s → (Inv (step s c) ↔ Meets s c)) (calls : List C) :
    Keeps step Inv s calls ↔ AllMeet step Meets s calls := by
  constructor
  · intro h before c after hcalls
    have hbefore := h before (c :: after) hcalls
    have hnext := h (before ++ [c]) after (by simp [hcalls])
    rw [run_append, run_singleton] at hnext
    exact (hstep _ c hbefore).mp hnext
  · intro h before
    induction before using List.reverseRecOn with
    | nil => intro _ _; exact hs
    | append_singleton before c ih =>
      intro after hcalls
      have hsplit : calls = before ++ c :: after := by simp [hcalls]
      rw [run_append, run_singleton]
      exact (hstep _ c (ih (c :: after) hsplit)).mpr (h before c after hsplit)

/-- **Provenance.** What no step undoes holds after a run when it held before, or a step has brought it. -/
theorem holds_run_iff (step : σ → C → σ) (P : σ → Prop) (Adds : σ → C → Prop)
    (hstep : ∀ s c, P (step s c) ↔ P s ∨ Adds s c) (s : σ) (calls : List C) :
    P (run step s calls) ↔ P s ∨ ∃ before c after, calls = before ++ c :: after ∧ Adds (run step s before) c := by
  induction calls using List.reverseRecOn with
  | nil => simp
  | append_singleton calls c ih =>
    rw [run_append, run_singleton, hstep, ih, or_assoc]
    refine or_congr_right ?_
    constructor
    · rintro (⟨before, d, after, rfl, hadds⟩ | hadds)
      · exact ⟨before, d, after ++ [c], by simp, hadds⟩
      · exact ⟨calls, c, [], rfl, hadds⟩
    · rintro ⟨before, d, after, hcalls, hadds⟩
      rcases List.eq_nil_or_concat after with rfl | ⟨after, x, rfl⟩
      · obtain ⟨rfl, hlast⟩ := List.append_inj' hcalls rfl
        rw [(List.cons.inj hlast).1]
        exact Or.inr hadds
      · have hsplit : calls ++ [c] = (before ++ d :: after) ++ [x] := by
          rw [hcalls, List.concat_eq_append, List.append_assoc, List.cons_append]
        exact Or.inl ⟨before, d, after, (List.append_inj' hsplit rfl).1, hadds⟩

/-! ## Two runs -/

theorem allMeet_matched {τ : Type} (R : σ → τ → Prop) (f : σ → C → σ) (g : τ → C → τ) (Meets : σ → C → Prop)
    (Meets' : τ → C → Prop) (calls : List C) (s : σ) (t : τ) (h : R s t)
    (hmeets : ∀ s t, ∀ c ∈ calls, R s t → (Meets s c ↔ Meets' t c))
    (hstep : ∀ s t, ∀ c ∈ calls, R s t → Meets s c → R (f s c) (g t c)) :
    AllMeet f Meets s calls ↔ AllMeet g Meets' t calls := by
  induction calls generalizing s t with
  | nil => exact iff_of_true (allMeet_nil f Meets s) (allMeet_nil g Meets' t)
  | cons c cs ih =>
    rw [allMeet_cons, allMeet_cons, ← hmeets s t c List.mem_cons_self h]
    refine and_congr_right fun hc => ?_
    refine ih (f s c) (g t c) (hstep s t c List.mem_cons_self h hc) ?_ ?_
    · intro s t d hd
      exact hmeets s t d (List.mem_cons_of_mem _ hd)
    · intro s t d hd
      exact hstep s t d (List.mem_cons_of_mem _ hd)

end Runs
