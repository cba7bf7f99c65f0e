/-!
# Loops that an exception can leave

A loop body that raises stops the loop and keeps what the state has become.
-/

namespace Loop

/-- A body that changes the state, and may raise. -/
abbrev Body (ε σ : Type) := σ → Except ε Unit × σ

def forEach {E ε σ : Type} (step : E → Body ε σ) : List E → Body ε σ
  | [], s => (.ok (), s)
  | e :: es, s => match step e s with
    | (.ok (), s') => forEach step es s'
    | (.error err, s') => (.error err, s')

section

variable {E ε σ : Type} (step : E → Body ε σ)

theorem forEach_cons_ok (e : E) (es : List E) (s s' : σ) (h : step e s = (.ok (), s')) :
    forEach step (e :: es) s = forEach step es s' := by
  rw [forEach, h]

theorem forEach_cons_error (e : E) (es : List E) (s s' : σ) (err : ε) (h : step e s = (.error err, s')) :
    forEach step (e :: es) s = (.error err, s') := by
  rw [forEach, h]

theorem forEach_frame (es : List E) (s : σ) (h : ∀ e ∈ es, (step e s).2 = s) : (forEach step es s).2 = s := by
  induction es with
  | nil => rfl
  | cons e es ih =>
    have he := h e List.mem_cons_self
    cases hs : step e s with
    | mk r s' =>
      rw [hs] at he
      simp only at he
      subst he
      cases r with
      | ok u => rw [forEach_cons_ok _ _ _ _ _ hs]; exact ih fun x hx => h x (List.mem_cons_of_mem _ hx)
      | error err => rw [forEach_cons_error _ _ _ _ _ _ hs]

theorem forEach_idle (es : List E) (s : σ) (h : ∀ e ∈ es, step e s = (.ok (), s)) :
    forEach step es s = (.ok (), s) := by
  induction es with
  | nil => rfl
  | cons e es ih =>
    rw [forEach_cons_ok _ _ _ _ _ (h e List.mem_cons_self)]
    exact ih fun x hx => h x (List.mem_cons_of_mem _ hx)

theorem forEach_only (x : E) (es : List E) (s : σ) (hx : x ∈ es) (hnodup : es.Nodup)
    (h : ∀ e ∈ es, e ≠ x → ∀ s, step e s = (.ok (), s)) : forEach step es s = step x s := by
  induction es with
  | nil => simp at hx
  | cons e es ih =>
    rw [List.nodup_cons] at hnodup
    have hes : ∀ y ∈ es, y ≠ x → ∀ s, step y s = (.ok (), s) :=
      fun y hy => h y (List.mem_cons_of_mem _ hy)
    rcases List.mem_cons.mp hx with rfl | hmem
    · cases hs : step x s with
      | mk r s' =>
        cases r with
        | ok u =>
          rw [forEach_cons_ok _ _ _ _ _ hs]
          exact forEach_idle _ _ _ fun y hy => hes y hy (fun hyx => hnodup.1 (hyx ▸ hy)) s'
        | error err => rw [forEach_cons_error _ _ _ _ _ _ hs]
    · have hne : e ≠ x := fun hex => hnodup.1 (hex ▸ hmem)
      rw [forEach_cons_ok _ _ _ _ _ (h e List.mem_cons_self hne s)]
      exact ih hmem hnodup.2 hes

theorem forEach_map {F : Type} (f : F → E) (fs : List F) (s : σ) :
    forEach step (fs.map f) s = forEach (fun x => step (f x)) fs s := by
  induction fs generalizing s with
  | nil => rfl
  | cons x fs ih =>
    rw [List.map_cons]
    cases hx : step (f x) s with
    | mk r s' =>
      cases r with
      | ok u => rw [forEach_cons_ok _ _ _ _ _ hx, forEach_cons_ok (fun x => step (f x)) _ _ _ _ hx, ih]
      | error err =>
        rw [forEach_cons_error _ _ _ _ _ _ hx, forEach_cons_error (fun x => step (f x)) _ _ _ _ _ hx]

/-- What the elements collect, the loop collects in their order. -/
theorem forEach_collects {R : Type} (collect : E → List R) (Rel : List R → σ → σ → Prop) (hnil : ∀ s, Rel [] s s)
    (happend : ∀ xs ys s t u, Rel xs s t → Rel ys t u → Rel (xs ++ ys) s u) (es : List E)
    (h : ∀ e ∈ es, ∀ s, ∃ s', step e s = (.ok (), s') ∧ Rel (collect e) s s') (s : σ) :
    ∃ s', forEach step es s = (.ok (), s') ∧ Rel (es.flatMap collect) s s' := by
  induction es generalizing s with
  | nil => exact ⟨s, rfl, hnil s⟩
  | cons e es ih =>
    obtain ⟨t, ht, hfirst⟩ := h e List.mem_cons_self s
    obtain ⟨s', hs', hrest⟩ := ih (fun x hx => h x (List.mem_cons_of_mem _ hx)) t
    refine ⟨s', ?_, ?_⟩
    · rw [forEach_cons_ok _ _ _ _ _ ht]
      exact hs'
    · rw [List.flatMap_cons]
      exact happend _ _ s t s' hfirst hrest

theorem forEach_ok_iff (P : E → Prop) (es : List E) (h : ∀ e ∈ es, ∀ s, (step e s).1 = .ok () ↔ P e) (s : σ) :
    (forEach step es s).1 = .ok () ↔ ∀ e ∈ es, P e := by
  induction es generalizing s with
  | nil => exact ⟨fun _ e he => absurd he List.not_mem_nil, fun _ => rfl⟩
  | cons e es ih =>
    have hfirst := h e List.mem_cons_self s
    have hrest := ih fun x hx => h x (List.mem_cons_of_mem _ hx)
    rw [List.forall_mem_cons]
    cases hs : step e s with
    | mk r s' =>
      rw [hs] at hfirst
      cases r with
      | ok u =>
        rw [forEach_cons_ok _ _ _ _ _ hs, hrest s', and_iff_right (hfirst.mp rfl)]
      | error err =>
        rw [forEach_cons_error _ _ _ _ _ _ hs]
        constructor
        · intro hok
          simp at hok
        · rintro ⟨he, -⟩
          exact absurd (hfirst.mpr he) (by simp)

end

end Loop
