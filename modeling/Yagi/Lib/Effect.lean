import Mathlib.Data.List.Forall2

/-!
# Computations with state and errors

Rules for `EStateM`: what a successful computation has done, and when one
succeeds. A loop over a list is described by what each element does.
-/

namespace Effect

variable {ε σ α β : Type}

/-- Whether a computation has succeeded, to be decided where its result is large. -/
def succeeds : EStateM.Result ε σ α → Bool
  | .ok _ _ => true
  | .error _ _ => false

theorem bind_ok (m : EStateM ε σ α) (f : α → EStateM ε σ β) (s s' : σ) (b : β) :
    (m >>= f) s = .ok b s' ↔ ∃ a t, m s = .ok a t ∧ f a t = .ok b s' := by
  show EStateM.bind m f s = .ok b s' ↔ _
  unfold EStateM.bind
  cases m s with
  | ok a t => simp
  | error e t => simp

theorem bind_error (m : EStateM ε σ α) (f : α → EStateM ε σ β) (s s' : σ) (e : ε) :
    (m >>= f) s = .error e s' ↔ m s = .error e s' ∨ ∃ a t, m s = .ok a t ∧ f a t = .error e s' := by
  show EStateM.bind m f s = .error e s' ↔ _
  unfold EStateM.bind
  cases m s with
  | ok a t => simp
  | error e t => simp

theorem pure_ne_error (a : α) (s s' : σ) (e : ε) : (pure a : EStateM ε σ α) s ≠ .error e s' := by
  show EStateM.Result.ok a s ≠ .error e s'
  simp

theorem throw_ok (e : ε) (s s' : σ) (a : α) (h : (throw e : EStateM ε σ α) s = .ok a s') : False := by
  change EStateM.Result.error e s = _ at h
  simp at h

theorem throw_error (e e' : ε) (s s' : σ) : (throw e : EStateM ε σ α) s = .error e' s' ↔ e = e' ∧ s = s' := by
  show EStateM.Result.error e s = .error e' s' ↔ _
  simp

theorem pure_ok (a b : α) (s s' : σ) : (pure a : EStateM ε σ α) s = .ok b s' ↔ a = b ∧ s = s' := by
  show EStateM.Result.ok a s = .ok b s' ↔ _
  simp

theorem tryCatch_ok (m : EStateM ε σ α) (handler : ε → EStateM ε σ α) (s s' : σ) (a : α) (h : m s = .ok a s') :
    (tryCatch m handler : EStateM ε σ α) s = .ok a s' := by
  show EStateM.tryCatch m handler s = _
  unfold EStateM.tryCatch
  rw [h]

theorem tryCatch_error (m : EStateM ε σ α) (handler : ε → EStateM ε σ α) (s s' : σ) (e : ε)
    (h : m s = .error e s') : (tryCatch m handler : EStateM ε σ α) s = handler e s' := by
  show EStateM.tryCatch m handler s = _
  unfold EStateM.tryCatch
  rw [h]
  rfl

/-! ## Postconditions -/

/-- How a computation ends: with a result that satisfies `Q`, or with an error that satisfies `E`. -/
def Post (Q : α → σ → Prop) (E : ε → σ → Prop) : EStateM.Result ε σ α → Prop
  | .ok a s => Q a s
  | .error e s => E e s

section Post

variable (Q : α → σ → Prop) (E : ε → σ → Prop) (s : σ)

@[simp] theorem post_ok (a : α) : Post Q E (.ok a s) ↔ Q a s := Iff.rfl

@[simp] theorem post_pure (a : α) : Post Q E ((pure a : EStateM ε σ α) s) ↔ Q a s := Iff.rfl

@[simp] theorem post_throw (e : ε) : Post Q E ((throw e : EStateM ε σ α) s) ↔ E e s := Iff.rfl

@[simp] theorem post_get (Q : σ → σ → Prop) : Post Q E ((get : EStateM ε σ σ) s) ↔ Q s s := Iff.rfl

@[simp] theorem post_set (Q : PUnit → σ → Prop) (t : σ) : Post Q E ((set t : EStateM ε σ PUnit) s) ↔ Q ⟨⟩ t := Iff.rfl

@[simp] theorem post_modify (Q : PUnit → σ → Prop) (f : σ → σ) :
    Post Q E ((modify f : EStateM ε σ PUnit) s) ↔ Q ⟨⟩ (f s) := Iff.rfl

@[simp] theorem post_bind (m : EStateM ε σ β) (f : β → EStateM ε σ α) :
    Post Q E ((m >>= f) s) ↔ Post (fun b t => Post Q E (f b t)) E (m s) := by
  show Post Q E (EStateM.bind m f s) ↔ _
  unfold EStateM.bind
  cases m s <;> rfl

variable {Q E}

theorem Post.mono {Q' : α → σ → Prop} {E' : ε → σ → Prop} {result : EStateM.Result ε σ α} (h : Post Q E result)
    (hQ : ∀ a t, Q a t → Q' a t) (hE : ∀ e t, E e t → E' e t) : Post Q' E' result := by
  cases result with
  | ok a t => exact hQ a t h
  | error e t => exact hE e t h

theorem Post.of_ok {result : EStateM.Result ε σ α} (h : Post Q E result) (a : α) (t : σ) (hok : result = .ok a t) :
    Q a t := by
  rw [hok] at h
  exact h

theorem Post.of_error {result : EStateM.Result ε σ α} (h : Post Q E result) (e : ε) (t : σ)
    (herror : result = .error e t) : E e t := by
  rw [herror] at h
  exact h

theorem post_iff_exists (result : EStateM.Result ε σ α) :
    Post Q (fun _ _ => False) result ↔ ∃ a t, result = .ok a t ∧ Q a t := by
  cases result with
  | ok a t => simp
  | error e t => simp [Post]

end Post

/-! ## Loops -/

theorem mapM_nil_ok (f : α → EStateM ε σ β) (s s' : σ) (ys : List β) :
    ([] : List α).mapM f s = .ok ys s' ↔ ys = [] ∧ s = s' := by
  rw [List.mapM_nil, pure_ok]
  exact and_congr_left fun _ => eq_comm

theorem mapM_cons_ok (f : α → EStateM ε σ β) (x : α) (xs : List α) (s s' : σ) (zs : List β) :
    (x :: xs).mapM f s = .ok zs s' ↔
      ∃ y ys t, f x s = .ok y t ∧ xs.mapM f t = .ok ys s' ∧ zs = y :: ys := by
  rw [List.mapM_cons]
  simp only [bind_ok, pure_ok]
  constructor
  · rintro ⟨y, t, hy, ys, u, hys, rfl, rfl⟩; exact ⟨y, ys, t, hy, hys, rfl⟩
  · rintro ⟨y, ys, t, hy, hys, rfl⟩; exact ⟨y, t, hy, ys, s', hys, rfl, rfl⟩

theorem mapM_error (f : α → EStateM ε σ β) (xs : List α) (s s' : σ) (e : ε) (h : xs.mapM f s = .error e s') :
    ∃ x ∈ xs, ∃ t, f x t = .error e s' := by
  induction xs generalizing s with
  | nil =>
    rw [List.mapM_nil] at h
    exact absurd h (pure_ne_error _ _ _ _)
  | cons x xs ih =>
    rw [List.mapM_cons, bind_error] at h
    rcases h with h | ⟨y, t, -, h⟩
    · exact ⟨x, List.mem_cons_self, s, h⟩
    · rw [bind_error] at h
      rcases h with h | ⟨ys, u, -, h⟩
      · obtain ⟨z, hz, v, hv⟩ := ih t h
        exact ⟨z, List.mem_cons_of_mem _ hz, v, hv⟩
      · exact absurd h (pure_ne_error _ _ _ _)

/-- **Loops, partial.** What each element does to the state, and what it says of its result, the loop
does and says of all results. -/
theorem mapM_ok (f : α → EStateM ε σ β) (P : σ → Prop) (R : σ → σ → Prop) (Q : α → β → σ → Prop)
    (hrefl : ∀ s, R s s) (htrans : ∀ s t u, R s t → R t u → R s u) (hP : ∀ s t, P s → R s t → P t)
    (hQ : ∀ x y s t, R s t → Q x y s → Q x y t) (xs : List α)
    (hf : ∀ x ∈ xs, ∀ s y s', P s → f x s = .ok y s' → R s s' ∧ Q x y s')
    (s s' : σ) (ys : List β) (hs : P s) (h : xs.mapM f s = .ok ys s') :
    R s s' ∧ List.Forall₂ (fun x y => Q x y s') xs ys := by
  induction xs generalizing s ys with
  | nil =>
    obtain ⟨rfl, rfl⟩ := (mapM_nil_ok f s s' ys).mp h
    exact ⟨hrefl s, List.Forall₂.nil⟩
  | cons x xs ih =>
    obtain ⟨y, zs, t, hy, hzs, rfl⟩ := (mapM_cons_ok f x xs s s' ys).mp h
    obtain ⟨hR, hQx⟩ := hf x List.mem_cons_self s y t hs hy
    obtain ⟨hRs, hQs⟩ := ih (fun z hz => hf z (List.mem_cons_of_mem _ hz)) t zs (hP s t hs hR) hzs
    exact ⟨htrans s t s' hR hRs, List.Forall₂.cons (hQ x y t s' hRs hQx) hQs⟩

theorem mapM_length (f : α → EStateM ε σ β) (xs : List α) (s s' : σ) (ys : List β) (h : xs.mapM f s = .ok ys s') :
    ys.length = xs.length := by
  induction xs generalizing s ys with
  | nil =>
    obtain ⟨rfl, -⟩ := (mapM_nil_ok f s s' ys).mp h
    rfl
  | cons x xs ih =>
    obtain ⟨y, zs, t, -, hzs, rfl⟩ := (mapM_cons_ok f x xs s s' ys).mp h
    rw [List.length_cons, List.length_cons, ih t zs hzs]

/-- **Loops, total.** When every element succeeds and keeps the precondition, the loop succeeds. -/
theorem mapM_succeeds (f : α → EStateM ε σ β) (P : σ → Prop) (xs : List α)
    (hf : ∀ x ∈ xs, ∀ s, P s → ∃ y s', f x s = .ok y s' ∧ P s') (s : σ) (hs : P s) :
    ∃ ys s', xs.mapM f s = .ok ys s' ∧ P s' := by
  induction xs generalizing s with
  | nil => exact ⟨[], s, (mapM_nil_ok f s s []).mpr ⟨rfl, rfl⟩, hs⟩
  | cons x xs ih =>
    obtain ⟨y, t, hy, ht⟩ := hf x List.mem_cons_self s hs
    obtain ⟨ys, s', hys, hs'⟩ := ih (fun z hz => hf z (List.mem_cons_of_mem _ hz)) t ht
    exact ⟨y :: ys, s', (mapM_cons_ok f x xs s s' _).mpr ⟨y, ys, t, hy, hys, rfl⟩, hs'⟩

theorem mapM_mono (f g : α → EStateM ε σ β) (hfg : ∀ x s y s', f x s = .ok y s' → g x s = .ok y s') (xs : List α)
    (s s' : σ) (ys : List β) (h : xs.mapM f s = .ok ys s') : xs.mapM g s = .ok ys s' := by
  induction xs generalizing s ys with
  | nil => exact h
  | cons x xs ih =>
    obtain ⟨y, zs, t, hy, hzs, rfl⟩ := (mapM_cons_ok f x xs s s' ys).mp h
    exact (mapM_cons_ok g x xs s s' _).mpr ⟨y, zs, t, hfg x s y t hy, ih t zs hzs, rfl⟩

end Effect
