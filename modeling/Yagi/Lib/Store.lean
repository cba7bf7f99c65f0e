import Mathlib.Data.List.Basic
import Mathlib.Logic.Function.Basic

/-!
# Stores of keyed records

A store maps keys to values, and an edit sets one key or deletes it. After any
list of edits a key holds what its last edit left, and a store whose keys are
images under an injective map behaves as the store of the keys themselves.
-/

namespace Store

/-! ## The last element that answers -/

def lastSome {E β : Type} (f : E → Option β) (es : List E) : Option β := es.reverse.findSome? f

section LastSome

variable {E F β γ : Type} (f : E → Option β)

@[simp] theorem lastSome_nil : lastSome f [] = none := rfl

@[simp] theorem lastSome_append (xs ys : List E) :
    lastSome f (xs ++ ys) = (lastSome f ys).or (lastSome f xs) := by
  simp [lastSome, List.findSome?_append]

@[simp] theorem lastSome_singleton (e : E) : lastSome f [e] = f e := by
  cases h : f e <;> simp [lastSome, h]

@[simp] theorem lastSome_cons (e : E) (es : List E) :
    lastSome f (e :: es) = (lastSome f es).or (f e) := by
  rw [← List.singleton_append, lastSome_append, lastSome_singleton]

theorem lastSome_map (g : F → E) (xs : List F) : lastSome f (xs.map g) = lastSome (fun x => f (g x)) xs := by
  induction xs with
  | nil => rfl
  | cons x xs ih => simp [ih]

theorem lastSome_congr (g : E → Option β) (es : List E) (h : ∀ e ∈ es, f e = g e) :
    lastSome f es = lastSome g es := by
  induction es with
  | nil => rfl
  | cons e es ih =>
    rw [lastSome_cons, lastSome_cons, h e (by simp), ih fun x hx => h x (by simp [hx])]

theorem map_lastSome (g : β → γ) (es : List E) :
    (lastSome f es).map g = lastSome (fun e => (f e).map g) es := by
  induction es with
  | nil => rfl
  | cons e es ih =>
    rw [lastSome_cons, lastSome_cons, ← ih]
    cases lastSome f es <;> rfl

theorem exists_of_lastSome (es : List E) (b : β) (h : lastSome f es = some b) : ∃ e ∈ es, f e = some b := by
  obtain ⟨e, he, hb⟩ := List.exists_of_findSome?_eq_some h
  exact ⟨e, List.mem_reverse.mp he, hb⟩

theorem lastSome_eq_none (es : List E) : lastSome f es = none ↔ ∀ e ∈ es, f e = none := by
  simp [lastSome]

theorem lastSome_eq_some (es : List E) (b : β) :
    lastSome f es = some b ↔
      ∃ before e after, es = before ++ e :: after ∧ f e = some b ∧ ∀ x ∈ after, f x = none := by
  rw [lastSome, List.findSome?_eq_some_iff]
  constructor
  · rintro ⟨xs, e, ys, hrev, he, hxs⟩
    refine ⟨ys.reverse, e, xs.reverse, ?_, he, fun x hx => hxs x (List.mem_reverse.mp hx)⟩
    simpa using congrArg List.reverse hrev
  · rintro ⟨before, e, after, rfl, he, hafter⟩
    exact ⟨after.reverse, e, before.reverse, by simp, he, fun x hx => hafter x (List.mem_reverse.mp hx)⟩

theorem lastSome_const (es : List E) (b : β) (p : E → Prop) [DecidablePred p] :
    lastSome (fun e => if p e then some b else none) es = if ∃ e ∈ es, p e then some b else none := by
  induction es with
  | nil => simp
  | cons e es ih =>
    rw [lastSome_cons, ih]
    by_cases h : ∃ e ∈ es, p e
    · have h' : ∃ x ∈ e :: es, p x := by
        obtain ⟨x, hx, hp⟩ := h
        exact ⟨x, by simp [hx], hp⟩
      rw [if_pos h, if_pos h', Option.some_or]
    · rw [if_neg h, Option.none_or]
      by_cases he : p e
      · rw [if_pos he, if_pos ⟨e, by simp, he⟩]
      · rw [if_neg he, if_neg]
        rintro ⟨x, hx, hp⟩
        rcases List.mem_cons.mp hx with rfl | hx
        · exact he hp
        · exact h ⟨x, hx, hp⟩

end LastSome

/-! ## Edits -/

section Edits

variable {K T V : Type}

/-- One key is set to `some` value, or deleted with `none`. -/
structure Edit (K V : Type) where
  key : K
  value : Option V

def Edit.mapKey (f : T → K) (e : Edit T V) : Edit K V := ⟨f e.key, e.value⟩

variable [DecidableEq K] [DecidableEq T]

/-- What an edit does to one key: nothing, or a new content. -/
def Edit.at (k : K) (e : Edit K V) : Option (Option V) := if e.key = k then some e.value else none

def Edit.apply (s : K → Option V) (e : Edit K V) : K → Option V := Function.update s e.key e.value

def run (s : K → Option V) (es : List (Edit K V)) : K → Option V := es.foldl Edit.apply s

@[simp] theorem run_nil (s : K → Option V) : run s [] = s := rfl

@[simp] theorem run_append (s : K → Option V) (xs ys : List (Edit K V)) :
    run s (xs ++ ys) = run (run s xs) ys := List.foldl_append

theorem run_cons (s : K → Option V) (e : Edit K V) (es : List (Edit K V)) :
    run s (e :: es) = run (e.apply s) es := rfl

/-- A key holds what its last edit left, or what it held before. -/
theorem run_apply (s : K → Option V) (es : List (Edit K V)) (k : K) :
    run s es k = (lastSome (Edit.at k) es).getD (s k) := by
  induction es generalizing s with
  | nil => rfl
  | cons e es ih =>
    rw [run_cons, ih, lastSome_cons]
    cases lastSome (Edit.at k) es with
    | some v => rfl
    | none =>
      by_cases h : e.key = k
      · subst h; simp [Edit.apply, Edit.at]
      · simp [Edit.apply, Edit.at, h, Function.update_of_ne (Ne.symm h)]

theorem run_mapKey (f : T → K) (s : K → Option V) (es : List (Edit T V)) (t : T)
    (hinj : ∀ e ∈ es, f e.key = f t → e.key = t) :
    run s (es.map (Edit.mapKey f)) (f t) = run (fun t => s (f t)) es t := by
  have hat : ∀ e ∈ es, Edit.at (f t) (Edit.mapKey f e) = Edit.at t e := by
    intro e he
    by_cases h : e.key = t
    · simp [Edit.at, Edit.mapKey, h]
    · have : ¬ f e.key = f t := fun hf => h (hinj e he hf)
      simp [Edit.at, Edit.mapKey, h, this]
  rw [run_apply, run_apply, lastSome_map, lastSome_congr _ _ es hat]

end Edits

end Store
