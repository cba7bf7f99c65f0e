import Mathlib.Data.List.Basic
import Mathlib.Logic.Function.Basic

/-!
# Maps where the first insertion wins

An insertion under a key that is there already changes nothing. After a list of
insertions a key holds what it held before, or the first value inserted under it.
-/

namespace FirstWins

variable {E K V : Type} [DecidableEq K]

def emplace (m : K → Option V) (k : K) (v : V) : K → Option V := Function.update m k (some ((m k).getD v))

theorem emplace_apply (m : K → Option V) (k k' : K) (v : V) :
    emplace m k v k' = (m k').or (if k = k' then some v else none) := by
  unfold emplace
  by_cases h : k' = k
  · subst h
    cases m k' <;> simp
  · simp [Function.update_of_ne h, Ne.symm h]

def emplaceAll (m : K → Option V) (entries : List (K × V)) : K → Option V :=
  entries.foldl (fun m entry => emplace m entry.1 entry.2) m

/-- The first value inserted under a key. -/
def first (entries : List (K × V)) (k : K) : Option V := (entries.find? (·.1 = k)).map (·.2)

theorem first_cons (entry : K × V) (entries : List (K × V)) (k : K) :
    first (entry :: entries) k = if entry.1 = k then some entry.2 else first entries k := by
  unfold first
  rw [List.find?_cons]
  by_cases h : entry.1 = k <;> simp [h]

theorem first_append (xs ys : List (K × V)) (k : K) : first (xs ++ ys) k = (first xs k).or (first ys k) := by
  unfold first
  rw [List.find?_append]
  cases xs.find? (·.1 = k) <;> rfl

theorem first_map {W : Type} (f : V → W) (entries : List (K × V)) (k : K) :
    first (entries.map fun entry => (entry.1, f entry.2)) k = (first entries k).map f := by
  induction entries with
  | nil => rfl
  | cons entry entries ih =>
    rw [List.map_cons, first_cons, first_cons, ih]
    split <;> rfl

/-- **First wins.** -/
theorem emplaceAll_apply (m : K → Option V) (entries : List (K × V)) (k : K) :
    emplaceAll m entries k = (m k).or (first entries k) := by
  induction entries generalizing m with
  | nil => simp [emplaceAll, first]
  | cons entry entries ih =>
    show emplaceAll (emplace m entry.1 entry.2) entries k = _
    rw [ih, emplace_apply, first_cons, Option.or_assoc]
    by_cases h : entry.1 = k <;> simp [h]

theorem first_eq_none (entries : List (K × V)) (k : K) : first entries k = none ↔ ∀ entry ∈ entries, entry.1 ≠ k := by
  simp [first, List.find?_eq_none]

theorem first_ne_none (entries : List (K × V)) (k : K) : first entries k ≠ none ↔ k ∈ entries.map (·.1) := by
  rw [Ne, first_eq_none]
  simp

theorem mem_of_first (entries : List (K × V)) (k : K) (v : V) (h : first entries k = some v) : (k, v) ∈ entries := by
  obtain ⟨entry, hfind, rfl⟩ := Option.map_eq_some_iff.mp h
  have hkey := List.find?_some hfind
  simp only [decide_eq_true_eq] at hkey
  subst hkey
  exact List.mem_of_find?_eq_some hfind

theorem foldl_emplace (f : E → Option (K × V)) (step : (K → Option V) → E → K → Option V)
    (hsome : ∀ m e entry, f e = some entry → step m e = emplace m entry.1 entry.2)
    (hnone : ∀ m e, f e = none → step m e = m) (es : List E) (m : K → Option V) :
    es.foldl step m = emplaceAll m (es.filterMap f) := by
  induction es generalizing m with
  | nil => rfl
  | cons e es ih =>
    rw [List.foldl_cons, ih, List.filterMap_cons]
    cases hf : f e with
    | none => rw [hnone m e hf]
    | some entry => rw [hsome m e entry hf]; rfl

end FirstWins
