import Mathlib.Logic.Relation

/-!
# While loops

A loop is a step that stops with a result, goes on from a new state, or raises.
It runs on fuel, and a measure that every iteration decreases gives enough of it.
-/

namespace While

inductive Next (σ α : Type) where
  | again (s : σ)
  | done (a : α)

inductive Stop (ε : Type) where
  | raised (e : ε)
  | fuel
deriving DecidableEq, Repr

variable {ε σ α : Type}

def run (step : σ → Except ε (Next σ α)) : Nat → σ → Except (Stop ε) α
  | 0, _ => .error .fuel
  | fuel + 1, s => match step s with
    | .error e => .error (.raised e)
    | .ok (.done a) => .ok a
    | .ok (.again s') => run step fuel s'

def loop (step : σ → Except ε (Next σ α)) (measure : σ → Nat) (s : σ) : Except (Stop ε) α :=
  run step (measure s + 1) s

/-- Every iteration that goes on decreases the measure. -/
def Decreases (step : σ → Except ε (Next σ α)) (measure : σ → Nat) : Prop :=
  ∀ s s', step s = .ok (.again s') → measure s' < measure s

def Reaches (step : σ → Except ε (Next σ α)) : σ → σ → Prop :=
  Relation.ReflTransGen fun s s' => step s = .ok (.again s')

variable {step : σ → Except ε (Next σ α)} {measure : σ → Nat}

theorem run_ne_fuel (h : Decreases step measure) (fuel : Nat) (s : σ) (hfuel : measure s < fuel) :
    run step fuel s ≠ .error .fuel := by
  induction fuel generalizing s with
  | zero => omega
  | succ fuel ih =>
    rw [run]
    cases hs : step s with
    | error e => simp
    | ok next => cases next with
      | done a => simp
      | again s' =>
        have := h s s' hs
        exact ih s' (by omega)

/-- **Termination.** With a decreasing measure the loop never runs out of fuel. -/
theorem loop_ne_fuel (h : Decreases step measure) (s : σ) : loop step measure s ≠ .error .fuel :=
  run_ne_fuel h _ s (Nat.lt_succ_self _)

theorem Reaches.refl (s : σ) : Reaches step s s := Relation.ReflTransGen.refl

theorem Reaches.trans {s t u : σ} (h₁ : Reaches step s t) (h₂ : Reaches step t u) : Reaches step s u :=
  Relation.ReflTransGen.trans h₁ h₂

theorem Reaches.one {s t : σ} (h : step s = .ok (.again t)) : Reaches step s t := Relation.ReflTransGen.single h

theorem run_of_reaches (h : Decreases step measure) (s t : σ) (a : α) (hreach : Reaches step s t)
    (hdone : step t = .ok (.done a)) (fuel : Nat) (hfuel : measure s < fuel) : run step fuel s = .ok a := by
  induction hreach using Relation.ReflTransGen.head_induction_on generalizing fuel with
  | refl =>
    cases fuel with
    | zero => omega
    | succ fuel => rw [run, hdone]
  | head hstep _ ih =>
    cases fuel with
    | zero => omega
    | succ fuel =>
      have := h _ _ hstep
      rw [run, hstep]
      exact ih fuel (by omega)

theorem loop_of_reaches (h : Decreases step measure) (s t : σ) (a : α) (hreach : Reaches step s t)
    (hdone : step t = .ok (.done a)) : loop step measure s = .ok a :=
  run_of_reaches h s t a hreach hdone _ (Nat.lt_succ_self _)

theorem loop_raises (h : Decreases step measure) (s t : σ) (e : ε) (hreach : Reaches step s t)
    (herror : step t = .error e) : loop step measure s = .error (.raised e) := by
  suffices ∀ fuel, measure s < fuel → run step fuel s = .error (.raised e) from this _ (Nat.lt_succ_self _)
  induction hreach using Relation.ReflTransGen.head_induction_on with
  | refl =>
    intro fuel hfuel
    cases fuel with
    | zero => omega
    | succ fuel => rw [run, herror]
  | head hstep _ ih =>
    intro fuel hfuel
    cases fuel with
    | zero => omega
    | succ fuel =>
      have := h _ _ hstep
      rw [run, hstep]
      exact ih fuel (by omega)

/-- A loop whose steps never raise where an invariant holds, and keep it, gives a result. -/
theorem loop_succeeds (h : Decreases step measure) (Inv : σ → Prop)
    (hstep : ∀ s, Inv s → (∃ a, step s = .ok (.done a)) ∨ ∃ s', step s = .ok (.again s') ∧ Inv s') (s : σ)
    (hs : Inv s) : ∃ a, loop step measure s = .ok a := by
  suffices ∀ fuel s, Inv s → measure s < fuel → ∃ a, run step fuel s = .ok a from
    this _ s hs (Nat.lt_succ_self _)
  intro fuel
  induction fuel with
  | zero =>
    intro s _ hfuel
    omega
  | succ fuel ih =>
    intro s hs hfuel
    rcases hstep s hs with ⟨a, hdone⟩ | ⟨s', hagain, hs'⟩
    · exact ⟨a, by rw [run, hdone]⟩
    · have := h s s' hagain
      rw [run, hagain]
      exact ih s' hs' (by omega)

end While
