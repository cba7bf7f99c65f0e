import Yagi.Lib.Runs

/-!
# Steps that fire at most once

Some calls of a run fire, and the others change less. When a call that has fired is
done, stays done and cannot fire while it is done, no call fires twice.
-/

namespace Firing

open Runs

variable {σ C : Type} (step : σ → C → σ) (fires : σ → C → Bool)

/-- The calls of a run that fire, in their order. -/
def fired (s : σ) : List C → List C
  | [] => []
  | c :: cs => if fires s c then c :: fired (step s c) cs else fired (step s c) cs

theorem fired_cons (s : σ) (c : C) (cs : List C) :
    fired step fires s (c :: cs) = (if fires s c then [c] else []) ++ fired step fires (step s c) cs := by
  rw [fired]
  split <;> rfl

theorem fired_sublist (fires' : σ → C → Bool) (h : ∀ s c, fires s c = true → fires' s c = true) (s : σ) (cs : List C) :
    (fired step fires s cs).Sublist (fired step fires' s cs) := by
  induction cs generalizing s with
  | nil => exact List.Sublist.refl _
  | cons c cs ih =>
    rw [fired_cons, fired_cons]
    refine List.Sublist.append ?_ (ih (step s c))
    split
    · rename_i hfires
      simp [h s c hfires]
    · exact List.nil_sublist _

structure Once (Inv : σ → Prop) (Done : σ → C → Prop) : Prop where
  keeps : ∀ s c, Inv s → Inv (step s c)
  done : ∀ s c, Inv s → fires s c = true → Done (step s c) c
  stays : ∀ s c d, Inv s → Done s d → Done (step s c) d
  disabled : ∀ s c, Inv s → Done s c → fires s c = false

namespace Once

variable {step fires} {Inv : σ → Prop} {Done : σ → C → Prop} (h : Once step fires Inv Done)

include h

theorem keeps_run (s : σ) (cs : List C) (hs : Inv s) : Inv (run step s cs) := by
  induction cs generalizing s with
  | nil => exact hs
  | cons c cs ih => exact ih (step s c) (h.keeps s c hs)

theorem done_run (s : σ) (d : C) (cs : List C) (hs : Inv s) (hd : Done s d) : Done (run step s cs) d := by
  induction cs generalizing s with
  | nil => exact hd
  | cons c cs ih => exact ih (step s c) (h.keeps s c hs) (h.stays s c d hs hd)

theorem notMem_fired (s : σ) (d : C) (cs : List C) (hs : Inv s) (hd : Done s d) : d ∉ fired step fires s cs := by
  induction cs generalizing s with
  | nil => exact List.not_mem_nil
  | cons c cs ih =>
    have hrest := ih (step s c) (h.keeps s c hs) (h.stays s c d hs hd)
    unfold fired
    split
    · rename_i hfires
      rw [List.mem_cons, not_or]
      refine ⟨?_, hrest⟩
      rintro rfl
      rw [h.disabled s d hs hd] at hfires
      exact Bool.false_ne_true hfires
    · exact hrest

/-- **At most once.** -/
theorem fired_nodup (s : σ) (cs : List C) (hs : Inv s) : (fired step fires s cs).Nodup := by
  induction cs generalizing s with
  | nil => exact List.nodup_nil
  | cons c cs ih =>
    have hnext := h.keeps s c hs
    unfold fired
    split
    · rename_i hfires
      exact List.nodup_cons.mpr ⟨h.notMem_fired _ c cs hnext (h.done s c hs hfires), ih _ hnext⟩
    · exact ih _ hnext

theorem done_of_fired (s : σ) (d : C) (cs : List C) (hs : Inv s) (hd : d ∈ fired step fires s cs) :
    Done (run step s cs) d := by
  induction cs generalizing s with
  | nil => exact absurd hd List.not_mem_nil
  | cons c cs ih =>
    have hnext := h.keeps s c hs
    unfold fired at hd
    split at hd
    · rename_i hfires
      rcases List.mem_cons.mp hd with rfl | hd
      · exact h.done_run _ d cs hnext (h.done s d hs hfires)
      · exact ih _ hnext hd
    · exact ih _ hnext hd

end Once

end Firing
