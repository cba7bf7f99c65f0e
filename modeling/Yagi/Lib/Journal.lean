import Yagi.Lib.Runs
import Yagi.Lib.Store

/-!
# Journals

A step of a run may edit what is seen of the state. The journal lists the edits,
and what is seen in the end is what they leave.
-/

namespace Journal

open Runs

variable {σ τ C E : Type} (step : σ → C → σ) (edit : σ → C → Option E)

/-- The edits of a run, in their order. -/
def journal (s : σ) : List C → List E
  | [] => []
  | c :: cs => (edit s c).toList ++ journal (step s c) cs

theorem journal_append (s : σ) (xs ys : List C) :
    journal step edit s (xs ++ ys) = journal step edit s xs ++ journal step edit (run step s xs) ys := by
  induction xs generalizing s with
  | nil => rfl
  | cons c cs ih => rw [List.cons_append, journal, ih, journal, List.append_assoc]; rfl

theorem mem_journal (s : σ) (cs : List C) (e : E) :
    e ∈ journal step edit s cs ↔ ∃ before c after, cs = before ++ c :: after ∧ edit (run step s before) c = some e := by
  constructor
  · intro h
    induction cs generalizing s with
    | nil => exact absurd h List.not_mem_nil
    | cons c cs ih =>
      rcases List.mem_append.mp h with h | h
      · exact ⟨[], c, cs, rfl, Option.mem_toList.mp h⟩
      · obtain ⟨before, d, after, rfl, hd⟩ := ih (step s c) h
        exact ⟨c :: before, d, after, rfl, hd⟩
  · rintro ⟨before, c, after, rfl, h⟩
    rw [journal_append, journal, h]
    simp

/-- The step that decides what the journal answers. No step after it answers. -/
structure Decides {β : Type} (f : E → Option β) (s : σ) (before : List C) (c : C) (after : List C) (b : β) : Prop where
  answers : (edit (run step s before) c).bind f = some b
  last : ∀ mid d rest, after = mid ++ d :: rest → (edit (run step s (before ++ c :: mid)) d).bind f = none

/-- **Last entry.** What the last entry that answers says was decided by a step. -/
theorem exists_of_lastSome_journal {β : Type} (f : E → Option β) (s : σ) (cs : List C) (b : β)
    (h : Store.lastSome f (journal step edit s cs) = some b) :
    ∃ before c after, cs = before ++ c :: after ∧ Decides step edit f s before c after b := by
  induction cs using List.reverseRecOn with
  | nil => simp [journal] at h
  | append_singleton cs d ih =>
    have hlast : Store.lastSome f (edit (run step s cs) d).toList = (edit (run step s cs) d).bind f := by
      cases edit (run step s cs) d with
      | none => rfl
      | some e => exact Store.lastSome_singleton f e
    rw [journal_append, journal, journal, List.append_nil, Store.lastSome_append, hlast, Option.or_eq_some_iff] at h
    rcases h with hd | ⟨hd, hearlier⟩
    · exact ⟨cs, d, [], rfl, hd, by simp⟩
    · obtain ⟨before, c, after, rfl, hdecides⟩ := ih hearlier
      refine ⟨before, c, after ++ [d], by simp, hdecides.answers, ?_⟩
      intro mid x rest hsplit
      rcases List.eq_nil_or_concat rest with rfl | ⟨rest, y, rfl⟩
      · obtain ⟨rfl, hx⟩ := List.append_inj' hsplit rfl
        rw [← (List.cons.inj hx).1]
        exact hd
      · have hconcat : after ++ [d] = (mid ++ x :: rest) ++ [y] := by
          rw [hsplit, List.concat_eq_append, List.append_assoc, List.cons_append]
        exact hdecides.last mid x rest (List.append_inj' hconcat rfl).1

/-- **Last value.** What is seen of a state is what the last edit that sets it has set. -/
theorem see_run_lastSome {β : Type} (apply : τ → E → τ) (see : τ → β) (sets : E → Option β)
    (h : ∀ t e, see (apply t e) = (sets e).getD (see t)) (t : τ) (es : List E) :
    see (run apply t es) = (Store.lastSome sets es).getD (see t) := by
  induction es using List.reverseRecOn with
  | nil => rfl
  | append_singleton es e ih =>
    rw [run_append, run_singleton, h, Store.lastSome_append, Store.lastSome_singleton, ih]
    cases sets e <;> rfl

/-- A step is seen as its edit, or not at all. -/
def Edits (see : σ → τ) (apply : τ → E → τ) : Prop :=
  ∀ s c, see (step s c) = ((edit s c).map (apply (see s))).getD (see s)

theorem see_run_of_invariant (see : σ → τ) (apply : τ → E → τ) (Inv : σ → Prop) (hinv : ∀ s c, Inv s → Inv (step s c))
    (h : ∀ s c, Inv s → see (step s c) = ((edit s c).map (apply (see s))).getD (see s)) (s : σ) (hs : Inv s)
    (cs : List C) : see (run step s cs) = run apply (see s) (journal step edit s cs) := by
  induction cs generalizing s with
  | nil => rfl
  | cons c cs ih =>
    show see (run step (step s c) cs) = _
    rw [ih (step s c) (hinv s c hs), h s c hs, journal]
    cases edit s c <;> rfl

/-- **Journal.** What is seen at the end of a run is what the journal leaves. -/
theorem see_run (see : σ → τ) (apply : τ → E → τ) (h : Edits step edit see apply) (s : σ) (cs : List C) :
    see (run step s cs) = run apply (see s) (journal step edit s cs) :=
  see_run_of_invariant step edit see apply (fun _ => True) (fun _ _ _ => trivial) (fun s c _ => h s c) s trivial cs

end Journal
