import Mathlib.Data.Fintype.Card
import Mathlib.Logic.Relation

/-!
# Ranks

In a finite relation without cycles the number of elements below an element
decreases along the relation.
-/

namespace Rank

open Relation

variable {α : Type} (r : α → α → Prop)

def Acyclic : Prop := ∀ a, ¬ TransGen r a a

theorem acyclic_of_decreasing (f : α → Nat) (h : ∀ a b, r a b → f b < f a) : Acyclic r := by
  intro a hcycle
  have hlt : ∀ b, TransGen r a b → f b < f a := by
    intro b hb
    induction hb with
    | single hab => exact h _ _ hab
    | tail _ hbc ih => exact (h _ _ hbc).trans ih
  exact Nat.lt_irrefl _ (hlt a hcycle)

variable [Fintype α]

open Classical in
noncomputable def below (a : α) : Finset α := Finset.univ.filter fun b => TransGen r a b

noncomputable def rank (a : α) : Nat := (below r a).card

theorem mem_below (a b : α) : b ∈ below r a ↔ TransGen r a b := by
  simp [below]

theorem rank_lt (h : Acyclic r) (a b : α) (hab : r a b) : rank r b < rank r a := by
  apply Finset.card_lt_card
  refine ⟨?_, ?_⟩
  · intro c hc
    rw [mem_below] at hc ⊢
    exact TransGen.head hab hc
  · intro hsub
    have hb := hsub ((mem_below r a b).mpr (TransGen.single hab))
    exact h b ((mem_below r b b).mp hb)

theorem rank_lt_card (h : Acyclic r) (a : α) : rank r a < Fintype.card α := by
  have hself : a ∉ below r a := by
    rw [mem_below]
    exact h a
  exact Finset.card_lt_univ_of_notMem hself

end Rank
