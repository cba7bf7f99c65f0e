import Yagi.Keyword.Tagged

/-!
# The keyword on a printed line

A line is a list of tokens and untagged spaces. The keyword at a column inside a
token is its text, unless the code of its colour is taken for a tag.
-/

open Text

namespace Yagi

open Keyword

/-! ## Lines -/

def isprint (b : Byte) : Bool := 32 ≤ b.toNat ∧ b.toNat ≤ 126

theorem plain_of_isprint (b : Byte) (h : isprint b) : Plain b := by
  simp only [isprint, decide_eq_true_eq] at h
  refine ⟨?_, ?_, ?_⟩ <;> (rintro rfl; revert h; decide)

theorem exists_token (call : EmitCall) (hprint : ∀ b ∈ call.text, isprint b) (hne : call.text ≠ []) :
    ∃ t : Token, t.text = call.text ∧ t.bytes = call.emit := by
  obtain ⟨c, hc, hemit⟩ := emit_eq_colorGuard call
  exact ⟨⟨c, call.text, hc, fun b hb => plain_of_isprint b (hprint b hb), hne⟩, rfl, hemit.symm⟩

/-! ## The keyword -/

theorem computeKeyword_token (before after : List Piece) (t : Token) (k : Nat) (hk : 0 < k)
    (hlast : k < t.text.length) :
    computeKeyword ⟨some (lineColumns before + k), lineBytes (before ++ .token t :: after)⟩ =
      .ok (some (if t.mistaken then t.text.tail else t.text)) := by
  obtain ⟨k, rfl⟩ : ∃ j, k = j + 1 := ⟨k - 1, by omega⟩
  have hinside := computeKeyword_inside before after t k (by omega)
  have htail : t.text.tail ≠ [] := by
    rw [← List.length_pos_iff, List.length_tail]
    omega
  rw [Token.keyword, if_neg htail] at hinside
  refine hinside.trans ?_
  split <;> rfl

/-! ## When the whole text is found -/

/-- **Keyword.** At a column inside a token the scanner finds its text exactly when its colour is not the
default one, or when it starts with a letter or a digit. -/
theorem computeKeyword_token_iff (before after : List Piece) (t : Token) (x : Nat) (hfirst : lineColumns before < x)
    (hlast : x < lineColumns before + t.text.length) :
    computeKeyword ⟨some x, lineBytes (before ++ .token t :: after)⟩ = .ok (some t.text) ↔
      (t.color = colorDefault → qisalnum (t.text.head t.text_ne_nil)) := by
  obtain ⟨k, rfl⟩ := Nat.exists_eq_add_of_lt hfirst
  rw [Nat.add_assoc, computeKeyword_token before after t (k + 1) (by omega) (by omega)]
  have htail : t.text.tail ≠ t.text := by
    intro h
    have := congrArg List.length h
    simp only [List.length_tail] at this
    omega
  have hiff : t.mistaken ↔ ¬ (t.color = colorDefault → qisalnum (t.text.head t.text_ne_nil)) := by
    unfold Token.mistaken
    simp
  by_cases hmistaken : t.mistaken
  · rw [if_pos hmistaken]
    simp only [Except.ok.injEq, Option.some.injEq]
    exact ⟨fun h => absurd h htail, fun h => absurd h (hiff.mp hmistaken)⟩
  · rw [if_neg hmistaken]
    exact ⟨fun _ => not_not.mp (fun h => hmistaken (hiff.mpr h)), fun _ => rfl⟩

def mainToken : Token := ⟨colorDefault, ascii "main", by decide, by decide, by decide⟩

theorem computeKeyword_token_iff_main :
    computeKeyword ⟨some 3, lineBytes ([.space] ++ .token mainToken :: [])⟩ = .ok (some (ascii "main")) ↔
      (mainToken.color = colorDefault → qisalnum (mainToken.text.head mainToken.text_ne_nil)) :=
  computeKeyword_token_iff [.space] [] mainToken 3 (by decide) (by decide)

/-- The name of a function that starts with `_` loses that character. -/
theorem computeKeyword_underscore :
    computeKeyword ⟨some 2, lineBytes [.token ⟨colorDefault, ascii "_main", by decide, by decide, by decide⟩]⟩ =
      .ok (some (ascii "main")) := by
  decide

end Yagi
