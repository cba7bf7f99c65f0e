import Yagi.Keyword.Lines

/-!
# The first column of a token

The first loop stops behind the last character that it counts. At the first
column of a token that is before its tag, where the token before it ends.
-/

open Text While

namespace Yagi

open Keyword

theorem computeKeyword_open (pre rest : Str) (t : Token) (x : Nat) (hnul : NoNul (pre ++ t.bytes ++ rest))
    (hcolumn : loop (columnStep (pre ++ t.bytes ++ rest)) (columnMeasure (pre ++ t.bytes ++ rest)) (x, 0) =
      .ok (pre.length : Int)) :
    computeKeyword ⟨some x, pre ++ t.bytes ++ rest⟩ = .ok none := by
  have hline : pre ++ t.bytes ++ rest = pre ++ colorOn :: (t.color :: t.text ++ [colorOff, t.color] ++ rest) := by
    rw [t.bytes_eq]; simp
  have hstop : endStep (pre ++ t.bytes ++ rest) pre.length = .ok (.done (pre.length : Int)) := by
    rw [hline]
    exact end_open pre _
  have hend := loop_of_reaches (endStep_decreases _) _ _ _ (Reaches.refl _) hstop
  have hstart := loop_of_reaches (startStep_decreases _) _ _ _ (Reaches.refl _) (start_tag pre rest t)
  rw [computeKeyword]
  simp only [c_str_of_noNul _ hnul, hcolumn, hend, hstart, bind, Except.bind]
  rw [if_pos (by omega)]
  rfl

/-- The keyword of the token that ends where the rest of the line starts. -/
def keywordBefore (before : List Piece) : Option Str :=
  match before.getLast? with
  | some (.token p) => p.keyword
  | _ => none

theorem computeKeyword_first (before after : List Piece) (t : Token) :
    computeKeyword ⟨some (lineColumns before), lineBytes (before ++ .token t :: after)⟩ =
      .ok (keywordBefore before) := by
  have hnul := lineBytes_noNul (before ++ .token t :: after)
  rcases List.eq_nil_or_concat before with rfl | ⟨front, p, rfl⟩
  · rw [lineBytes_token] at hnul ⊢
    exact computeKeyword_open [] (lineBytes after) t 0 hnul rfl
  · unfold keywordBefore
    rw [List.concat_eq_append, List.getLast?_concat, lineColumns_append]
    cases p with
    | space =>
      rw [List.concat_eq_append, lineBytes_token] at hnul
      rw [lineBytes_token]
      refine computeKeyword_open _ (lineBytes after) t _ hnul ?_
      -- The space is the last character that is counted.
      have hfront := columns_pieces [] (ascii " " ++ t.bytes ++ lineBytes after) front 0
      have hspace := columns_space (lineBytes front) (t.bytes ++ lineBytes after) 0
      have hbytes : lineBytes (front ++ [.space]) = lineBytes front ++ ascii " " := by
        simp [lineBytes, Piece.bytes]
      rw [hbytes]
      simp only [List.nil_append, List.append_assoc] at hfront hspace ⊢
      exact loop_of_reaches (columnStep_decreases _) _ _ _ (hfront.trans hspace) rfl
    | token p =>
      -- The first column of `t` is the column behind `p`.
      have hpos := List.length_pos_iff.mpr p.text_ne_nil
      have hlast := computeKeyword_inside front (.token t :: after) p (p.text.length - 1) (by omega)
      have hcolumns : lineColumns [.token p] = p.text.length - 1 + 1 := by
        show p.text.length + 0 = _
        omega
      rw [hcolumns, List.append_assoc, List.singleton_append]
      exact hlast

/-- The token stands right behind another one that shows the same keyword. -/
def FollowsSame (before : List Piece) (t : Token) : Prop :=
  ∃ front p, before = front ++ [.token p] ∧ p.keyword = t.keyword

theorem keywordBefore_eq_iff (before : List Piece) (t : Token) (h : 1 < t.text.length) :
    keywordBefore before = t.keyword ↔ FollowsSame before t := by
  have hkeyword : t.keyword ≠ none := by
    have htail : t.text.tail ≠ [] := by
      rw [← List.length_pos_iff, List.length_tail]
      omega
    unfold Token.keyword
    rw [if_neg htail]
    split <;> simp
  unfold FollowsSame keywordBefore
  rcases List.eq_nil_or_concat before with rfl | ⟨front, p, rfl⟩
  · simp [Ne.symm hkeyword]
  · rw [List.concat_eq_append, List.getLast?_concat]
    cases p with
    | space => simp [Ne.symm hkeyword]
    | token p => simp

/-- **One keyword.** Two columns of a token show the same keyword exactly when neither or both are its first
column, or the token follows one that shows the same keyword. -/
theorem same_keyword_iff (before after : List Piece) (t : Token) (i j : Nat) (hi : i < t.text.length)
    (hj : j < t.text.length) :
    computeKeyword ⟨some (lineColumns before + i), lineBytes (before ++ .token t :: after)⟩ =
        computeKeyword ⟨some (lineColumns before + j), lineBytes (before ++ .token t :: after)⟩ ↔
      (i = 0 ↔ j = 0) ∨ FollowsSame before t := by
  have hfirst : computeKeyword ⟨some (lineColumns before + 0), lineBytes (before ++ .token t :: after)⟩ =
      .ok (keywordBefore before) := computeKeyword_first before after t
  have hinner := computeKeyword_inside before after t
  rcases Nat.eq_zero_or_pos i with rfl | hipos
  · rcases Nat.eq_zero_or_pos j with rfl | hjpos
    · exact iff_of_true rfl (Or.inl Iff.rfl)
    · obtain ⟨j, rfl⟩ : ∃ k, j = k + 1 := ⟨j - 1, by omega⟩
      rw [hfirst, hinner j (by omega), Except.ok.injEq, keywordBefore_eq_iff before t (by omega)]
      simp
  · obtain ⟨i, rfl⟩ : ∃ k, i = k + 1 := ⟨i - 1, by omega⟩
    rcases Nat.eq_zero_or_pos j with rfl | hjpos
    · rw [hfirst, hinner i (by omega), Except.ok.injEq, eq_comm,
        keywordBefore_eq_iff before t (by omega)]
      simp
    · obtain ⟨j, rfl⟩ : ∃ k, j = k + 1 := ⟨j - 1, by omega⟩
      rw [hinner i (by omega), hinner j (by omega)]
      simp

def parenToken : Token := ⟨colorKeyword, ascii "(", by decide, by decide, by decide⟩

theorem same_keyword_iff_main :
    computeKeyword ⟨some (lineColumns [.space] + 1), lineBytes ([.space] ++ .token mainToken :: [])⟩ =
        computeKeyword ⟨some (lineColumns [.space] + 3), lineBytes ([.space] ++ .token mainToken :: [])⟩ ↔
      (1 = 0 ↔ 3 = 0) ∨ FollowsSame [.space] mainToken :=
  same_keyword_iff [.space] [] mainToken 1 3 (by decide) (by decide)

/-- The first column of `main` shows nothing, and that of the parenthesis behind it shows `main`. -/
theorem first_column_keyword :
    let line := lineBytes [.space, .token mainToken, .token parenToken]
    computeKeyword ⟨some 1, line⟩ = .ok none ∧ computeKeyword ⟨some 2, line⟩ = .ok (some (ascii "main")) ∧
      computeKeyword ⟨some 5, line⟩ = .ok (some (ascii "main")) := by
  decide

end Yagi
