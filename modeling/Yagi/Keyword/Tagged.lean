import Yagi.Keyword.Proofs

/-!
# Coloured texts on a line

A line is a list of coloured texts and untagged spaces. The columns of a text
after its first one, and the column behind it, show the text.
-/

open Text While

namespace Yagi

open Keyword

/-! ## Lines -/

/-- A text under one colour. Its bytes are neither tags nor the terminator. -/
structure Token where
  color : Byte
  text : Str
  color_mem : color ∈ guardColors
  plain : ∀ b ∈ text, Plain b
  text_ne_nil : text ≠ []

namespace Token

def bytes (t : Token) : Str := IdaEmit.colorGuard t.color t.text

/-- The code of the colour is a tag byte, and the text does not tell them apart. -/
def mistaken (t : Token) : Prop := t.color = colorDefault ∧ qisalnum (t.text.head t.text_ne_nil) = false

instance (t : Token) : Decidable t.mistaken := inferInstanceAs (Decidable (_ ∧ _))

/-- What the scanner makes of the text. -/
def keyword (t : Token) : Option Str :=
  if t.mistaken then (if t.text.tail = [] then none else some t.text.tail) else some t.text

theorem bytes_eq (t : Token) : t.bytes = [colorOn, t.color] ++ t.text ++ [colorOff, t.color] :=
  colorGuard_eq t.color t.text t.color_mem

theorem cut_eq (pre rest : Str) (t : Token) (k : Nat) :
    pre ++ [colorOn, t.color] ++ t.text.take k ++ (t.text.drop k ++ [colorOff, t.color] ++ rest) =
      pre ++ t.bytes ++ rest := by
  have htext := List.take_append_drop k t.text
  rw [t.bytes_eq]
  simp only [List.append_assoc]
  rw [← List.append_assoc (t.text.take k), htext]

theorem length_cut (pre : Str) (t : Token) (k : Nat) (hk : k ≤ t.text.length) :
    ((pre ++ [colorOn, t.color] ++ t.text.take k).length : Int) = pre.length + 2 + k := by
  rw [List.length_append, List.length_append, List.length_take]
  simp only [List.length_cons, List.length_nil]
  omega

theorem noNul (t : Token) : NoNul t.bytes := by
  have hcolor : ∀ c ∈ guardColors, NoNul [colorOn, c] ∧ NoNul [colorOff, c] := by decide
  have htext : NoNul t.text := fun h => (t.plain 0 h).2.2 rfl
  rw [bytes_eq, noNul_append, noNul_append]
  exact ⟨⟨(hcolor t.color t.color_mem).1, htext⟩, (hcolor t.color t.color_mem).2⟩

end Token

inductive Piece where
  | space
  | token (t : Token)

namespace Piece

def bytes : Piece → Str
  | .space => ascii " "
  | .token t => t.bytes

def columns : Piece → Nat
  | .space => 1
  | .token t => t.text.length

theorem noNul (p : Piece) : NoNul p.bytes := by
  cases p with
  | space => show NoNul (ascii " "); decide
  | token t => exact t.noNul

end Piece

def lineBytes (pieces : List Piece) : Str := pieces.flatMap Piece.bytes

def lineColumns (pieces : List Piece) : Nat := pieces.foldr (fun p columns => p.columns + columns) 0

theorem lineColumns_append (front back : List Piece) :
    lineColumns (front ++ back) = lineColumns front + lineColumns back := by
  induction front with
  | nil => simp [lineColumns]
  | cons p front ih =>
    simp only [lineColumns, List.cons_append, List.foldr_cons] at ih ⊢
    omega

theorem lineBytes_noNul (pieces : List Piece) : NoNul (lineBytes pieces) := by
  unfold NoNul lineBytes
  rw [List.mem_flatMap]
  rintro ⟨p, -, hp⟩
  exact p.noNul hp

/-! ## To the column -/

theorem columns_space (pre rest : Str) (x : Nat) :
    Reaches (columnStep (pre ++ ascii " " ++ rest)) (1 + x, pre.length) (x, (pre ++ ascii " ").length) := by
  have hplain : ∀ b ∈ ascii " ", Plain b := by decide
  exact columns_text pre (ascii " ") rest x fun b hb => (hplain b hb).untagged

theorem columns_piece (pre rest : Str) (p : Piece) (x : Nat) :
    Reaches (columnStep (pre ++ p.bytes ++ rest)) (p.columns + (x + 1), pre.length)
      (x + 1, (pre ++ p.bytes).length) := by
  cases p with
  | space => exact columns_space pre rest (x + 1)
  | token t =>
    show Reaches (columnStep (pre ++ t.bytes ++ rest)) (t.text.length + (x + 1), _) (x + 1, (pre ++ t.bytes).length)
    have hopen := columns_tag pre (t.text ++ [colorOff, t.color] ++ rest) colorOn t.color (t.text.length + x)
      (Or.inl rfl)
    have htext := columns_text (pre ++ [colorOn, t.color]) t.text ([colorOff, t.color] ++ rest) (x + 1)
      fun b hb => (t.plain b hb).untagged
    have hclose := columns_tag (pre ++ [colorOn, t.color] ++ t.text) rest colorOff t.color x (Or.inr rfl)
    rw [t.bytes_eq]
    simp only [List.append_assoc, ← Nat.add_assoc] at hopen htext hclose ⊢
    exact hopen.trans (htext.trans hclose)

theorem columns_pieces (pre rest : Str) (pieces : List Piece) (x : Nat) :
    Reaches (columnStep (pre ++ lineBytes pieces ++ rest)) (lineColumns pieces + (x + 1), pre.length)
      (x + 1, (pre ++ lineBytes pieces).length) := by
  induction pieces generalizing pre with
  | nil => simpa [lineBytes, lineColumns] using Reaches.refl _
  | cons p pieces ih =>
    have hp := columns_piece pre (lineBytes pieces ++ rest) p (lineColumns pieces + x)
    have hrest := ih (pre ++ p.bytes)
    have hcolumns : lineColumns (p :: pieces) + (x + 1) = p.columns + (lineColumns pieces + x + 1) := by
      simp only [lineColumns, List.foldr_cons]; omega
    have hbytes : lineBytes (p :: pieces) = p.bytes ++ lineBytes pieces := rfl
    rw [hcolumns, hbytes]
    simp only [List.append_assoc, ← Nat.add_assoc] at hp hrest ⊢
    exact hp.trans hrest

theorem column_token (before : List Piece) (rest : Str) (t : Token) (k : Nat) (hk : k < t.text.length) :
    loop (columnStep (lineBytes before ++ t.bytes ++ rest)) (columnMeasure (lineBytes before ++ t.bytes ++ rest))
      (lineColumns before + (k + 1), 0) = .ok ((lineBytes before).length + 2 + (k + 1 : Nat) : Int) := by
  have hplain : ∀ b ∈ t.text.take (k + 1), Untagged b :=
    fun b hb => (t.plain b (List.mem_of_mem_take hb)).untagged
  have hbefore := columns_pieces [] (t.bytes ++ rest) before k
  have htag := columns_tag (lineBytes before) (t.text ++ [colorOff, t.color] ++ rest) colorOn t.color k (Or.inl rfl)
  have htext := columns_text (lineBytes before ++ [colorOn, t.color]) (t.text.take (k + 1))
    (t.text.drop (k + 1) ++ [colorOff, t.color] ++ rest) 0 hplain
  have hline : lineBytes before ++ [colorOn, t.color] ++ (t.text ++ [colorOff, t.color] ++ rest) =
      lineBytes before ++ t.bytes ++ rest := by
    rw [t.bytes_eq]; simp
  have htake : (t.text.take (k + 1)).length + 0 = k + 1 := by rw [List.length_take]; omega
  rw [List.nil_append, ← List.append_assoc] at hbefore
  rw [hline] at htag
  rw [t.cut_eq, htake, t.length_cut _ (k + 1) (by omega)] at htext
  exact loop_of_reaches (columnStep_decreases _) _ _ _ (hbefore.trans (htag.trans htext)) rfl

/-! ## To the end of the text -/

theorem end_token (pre rest : Str) (t : Token) (k : Nat) (hk : k ≤ t.text.length) :
    loop (endStep (pre ++ t.bytes ++ rest)) (endMeasure (pre ++ t.bytes ++ rest)) (pre.length + 2 + k : Int) =
      .ok (pre.length + 2 + t.text.length : Int) := by
  have hplain : ∀ b ∈ t.text.drop k, Plain b := fun b hb => t.plain b (List.mem_of_mem_drop hb)
  have htext := end_text (pre ++ [colorOn, t.color] ++ t.text.take k) (t.text.drop k) ([colorOff, t.color] ++ rest) hplain
  have htag := end_tag (pre ++ [colorOn, t.color] ++ t.text) (t.color :: rest)
  have hline : pre ++ [colorOn, t.color] ++ t.text ++ colorOff :: t.color :: rest = pre ++ t.bytes ++ rest := by
    rw [t.bytes_eq]; simp
  have hto := t.length_cut pre t.text.length (Nat.le_refl _)
  rw [List.take_length] at hto
  rw [List.append_assoc _ (t.text.drop k), ← List.append_assoc (t.text.drop k), t.cut_eq, t.length_cut pre k hk,
    List.append_assoc _ (t.text.take k), List.take_append_drop, hto] at htext
  rw [hline, hto] at htag
  exact loop_of_reaches (endStep_decreases _) _ _ _ htext htag

/-! ## Back to the tag -/

theorem guardColors_not_alnum : ∀ c ∈ guardColors, qisalnum c = false := by decide

theorem start_color (pre rest : Str) (t : Token) :
    startStep (pre ++ t.bytes ++ rest) (pre.length + 1 : Int) =
      if t.mistaken then .ok (.done (pre.length + 1 : Int)) else .ok (.again (pre.length : Int)) := by
  obtain ⟨first, tail, htext⟩ : ∃ first tail, t.text = first :: tail := List.exists_cons_of_ne_nil t.text_ne_nil
  have hhead : t.text.head t.text_ne_nil = first := by simp [htext]
  have hline : pre ++ t.bytes ++ rest =
      (pre ++ [colorOn]) ++ t.color :: first :: (tail ++ [colorOff, t.color] ++ rest) := by
    rw [t.bytes_eq, htext]; simp
  have hpos : (pre.length + 1 : Int) = ((pre ++ [colorOn]).length : Nat) := by simp
  have hback : ((pre ++ [colorOn]).length - 1 : Int) = pre.length := by simp
  have hmistaken : t.mistaken ↔ t.color = colorDefault ∧ qisalnum first = false := by
    unfold Token.mistaken
    rw [hhead]
  simp only [hmistaken]
  rw [hline, hpos]
  by_cases hmark : t.color = colorOn
  · rw [hmark, start_mark, hback]
    have hdefault : colorOn = colorDefault := by decide
    cases qisalnum first <;> simp [hdefault]
  · have hdefault : ¬ t.color = colorDefault := hmark
    rw [start_other _ _ _ hmark, hback]
    simp [hdefault]

theorem start_tag (pre rest : Str) (t : Token) :
    startStep (pre ++ t.bytes ++ rest) pre.length = .ok (.done (pre.length : Int)) := by
  have hline : pre ++ t.bytes ++ rest = pre ++ colorOn :: t.color :: (t.text ++ [colorOff, t.color] ++ rest) := by
    rw [t.bytes_eq]; simp
  rw [hline, start_mark, guardColors_not_alnum t.color t.color_mem]
  rfl

theorem start_token (pre rest : Str) (t : Token) (k : Nat) (hk : k ≤ t.text.length) :
    loop (startStep (pre ++ t.bytes ++ rest)) startMeasure (pre.length + 2 + k : Int) =
      .ok (if t.mistaken then (pre.length + 1 : Int) else (pre.length : Int)) := by
  have hclosed : ∀ b ∈ (t.text ++ [colorOff]).take (k + 1), b ≠ colorOn := by
    intro b hb
    rcases List.mem_append.mp (List.mem_of_mem_take hb) with htext | hoff
    · exact (t.plain b htext).1
    · rw [List.mem_singleton.mp hoff]
      decide
  have hback := start_text (pre ++ [colorOn, t.color]) ((t.text ++ [colorOff]).take (k + 1))
    ((t.text ++ [colorOff]).drop (k + 1) ++ [t.color] ++ rest) hclosed
  have hline : pre ++ [colorOn, t.color] ++ (t.text ++ [colorOff]).take (k + 1) ++
      ((t.text ++ [colorOff]).drop (k + 1) ++ [t.color] ++ rest) = pre ++ t.bytes ++ rest := by
    have hsplit := List.take_append_drop (k + 1) (t.text ++ [colorOff])
    rw [t.bytes_eq]
    simp only [List.append_assoc]
    rw [← List.append_assoc ((t.text ++ [colorOff]).take (k + 1)), hsplit]
    simp
  have hfrom : ((pre ++ [colorOn, t.color] ++ (t.text ++ [colorOff]).take (k + 1)).length - 1 : Int) =
      pre.length + 2 + k := by
    simp only [List.length_append, List.length_cons, List.length_nil, List.length_take]; omega
  have hto : ((pre ++ [colorOn, t.color]).length - 1 : Int) = pre.length + 1 := by
    simp only [List.length_append, List.length_cons, List.length_nil]; omega
  rw [hline, hfrom, hto] at hback
  have hcolor := start_color pre rest t
  split
  · rename_i hmistaken
    rw [if_pos hmistaken] at hcolor
    exact loop_of_reaches (startStep_decreases _) _ _ _ hback hcolor
  · rename_i hfine
    rw [if_neg hfine] at hcolor
    exact loop_of_reaches (startStep_decreases _) _ _ _ (hback.trans (Reaches.one hcolor)) (start_tag pre rest t)

/-! ## The keyword -/

theorem substr_append (pre mid rest : Str) (pos count : Int) (hpos : pos = pre.length) (hcount : count = mid.length) :
    substr (pre ++ mid ++ rest) pos count = mid := by
  subst hpos
  subst hcount
  simp [substr]

theorem lineBytes_token (before after : List Piece) (t : Token) :
    lineBytes (before ++ .token t :: after) = lineBytes before ++ t.bytes ++ lineBytes after := by
  simp [lineBytes, Piece.bytes]

theorem computeKeyword_inside (before after : List Piece) (t : Token) (k : Nat) (hk : k < t.text.length) :
    computeKeyword ⟨some (lineColumns before + (k + 1)), lineBytes (before ++ .token t :: after)⟩ =
      .ok t.keyword := by
  have hnul := lineBytes_noNul (before ++ .token t :: after)
  rw [computeKeyword]
  rw [lineBytes_token] at hnul ⊢
  have hcolumn := column_token before (lineBytes after) t k hk
  have hend := end_token (lineBytes before) (lineBytes after) t (k + 1) (by omega)
  have hstart := start_token (lineBytes before) (lineBytes after) t (k + 1) (by omega)
  simp only [c_str_of_noNul _ hnul, hcolumn, hend, hstart, bind, Except.bind]
  have hlen : ((lineBytes before ++ t.bytes ++ lineBytes after).length : Int) =
      (lineBytes before).length + (t.text.length + 4) + (lineBytes after).length := by
    rw [t.bytes_eq]
    simp only [List.length_append, List.length_cons, List.length_nil]
    omega
  obtain ⟨first, tail, htext⟩ : ∃ first tail, t.text = first :: tail := List.exists_cons_of_ne_nil t.text_ne_nil
  have hlength : t.text.length = tail.length + 1 := by rw [htext, List.length_cons]
  unfold Token.keyword
  by_cases hmistaken : t.mistaken
  · have hline : lineBytes before ++ t.bytes ++ lineBytes after =
        (lineBytes before ++ [colorOn, t.color, first]) ++ tail ++ ([colorOff, t.color] ++ lineBytes after) := by
      rw [t.bytes_eq, htext]; simp
    simp only [if_pos hmistaken, htext, List.tail_cons]
    by_cases hempty : tail = []
    · rw [if_pos hempty, if_pos (by rw [hempty] at *; simp only [List.length_cons, List.length_nil]; omega)]
      rfl
    · have hpos := List.length_pos_iff.mpr hempty
      rw [if_neg hempty, if_neg (by simp only [List.length_cons]; omega), if_neg (by omega), hline, substr_append]
      · rfl
      · simp only [List.length_append, List.length_cons, List.length_nil]; omega
      · simp only [List.length_cons]; omega
  · have hline : lineBytes before ++ t.bytes ++ lineBytes after =
        (lineBytes before ++ [colorOn, t.color]) ++ t.text ++ ([colorOff, t.color] ++ lineBytes after) := by
      rw [t.bytes_eq]; simp
    simp only [if_neg hmistaken]
    rw [if_neg (by omega), if_neg (by omega), hline, substr_append]
    · rfl
    · simp only [List.length_append, List.length_cons, List.length_nil]; omega
    · omega

end Yagi
