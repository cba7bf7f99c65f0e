import Mathlib.Data.List.Induction
import Yagi.Keyword.Spec

/-!
# The keyword of a token

On a line of printed tokens the scanner stops at the tag before the text, or one
byte later where the colour code looks like a tag.
-/

open Text While

namespace Yagi

namespace Keyword

/-! ## Steps -/

theorem charAt_append (pre rest : Str) (b : Byte) : charAt (pre ++ b :: rest) pre.length = .ok b := by
  have hle : (0 : Int) ≤ pre.length ∧ (pre.length : Int) ≤ ((pre ++ b :: rest).length : Nat) := by
    simp only [List.length_append, List.length_cons]
    omega
  unfold charAt
  rw [if_pos hle]
  simp

theorem charAt_ok (line : Str) (pos : Int) (b : Byte) (h : charAt line pos = .ok b) :
    0 ≤ pos ∧ pos ≤ line.length := by
  unfold charAt at h
  split at h
  · assumption
  · simp at h

theorem columnStep_decreases (line : Str) : Decreases (columnStep line) (columnMeasure line) := by
  rintro ⟨x, start⟩ s' h
  cases x with
  | zero => simp [columnStep] at h
  | succ x =>
    unfold columnStep at h
    cases hread : charAt line start with
    | error e => simp [hread, bind, Except.bind] at h
    | ok b =>
      obtain ⟨hlo, hhi⟩ := charAt_ok line start b hread
      simp only [hread, bind, Except.bind] at h
      unfold columnMeasure
      split at h
      · cases h; simp only; omega
      · split at h
        · cases h; simp only; omega
        · cases h; simp only; omega

theorem endStep_decreases (line : Str) : Decreases (endStep line) (endMeasure line) := by
  intro stop s' h
  unfold endStep at h
  by_cases hle : stop ≤ line.length
  · cases hread : charAt line stop with
    | error e => simp [hle, hread, bind, Except.bind] at h
    | ok c =>
      simp only [hle, not_true, if_false, hread, bind, Except.bind] at h
      unfold endMeasure
      split at h
      · cases h; omega
      · cases h
  · simp [hle] at h; cases h

theorem startStep_decreases (line : Str) : Decreases (startStep line) startMeasure := by
  intro start s' h
  unfold startStep at h
  by_cases hle : 0 ≤ start
  · have hgo : s' = start - 1 := by
      cases hread : charAt line start with
      | error e => simp [hle, hread, bind, Except.bind] at h
      | ok b =>
        simp only [hle, not_true, if_false, hread, bind, Except.bind] at h
        split at h
        · cases h; rfl
        · cases hnext : charAt line (start + 1) with
          | error e => simp [hnext] at h
          | ok c =>
            simp only [hnext] at h
            split at h
            · cases h; rfl
            · cases h
    subst hgo
    unfold startMeasure
    omega
  · simp [hle] at h; cases h

/-- **Termination.** On every line and every column the loops come to an end. -/
theorem computeKeyword_ne_fuel (w : CustomViewer) : computeKeyword w ≠ .error .fuel := by
  unfold computeKeyword
  cases w.place with
  | none => simp
  | some x =>
    have hcolumn := loop_ne_fuel (columnStep_decreases (c_str w.curline)) (x, 0)
    simp only [bind, Except.bind]
    split
    · rename_i e he
      rw [he] at hcolumn
      simpa using hcolumn
    · rename_i start hstart
      have hend := loop_ne_fuel (endStep_decreases (c_str w.curline)) start
      split
      · rename_i e he
        rw [he] at hend
        simpa using hend
      · rename_i stop hstop
        have hback := loop_ne_fuel (startStep_decreases (c_str w.curline)) start
        split
        · rename_i e he
          rw [he] at hback
          simpa using hback
        · split
          · simp [pure, Except.pure]
          · split <;> simp [pure, Except.pure]

/-! ## Along a text -/

/-- A byte that does not open or close a tag. -/
def Untagged (b : Byte) : Prop := b ≠ colorOn ∧ b ≠ colorOff

/-- A byte of a text, where every loop goes on. -/
def Plain (b : Byte) : Prop := b ≠ colorOn ∧ b ≠ colorOff ∧ b ≠ 0

instance (b : Byte) : Decidable (Plain b) := inferInstanceAs (Decidable (_ ∧ _))

theorem Plain.untagged {b : Byte} (h : Plain b) : Untagged b := ⟨h.1, h.2.1⟩

theorem columns_text (pre text rest : Str) (x : Nat) (htext : ∀ b ∈ text, Untagged b) :
    Reaches (columnStep (pre ++ text ++ rest)) (text.length + x, pre.length) (x, (pre ++ text).length) := by
  induction text generalizing pre with
  | nil => simpa using Reaches.refl _
  | cons b text ih =>
    obtain ⟨hon, hoff⟩ := htext b List.mem_cons_self
    have hstep : columnStep (pre ++ b :: text ++ rest) ((b :: text).length + x, (pre.length : Int)) =
        .ok (.again (text.length + x, ((pre ++ [b]).length : Int))) := by
      have hlen : (b :: text).length + x = (text.length + x) + 1 := by simp only [List.length_cons]; omega
      rw [hlen, List.append_assoc, List.cons_append, columnStep, charAt_append]
      simp [bind, Except.bind, pure, Except.pure, hon, hoff]
    have hrest := ih (pre ++ [b]) fun c hc => htext c (List.mem_cons_of_mem _ hc)
    simp only [List.append_assoc, List.singleton_append] at hrest hstep ⊢
    exact (Reaches.one hstep).trans hrest

theorem columns_tag (pre rest : Str) (mark c : Byte) (x : Nat) (hmark : mark = colorOn ∨ mark = colorOff) :
    Reaches (columnStep (pre ++ [mark, c] ++ rest)) (x + 1, pre.length) (x + 1, (pre ++ [mark, c]).length) := by
  apply Reaches.one
  have hread : charAt (pre ++ [mark, c] ++ rest) pre.length = .ok mark := by
    rw [List.append_assoc, List.cons_append]
    exact charAt_append pre _ mark
  rw [columnStep, hread]
  rcases hmark with rfl | rfl
  · simp [bind, Except.bind, pure, Except.pure]
  · have : colorOff ≠ colorOn := by decide
    simp [bind, Except.bind, pure, Except.pure, this]

theorem end_text (pre text rest : Str) (htext : ∀ b ∈ text, Plain b) :
    Reaches (endStep (pre ++ text ++ rest)) pre.length (pre ++ text).length := by
  induction text generalizing pre with
  | nil => simpa using Reaches.refl _
  | cons b text ih =>
    obtain ⟨hon, hoff, hnul⟩ := htext b List.mem_cons_self
    have hstep : endStep (pre ++ b :: text ++ rest) (pre.length : Int) =
        .ok (.again ((pre ++ [b]).length : Int)) := by
      rw [List.append_assoc, List.cons_append, endStep, charAt_append]
      simp [bind, Except.bind, pure, Except.pure, hon, hoff, hnul]
      omega
    have hrest := ih (pre ++ [b]) fun c hc => htext c (List.mem_cons_of_mem _ hc)
    simp only [List.append_assoc, List.singleton_append] at hrest hstep ⊢
    exact (Reaches.one hstep).trans hrest

theorem end_tag (pre rest : Str) :
    endStep (pre ++ colorOff :: rest) pre.length = .ok (.done pre.length) := by
  rw [endStep, charAt_append]
  simp [bind, Except.bind, pure, Except.pure]

theorem end_open (pre rest : Str) :
    endStep (pre ++ colorOn :: rest) pre.length = .ok (.done pre.length) := by
  rw [endStep, charAt_append]
  simp [bind, Except.bind, pure, Except.pure]

theorem start_other (pre rest : Str) (b : Byte) (hb : b ≠ colorOn) :
    startStep (pre ++ b :: rest) pre.length = .ok (.again (pre.length - 1 : Int)) := by
  rw [startStep, charAt_append]
  simp [bind, Except.bind, pure, Except.pure, hb]

theorem start_text (pre text rest : Str) (htext : ∀ b ∈ text, b ≠ colorOn) :
    Reaches (startStep (pre ++ text ++ rest)) ((pre ++ text).length - 1 : Int) (pre.length - 1 : Int) := by
  induction text using List.reverseRecOn generalizing rest with
  | nil => simpa using Reaches.refl _
  | append_singleton text b ih =>
    have hb : b ≠ colorOn := htext b (by simp)
    have hstep : startStep (pre ++ (text ++ [b]) ++ rest) ((pre ++ (text ++ [b])).length - 1 : Int) =
        .ok (.again ((pre ++ text).length - 1 : Int)) := by
      have hpos : ((pre ++ (text ++ [b])).length - 1 : Int) = ((pre ++ text).length : Nat) := by
        simp only [List.length_append, List.length_cons, List.length_nil]; omega
      have hline : pre ++ (text ++ [b]) ++ rest = pre ++ text ++ b :: rest := by simp
      rw [hpos, hline]
      exact start_other (pre ++ text) rest b hb
    have hrest := ih (b :: rest) fun c hc => htext c (by simp [hc])
    have hline : pre ++ (text ++ [b]) ++ rest = pre ++ text ++ b :: rest := by simp
    rw [hline] at hstep ⊢
    exact (Reaches.one hstep).trans hrest

theorem start_mark (pre rest : Str) (next : Byte) :
    startStep (pre ++ colorOn :: next :: rest) pre.length =
      if qisalnum next then .ok (.again (pre.length - 1 : Int)) else .ok (.done pre.length) := by
  have hnext : charAt (pre ++ colorOn :: next :: rest) (pre.length + 1 : Int) = .ok next := by
    have hline : pre ++ colorOn :: next :: rest = (pre ++ [colorOn]) ++ next :: rest := by simp
    have hpos : (pre.length + 1 : Int) = ((pre ++ [colorOn]).length : Nat) := by simp
    rw [hline, hpos]
    exact charAt_append _ _ _
  rw [startStep, charAt_append, hnext]
  simp [bind, Except.bind, pure, Except.pure]

end Keyword

end Yagi
