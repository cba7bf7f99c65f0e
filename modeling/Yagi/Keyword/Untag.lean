import Yagi.Keyword.Proofs

/-!
# Lines without their tags

The first loop counts the characters between the tags. As long as there are
enough of them the scanner stays in the line, and what it counts is what the
emitter was given.
-/

open Text While

namespace Yagi

open Keyword

namespace Keyword

instance (b : Byte) : Decidable (Untagged b) := inferInstanceAs (Decidable (_ ∧ _))

/-- The line without its tags of two bytes. A tag that is cut off at the end leaves nothing. -/
def untag : Str → Str
  | [] => []
  | b :: rest =>
    if Untagged b then b :: untag rest
    else match rest with
      | [] => []
      | _ :: rest => untag rest

@[simp] theorem untag_nil : untag [] = [] := rfl

theorem untag_cons (b : Byte) (rest : Str) (h : Untagged b) : untag (b :: rest) = b :: untag rest := by
  rw [untag.eq_def]
  exact if_pos h

theorem untag_text (text rest : Str) (h : ∀ b ∈ text, Untagged b) : untag (text ++ rest) = text ++ untag rest := by
  induction text with
  | nil => rfl
  | cons b text ih =>
    rw [List.cons_append, untag_cons b _ (h b List.mem_cons_self), ih fun c hc => h c (List.mem_cons_of_mem _ hc)]
    rfl

theorem untag_tag (mark c : Byte) (rest : Str) (hmark : ¬ Untagged mark) : untag (mark :: c :: rest) = untag rest := by
  rw [untag, if_neg hmark]

theorem mark_of_not_untagged (b : Byte) (h : ¬ Untagged b) : b = colorOn ∨ b = colorOff := by
  unfold Untagged at h
  rw [not_and_or, not_not, not_not] at h
  exact h

/-! ## The first loop -/

theorem columns_untag (pre rest : Str) (x : Nat) (hx : x ≤ (untag rest).length) :
    ∃ mid back, rest = mid ++ back ∧ untag mid = (untag rest).take x ∧
      Reaches (columnStep (pre ++ rest)) (x, pre.length) (0, (pre ++ mid).length) := by
  fun_induction untag rest generalizing pre x with
  | case1 =>
    obtain rfl : x = 0 := by simpa using hx
    exact ⟨[], [], rfl, rfl, by simpa using Reaches.refl _⟩
  | case2 b rest hb ih =>
    cases x with
    | zero => exact ⟨[], b :: rest, rfl, rfl, by simpa using Reaches.refl _⟩
    | succ x =>
      obtain ⟨mid, back, hrest, htake, hreach⟩ := ih (pre ++ [b]) x (by simpa using hx)
      have hstep := columns_text pre [b] rest x (by simpa using hb)
      refine ⟨b :: mid, back, by rw [hrest]; rfl, ?_, ?_⟩
      · rw [untag_cons b mid hb, htake, List.take_succ_cons]
      · simp only [List.append_assoc, List.singleton_append] at hstep hreach
        have hcount : [b].length + x = x + 1 := by simp only [List.length_singleton]; omega
        rw [hcount] at hstep
        exact hstep.trans hreach
  | case3 b hb =>
    obtain rfl : x = 0 := by simpa using hx
    exact ⟨[], [b], rfl, rfl, by simpa using Reaches.refl _⟩
  | case4 b hb c rest ih =>
    cases x with
    | zero => exact ⟨[], b :: c :: rest, rfl, rfl, by simpa using Reaches.refl _⟩
    | succ x =>
      obtain ⟨mid, back, hrest, htake, hreach⟩ := ih (pre ++ [b, c]) (x + 1) hx
      have hstep := columns_tag pre rest b c x (mark_of_not_untagged b hb)
      refine ⟨b :: c :: mid, back, by rw [hrest]; rfl, ?_, ?_⟩
      · rw [untag_tag b c mid hb, htake]
      · simp only [List.append_assoc, List.cons_append, List.nil_append] at hstep hreach
        exact hstep.trans hreach

theorem columns_past (pre rest : Str) (x : Nat) (hx : (untag rest).length < x) :
    ∃ k p, Reaches (columnStep (pre ++ rest)) (x, pre.length) (k + 1, p) ∧
      (p = (pre ++ rest).length ∨ p = (pre ++ rest).length + 1) := by
  fun_induction untag rest generalizing pre x with
  | case1 =>
    obtain ⟨k, rfl⟩ : ∃ k, x = k + 1 := ⟨x - 1, by omega⟩
    exact ⟨k, _, Reaches.refl _, Or.inl (by simp)⟩
  | case2 b rest hb ih =>
    obtain ⟨x, rfl⟩ : ∃ k, x = k + 1 := ⟨x - 1, by omega⟩
    obtain ⟨k, p, hreach, hp⟩ := ih (pre ++ [b]) x (by simpa using hx)
    have hstep := columns_text pre [b] rest x (by simpa using hb)
    have hcount : [b].length + x = x + 1 := by simp only [List.length_singleton]; omega
    rw [hcount] at hstep
    simp only [List.append_assoc, List.singleton_append] at hstep hreach hp
    exact ⟨k, p, hstep.trans hreach, hp⟩
  | case3 b hb =>
    obtain ⟨k, rfl⟩ : ∃ k, x = k + 1 := ⟨x - 1, by omega⟩
    refine ⟨k, (pre.length : Int) + 2, Reaches.one ?_, Or.inr ?_⟩
    · have hread := charAt_append pre [] b
      rw [columnStep, hread]
      rcases mark_of_not_untagged b hb with rfl | rfl
      · simp [bind, Except.bind, pure, Except.pure]
      · have : colorOff ≠ colorOn := by decide
        simp [bind, Except.bind, pure, Except.pure, this]
    · rw [List.length_append, List.length_singleton]
      omega
  | case4 b hb c rest ih =>
    obtain ⟨x, rfl⟩ : ∃ k, x = k + 1 := ⟨x - 1, by omega⟩
    obtain ⟨k, p, hreach, hp⟩ := ih (pre ++ [b, c]) (x + 1) hx
    have hstep := columns_tag pre rest b c x (mark_of_not_untagged b hb)
    simp only [List.append_assoc, List.cons_append, List.nil_append] at hstep hreach hp
    exact ⟨k, p, hstep.trans hreach, hp⟩

/-! ## Staying in the line -/

theorem charAt_in_line (line : Str) (pos : Int) (hlo : 0 ≤ pos) (hhi : pos ≤ line.length) :
    charAt line pos = .ok (line.getD pos.toNat 0) := by
  rw [charAt, if_pos ⟨hlo, hhi⟩]

theorem charAt_out (line : Str) (pos : Int) (h : (line.length : Int) < pos) : charAt line pos = .error ⟨pos⟩ := by
  rw [charAt, if_neg (by omega)]

theorem getD_terminator (line : Str) (i : Nat) (h : line.length ≤ i) : line.getD i 0 = 0 := by
  rw [List.getD_eq_getElem?_getD, List.getElem?_eq_none h, Option.getD_none]

theorem lt_length_of_colorOn (line : Str) (pos : Int) (hlo : 0 ≤ pos)
    (h : line.getD pos.toNat 0 = colorOn) : pos + 1 ≤ line.length := by
  by_contra hge
  rw [getD_terminator line _ (by omega)] at h
  exact absurd h (by decide)

theorem end_in_line (line : Str) (start : Int) (hstart : 0 ≤ start) :
    ∃ stop, loop (endStep line) (endMeasure line) start = .ok stop := by
  refine loop_succeeds (endStep_decreases line) (fun stop => 0 ≤ stop) ?_ start hstart
  intro stop hlo
  unfold endStep
  by_cases hle : stop ≤ line.length
  · rw [charAt_in_line line stop hlo hle]
    simp only [hle, not_true, if_false, bind, Except.bind, pure, Except.pure]
    split
    · exact Or.inr ⟨stop + 1, rfl, by omega⟩
    · exact Or.inl ⟨stop, rfl⟩
  · exact Or.inl ⟨stop, by simp [hle]; rfl⟩

theorem start_in_line (line : Str) (start : Int) (hlo : 0 ≤ start) (hhi : start ≤ line.length) :
    ∃ pos, loop (startStep line) startMeasure start = .ok pos := by
  refine loop_succeeds (startStep_decreases line) (fun start => -1 ≤ start ∧ start ≤ line.length) ?_ start
    ⟨by omega, hhi⟩
  rintro start ⟨-, hhi⟩
  unfold startStep
  by_cases hlo : 0 ≤ start
  · rw [charAt_in_line line start hlo hhi]
    simp only [hlo, not_true, if_false, bind, Except.bind, pure, Except.pure]
    by_cases hmark : line.getD start.toNat 0 = colorOn
    · rw [charAt_in_line line (start + 1) (by omega) (lt_length_of_colorOn line start hlo hmark)]
      simp only [hmark, ne_eq, not_true, if_false]
      split
      · exact Or.inr ⟨start - 1, rfl, by omega⟩
      · exact Or.inl ⟨start, rfl⟩
    · rw [if_pos hmark]
      exact Or.inr ⟨start - 1, rfl, by omega⟩
  · exact Or.inl ⟨start, by simp [hlo]; rfl⟩

theorem column_past (line : Str) (x : Nat) (hx : (untag line).length < x) :
    loop (columnStep line) (columnMeasure line) (x, 0) = .ok (line.length + 1 : Int) ∨
      ∃ e, loop (columnStep line) (columnMeasure line) (x, 0) = .error (.raised e) := by
  obtain ⟨k, p, hreach, hp⟩ := columns_past [] line x hx
  have hraise : ∀ k, columnStep line (k + 1, (line.length + 1 : Int)) = .error ⟨line.length + 1⟩ := by
    intro k
    rw [columnStep, charAt_out line _ (by omega)]
    rfl
  rcases hp with rfl | rfl
  · have hstep : columnStep line (k + 1, (line.length : Int)) = .ok (.again (k, (line.length + 1 : Int))) := by
      have hon : (0 : Byte) ≠ colorOn := by decide
      have hoff : (0 : Byte) ≠ colorOff := by decide
      rw [columnStep, charAt_in_line line _ (by omega) (Int.le_refl _), Int.toNat_natCast,
        getD_terminator line _ (Nat.le_refl _)]
      simp [bind, Except.bind, pure, Except.pure, hon, hoff]
    have hreach := Reaches.trans hreach (Reaches.one hstep)
    cases k with
    | zero => exact Or.inl (loop_of_reaches (columnStep_decreases line) _ _ _ hreach rfl)
    | succ k => exact Or.inr ⟨_, loop_raises (columnStep_decreases line) _ _ _ hreach (hraise k)⟩
  · exact Or.inr ⟨_, loop_raises (columnStep_decreases line) _ _ _ hreach (hraise k)⟩

end Keyword

/-- **In the line.** The scanner comes to an end without leaving the line exactly when the line has as many
characters outside of tags as there are columns to the left of the cursor. -/
theorem computeKeyword_in_line_iff (line : Str) (x : Nat) :
    (∃ keyword, computeKeyword ⟨some x, line⟩ = .ok keyword) ↔ x ≤ (untag (c_str line)).length := by
  unfold computeKeyword
  constructor
  · rintro ⟨keyword, h⟩
    by_contra hpast
    rcases column_past (c_str line) x (by omega) with hcolumn | ⟨e, hcolumn⟩
    · -- The pointer stands behind the terminator, where the last loop reads first.
      have hend : loop (endStep (c_str line)) (endMeasure (c_str line)) ((c_str line).length + 1 : Int) =
          .ok ((c_str line).length + 1 : Int) := by
        refine loop_of_reaches (endStep_decreases _) _ _ _ (Reaches.refl _) ?_
        rw [endStep, if_pos (by omega)]
        rfl
      have hstart := loop_raises (startStep_decreases (c_str line)) _ _ ⟨(c_str line).length + 1⟩
        (Reaches.refl ((c_str line).length + 1 : Int)) (by
          rw [startStep, if_neg (by omega), charAt_out _ _ (by omega)]
          rfl)
      simp [hcolumn, hend, hstart, bind, Except.bind] at h
    · simp [hcolumn, bind, Except.bind] at h
  · intro hx
    obtain ⟨mid, back, hline, -, hreach⟩ := columns_untag [] (c_str line) x hx
    have hcolumn : loop (columnStep (c_str line)) (columnMeasure (c_str line)) (x, 0) = .ok (mid.length : Int) :=
      loop_of_reaches (columnStep_decreases (c_str line)) _ _ _ hreach rfl
    have hmid : mid.length ≤ (c_str line).length := by
      rw [hline, List.length_append]
      omega
    obtain ⟨stop, hend⟩ := end_in_line (c_str line) (mid.length : Int) (by omega)
    obtain ⟨start, hstart⟩ := start_in_line (c_str line) (mid.length : Int) (by omega) (by omega)
    simp only [hcolumn, hend, hstart, bind, Except.bind]
    split
    · exact ⟨none, rfl⟩
    · split
      · exact ⟨none, rfl⟩
      · exact ⟨_, rfl⟩

/-- Two columns behind the one character of this line the scanner reads over the terminator. -/
theorem computeKeyword_leaves_line : computeKeyword ⟨some 2, ascii "x"⟩ = .error (.raised ⟨2⟩) := by
  decide

/-! ## What was printed -/

theorem untag_emit (call : EmitCall) (rest : Str) (htext : ∀ b ∈ call.text, Untagged b) :
    untag (call.emit ++ rest) = call.text ++ untag rest := by
  obtain ⟨c, hc, hemit⟩ := emit_eq_colorGuard call
  have hbytes : call.emit ++ rest = colorOn :: c :: (call.text ++ colorOff :: c :: rest) := by
    rw [hemit, colorGuard_eq c call.text hc]
    simp
  rw [hbytes, untag_tag colorOn c _ (by decide), untag_text call.text _ htext, untag_tag colorOff c rest (by decide)]

theorem untag_emits (calls : List EmitCall) (htext : ∀ call ∈ calls, ∀ b ∈ call.text, Untagged b) :
    untag (calls.flatMap EmitCall.emit) = calls.flatMap EmitCall.text := by
  induction calls with
  | nil => rfl
  | cons call calls ih =>
    rw [List.flatMap_cons, List.flatMap_cons, untag_emit call _ (htext call List.mem_cons_self),
      ih fun other hother => htext other (List.mem_cons_of_mem _ hother)]

/-- **Tags undone.** Every call prints one group with the same colour at both ends, and without the tags the
line is the concatenation of the texts, which is what the first loop counts. -/
theorem emits_undone (calls : List EmitCall) (htext : ∀ call ∈ calls, ∀ b ∈ call.text, Untagged b) :
    (∀ call ∈ calls, ∃ c ∈ guardColors, call.emit = [colorOn, c] ++ call.text ++ [colorOff, c]) ∧
      untag (calls.flatMap EmitCall.emit) = calls.flatMap EmitCall.text ∧
      ∀ x ≤ (calls.flatMap EmitCall.text).length, ∃ mid back, calls.flatMap EmitCall.emit = mid ++ back ∧
        untag mid = (calls.flatMap EmitCall.text).take x ∧
        loop (columnStep (calls.flatMap EmitCall.emit)) (columnMeasure (calls.flatMap EmitCall.emit)) (x, 0) =
          .ok (mid.length : Int) := by
  have huntag := untag_emits calls htext
  refine ⟨?_, huntag, ?_⟩
  · intro call _
    obtain ⟨c, hc, hemit⟩ := emit_eq_colorGuard call
    exact ⟨c, hc, hemit.trans (colorGuard_eq c call.text hc)⟩
  · intro x hx
    rw [← huntag] at hx ⊢
    obtain ⟨mid, back, hline, htake, hreach⟩ := columns_untag [] (calls.flatMap EmitCall.emit) x hx
    exact ⟨mid, back, hline, htake, loop_of_reaches (columnStep_decreases _) _ _ _ hreach rfl⟩

def callLine : List EmitCall :=
  [.tagVariable (ascii "x") .var_color (some 0), .tagOp (ascii "="), .tagFuncName (ascii "__imp_main") .funcname_color,
    .openParen (ch '(')]

theorem emits_undone_call :
    (∀ call ∈ callLine, ∃ c ∈ guardColors, call.emit = [colorOn, c] ++ call.text ++ [colorOff, c]) ∧
      untag (callLine.flatMap EmitCall.emit) = callLine.flatMap EmitCall.text ∧
      ∀ x ≤ (callLine.flatMap EmitCall.text).length, ∃ mid back, callLine.flatMap EmitCall.emit = mid ++ back ∧
        untag mid = (callLine.flatMap EmitCall.text).take x ∧
        loop (columnStep (callLine.flatMap EmitCall.emit)) (columnMeasure (callLine.flatMap EmitCall.emit)) (x, 0) =
          .ok (mid.length : Int) :=
  emits_undone callLine (by decide)

end Yagi
