import Mathlib.Data.List.Basic
import Mathlib.Data.List.TakeWhile

/-!
# Byte strings

C and C++ strings as lists of bytes: literals, the cut at the terminator, and
what a separator that occurs once, first or last, says about a concatenation.
-/

namespace Text

-- Decided element by element, and not by trying all bytes.
instance (priority := high) decidableForallMem {α : Type} (p : α → Prop) [DecidablePred p] (xs : List α) :
    Decidable (∀ x ∈ xs, p x) := List.decidableBAll p xs

abbrev Byte := UInt8

abbrev Str := List Byte

def ch (c : Char) : Byte := c.toNat.toUInt8

def ascii (s : String) : Str := s.toList.map ch

/-- What a callee that takes a `const char*` sees: the bytes before the first NUL. -/
def c_str (s : Str) : Str := s.takeWhile (· ≠ 0)

def NoNul (s : Str) : Prop := 0 ∉ s

instance (s : Str) : Decidable (NoNul s) := inferInstanceAs (Decidable (0 ∉ s))

@[simp] theorem noNul_append (a b : Str) : NoNul (a ++ b) ↔ NoNul a ∧ NoNul b := by
  simp [NoNul]

theorem c_str_of_noNul (s : Str) (h : NoNul s) : c_str s = s := by
  apply List.takeWhile_eq_self_iff.mpr
  intro b hb
  simp only [ne_eq, decide_eq_true_eq]
  rintro rfl
  exact h hb

theorem c_str_noNul (s : Str) : NoNul (c_str s) := by
  intro h
  have := List.mem_takeWhile_imp h
  simp at this

theorem c_str_eq_self (s : Str) : c_str s = s ↔ NoNul s :=
  ⟨fun h => h ▸ c_str_noNul s, c_str_of_noNul s⟩

theorem c_str_append (a b : Str) (h : NoNul a) : c_str (a ++ b) = a ++ c_str b := by
  unfold c_str
  rw [List.takeWhile_append, if_pos]
  have hall : a.takeWhile (· ≠ 0) = a := c_str_of_noNul a h
  rw [hall]

theorem c_str_prefix (s : Str) : ∃ rest, s = c_str s ++ rest :=
  ⟨s.dropWhile (· ≠ 0), List.takeWhile_append_dropWhile.symm⟩

/-! ## Separators -/

section Separator

variable {α : Type} [DecidableEq α]

def find (c : α) (s : List α) : Option Nat := s.findIdx? (· = c)

theorem find_append (c : α) (a b : List α) (ha : c ∉ a) : find c (a ++ c :: b) = some a.length := by
  have hnone : a.findIdx? (· = c) = none := by
    rw [List.findIdx?_eq_none_iff]
    intro x hx
    simp only [decide_eq_false_iff_not]
    rintro rfl
    exact ha hx
  simp [find, List.findIdx?_append, hnone, List.findIdx?_cons]

theorem eq_of_find (c : α) (s : List α) (i : Nat) (h : find c s = some i) :
    s = s.take i ++ c :: s.drop (i + 1) ∧ c ∉ s.take i := by
  rw [find, List.findIdx?_eq_some_iff_getElem] at h
  obtain ⟨hi, hc, hbefore⟩ := h
  simp only [decide_eq_true_eq] at hc
  refine ⟨?_, ?_⟩
  · rw [← hc, ← List.drop_eq_getElem_cons hi, List.take_append_drop]
  · intro hmem
    obtain ⟨j, hj, hcj⟩ := List.mem_take_iff_getElem.mp hmem
    have := hbefore j (by omega)
    simp [hcj] at this

theorem append_first_inj (c : α) (a a' b b' : List α) (ha : c ∉ a) (ha' : c ∉ a')
    (h : a ++ c :: b = a' ++ c :: b') : a = a' ∧ b = b' := by
  have hlen : a.length = a'.length := by
    have := congrArg (find c) h
    rwa [find_append c a b ha, find_append c a' b' ha', Option.some.injEq] at this
  obtain ⟨h1, h2⟩ := List.append_inj h hlen
  exact ⟨h1, List.tail_eq_of_cons_eq h2⟩

theorem append_last_inj (c : α) (a a' b b' : List α) (hb : c ∉ b) (hb' : c ∉ b')
    (h : a ++ c :: b = a' ++ c :: b') : a = a' ∧ b = b' := by
  have hrev : b.reverse ++ c :: a.reverse = b'.reverse ++ c :: a'.reverse := by
    simpa using congrArg List.reverse h
  obtain ⟨h1, h2⟩ :=
    append_first_inj c b.reverse b'.reverse a.reverse a'.reverse (by simpa using hb)
      (by simpa using hb') hrev
  exact ⟨List.reverse_injective h2, List.reverse_injective h1⟩

end Separator

theorem intercalate_concat {α : Type} (sep : List α) (xs : List (List α)) (y : List α) :
    sep.intercalate (xs ++ [y]) = xs.flatMap (· ++ sep) ++ y := by
  induction xs with
  | nil => exact List.intercalate_singleton
  | cons x xs ih =>
    rw [List.cons_append, List.intercalate_cons_of_ne_nil (by simp), ih, List.flatMap_cons]
    simp only [List.append_assoc]

end Text
