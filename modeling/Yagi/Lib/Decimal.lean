import Mathlib.Tactic.IntervalCases
import Yagi.Lib.Text

/-!
# Numbers in base 10

`decText` writes a number the way a C++ stream does. Different numbers are
written differently.
-/

open Text

namespace Decimal

/-- No leading zero. -/
def decText (n : Nat) : Str := (Nat.toDigits 10 n).map ch

theorem decText_eq (n : Nat) :
    decText n = (if n < 10 then [] else decText (n / 10)) ++ [ch (n % 10).digitChar] := by
  unfold decText
  rw [Nat.toDigits_eq_if (by omega)]
  split
  · rename_i h; simp [Nat.mod_eq_of_lt h]
  · simp

theorem decText_ne_nil (n : Nat) : decText n ≠ [] := by
  rw [decText_eq]
  simp

theorem digitChar_injective (c d : Nat) (hc : c < 10) (hd : d < 10) (h : ch c.digitChar = ch d.digitChar) : c = d := by
  revert h
  interval_cases c <;> interval_cases d <;> decide

theorem decText_injective (m n : Nat) (h : decText m = decText n) : m = n := by
  induction m using Nat.strong_induction_on generalizing n with
  | _ m ih =>
    rw [decText_eq m, decText_eq n] at h
    obtain ⟨hfront, hlast⟩ := List.append_inj' h rfl
    have hdigit := digitChar_injective _ _ (Nat.mod_lt m (by omega)) (Nat.mod_lt n (by omega)) (List.singleton_inj.mp hlast)
    by_cases hm : m < 10
    · by_cases hn : n < 10
      · omega
      · rw [if_pos hm, if_neg hn] at hfront
        exact absurd hfront.symm (decText_ne_nil _)
    · by_cases hn : n < 10
      · rw [if_neg hm, if_pos hn] at hfront
        exact absurd hfront (decText_ne_nil _)
      · rw [if_neg hm, if_neg hn] at hfront
        have := ih (m / 10) (by omega) (n / 10) hfront
        omega

end Decimal
