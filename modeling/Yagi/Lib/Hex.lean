import Mathlib.Tactic.IntervalCases
import Yagi.Lib.Text

/-!
# Numbers in base 16

`hexText` writes a number the way a C++ stream does under `std::hex`, and
`stoull16` reads one the way `std::stoull(s, nullptr, 16)` does. What the first
writes the second reads back.
-/

open Text

namespace Hex

/-- The exceptions of the C++ library that a text can cause. -/
inductive StdError where
  | invalid_argument
  | out_of_range
deriving DecidableEq, Repr

/-- Lower case, no leading zero. -/
def hexText (n : Nat) : Str := (Nat.toDigits 16 n).map ch

def digitValue (b : Byte) : Option Nat :=
  if 48 ≤ b.toNat ∧ b.toNat ≤ 57 then some (b.toNat - 48)
  else if 97 ≤ b.toNat ∧ b.toNat ≤ 102 then some (b.toNat - 87)
  else if 65 ≤ b.toNat ∧ b.toNat ≤ 70 then some (b.toNat - 55)
  else none

def digits : Str → List Nat
  | [] => []
  | b :: rest => match digitValue b with
    | some d => d :: digits rest
    | none => []

def value (ds : List Nat) : Nat := ds.foldl (fun v d => 16 * v + d) 0

def isspace (b : Byte) : Bool := b = 32 ∨ (9 ≤ b.toNat ∧ b.toNat ≤ 13)

/-- `0x` is skipped only when a digit follows it. -/
def skipPrefix : Str → Str
  | 48 :: x :: rest => if (x = ch 'x' ∨ x = ch 'X') ∧ digits rest ≠ [] then rest else 48 :: x :: rest
  | s => s

def readDigits (s : Str) : Except StdError UInt64 :=
  let ds := digits (skipPrefix s)
  if ds = [] then .error .invalid_argument
  else if 2 ^ 64 ≤ value ds then .error .out_of_range
  else .ok (UInt64.ofNat (value ds))

/-- Leading blanks and one sign are accepted, and whatever follows the digits is ignored. -/
def stoull16 (s : Str) : Except StdError UInt64 :=
  match s.dropWhile isspace with
  | 45 :: rest => (readDigits rest).map (- ·)
  | 43 :: rest => readDigits rest
  | rest => readDigits rest

/-! ## What `hexText` writes -/

theorem digitValue_digitChar (d : Nat) (h : d < 16) : digitValue (ch d.digitChar) = some d := by
  interval_cases d <;> rfl

theorem hexText_eq (n : Nat) :
    hexText n = (if n < 16 then [] else hexText (n / 16)) ++ [ch (n % 16).digitChar] := by
  unfold hexText
  rw [Nat.toDigits_eq_if (by omega)]
  split
  · rename_i h; simp [Nat.mod_eq_of_lt h]
  · simp

theorem digits_hexText_append (n : Nat) (rest : Str) :
    ∃ ds, digits (hexText n ++ rest) = ds ++ digits rest ∧ value ds = n ∧ ds ≠ [] := by
  induction n using Nat.strong_induction_on generalizing rest with
  | _ n ih =>
    have hd := digitValue_digitChar (n % 16) (Nat.mod_lt _ (by omega))
    have hlast : digits (ch (n % 16).digitChar :: rest) = n % 16 :: digits rest := by
      rw [digits, hd]
    rw [hexText_eq]
    split
    · rename_i h
      exact ⟨[n % 16], by simp [hlast], by simp [value]; omega, by simp⟩
    · obtain ⟨ds, hds, hv, -⟩ := ih (n / 16) (by omega) (ch (n % 16).digitChar :: rest)
      refine ⟨ds ++ [n % 16], ?_, ?_, by simp⟩
      · rw [List.append_assoc, List.singleton_append, hds, hlast]
        simp
      · rw [value, List.foldl_append, ← value, hv]
        simp; omega

theorem value_digits_hexText (n : Nat) : value (digits (hexText n)) = n := by
  obtain ⟨ds, hds, hv, -⟩ := digits_hexText_append n []
  rw [List.append_nil, digits, List.append_nil] at hds
  rw [hds, hv]

theorem hexText_injective (m n : Nat) (h : hexText m = hexText n) : m = n := by
  rw [← value_digits_hexText m, h, value_digits_hexText]

theorem isDigit_of_mem_hexText (n : Nat) (b : Byte) (h : b ∈ hexText n) :
    ∃ d < 16, b = ch d.digitChar := by
  induction n using Nat.strong_induction_on with
  | _ n ih =>
    rw [hexText_eq, List.mem_append, List.mem_singleton] at h
    rcases h with h | rfl
    · split at h
      · simp at h
      · exact ih (n / 16) (by omega) h
    · exact ⟨n % 16, Nat.mod_lt _ (by omega), rfl⟩

theorem notMem_hexText (n : Nat) (b : Byte) (hb : digitValue b = none) : b ∉ hexText n := by
  intro h
  obtain ⟨d, hd, rfl⟩ := isDigit_of_mem_hexText n b h
  rw [digitValue_digitChar d hd] at hb
  simp at hb

/-! ## Round trip -/

/-- **Round trip.** A 64-bit number written with its `0x` reads back, whatever non-digit follows. -/
theorem stoull16_hexText (n : Nat) (h : n < 2 ^ 64) :
    stoull16 (ascii "0x" ++ hexText n) = .ok (UInt64.ofNat n) := by
  obtain ⟨ds, hds, hv, hne⟩ := digits_hexText_append n []
  rw [List.append_nil, digits, List.append_nil] at hds
  have hpre : skipPrefix (ascii "0x" ++ hexText n) = hexText n := by
    have : ascii "0x" ++ hexText n = 48 :: ch 'x' :: hexText n := rfl
    rw [this, skipPrefix, if_pos ⟨Or.inl rfl, by rw [hds]; exact hne⟩]
  have hblank : (ascii "0x" ++ hexText n).dropWhile isspace = 48 :: ch 'x' :: hexText n := rfl
  rw [stoull16, hblank]
  show readDigits (ascii "0x" ++ hexText n) = _
  rw [readDigits, hpre, hds, hv, if_neg hne, if_neg (by omega)]

end Hex
