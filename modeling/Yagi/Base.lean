import Yagi.Lib.Hex

/-! # Shared helpers (`base.cc`) -/

open Text Hex

namespace Yagi

def to_hex (addr : UInt64) : Str := ascii "0x" ++ hexText addr.toNat

/-- The tokens that `std::getline` reads. At the end of the text there is one only if it has characters. -/
def splitFrom (delimiter : Byte) (token : Str) : Str → List Str
  | [] => if token = [] then [] else [token]
  | b :: rest => if b = delimiter then token :: splitFrom delimiter [] rest else splitFrom delimiter (token ++ [b]) rest

def split (s : Str) (delimiter : Byte) : List Str := splitFrom delimiter [] s

theorem to_hex_injective (a b : UInt64) (h : to_hex a = to_hex b) : a = b :=
  UInt64.toNat.inj (hexText_injective _ _ (List.append_cancel_left h))

theorem notMem_to_hex (a : UInt64) (b : Byte) (hb : digitValue b = none) (hx : b ≠ ch 'x') : b ∉ to_hex a := by
  have h0 : b ≠ ch '0' := by
    rintro rfl
    exact absurd hb (by decide)
  have hpre : ascii "0x" = [ch '0', ch 'x'] := by decide
  simp [to_hex, hpre, h0, hx, notMem_hexText _ b hb]

theorem to_hex_noNul (a : UInt64) : NoNul (to_hex a) := notMem_to_hex a 0 (by decide) (by decide)

/-- What `to_hex` writes, `std::stoull` in base 16 reads back. -/
theorem stoull16_to_hex (a : UInt64) : stoull16 (to_hex a) = .ok a := by
  rw [to_hex, stoull16_hexText _ a.toNat_lt, UInt64.ofNat_toNat]

theorem splitFrom_ne_nil (delimiter : Byte) (token s : Str) (h : token ≠ [] ∨ s ≠ []) :
    splitFrom delimiter token s ≠ [] := by
  induction s generalizing token with
  | nil =>
    have htoken : token ≠ [] := h.resolve_right (not_not.mpr rfl)
    unfold splitFrom
    rw [if_neg htoken]
    simp
  | cons b rest ih =>
    unfold splitFrom
    split
    · simp
    · exact ih (token ++ [b]) (Or.inl (by simp))

theorem split_eq_nil_iff (s : Str) (delimiter : Byte) : split s delimiter = [] ↔ s = [] := by
  unfold split
  constructor
  · intro h
    by_contra hs
    exact splitFrom_ne_nil delimiter [] s (Or.inr hs) h
  · rintro rfl
    rfl

theorem splitFrom_last (delimiter : Byte) (token text : Str) (h : delimiter ∉ text) :
    splitFrom delimiter token text = if token ++ text = [] then [] else [token ++ text] := by
  induction text generalizing token with
  | nil => simp [splitFrom]
  | cons b rest ih =>
    have hb : b ≠ delimiter := fun he => h (he ▸ List.mem_cons_self)
    unfold splitFrom
    rw [if_neg hb, ih _ fun hmem => h (List.mem_cons_of_mem b hmem)]
    simp

theorem splitFrom_line (delimiter : Byte) (token text rest : Str) (h : delimiter ∉ text) :
    splitFrom delimiter token (text ++ delimiter :: rest) = (token ++ text) :: splitFrom delimiter [] rest := by
  induction text generalizing token with
  | nil =>
    rw [List.nil_append, splitFrom, if_pos rfl]
    simp
  | cons b text ih =>
    have hb : b ≠ delimiter := fun he => h (he ▸ List.mem_cons_self)
    rw [List.cons_append, splitFrom, if_neg hb, ih _ fun hmem => h (List.mem_cons_of_mem b hmem)]
    simp

theorem split_intercalate (delimiter : Byte) (lines : List Str) (h : ∀ line ∈ lines, delimiter ∉ line) :
    split (List.intercalate [delimiter] lines) delimiter =
      if lines.getLast? = some [] then lines.dropLast else lines := by
  induction lines with
  | nil => rfl
  | cons line rest ih =>
    have hline := h line List.mem_cons_self
    cases rest with
    | nil =>
      rw [List.intercalate_singleton, split, splitFrom_last delimiter [] line hline]
      simp
    | cons next rest =>
      have hrest := ih fun l hl => h l (List.mem_cons_of_mem line hl)
      rw [List.intercalate_cons_cons, List.append_assoc, List.singleton_append, split,
        splitFrom_line delimiter [] line _ hline]
      show line :: split _ delimiter = _
      rw [hrest, List.getLast?_cons_cons, List.dropLast_cons_cons]
      split <;> simp

theorem getElem?_split_intercalate (delimiter : Byte) (lines : List Str) (h : ∀ line ∈ lines, delimiter ∉ line)
    (i : Nat) (line : Str) (hline : lines[i]? = some line) (hne : line ≠ []) :
    (split (List.intercalate [delimiter] lines) delimiter)[i]? = some line := by
  rw [split_intercalate delimiter lines h]
  split
  · rename_i hlast
    rw [List.getElem?_dropLast, if_pos, hline]
    obtain ⟨hlt, -⟩ := List.getElem?_eq_some_iff.mp hline
    -- The line is not the last one, which is empty.
    have hi : i ≠ lines.length - 1 := by
      rintro rfl
      rw [List.getLast?_eq_getElem?, hline] at hlast
      exact hne (Option.some.inj hlast)
    omega
  · exact hline

end Yagi
