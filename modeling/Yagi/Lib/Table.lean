import Mathlib.Data.List.Basic

/-!
# Tables

A table numbers its rows by their places. A row is changed in place, and a new
one is added at the end.
-/

namespace Table

variable {α β : Type}

theorem getElem?_modify (i j : Nat) (f : α → α) (table : List α) :
    (table.modify i f)[j]? = if j = i then table[j]?.map f else table[j]? := by
  rw [List.getElem?_modify]
  by_cases h : i = j
  · simp [h]
  · cases table[j]? <;> simp [h, Ne.symm h]

theorem map_getElem?_modify (g : α → β) (i j : Nat) (f : α → α) (table : List α) (hg : ∀ row, g (f row) = g row) :
    (table.modify i f)[j]?.map g = table[j]?.map g := by
  rw [getElem?_modify]
  split
  · rw [Option.map_map]
    exact congrArg (Option.map · _) (funext hg)
  · rfl

theorem getElem?_add (table : List α) (row : α) : (table ++ [row])[table.length]? = some row := by
  simp

theorem getElem?_add_old (table : List α) (row : α) (i : Nat) (hi : i < table.length) :
    (table ++ [row])[i]? = table[i]? := List.getElem?_append_left hi

/-! ## Blank rows -/

section

variable (blank : α)

/-- Rows beyond the end are blank. -/
def get (table : List α) (i : Nat) : α := (table[i]?).getD blank

def put (table : List α) (i : Nat) (row : α) : List α :=
  (table ++ List.replicate (i + 1 - table.length) blank).set i row

theorem get_length (table : List α) : get blank table table.length = blank := by
  simp [get]

theorem lt_length_of_get_ne (table : List α) (i : Nat) (h : get blank table i ≠ blank) : i < table.length := by
  by_contra hge
  rw [get, List.getElem?_eq_none (by omega)] at h
  exact h rfl

theorem get_pad (table : List α) (n i : Nat) : get blank (table ++ List.replicate n blank) i = get blank table i := by
  unfold get
  rw [List.getElem?_append]
  split
  · rfl
  · rename_i hge
    rw [List.getElem?_replicate, List.getElem?_eq_none (by omega : table.length ≤ i)]
    split <;> rfl

theorem get_put (table : List α) (i j : Nat) (row : α) :
    get blank (put blank table i row) j = if j = i then row else get blank table j := by
  by_cases h : j = i
  · subst h
    have hlt : j < (table ++ List.replicate (j + 1 - table.length) blank).length := by simp; omega
    rw [if_pos rfl, get, put, List.getElem?_set_self hlt, Option.getD_some]
  · rw [if_neg h, ← get_pad blank table (i + 1 - table.length) j, get, put, List.getElem?_set_ne (Ne.symm h)]
    rfl

end

end Table
