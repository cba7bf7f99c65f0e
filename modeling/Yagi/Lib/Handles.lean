import Mathlib.Data.List.Nodup
import Mathlib.Logic.Function.Basic

/-!
# Owned values

A heap hands out fresh handles. Each value lives as long as its owner, when every owner
deletes its handle once. Owners with one key each are a map from keys to values.
-/

namespace Handles

structure Heap (α : Type) where
  cells : Nat → Option α
  next : Nat

namespace Heap

variable {α : Type}

def empty : Heap α := ⟨fun _ => none, 0⟩

def new (a : α) (heap : Heap α) : Nat × Heap α :=
  (heap.next, ⟨Function.update heap.cells heap.next (some a), heap.next + 1⟩)

/-- There is nothing to delete at a handle that has no value. -/
def delete (i : Nat) (heap : Heap α) : Option (Heap α) :=
  (heap.cells i).map fun _ => { heap with cells := Function.update heap.cells i none }

end Heap

section

variable {α K O : Type} (key : O → K) (handle : O → Nat)

/-- Every owner has its own key and its own value, and no value is there without an owner. -/
structure Kept (heap : Heap α) (owners : List O) : Prop where
  keys : (owners.map key).Nodup
  handles : (owners.map handle).Nodup
  live : ∀ i, heap.cells i ≠ none ↔ ∃ o ∈ owners, handle o = i
  used : ∀ o ∈ owners, handle o < heap.next

theorem kept_empty : Kept key handle (Heap.empty : Heap α) ([] : List O) :=
  ⟨List.nodup_nil, List.nodup_nil, by simp [Heap.empty], by simp⟩

variable {key handle} {heap : Heap α} {owners : List O}

theorem kept_new (h : Kept key handle heap owners) (o : O) (a : α) (ho : handle o = (heap.new a).1)
    (hkey : ∀ x ∈ owners, key x ≠ key o) : Kept key handle (heap.new a).2 (owners ++ [o]) := by
  have hfresh : ∀ x ∈ owners, handle x ≠ handle o := fun x hx => ho ▸ Nat.ne_of_lt (h.used x hx)
  have hnext : handle o = heap.next := ho
  constructor
  · simpa [List.nodup_append, h.keys] using hkey
  · simpa [List.nodup_append, h.handles] using hfresh
  · intro i
    by_cases hi : i = heap.next
    · simp [Heap.new, hi, hnext]
    · simp [Heap.new, hi, h.live i, hnext, Ne.symm hi]
  · intro x hx
    rcases List.mem_append.mp hx with hold | hnew
    · exact Nat.lt_succ_of_lt (h.used x hold)
    · rw [List.mem_singleton.mp hnew, hnext]
      exact Nat.lt_succ_self _

end

/-! ## The map from keys to values -/

section

variable {α K O : Type} [DecidableEq K] (key : O → K) (handle : O → Nat)

/-- The value of the owner with a key. -/
def lookup (heap : Heap α) (owners : List O) (k : K) : Option α :=
  (owners.find? (key · = k)).bind fun o => heap.cells (handle o)

variable {key handle} {heap : Heap α} {owners : List O}

theorem lookup_ne_none (h : Kept key handle heap owners) (k : K) :
    lookup key handle heap owners k ≠ none ↔ ∃ o ∈ owners, key o = k := by
  unfold lookup
  cases hfind : owners.find? (key · = k) with
  | none => simpa using hfind
  | some o =>
    have ho := List.mem_of_find?_eq_some hfind
    have hkey : key o = k := by simpa using List.find?_some hfind
    exact iff_of_true ((h.live _).mpr ⟨o, ho, rfl⟩) ⟨o, ho, hkey⟩

theorem find?_key (h : Kept key handle heap owners) (o : O) (ho : o ∈ owners) :
    owners.find? (key · = key o) = some o := by
  cases hfind : owners.find? (key · = key o) with
  | none =>
    have hmissed := List.find?_eq_none.mp hfind o ho
    simp at hmissed
  | some x =>
    have hkey : key x = key o := by simpa using List.find?_some hfind
    rw [List.inj_on_of_nodup_map h.keys (List.mem_of_find?_eq_some hfind) ho hkey]

theorem lookup_owner (h : Kept key handle heap owners) (o : O) (ho : o ∈ owners) :
    lookup key handle heap owners (key o) = heap.cells (handle o) := by
  rw [lookup, find?_key h o ho, Option.bind_some]

theorem lookup_new (h : Kept key handle heap owners) (o : O) (a : α) (ho : handle o = (heap.new a).1)
    (hkey : ∀ x ∈ owners, key x ≠ key o) : lookup key handle (heap.new a).2 (owners ++ [o]) =
      Function.update (lookup key handle heap owners) (key o) (some a) := by
  have hnew := kept_new h o a ho hkey
  funext k
  by_cases hk : k = key o
  · subst hk
    rw [lookup_owner hnew o (by simp), Function.update_self, ho]
    simp [Heap.new]
  · rw [Function.update_of_ne hk, lookup, List.find?_append, lookup]
    have hlast : [o].find? (key · = k) = none := by simp [Ne.symm hk]
    rw [hlast, Option.or_none]
    cases hfind : owners.find? (key · = k) with
    | none => rfl
    | some x =>
      have hx := h.used x (List.mem_of_find?_eq_some hfind)
      exact Function.update_of_ne (Nat.ne_of_lt hx) _ _

theorem kept_delete [DecidableEq O] (h : Kept key handle heap owners) (o : O) (ho : o ∈ owners) :
    ∃ heap', heap.delete (handle o) = some heap' ∧ Kept key handle heap' (owners.erase o) ∧
      lookup key handle heap' (owners.erase o) = Function.update (lookup key handle heap owners) (key o) none := by
  have hnodup : owners.Nodup := List.Nodup.of_map _ h.keys
  have hgone : o ∉ owners.erase o := hnodup.not_mem_erase
  have hother : ∀ x ∈ owners.erase o, handle x ≠ handle o := by
    intro x hx hhandle
    obtain rfl := List.inj_on_of_nodup_map h.handles (List.mem_of_mem_erase hx) ho hhandle
    exact hgone hx
  obtain ⟨a, ha⟩ := Option.ne_none_iff_exists'.mp ((h.live (handle o)).mpr ⟨o, ho, rfl⟩)
  have hkept : Kept key handle { heap with cells := Function.update heap.cells (handle o) none } (owners.erase o) := by
    constructor
    · exact ((List.erase_sublist).map key).nodup h.keys
    · exact ((List.erase_sublist).map handle).nodup h.handles
    · intro i
      by_cases hi : i = handle o
      · subst hi
        simpa using hother
      · simp only [Function.update_of_ne hi, h.live i]
        constructor
        · rintro ⟨x, hx, rfl⟩
          exact ⟨x, (List.mem_erase_of_ne (ne_of_apply_ne handle hi)).mpr hx, rfl⟩
        · rintro ⟨x, hx, rfl⟩
          exact ⟨x, List.mem_of_mem_erase hx, rfl⟩
    · intro x hx
      exact h.used x (List.mem_of_mem_erase hx)
  refine ⟨_, by simp [Heap.delete, ha], hkept, ?_⟩
  funext k
  by_cases hk : ∃ x ∈ owners.erase o, key x = k
  · obtain ⟨x, hx, rfl⟩ := hk
    have hxo : key x ≠ key o := by
      intro hkey
      obtain rfl := List.inj_on_of_nodup_map h.keys (List.mem_of_mem_erase hx) ho hkey
      exact hgone hx
    rw [lookup_owner hkept x hx, Function.update_of_ne hxo, lookup_owner h x (List.mem_of_mem_erase hx)]
    exact Function.update_of_ne (hother x hx) _ _
  · rw [not_imp_comm.mp (lookup_ne_none hkept k).mp hk]
    by_cases hko : k = key o
    · rw [hko, Function.update_self]
    · rw [Function.update_of_ne hko]
      refine (not_imp_comm.mp (lookup_ne_none h k).mp ?_).symm
      rintro ⟨x, hx, rfl⟩
      exact hk ⟨x, (List.mem_erase_of_ne (ne_of_apply_ne key hko)).mpr hx, rfl⟩

end

end Handles
