import Yagi.Annotations

/-!
# Histories of edits in one space

A history lists the edits of one kind, each with its location. What a record
holds afterwards depends on the last edit that lists its pc.
-/

open Text Store

namespace Yagi

variable {Ty α : Type}

abbrev History (α : Type) := List (MemoryLocation × α)

def lastEdit (history : History α) (pc : UInt64) : Option (MemoryLocation × α) :=
  lastSome (fun edit => if pc ∈ edit.1.pc then some edit else none) history

theorem mem_of_lastEdit (history : History α) (pc : UInt64) (edit : MemoryLocation × α)
    (h : lastEdit history pc = some edit) : edit ∈ history ∧ pc ∈ edit.1.pc := by
  obtain ⟨e, he, hif⟩ := exists_of_lastSome _ _ _ h
  split at hif
  · rename_i hpc
    simp only [Option.some.injEq] at hif
    subst hif
    exact ⟨he, hpc⟩
  · simp at hif

theorem lastEdit_eq_none (history : History α) (pc : UInt64) :
    lastEdit history pc = none ↔ ∀ edit ∈ history, pc ∉ edit.1.pc := by
  simp [lastEdit, lastSome_eq_none]

theorem rawRecord_history (db : TypeDatabase Ty) (call : MemoryLocation × α → Call Ty) (func : UInt64) (kind : Kind)
    (space : Str) (history : History α) (pc : UInt64) (hloc : ∀ edit, (call edit).location = edit.1)
    (htarget : ∀ edit, (call edit).target = (func, kind)) (hnul : NoNul space)
    (hspace : ∀ edit ∈ history, edit.1.spaceName = space) :
    rawRecord (Call.run db (fun _ => none) (history.map call)) ⟨func, kind, space, pc⟩ =
      (lastEdit history pc).bind fun edit => (call edit).content db := by
  have hcalls : ∀ c ∈ history.map call, NoNul c.location.spaceName := by
    intro c hc
    obtain ⟨edit, hedit, rfl⟩ := List.mem_map.mp hc
    rw [hloc, hspace edit hedit]
    exact hnul
  have hleaves : ∀ edit ∈ history, Call.leaves db ⟨func, kind, space, pc⟩ (call edit) =
      (if pc ∈ edit.1.pc then some edit else none).map fun edit => (call edit).content db := by
    intro edit hedit
    rw [Call.leaves, htarget, hloc, hspace edit hedit]
    by_cases h : pc ∈ edit.1.pc <;> simp [h]
  rw [rawRecord_run db _ _ _ hcalls hnul, lastSome_map, lastSome_congr _ _ history hleaves, ← map_lastSome, ← lastEdit]
  cases lastEdit history pc <;> rfl

end Yagi
