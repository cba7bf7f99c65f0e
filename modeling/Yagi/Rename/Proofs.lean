import Yagi.Annotations
import Yagi.Rename.Spec
import Yagi.VarSymbols

/-!
# What the rename passes do to the names

A pass gives each symbol the name of the last pcode that resolves to it.
-/

open Text Hex Loop Store

namespace Yagi

open IdaFunctionSymbolInfo

variable {σ Sym D : Type} [DecidableEq Sym] (S : ScopeLocal σ Sym D) (arch : Architecture) (func : UInt64)
  (nodes : NetNodes)

/-! ## One pass -/

/-- The name that pcode `op` gives to symbol `t`. -/
def renamedTo (m_space : Str) (st : σ) (t : Sym) (op : PcodeOp) : Option Str :=
  match findName func nodes op.pc m_space with
  | .ok (some (newName, offset)) =>
    if ActionRenameVar.lookup S arch m_space st op offset = some t then some newName else none
  | _ => none

theorem renamedTo_congr (m_space : Str) (st st' : σ) (h : S.findAddr st' = S.findAddr st) (t : Sym) :
    renamedTo S arch func nodes m_space st' t = renamedTo S arch func nodes m_space st t := by
  have hlookup : ActionRenameVar.lookup S arch m_space st' = ActionRenameVar.lookup S arch m_space st := by
    unfold ActionRenameVar.lookup; rw [h]
  unfold renamedTo
  rw [hlookup]

theorem applyOp_spec (hS : S.RenameLaws) (m_space : Str) (op : PcodeOp) (st : σ)
    (hok : ∀ e, findName func nodes op.pc m_space ≠ .error e) :
    ∃ st', ActionRenameVar.applyOp S arch func nodes m_space op st = (.ok (), st') ∧
      S.findAddr st' = S.findAddr st ∧
      ∀ t, S.name st' t = (renamedTo S arch func nodes m_space st t op).getD (S.name st t) := by
  unfold ActionRenameVar.applyOp renamedTo
  cases hread : findName func nodes op.pc m_space with
  | error e => exact absurd hread (hok e)
  | ok found =>
    match found with
    | none => exact ⟨st, rfl, rfl, fun t => rfl⟩
    | some (newName, offset) =>
      simp only
      cases hsym : ActionRenameVar.lookup S arch m_space st op offset with
      | none => exact ⟨st, rfl, rfl, fun t => rfl⟩
      | some sym =>
        refine ⟨_, rfl, by rw [hS.findAddr_attribute, hS.findAddr_rename], ?_⟩
        intro t
        rw [hS.name_attribute, hS.name_rename st sym (hS.findAddr_mem _ _ _ _ hsym)]
        by_cases h : t = sym
        · simp [h]
        · simp [h, Ne.symm h]

/-- **One pass.** Lookups are unchanged, and a symbol is named by the last pcode that names it. -/
theorem apply_spec (hS : S.RenameLaws) (m_space : Str) (ops : List PcodeOp) (st : σ)
    (hok : ∀ op ∈ ops, ∀ e, findName func nodes op.pc m_space ≠ .error e) :
    ∃ st', ActionRenameVar.apply S arch func nodes m_space ops st = (.ok (), st') ∧
      S.findAddr st' = S.findAddr st ∧
      ∀ t, S.name st' t = (lastSome (renamedTo S arch func nodes m_space st t) ops).getD (S.name st t) := by
  induction ops generalizing st with
  | nil => exact ⟨st, rfl, rfl, fun t => rfl⟩
  | cons op ops ih =>
    obtain ⟨st₁, hop, hfind₁, hname₁⟩ := applyOp_spec S arch func nodes hS m_space op st (hok op (by simp))
    obtain ⟨st₂, hops, hfind₂, hname₂⟩ := ih st₁ fun o ho => hok o (List.mem_cons_of_mem _ ho)
    refine ⟨st₂, ?_, hfind₂.trans hfind₁, ?_⟩
    · rw [ActionRenameVar.apply, forEach_cons_ok _ _ _ _ _ hop]; exact hops
    · intro t
      rw [hname₂ t, hname₁ t, renamedTo_congr S arch func nodes m_space st st₁ hfind₁, lastSome_cons]
      cases lastSome (renamedTo S arch func nodes m_space st t) ops <;> rfl

end Yagi
