import Mathlib.Data.List.Nodup
import Yagi.Lib.Decimal

/-!
# Names of parameters (`getFuncParamName`)

A parameter without a name is called after its position. Nothing keeps another
parameter from bearing that name already.
-/

open Text Decimal

namespace Yagi

namespace IdaFuncInfo

def paramName (index : UInt16) (arg : Str) : Str :=
  let name := c_str arg
  if name = [] then ascii "a" ++ decText index.toNat else name

/-- The index counts on while the arguments are transformed. -/
def paramNames (index : UInt16) : List Str → List Str
  | [] => []
  | arg :: args => paramName (index + 1) arg :: paramNames (index + 1) args

/-- The names of the arguments, where IDA has the details of a function type. -/
def getFuncParamName (is_func : Bool) (get_func_details : Option (List Str)) : List Str :=
  match is_func, get_func_details with
  | true, some args => paramNames 0 args
  | _, _ => []

/-! ## One name for each parameter -/

def generated (i : Nat) : Str := ascii "a" ++ decText (i + 1)

theorem generated_injective (i j : Nat) (h : generated i = generated j) : i = j := by
  have := decText_injective _ _ (List.append_cancel_left h)
  omega

theorem generated_ne_nil (i : Nat) : generated i ≠ [] := by
  unfold generated
  intro h
  exact decText_ne_nil _ (List.append_eq_nil_iff.mp h).2

theorem paramNames_length (index : UInt16) (args : List Str) : (paramNames index args).length = args.length := by
  induction args generalizing index with
  | nil => rfl
  | cons arg args ih =>
    unfold paramNames
    rw [List.length_cons, List.length_cons, ih]

theorem paramNames_getElem? (index : UInt16) (args : List Str) (i : Nat) (h : index.toNat + args.length < 2 ^ 16) :
    (paramNames index args)[i]? =
      args[i]?.map fun arg => if c_str arg = [] then generated (index.toNat + i) else c_str arg := by
  induction args generalizing index i with
  | nil => rfl
  | cons arg args ih =>
    rw [List.length_cons] at h
    have hnext : (index + 1).toNat = index.toNat + 1 := by
      have hone : (1 : UInt16).toNat = 1 := rfl
      rw [UInt16.toNat_add, hone]
      omega
    unfold paramNames
    cases i with
    | zero =>
      rw [List.getElem?_cons_zero, List.getElem?_cons_zero, Option.map_some]
      unfold paramName generated
      rw [hnext]
    | succ i =>
      rw [List.getElem?_cons_succ, List.getElem?_cons_succ, ih (index + 1) i (by omega), hnext]
      simp only [Nat.add_right_comm, Nat.add_assoc]

theorem getFuncParamName_getElem? (args : List Str) (hcount : args.length < 2 ^ 16) (i : Nat) :
    (getFuncParamName true (some args))[i]? =
      args[i]?.map fun arg => if c_str arg = [] then generated i else c_str arg := by
  unfold getFuncParamName
  rw [paramNames_getElem? 0 args i (by simpa using hcount)]
  simp

/-- One name for each parameter, none of them empty or twice, and the given ones where they were. -/
structure NamesEach (args names : List Str) : Prop where
  length : names.length = args.length
  ne_nil : ∀ n ∈ names, n ≠ []
  given : ∀ (i : Nat) (arg : Str), args[i]? = some arg → c_str arg ≠ [] → names[i]? = some (c_str arg)
  nodup : names.Nodup

/-- No parameter bears the name that is generated for another one. -/
def NoneGenerated (args : List Str) : Prop :=
  ∀ (i j : Nat) (unnamed arg : Str), args[i]? = some unnamed → args[j]? = some arg → c_str unnamed = [] →
    c_str arg ≠ generated i

theorem getFuncParamName_given (args : List Str) (hcount : args.length < 2 ^ 16) (i : Nat) (arg : Str)
    (harg : args[i]? = some arg) (hgiven : c_str arg ≠ []) :
    (getFuncParamName true (some args))[i]? = some (c_str arg) := by
  rw [getFuncParamName_getElem? args hcount, harg, Option.map_some, if_neg hgiven]

theorem getFuncParamName_unnamed (args : List Str) (hcount : args.length < 2 ^ 16) (i : Nat) (arg : Str)
    (harg : args[i]? = some arg) (hunnamed : c_str arg = []) :
    (getFuncParamName true (some args))[i]? = some (generated i) := by
  rw [getFuncParamName_getElem? args hcount, harg, Option.map_some, if_pos hunnamed]

theorem names_differ (args : List Str) (hcount : args.length < 2 ^ 16)
    (hdistinct : (args.map c_str).Pairwise fun a b => a ≠ [] → a ≠ b) (hnone : NoneGenerated args) (i j : Nat)
    (hij : i < j) (hj : j < args.length) :
    (getFuncParamName true (some args))[i]? ≠ (getFuncParamName true (some args))[j]? := by
  have hi : i < args.length := by omega
  have hargi := List.getElem?_eq_getElem hi
  have hargj := List.getElem?_eq_getElem hj
  by_cases hnamei : c_str args[i] = []
  · rw [getFuncParamName_unnamed args hcount i _ hargi hnamei]
    by_cases hnamej : c_str args[j] = []
    · rw [getFuncParamName_unnamed args hcount j _ hargj hnamej]
      intro h
      have := generated_injective i j (Option.some.inj h)
      omega
    · rw [getFuncParamName_given args hcount j _ hargj hnamej]
      intro h
      exact hnone i j _ _ hargi hargj hnamei (Option.some.inj h).symm
  · rw [getFuncParamName_given args hcount i _ hargi hnamei]
    by_cases hnamej : c_str args[j] = []
    · rw [getFuncParamName_unnamed args hcount j _ hargj hnamej]
      intro h
      exact hnone j i _ _ hargj hargi hnamej (Option.some.inj h)
    · rw [getFuncParamName_given args hcount j _ hargj hnamej]
      intro h
      have hne := List.pairwise_iff_getElem.mp hdistinct i j (by simpa using hi) (by simpa using hj) hij
      simp only [List.getElem_map] at hne
      exact hne hnamei (Option.some.inj h)

/-- **Parameter names.** Each parameter gets a name of its own exactly when no given name is the one that is
generated for a parameter without name. -/
theorem names_each_iff (args : List Str) (hcount : args.length < 2 ^ 16)
    (hdistinct : (args.map c_str).Pairwise fun a b => a ≠ [] → a ≠ b) :
    NamesEach args (getFuncParamName true (some args)) ↔ NoneGenerated args := by
  constructor
  · intro h i j unnamed arg hi hj hunnamed heq
    have hgiven : c_str arg ≠ [] := by
      rw [heq]
      exact generated_ne_nil i
    have hnamei := getFuncParamName_unnamed args hcount i unnamed hi hunnamed
    have hnamej := getFuncParamName_given args hcount j arg hj hgiven
    obtain ⟨hlt, -⟩ := List.getElem?_eq_some_iff.mp hnamei
    have hsame := (List.getElem?_inj hlt h.nodup).mp (hnamei.trans (heq ▸ hnamej).symm)
    subst hsame
    rw [hi] at hj
    exact hgiven (Option.some.inj hj ▸ hunnamed)
  · intro hnone
    have hlength : (getFuncParamName true (some args)).length = args.length := paramNames_length 0 args
    refine ⟨hlength, ?_, getFuncParamName_given args hcount, ?_⟩
    · intro n hn
      obtain ⟨i, hi⟩ := List.mem_iff_getElem?.mp hn
      rw [getFuncParamName_getElem? args hcount] at hi
      obtain ⟨arg, -, rfl⟩ := Option.map_eq_some_iff.mp hi
      split
      · exact generated_ne_nil i
      · assumption
    · rw [List.nodup_iff_getElem?_ne_getElem?]
      intro i j hij hj
      exact names_differ args hcount hdistinct hnone i j hij (by omega)

theorem names_each_iff_two :
    NamesEach [[], ascii "count"] (getFuncParamName true (some [[], ascii "count"])) ↔
      NoneGenerated [[], ascii "count"] :=
  names_each_iff [[], ascii "count"] (by decide) (by decide)

/-- The second parameter bears the name that the first one gets. -/
theorem generated_name_taken :
    getFuncParamName true (some [[], ascii "a1"]) = [ascii "a1", ascii "a1"] ∧
      ¬ (getFuncParamName true (some [[], ascii "a1"])).Nodup := by
  decide

end IdaFuncInfo

end Yagi
