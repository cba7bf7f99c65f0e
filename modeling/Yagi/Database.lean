import Yagi.IdaSymbol

/-!
# Symbols of the database (`IdaSymbolInfoFactory`)

What Yagi looks up in the database of IDA by an address.
-/

open Text

namespace Yagi

/-- The start of the function at an address, short names, names, types, and the netnodes. -/
structure Database (Ty : Type) where
  get_func : UInt64 → Option UInt64
  get_short_name : UInt64 → Str
  get_name : UInt64 → Str
  get_tinfo : UInt64 → Option Ty
  nodes : NetNodes

/-- The start of a function belongs to it. -/
def Database.FuncsStart {Ty : Type} (db : Database Ty) : Prop :=
  ∀ ea start, db.get_func ea = some start → db.get_func start = some start

structure FunctionSymbolInfo where
  getAddress : UInt64
  getName : Str
deriving DecidableEq

/-- `back()` of a vector without elements. -/
inductive EmptyVector where
  | back
deriving DecidableEq, Repr

namespace IdaSymbolInfoFactory

variable {Ty : Type} (db : Database Ty)

def find (ea : UInt64) : Option Str :=
  if db.get_name ea = [] then none else some (c_str (db.get_name ea))

/-- The short name without its parameters. -/
def beforeParameters (idaName : Str) : Str :=
  match Text.find (ch '(') (c_str idaName) with
  | some beginParameter => (c_str idaName).take beginParameter
  | none => c_str idaName

def find_function (ea : UInt64) : Except EmptyVector (Option FunctionSymbolInfo) :=
  match db.get_func ea with
  | none => .ok none
  | some start_ea =>
    match (split (beforeParameters (db.get_short_name start_ea)) (ch ' ')).getLast? with
    | none => .error .back
    | some functionName => .ok (some ⟨start_ea, functionName⟩)

/-- The name is neither empty nor does it begin with its parameters. -/
def HasToken (idaName : Str) : Prop := c_str idaName ≠ [] ∧ (c_str idaName).head? ≠ some (ch '(')

instance (idaName : Str) : Decidable (HasToken idaName) := inferInstanceAs (Decidable (_ ∧ _))

theorem beforeParameters_eq_nil_iff (idaName : Str) : beforeParameters idaName = [] ↔ ¬ HasToken idaName := by
  unfold beforeParameters HasToken
  cases hname : c_str idaName with
  | nil => simp [Text.find]
  | cons b rest =>
    by_cases hb : b = ch '('
    · simp [Text.find, List.findIdx?_cons, hb]
    · cases hfind : Text.find (ch '(') (b :: rest) with
      | none => simp [hb]
      | some i =>
        cases i with
        | zero =>
          simp [Text.find, List.findIdx?_cons, hb] at hfind
        | succ i => simp [hb]

theorem tokens_eq_nil_iff (idaName : Str) :
    split (beforeParameters idaName) (ch ' ') = [] ↔ ¬ HasToken idaName :=
  (split_eq_nil_iff (beforeParameters idaName) (ch ' ')).trans (beforeParameters_eq_nil_iff idaName)

theorem exists_tokens (idaName : Str) (h : HasToken idaName) :
    ∃ tokens functionName, split (beforeParameters idaName) (ch ' ') = tokens ++ [functionName] := by
  have hne : split (beforeParameters idaName) (ch ' ') ≠ [] := fun hnil => (tokens_eq_nil_iff idaName).mp hnil h
  exact ⟨_, _, (List.dropLast_append_getLast hne).symm⟩

theorem find_function_last (ea start_ea : UInt64) (tokens : List Str) (functionName : Str)
    (hfunc : db.get_func ea = some start_ea)
    (htokens : split (beforeParameters (db.get_short_name start_ea)) (ch ' ') = tokens ++ [functionName]) :
    find_function db ea = .ok (some ⟨start_ea, functionName⟩) := by
  unfold find_function
  rw [hfunc]
  simp only [htokens, List.getLast?_concat]

theorem find_function_eq (ea start_ea : UInt64) (hfunc : db.get_func ea = some start_ea) :
    if HasToken (db.get_short_name start_ea)
    then ∃ functionName, find_function db ea = .ok (some ⟨start_ea, functionName⟩)
    else find_function db ea = .error .back := by
  by_cases htoken : HasToken (db.get_short_name start_ea)
  · rw [if_pos htoken]
    obtain ⟨tokens, functionName, htokens⟩ := exists_tokens _ htoken
    exact ⟨functionName, find_function_last db ea start_ea tokens functionName hfunc htokens⟩
  · rw [if_neg htoken]
    unfold find_function
    rw [hfunc]
    simp only [(tokens_eq_nil_iff _).mpr htoken, List.getLast?_nil]

theorem find_function_address (ea : UInt64) (function : Option FunctionSymbolInfo)
    (h : find_function db ea = .ok function) : function.map (·.getAddress) = db.get_func ea := by
  cases hfunc : db.get_func ea with
  | none =>
    unfold find_function at h
    rw [hfunc] at h
    obtain rfl := Except.ok.inj h
    rfl
  | some start_ea =>
    have hfind := find_function_eq db ea start_ea hfunc
    split at hfind
    · obtain ⟨functionName, hfind⟩ := hfind
      rw [hfind] at h
      obtain rfl := Except.ok.inj h
      rfl
    · rw [hfind] at h
      simp at h

theorem find_function_congr (ea ea' : UInt64) (h : db.get_func ea = db.get_func ea') :
    find_function db ea = find_function db ea' := by
  unfold find_function
  rw [h]

/-- **Function names.** A function has a symbol that bears the last token before the parameters, exactly when its
short name has a token. -/
theorem find_function_iff (ea start_ea : UInt64) (hfunc : db.get_func ea = some start_ea) :
    (∃ tokens functionName,
      split (beforeParameters (db.get_short_name start_ea)) (ch ' ') = tokens ++ [functionName] ∧
        find_function db ea = .ok (some ⟨start_ea, functionName⟩)) ↔
      HasToken (db.get_short_name start_ea) := by
  constructor
  · rintro ⟨tokens, functionName, htokens, -⟩
    by_contra htoken
    rw [(tokens_eq_nil_iff _).mpr htoken] at htokens
    simp at htokens
  · intro htoken
    obtain ⟨tokens, functionName, htokens⟩ := exists_tokens _ htoken
    exact ⟨tokens, functionName, htokens, find_function_last db ea start_ea tokens functionName hfunc htokens⟩

/-- A database in which every address starts a function of the given short name. -/
def namedDatabase (shortName : Str) : Database Unit where
  get_func ea := some ea
  get_short_name _ := shortName
  get_name _ := []
  get_tinfo _ := none
  nodes _ := none

theorem find_function_iff_main :
    (∃ tokens functionName,
      split (beforeParameters (ascii "int main(int)")) (ch ' ') = tokens ++ [functionName] ∧
        find_function (namedDatabase (ascii "int main(int)")) 0x401000 = .ok (some ⟨0x401000, functionName⟩)) ↔
      HasToken (ascii "int main(int)") :=
  find_function_iff (namedDatabase (ascii "int main(int)")) 0x401000 0x401000 rfl

/-- Neither the empty name nor a name in an anonymous namespace has a token. -/
theorem find_function_anonymous :
    find_function (namedDatabase []) 0x401000 = .error .back ∧
      find_function (namedDatabase (ascii "(anonymous namespace)::f(int)")) 0x401000 = .error .back := by
  decide

end IdaSymbolInfoFactory

end Yagi
