import Yagi.Symbols.Lookup

/-!
# Printed names and keys

The emitter and the collectors each drop the mark of an import from a name. They
agree on calls, and not on variables and on the function itself.
-/

open Text FirstWins

namespace Yagi

/-! ## The mark of an import -/

namespace IdaEmit

theorem isImport_iff (s : Str) : isImport s = true ↔ ∃ rest, s = importPrefix ++ rest := by
  unfold isImport
  rw [decide_eq_true_eq]
  constructor
  · intro h
    exact ⟨s.drop importPrefix.length, by conv_lhs => rw [← List.take_append_drop importPrefix.length s, h]⟩
  · rintro ⟨rest, rfl⟩
    simp

theorem importedName_append (rest : Str) : importedName (importPrefix ++ rest) = rest := by
  rw [importedName, if_pos ((isImport_iff _).mpr ⟨rest, rfl⟩)]
  simp

theorem importedName_eq_self (s : Str) : importedName s = s ↔ isImport s = false := by
  cases h : isImport s with
  | false => simp [importedName, h]
  | true =>
    obtain ⟨rest, rfl⟩ := (isImport_iff s).mp h
    rw [importedName_append]
    simp only [Bool.true_eq_false, iff_false]
    intro heq
    have := congrArg List.length heq
    rw [List.length_append] at this
    exact absurd this (by simp [importPrefix, ascii])

theorem isImport_c_str (s : Str) : isImport (c_str s) = isImport s := by
  rw [Bool.eq_iff_iff, isImport_iff, isImport_iff]
  constructor
  · rintro ⟨rest, h⟩
    obtain ⟨tail, htail⟩ := c_str_prefix s
    exact ⟨rest ++ tail, by rw [htail, h, List.append_assoc]⟩
  · rintro ⟨rest, rfl⟩
    exact ⟨c_str rest, c_str_append _ _ (by decide)⟩

end IdaEmit

/-! ## Printed text -/

def PrintedAs (out key : Str) : Prop := ∃ c ∈ guardColors, out = IdaEmit.colorGuard c key

theorem colorGuard_inj (c c' : Byte) (text text' : Str) (hc : c ∈ guardColors) (hc' : c' ∈ guardColors)
    (h : IdaEmit.colorGuard c text = IdaEmit.colorGuard c' text') : text = text' := by
  rw [colorGuard_eq c text hc, colorGuard_eq c' text' hc'] at h
  simp only [List.cons_append, List.nil_append, List.cons.injEq, true_and] at h
  obtain ⟨rfl, h⟩ := h
  exact List.append_cancel_right h

theorem emit_printedAs_iff (call : EmitCall) (key : Str) : PrintedAs call.emit key ↔ call.text = key := by
  obtain ⟨c, hc, hemit⟩ := emit_eq_colorGuard call
  constructor
  · rintro ⟨c', hc', h⟩
    exact colorGuard_inj c c' _ _ hc hc' (hemit.symm.trans h)
  · rintro rfl
    exact ⟨c, hc, hemit⟩

/-! ## Names -/

/-- A name that is printed, and recorded in the symbol map. -/
inductive NamedSymbol where
  | var (n : Str)
  | function (n : Str)
  | call (n : Str)

namespace NamedSymbol

def name : NamedSymbol → Str
  | .var n => n
  | .function n => n
  | .call n => n

def key : NamedSymbol → Str
  | .var n => n
  | .function n => n
  | .call n => FuncCallSpecs.key ⟨n, none⟩

/-- The call of the emitter that prints the name, which it gets as a C string. -/
def print (hl : SyntaxHighlight) (op : Option UInt64) : NamedSymbol → EmitCall
  | .var n => .tagVariable (c_str n) hl op
  | .function n => .tagFuncName (c_str n) hl
  | .call n => .tagFuncName (c_str n) hl

def all {Sym : Type} (name : Sym → Str) (data : DecompiledFunc Sym) : List NamedSymbol :=
  (data.defs.filterMap fun varnode => varnode.variable.map fun p => .var (name p.1)) ++
    .function data.getName :: data.calls.filterMap fun call => call.getEntryAddress.map fun _ => .call call.getName

end NamedSymbol

variable {Sym : Type} (name : Sym → Str) (data : DecompiledFunc Sym)

theorem funcCallSpecs_key (call : FuncCallSpecs) : call.key = IdaEmit.importedName call.getName := by
  simp [FuncCallSpecs.key, IdaEmit.importedName, IdaEmit.isImport]

theorem keys_eq : (varEntries name data.toFuncdata ++ funcEntries data).map (·.1) =
    (NamedSymbol.all name data).map NamedSymbol.key := by
  rw [funcEntries_eq, List.map_append, NamedSymbol.all, List.map_append, List.map_cons, List.map_cons]
  simp only [varEntries, List.map_filterMap, Option.map_map]
  congr 1
  apply List.filterMap_congr
  intro varnode _
  have hplace := congrArg (Option.map fun p : Sym × Str × UInt64 => name p.1) (varLocation_place data varnode)
  rw [Option.map_map, Option.map_map] at hplace
  exact hplace

theorem findSymbols_ne_none (key : Str) :
    findSymbols name data key ≠ none ↔ ∃ symbol ∈ NamedSymbol.all name data, symbol.key = key := by
  rw [findSymbols_apply, ← first_append, first_ne_none, keys_eq, List.mem_map]

/-- The names that are printed as they are recorded. Only a call may bear the mark of an import. -/
def NamedSymbol.PrintedAlike : NamedSymbol → Prop
  | .var n => NoNul n ∧ IdaEmit.isImport n = false
  | .function n => NoNul n ∧ IdaEmit.isImport n = false
  | .call n => NoNul n

theorem importedName_c_str_eq_self (n : Str) :
    IdaEmit.importedName (c_str n) = n ↔ NoNul n ∧ IdaEmit.isImport n = false := by
  constructor
  · intro h
    have hnul : NoNul n := by
      rw [← h]
      cases himport : IdaEmit.isImport (c_str n) with
      | false => rw [(IdaEmit.importedName_eq_self _).mpr himport]; exact c_str_noNul n
      | true =>
        rw [IdaEmit.importedName, if_pos himport]
        exact fun hmem => c_str_noNul n (List.mem_of_mem_drop hmem)
    rw [c_str_of_noNul n hnul, IdaEmit.importedName_eq_self] at h
    exact ⟨hnul, h⟩
  · rintro ⟨hnul, himport⟩
    rw [c_str_of_noNul n hnul, (IdaEmit.importedName_eq_self n).mpr himport]

theorem importedName_c_str_eq (n : Str) : IdaEmit.importedName (c_str n) = IdaEmit.importedName n ↔ NoNul n := by
  refine ⟨?_, fun h => by rw [c_str_of_noNul n h]⟩
  cases himport : IdaEmit.isImport n with
  | false =>
    rw [(IdaEmit.importedName_eq_self n).mpr himport,
      (IdaEmit.importedName_eq_self _).mpr ((IdaEmit.isImport_c_str n).trans himport)]
    exact (c_str_eq_self n).mp
  | true =>
    obtain ⟨rest, rfl⟩ := (IdaEmit.isImport_iff n).mp himport
    rw [c_str_append _ _ (by decide), IdaEmit.importedName_append, IdaEmit.importedName_append, c_str_eq_self,
      noNul_append]
    exact fun h => ⟨by decide, h⟩

theorem print_key_iff (symbol : NamedSymbol) (hl : SyntaxHighlight) (op : Option UInt64) :
    PrintedAs (symbol.print hl op).emit symbol.key ↔ symbol.PrintedAlike := by
  rw [emit_printedAs_iff]
  cases symbol with
  | var n => exact importedName_c_str_eq_self n
  | function n => exact importedName_c_str_eq_self n
  | call n =>
    rw [NamedSymbol.key, funcCallSpecs_key]
    exact importedName_c_str_eq n

/-- **Keys.** Every recorded name is found under its key, and is printed as that key exactly when it holds no
NUL and, but for a call, does not bear the mark of an import. -/
theorem printed_under_key_iff (symbol : NamedSymbol) (hsymbol : symbol ∈ NamedSymbol.all name data)
    (hl : SyntaxHighlight) (op : Option UInt64) :
    findSymbols name data symbol.key ≠ none ∧
      (PrintedAs (symbol.print hl op).emit symbol.key ↔ symbol.PrintedAlike) :=
  ⟨(findSymbols_ne_none name data _).mpr ⟨symbol, hsymbol, rfl⟩, print_key_iff symbol hl op⟩

/-- A variable and a call of one name with the mark of an import. -/
def importedNames : DecompiledFunc Str :=
  { collidingNames with
    defs := [⟨stackAt 8, some ⟨some (ascii "__imp_send"), some ⟨stackAt 8, some 0x401004⟩⟩⟩]
    calls := [⟨ascii "__imp_recv", some (codeAt 0x404018)⟩] }

theorem printed_under_key_iff_recv :
    findSymbols id importedNames (ascii "recv") ≠ none ∧
      (PrintedAs ((NamedSymbol.call (ascii "__imp_recv")).print .funcname_color none).emit (ascii "recv") ↔
        (NamedSymbol.call (ascii "__imp_recv")).PrintedAlike) :=
  printed_under_key_iff id importedNames (.call (ascii "__imp_recv")) (by
    rw [show NamedSymbol.all id importedNames = [.var (ascii "__imp_send"), .function (ascii "main"),
      .call (ascii "__imp_recv")] from rfl]
    simp) .funcname_color none

/-- The variable is printed as `send`, and recorded as `__imp_send`. -/
theorem printed_variable_not_found :
    PrintedAs ((NamedSymbol.var (ascii "__imp_send")).print .var_color none).emit (ascii "send") ∧
      findSymbols id importedNames (ascii "send") = none ∧
      findSymbols id importedNames (ascii "__imp_send") ≠ none ∧
      ¬ PrintedAs ((NamedSymbol.var (ascii "__imp_send")).print .var_color none).emit
        (NamedSymbol.var (ascii "__imp_send")).key := by
  simp only [emit_printedAs_iff]
  decide

end Yagi
