import Yagi.Base
import Yagi.Database
import Yagi.Keyboard.Proofs
import Yagi.Keyword.Lines
import Yagi.Symbols.Keys

/-!
# The viewer of a function (`Plugin::view`)

The printed text is cut into the lines of a viewer. A click in the viewer is about
the function that is printed there, if the name is not taken by another.
-/

open Text FirstWins

namespace Yagi

/-! ## Lines -/

/-- The lines of the viewer. Each is a C string. -/
def Plugin.lines (cCode : Str) : List Str := (split cCode (ch '\n')).map c_str

/-- A line that the emitter prints, without its line break. -/
structure Line where
  pieces : List Piece
  oneLine : ch '\n' ∉ lineBytes pieces

/-- What the emitter prints, line by line. -/
def printedText (lines : List Line) : Str :=
  List.intercalate [ch '\n'] (lines.map fun line => lineBytes line.pieces)

/-- The viewer with the cursor at a row and a column. -/
def viewerAtRow (rows : List Str) (row column : Nat) : Option CustomViewer :=
  rows[row]?.map fun line => ⟨some column, line⟩

theorem token_bytes_ne_nil (t : Token) : t.bytes ≠ [] := by
  unfold Token.bytes
  rw [colorGuard_eq t.color t.text t.color_mem]
  simp

theorem view_row (lines : List Line) (row : Nat) (line : Line) (hrow : lines[row]? = some line)
    (hne : lineBytes line.pieces ≠ []) :
    (Plugin.lines (printedText lines))[row]? = some (lineBytes line.pieces) := by
  have hclean : ∀ bytes ∈ lines.map (fun line => lineBytes line.pieces), ch '\n' ∉ bytes := by
    intro bytes hbytes
    obtain ⟨line, -, rfl⟩ := List.mem_map.mp hbytes
    exact line.oneLine
  have hline : (lines.map fun line => lineBytes line.pieces)[row]? = some (lineBytes line.pieces) := by
    rw [List.getElem?_map, hrow]
    rfl
  rw [Plugin.lines, printedText, List.getElem?_map, getElem?_split_intercalate _ _ hclean row _ hline hne,
    Option.map_some, c_str_of_noNul _ (lineBytes_noNul _)]

/-- The cursor stands behind `k` characters of a token. -/
def viewerAt (before after : List Piece) (t : Token) (k : Nat) : CustomViewer :=
  ⟨some (lineColumns before + k), lineBytes (before ++ .token t :: after)⟩

/-- A row of the text shows the token, with these pieces before and after it. -/
def TokenAt (lines : List Line) (row : Nat) (before : List Piece) (t : Token) (after : List Piece) : Prop :=
  lines[row]?.map Line.pieces = some (before ++ .token t :: after)

theorem viewerAtRow_token (lines : List Line) (row : Nat) (before after : List Piece) (t : Token) (k : Nat)
    (hrow : TokenAt lines row before t after) :
    viewerAtRow (Plugin.lines (printedText lines)) row (lineColumns before + k) = some (viewerAt before after t k) := by
  obtain ⟨line, hline, hpieces⟩ := Option.map_eq_some_iff.mp hrow
  have hne : lineBytes line.pieces ≠ [] := by
    rw [hpieces]
    simp [lineBytes, Piece.bytes, token_bytes_ne_nil]
  rw [viewerAtRow, view_row lines row line hline hne, hpieces]
  rfl

/-- A column inside a token that prints the symbol, past its first character. The scanner reads the whole token. -/
def ShownAt (lines : List Line) (symbol : NamedSymbol) (row column : Nat) : Prop :=
  ∃ before t after k hl, TokenAt lines row before t after ∧ t.bytes = (symbol.print hl none).emit ∧
    ¬ t.mistaken ∧ 0 < k ∧ k < t.text.length ∧ column = lineColumns before + k

/-! ## What is done -/

section

variable {Ty : Type} (ida : Ida Ty) (get_func : UInt64 → Option Frame) (code : Decompiler.Result)

/-- A double click jumps to the address, X lists the references to it, and N gives it the answer as its name, if it
has a symbol. -/
structure ActsOn (keyword : Option Str) (ea : UInt64) : Prop where
  doubleClick : doubleClickCallback get_func code keyword = .ok (.jumpto ea)
  xrefs : ∀ db function, IdaSymbolInfoFactory.find_function db code.ea = .ok function →
    keyboardCallback ida code keyword 'X'.toNat 0 db = .ok ⟨true, db, [.open_xrefs_window ea]⟩
  rename : ∀ db function answer, IdaSymbolInfoFactory.find_function db code.ea = .ok function →
    IdaSymbolInfoFactory.find db ea ≠ none → (∀ name, ida.ask_str name = some answer) →
    (keyboardCallback ida code keyword 'N'.toNat 0 db).map (·.db) = .ok (ida.set_name ea (c_str answer) db)

def LeadsTo (viewer : CustomViewer) (ea : UInt64) : Prop :=
  ∃ keyword, computeKeyword viewer = .ok keyword ∧ ActsOn ida get_func code keyword ea

theorem jumpto_iff (key : Str) (addr : Address) :
    doubleClickCallback get_func code (some key) = .ok (.jumpto addr.offset) ↔
      PointsTo code.symbolAddress key addr := by
  unfold doubleClickCallback PointsTo
  simp only [Option.bind_some]
  cases hloc : code.symbolAddress key with
  | none => simp
  | some loc =>
    by_cases hram : loc.spaceName = ascii "ram"
    · simp [hram]
    · simp only [hram, if_false, Option.mem_def, Option.some.injEq, exists_eq_left', false_and, iff_false]
      split
      · cases get_func code.ea <;> simp
      · simp

theorem actsOn_iff (key : Str) (addr : Address) :
    ActsOn ida get_func code (some key) addr.offset ↔ PointsTo code.symbolAddress key addr := by
  refine ⟨fun h => (jumpto_iff get_func code key addr).mp h.doubleClick, fun h => ?_⟩
  obtain ⟨loc, hloc, hram, hoffset⟩ := h
  rw [Option.mem_def] at hloc
  constructor
  · exact (jumpto_iff get_func code key addr).mpr ⟨loc, hloc, hram, hoffset⟩
  · intro db function hfunction
    simp [keyboardCallback, hloc, hfunction, Keyboard.xrefs, hram, hoffset]
  · intro db function answer hfunction hfind hanswer
    obtain ⟨symbolInfo, hfind⟩ := Option.ne_none_iff_exists'.mp hfind
    simp only [keyboardCallback, hloc, hfunction, ne_eq, not_true_eq_false, if_false, if_true]
    rw [if_neg (by decide)]
    simp [Keyboard.rename, if_pos hram, hoffset, hfind, Keyboard.dialog, hanswer, Except.map]

end

/-! ## Where a place leads -/

section

variable {Sym Ty : Type} (name : Sym → Str) (data : DecompiledFunc Sym)

/-- The functions that are printed, with their entries. -/
def printedTargets : List (NamedSymbol × Address) :=
  (.function data.getName, data.getAddress) ::
    data.calls.filterMap fun call => call.getEntryAddress.map fun entry => (.call call.getName, entry)

theorem targets_eq : targets data = (printedTargets data).map fun target => (target.1.key, target.2) := by
  simp only [targets, printedTargets, List.map_cons, List.map_filterMap, Option.map_map]
  rfl

theorem leadsTo_iff (ida : Ida Ty) (get_func : UInt64 → Option Frame) (ea : UInt64) (lines : List Line)
    (symbol : NamedSymbol) (halike : symbol.PrintedAlike) (addr : Address) (row column : Nat)
    (hshown : ShownAt lines symbol row column) :
    (∃ viewer, viewerAtRow (Plugin.lines (printedText lines)) row column = some viewer ∧
        LeadsTo ida get_func ⟨ea, findSymbols name data⟩ viewer addr.offset) ↔
      PointsTo (findSymbols name data) symbol.key addr := by
  obtain ⟨before, t, after, k, hl, hrow, hbytes, hclear, hk, hlast, rfl⟩ := hshown
  have htext : t.text = symbol.key := by
    have hprinted := (print_key_iff symbol hl none).mpr halike
    rw [← hbytes] at hprinted
    obtain ⟨c, hc, h⟩ := hprinted
    exact colorGuard_inj t.color c _ _ t.color_mem hc h
  have hkeyword : computeKeyword (viewerAt before after t k) = .ok (some symbol.key) := by
    rw [viewerAt, computeKeyword_token before after t k hk hlast, if_neg hclear, htext]
  rw [viewerAtRow_token lines row before after t k hrow, ← actsOn_iff ida get_func ⟨ea, findSymbols name data⟩]
  constructor
  · rintro ⟨viewer, hviewer, keyword, hfound, hacts⟩
    rw [← Option.some.inj hviewer, hkeyword] at hfound
    rw [Except.ok.inj hfound]
    exact hacts
  · intro hacts
    exact ⟨_, rfl, _, hkeyword, hacts⟩

/-- **Navigation.** When the function and all that it calls are shown in a viewer, each place that shows one leads
to its entry, exactly when functions of one name have one entry and no variable takes such a name. -/
theorem shown_functions_lead_iff (ida : Ida Ty) (get_func : UInt64 → Option Frame) (ea : UInt64)
    (lines : List Line) (halike : ∀ target ∈ printedTargets data, target.1.PrintedAlike)
    (hshown : ∀ target ∈ printedTargets data, ∃ row column, ShownAt lines target.1 row column) :
    (∀ target ∈ printedTargets data, ∀ row column, ShownAt lines target.1 row column →
        ∃ viewer, viewerAtRow (Plugin.lines (printedText lines)) row column = some viewer ∧
          LeadsTo ida get_func ⟨ea, findSymbols name data⟩ viewer target.2.offset) ↔
      Unambiguous name data := by
  rw [← targets_pointsTo_iff, targets_eq]
  simp only [List.forall_mem_map]
  constructor
  · intro h target htarget
    obtain ⟨row, column, hplace⟩ := hshown target htarget
    exact (leadsTo_iff name data ida get_func ea lines target.1 (halike target htarget) target.2 row column hplace).mp
      (h target htarget row column hplace)
  · intro h target htarget row column hplace
    exact (leadsTo_iff name data ida get_func ea lines target.1 (halike target htarget) target.2 row column hplace).mpr
      (h target htarget)

end

/-! ## `main` and `puts` -/

def helloWorld : DecompiledFunc Str :=
  { importedNames with defs := [], calls := [⟨ascii "puts", some (codeAt 0x401100)⟩] }

def putsToken : Token := ⟨colorDefault, ascii "puts", mainToken.color_mem, by decide, by decide⟩

theorem mainLine_oneLine : ch '\n' ∉ lineBytes [.token mainToken] := by decide

theorem putsLine_oneLine : ch '\n' ∉ lineBytes [.space, .token putsToken] := by decide

def helloLines : List Line :=
  [⟨[.token mainToken], mainLine_oneLine⟩, ⟨[.space, .token putsToken], putsLine_oneLine⟩]

theorem shown_functions_lead_iff_hello :
    (∀ target ∈ printedTargets helloWorld, ∀ row column, ShownAt helloLines target.1 row column →
        ∃ viewer, viewerAtRow (Plugin.lines (printedText helloLines)) row column = some viewer ∧
          LeadsTo intIda (fun _ => none) ⟨0x401000, findSymbols id helloWorld⟩ viewer target.2.offset) ↔
      Unambiguous id helloWorld := by
  have htargets : printedTargets helloWorld =
      [(.function (ascii "main"), codeAt 0x401000), (.call (ascii "puts"), codeAt 0x401100)] := rfl
  refine shown_functions_lead_iff id helloWorld intIda (fun _ => none) 0x401000 helloLines ?_ ?_
  · simp only [htargets, List.forall_mem_cons, List.not_mem_nil, false_imp_iff, implies_true, and_true]
    exact ⟨⟨by decide, by decide⟩, show NoNul (ascii "puts") by decide⟩
  · simp only [htargets, List.forall_mem_cons, List.not_mem_nil, false_imp_iff, implies_true, and_true]
    constructor
    · exact ⟨0, 1, [], mainToken, [], 1, .funcname_color, rfl, by decide, by decide, by decide, by decide, rfl⟩
    · exact ⟨1, 2, [.space], putsToken, [], 1, .funcname_color, rfl, by decide, by decide, by decide, by decide, rfl⟩

end Yagi
