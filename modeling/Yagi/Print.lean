import Yagi.Lib.Text

/-!
# Coloured text (`print.cc`)

Every text that `IdaEmit` prints stands between two tags of two bytes: a mark
and a colour code.
-/

open Text

namespace Yagi

/-! ## Colours -/

def colorOn : Byte := 1
def colorOff : Byte := 2

/-- The code of this colour is the byte of `colorOn`. -/
def colorDefault : Byte := 1
def colorRptcmt : Byte := 0x03
def colorDref : Byte := 0x0f
def colorDstr : Byte := 0x1d
def colorKeyword : Byte := 0x20
def colorImpname : Byte := 0x22

def guardColors : List Byte := [colorDefault, colorRptcmt, colorDref, colorDstr, colorKeyword, colorImpname]

inductive SyntaxHighlight where
  | keyword_color
  | comment_color
  | type_color
  | funcname_color
  | var_color
  | const_color
  | param_color
  | global_color
  | no_color
deriving DecidableEq, Repr

def SyntaxHighlight.color : SyntaxHighlight → Byte
  | .keyword_color => colorKeyword
  | .comment_color => colorRptcmt
  | .type_color => colorRptcmt
  | .funcname_color => colorDefault
  | .var_color => colorDref
  | .const_color => colorKeyword
  | .param_color => colorDefault
  | .global_color => colorDefault
  | .no_color => colorDefault

def importPrefix : Str := ascii "__imp_"

/-! ## The emitter -/

namespace IdaEmit

def startColorTag (c : Byte) : Str := c_str [colorOn, c]

def endColorTag (c : Byte) : Str := c_str [colorOff, c]

/-- What is printed while an `EmitColorGuard` is alive. -/
def colorGuard (c : Byte) (text : Str) : Str := startColorTag c ++ text ++ endColorTag c

def isImport (ptr : Str) : Bool := ptr.take importPrefix.length = importPrefix

def importedName (ptr : Str) : Str := if isImport ptr then ptr.drop importPrefix.length else ptr

def openParen (o : Byte) : Str := colorGuard colorKeyword [o]

def closeParen (c : Byte) : Str := colorGuard colorKeyword [c]

def tagOp (ptr : Str) : Str := colorGuard colorKeyword ptr

def isQuote (b : Byte) : Bool := b = 34 ∨ b = 39

def isString : Str → Bool
  | b :: rest => isQuote b || (b = ch 'L' && (rest.head?.map isQuote).getD false)
  | [] => false

/-- A variable without pcode is being declared. -/
def tagVariable (ptr : Str) (hl : SyntaxHighlight) (op : Option UInt64) : Str :=
  if isImport ptr then colorGuard colorImpname (importedName ptr)
  else if isString ptr then colorGuard colorDstr ptr
  else colorGuard (if op = none then .keyword_color else hl : SyntaxHighlight).color ptr

def tagFuncName (ptr : Str) (hl : SyntaxHighlight) : Str :=
  if isImport ptr then colorGuard colorImpname (importedName ptr) else colorGuard hl.color ptr

def tagField (ptr : Str) : Str := colorGuard colorKeyword ptr

def tagLabel (ptr : Str) : Str := colorGuard colorKeyword ptr

def isPunctuation (str : Str) : Bool :=
  str.head? ∈ [some (ch '{'), some (ch '}'), some (ch ';'), some (ch ',')]

def print (str : Str) (hl : SyntaxHighlight) : Str :=
  colorGuard (if isPunctuation str then .keyword_color else hl : SyntaxHighlight).color str

def tagType (ptr : Str) (hl : SyntaxHighlight) : Str := colorGuard hl.color ptr

end IdaEmit

inductive EmitCall where
  | openParen (o : Byte)
  | closeParen (c : Byte)
  | tagOp (ptr : Str)
  | tagVariable (ptr : Str) (hl : SyntaxHighlight) (op : Option UInt64)
  | tagFuncName (ptr : Str) (hl : SyntaxHighlight)
  | tagField (ptr : Str)
  | tagLabel (ptr : Str)
  | print (str : Str) (hl : SyntaxHighlight)
  | tagType (ptr : Str) (hl : SyntaxHighlight)

def EmitCall.emit : EmitCall → Str
  | .openParen o => IdaEmit.openParen o
  | .closeParen c => IdaEmit.closeParen c
  | .tagOp ptr => IdaEmit.tagOp ptr
  | .tagVariable ptr hl op => IdaEmit.tagVariable ptr hl op
  | .tagFuncName ptr hl => IdaEmit.tagFuncName ptr hl
  | .tagField ptr => IdaEmit.tagField ptr
  | .tagLabel ptr => IdaEmit.tagLabel ptr
  | .print str hl => IdaEmit.print str hl
  | .tagType ptr hl => IdaEmit.tagType ptr hl

theorem color_mem_guardColors (hl : SyntaxHighlight) : hl.color ∈ guardColors := by
  cases hl <;> decide

/-- The text of a call, without the mark of an import. -/
def EmitCall.text : EmitCall → Str
  | .openParen o => [o]
  | .closeParen c => [c]
  | .tagOp ptr => ptr
  | .tagVariable ptr _ _ => IdaEmit.importedName ptr
  | .tagFuncName ptr _ => IdaEmit.importedName ptr
  | .tagField ptr => ptr
  | .tagLabel ptr => ptr
  | .print str _ => str
  | .tagType ptr _ => ptr

theorem emit_eq_colorGuard (call : EmitCall) : ∃ c ∈ guardColors, call.emit = IdaEmit.colorGuard c call.text := by
  have himport : colorImpname ∈ guardColors := by decide
  have hstring : colorDstr ∈ guardColors := by decide
  have hkeyword : colorKeyword ∈ guardColors := by decide
  cases call with
  | openParen o => exact ⟨_, hkeyword, rfl⟩
  | closeParen c => exact ⟨_, hkeyword, rfl⟩
  | tagOp ptr => exact ⟨_, hkeyword, rfl⟩
  | tagVariable ptr hl op =>
    show ∃ c ∈ guardColors, IdaEmit.tagVariable ptr hl op = IdaEmit.colorGuard c (IdaEmit.importedName ptr)
    unfold IdaEmit.tagVariable
    split
    · exact ⟨_, himport, rfl⟩
    · rename_i hlocal
      rw [IdaEmit.importedName, if_neg hlocal]
      split
      · exact ⟨_, hstring, rfl⟩
      · exact ⟨_, color_mem_guardColors _, rfl⟩
  | tagFuncName ptr hl =>
    show ∃ c ∈ guardColors, IdaEmit.tagFuncName ptr hl = IdaEmit.colorGuard c (IdaEmit.importedName ptr)
    unfold IdaEmit.tagFuncName
    split
    · exact ⟨_, himport, rfl⟩
    · rename_i hlocal
      rw [IdaEmit.importedName, if_neg hlocal]
      exact ⟨_, color_mem_guardColors _, rfl⟩
  | tagField ptr => exact ⟨_, hkeyword, rfl⟩
  | tagLabel ptr => exact ⟨_, hkeyword, rfl⟩
  | print str hl => exact ⟨_, color_mem_guardColors _, rfl⟩
  | tagType ptr hl => exact ⟨_, color_mem_guardColors _, rfl⟩

theorem colorGuard_eq (c : Byte) (text : Str) (hc : c ∈ guardColors) :
    IdaEmit.colorGuard c text = [colorOn, c] ++ text ++ [colorOff, c] := by
  have hnul : ∀ c ∈ guardColors, NoNul [colorOn, c] ∧ NoNul [colorOff, c] := by decide
  obtain ⟨hstart, hend⟩ := hnul c hc
  rw [IdaEmit.colorGuard, IdaEmit.startColorTag, IdaEmit.endColorTag, c_str_of_noNul _ hstart, c_str_of_noNul _ hend]

end Yagi
