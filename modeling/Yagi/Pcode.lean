import Yagi.Funcdata
import Yagi.Lib.Table

/-!
# Editing pcodes (`Funcdata`)

Yagi inserts and rewrites pcodes through Ghidra's `Funcdata`. Its operations are
parameters here, with what Yagi relies on as laws.
-/

open Text Table

namespace Yagi

/-- The opcodes that Yagi names. -/
inductive OpCode where
  | CPUI_COPY
  | CPUI_CALLIND
  | other (code : UInt32)
deriving DecidableEq, Repr

structure Pcode (Vn : Type) where
  code : OpCode
  addr : Address
  inputs : List Vn
  output : Option Vn
deriving DecidableEq

/-- `beginOp` gives the first pcode from an address on, if there is one. -/
structure PcodeGraph (φ Op Vn Block : Type) where
  getAddress : φ → Address
  ops : φ → List Op
  pcode : φ → Op → Pcode Vn
  getAddr : Vn → Address
  beginOp : φ → Address → Option Op
  getParent : φ → Op → Block
  newVarnode : Int32 → Address → φ → Vn × φ
  newConstant : Int32 → UInt64 → φ → Vn × φ
  newOp : Nat → Address → φ → Op × φ
  opSetOpcode : Op → OpCode → φ → φ
  opSetInput : Op → Vn → Nat → φ → φ
  opSetOutput : Op → Vn → φ → φ
  opInsertBegin : Op → Block → φ → φ
  warningHeader : Str → φ → φ

namespace PcodeGraph

variable {φ Op Vn Block : Type} [DecidableEq Op] (C : PcodeGraph φ Op Vn Block)

/-- The pcodes from `beginOpAll`, as the actions see them. -/
def allOps (data : φ) : List PcodeOp :=
  (C.ops data).map fun op => ⟨(C.pcode data op).addr.offset, (C.pcode data op).inputs.map C.getAddr⟩

/-- A new varnode lies where it was asked for, and becomes an input of one pcode when it is set. -/
structure InputLaws : Prop where
  ops_newVarnode : ∀ size addr data, C.ops (C.newVarnode size addr data).2 = C.ops data
  pcode_newVarnode : ∀ size addr data, C.pcode (C.newVarnode size addr data).2 = C.pcode data
  getAddr_newVarnode : ∀ size addr data, C.getAddr (C.newVarnode size addr data).1 = addr
  ops_setInput : ∀ op vn slot data, C.ops (C.opSetInput op vn slot data) = C.ops data
  pcode_setInput : ∀ op slot size addr data x,
    C.pcode (C.opSetInput op (C.newVarnode size addr data).1 slot (C.newVarnode size addr data).2) x =
      if x = op then { C.pcode data op with
        inputs := (C.pcode data op).inputs.set slot (C.newVarnode size addr data).1 }
      else C.pcode data x
  ops_warningHeader : ∀ text data, C.ops (C.warningHeader text data) = C.ops data
  pcode_warningHeader : ∀ text data, C.pcode (C.warningHeader text data) = C.pcode data

/-- Editing the pcodes of a function leaves it where it is. -/
structure AddressLaws : Prop where
  newVarnode : ∀ size addr data, C.getAddress (C.newVarnode size addr data).2 = C.getAddress data
  newConstant : ∀ size value data, C.getAddress (C.newConstant size value data).2 = C.getAddress data
  newOp : ∀ inputs addr data, C.getAddress (C.newOp inputs addr data).2 = C.getAddress data
  opSetOpcode : ∀ op code data, C.getAddress (C.opSetOpcode op code data) = C.getAddress data
  opSetInput : ∀ op vn slot data, C.getAddress (C.opSetInput op vn slot data) = C.getAddress data
  opSetOutput : ∀ op vn data, C.getAddress (C.opSetOutput op vn data) = C.getAddress data
  opInsertBegin : ∀ op block data, C.getAddress (C.opInsertBegin op block data) = C.getAddress data
  warningHeader : ∀ text data, C.getAddress (C.warningHeader text data) = C.getAddress data

end PcodeGraph

/-! ## Pcodes in a table -/

/-- A varnode is its storage and its size, and all pcodes are in one block. -/
structure PcodeTable where
  entry : Address
  rows : List (Pcode (Address × Int32))
  warnings : List Str
deriving DecidableEq

theorem const_noNul : NoNul (ascii "const") := by decide

namespace PcodeTable

def constSpace : AddrSpace := ⟨ascii "const", 8, const_noNul⟩

def blank : Pcode (Address × Int32) := ⟨.other 0, ⟨constSpace, 0⟩, [], none⟩

def modify (op : Nat) (f : Pcode (Address × Int32) → Pcode (Address × Int32)) (data : PcodeTable) : PcodeTable :=
  { data with rows := data.rows.modify op f }

def graph : PcodeGraph PcodeTable Nat (Address × Int32) Unit where
  getAddress data := data.entry
  ops data := List.range data.rows.length
  pcode data op := data.rows.getD op blank
  getAddr vn := vn.1
  beginOp data addr := data.rows.findIdx? fun row => addr.offset ≤ row.addr.offset
  getParent _ _ := ()
  newVarnode size addr data := ((addr, size), data)
  newConstant size value data := ((⟨constSpace, value⟩, size), data)
  newOp inputs addr data := (data.rows.length,
    { data with rows := data.rows ++ [{ blank with addr := addr, inputs := List.replicate inputs (⟨constSpace, 0⟩, 0) }] })
  opSetOpcode op code := modify op fun row => { row with code := code }
  opSetInput op vn slot := modify op fun row => { row with inputs := row.inputs.set slot vn }
  opSetOutput op vn := modify op fun row => { row with output := some vn }
  opInsertBegin _ _ data := data
  warningHeader text data := { data with warnings := data.warnings ++ [text] }

theorem pcode_modify (op x : Nat) (f : Pcode (Address × Int32) → Pcode (Address × Int32)) (data : PcodeTable)
    (hblank : f blank = blank) :
    graph.pcode (modify op f data) x = if x = op then f (graph.pcode data op) else graph.pcode data x := by
  show (data.rows.modify op f).getD x blank = _
  rw [List.getD_eq_getElem?_getD, getElem?_modify]
  split
  · rename_i h
    subst h
    show _ = f (data.rows.getD x blank)
    rw [List.getD_eq_getElem?_getD]
    cases data.rows[x]? with
    | none => exact hblank.symm
    | some row => rfl
  · exact (List.getD_eq_getElem?_getD).symm

theorem graph_inputLaws : graph.InputLaws where
  ops_newVarnode _ _ _ := rfl
  pcode_newVarnode _ _ _ := rfl
  getAddr_newVarnode _ _ _ := rfl
  ops_setInput op vn slot data := by simp [graph, modify]
  pcode_setInput op slot size addr data x := pcode_modify op x _ data rfl
  ops_warningHeader _ _ := rfl
  pcode_warningHeader _ _ := rfl

theorem graph_addressLaws : graph.AddressLaws := by
  constructor <;> intros <;> rfl

end PcodeTable

end Yagi
