import Yagi.Ghidra
import Yagi.IdaSymbol

/-!
# What a record holds

A record is found under a node name that flattens four parts into one text. No
two records share a node, so a run of calls leaves in each record what its last
call wrote.
-/

open Text Hex Store

namespace Yagi

/-! ## Node names -/

structure RecordKey where
  func : UInt64
  kind : Kind
  space : Str
  pc : UInt64
deriving DecidableEq, Repr

def RecordKey.node (k : RecordKey) : Str := c_str (nodeName k.kind k.func k.space k.pc)

def rawRecord (nodes : NetNodes) (k : RecordKey) : Option Str :=
  nodes.valstr (nodeName k.kind k.func k.space k.pc)

theorem rawRecord_eq (nodes : NetNodes) (k : RecordKey) : rawRecord nodes k = nodes k.node := rfl

theorem nodeName_noNul (kind : Kind) (func : UInt64) (space : Str) (pc : UInt64) (h : NoNul space) :
    NoNul (nodeName kind func space pc) := by
  have hd : NoNul (ascii "$ ") := by decide
  have hp : NoNul (ascii ".") := by decide
  have ht : NoNul kind.tag := by cases kind <;> decide
  simp [nodeName, hd, hp, ht, h, to_hex_noNul]

theorem dot_notMem_to_hex (a : UInt64) : ch '.' ∉ to_hex a := notMem_to_hex a _ (by decide) (by decide)

theorem tags_ne (s s' : Str) : Kind.name.tag ++ s ≠ Kind.type.tag ++ s' := by
  have hname : Kind.name.tag = ascii ".yagi" ++ ch 'r' :: ascii "eg." := by decide
  have htype : Kind.type.tag = ascii ".yagi" ++ ch 't' :: ascii "ype." := by decide
  intro h
  rw [hname, htype, List.append_assoc, List.append_assoc] at h
  have hhead := List.append_cancel_left h
  simp only [List.cons_append, List.cons.injEq] at hhead
  exact absurd hhead.1 (by decide)

theorem tag_append_inj (kind kind' : Kind) (s s' : Str) (h : kind.tag ++ s = kind'.tag ++ s') :
    kind = kind' ∧ s = s' := by
  cases kind <;> cases kind'
  · exact ⟨rfl, List.append_cancel_left h⟩
  · exact absurd h (tags_ne s s')
  · exact absurd h.symm (tags_ne s' s)
  · exact ⟨rfl, List.append_cancel_left h⟩

/-- The parts of a node name are recovered from it, even when the space name holds dots. -/
theorem nodeName_injective (k k' : RecordKey)
    (h : nodeName k.kind k.func k.space k.pc = nodeName k'.kind k'.func k'.space k'.pc) : k = k' := by
  have hdot : ascii "." = [ch '.'] := by decide
  have htag : ∀ kind : Kind, ∃ t, kind.tag = ch '.' :: t := by
    intro kind
    cases kind
    · exact ⟨ascii "yagireg.", by decide⟩
    · exact ⟨ascii "yagitype.", by decide⟩
  simp only [nodeName, List.append_assoc, hdot, List.singleton_append] at h
  have h := List.append_cancel_left h
  -- The function ends at the first dot, since its number holds none.
  obtain ⟨hfunc, hrest⟩ : to_hex k.func = to_hex k'.func ∧
      k.kind.tag ++ (k.space ++ ch '.' :: to_hex k.pc) =
        k'.kind.tag ++ (k'.space ++ ch '.' :: to_hex k'.pc) := by
    obtain ⟨t, ht⟩ := htag k.kind
    obtain ⟨t', ht'⟩ := htag k'.kind
    rw [ht, ht'] at h ⊢
    simp only [List.cons_append] at h ⊢
    obtain ⟨h1, h2⟩ := append_first_inj _ _ _ _ _ (dot_notMem_to_hex _) (dot_notMem_to_hex _) h
    exact ⟨h1, by rw [h2]⟩
  obtain ⟨hkind, hrest⟩ := tag_append_inj _ _ _ _ hrest
  -- The pc starts after the last dot, whatever the space name holds.
  obtain ⟨hspace, hpc⟩ := append_last_inj _ _ _ _ _ (dot_notMem_to_hex _) (dot_notMem_to_hex _) hrest
  cases k; cases k'
  simp only [RecordKey.mk.injEq]
  exact ⟨to_hex_injective _ _ hfunc, hkind, hspace, to_hex_injective _ _ hpc⟩

theorem node_injective (k k' : RecordKey) (hk : NoNul k.space) (hk' : NoNul k'.space)
    (h : k.node = k'.node) : k = k' := by
  rw [RecordKey.node, RecordKey.node, c_str_of_noNul _ (nodeName_noNul _ _ _ _ hk),
    c_str_of_noNul _ (nodeName_noNul _ _ _ _ hk')] at h
  exact nodeName_injective k k' h

/-! ## Calls as edits of records -/

open IdaFunctionSymbolInfo

variable {Ty : Type}

inductive Call (Ty : Type) where
  | saveName (func : UInt64) (loc : MemoryLocation) (value : Str)
  | saveType (func : UInt64) (loc : MemoryLocation) (newType : Ty)
  | clearType (func : UInt64) (loc : MemoryLocation)
deriving DecidableEq

namespace Call

def location : Call Ty → MemoryLocation
  | .saveName _ loc _ => loc
  | .saveType _ loc _ => loc
  | .clearType _ loc => loc

def apply (db : TypeDatabase Ty) (nodes : NetNodes) : Call Ty → NetNodes
  | .saveName func loc value => IdaFunctionSymbolInfo.saveName func loc value nodes
  | .saveType func loc newType => IdaFunctionSymbolInfo.saveType db func loc newType nodes
  | .clearType func loc => (IdaFunctionSymbolInfo.clearType func loc nodes).2

def run (db : TypeDatabase Ty) (nodes : NetNodes) (calls : List (Call Ty)) : NetNodes :=
  calls.foldl (apply db) nodes

def target : Call Ty → UInt64 × Kind
  | .saveName func _ _ => (func, .name)
  | .saveType func _ _ => (func, .type)
  | .clearType func _ => (func, .type)

/-- The text that a call leaves in its records, or `none` where it removes them. -/
def content (db : TypeDatabase Ty) : Call Ty → Option Str
  | .saveName _ loc value => some (c_str (encodeRecord value loc.offset))
  | .saveType _ loc newType => some (c_str (encodeRecord (db.getName newType) loc.offset))
  | .clearType _ _ => none

/-- What a call leaves in record `k`: nothing new when it is about other records. -/
def leaves (db : TypeDatabase Ty) (k : RecordKey) (c : Call Ty) : Option (Option Str) :=
  if (k.func, k.kind) = c.target ∧ k.space = c.location.spaceName ∧ k.pc ∈ c.location.pc
  then some (c.content db) else none

def edits (db : TypeDatabase Ty) (c : Call Ty) : List (Edit RecordKey Str) :=
  c.location.pc.map fun pc => ⟨⟨c.target.1, c.target.2, c.location.spaceName, pc⟩, c.content db⟩

end Call

theorem clearType_snd (func : UInt64) (loc : MemoryLocation) (nodes : NetNodes) :
    (clearType func loc nodes).2 =
      loc.pc.foldl (fun nodes pc => (clearTypeAt func loc.spaceName pc nodes).2) nodes := by
  have hloop : ∀ (pcs : List UInt64) (acc : Bool × NetNodes),
      (pcs.foldl (fun acc pc =>
        (acc.1 || (clearTypeAt func loc.spaceName pc acc.2).1, (clearTypeAt func loc.spaceName pc acc.2).2)) acc).2 =
        pcs.foldl (fun nodes pc => (clearTypeAt func loc.spaceName pc nodes).2) acc.2 := by
    intro pcs
    induction pcs with
    | nil => intro acc; rfl
    | cons pc pcs ih => intro acc; exact ih _
  exact hloop loc.pc (false, nodes)

theorem apply_eq_run (db : TypeDatabase Ty) (c : Call Ty) (nodes : NetNodes) :
    c.apply db nodes = Store.run nodes ((c.edits db).map (Edit.mapKey RecordKey.node)) := by
  rw [Call.edits, List.map_map, Store.run, List.foldl_map]
  cases c with
  | saveName func loc value => rfl
  | saveType func loc newType => rfl
  | clearType func loc => exact clearType_snd func loc nodes

theorem lastSome_edits (db : TypeDatabase Ty) (c : Call Ty) (k : RecordKey) :
    lastSome (Edit.at k) (c.edits db) = c.leaves db k := by
  have hat : ∀ pc, Edit.at k (⟨⟨c.target.1, c.target.2, c.location.spaceName, pc⟩, c.content db⟩ :
      Edit RecordKey Str) =
      if (k.func, k.kind) = c.target ∧ k.space = c.location.spaceName ∧ k.pc = pc
      then some (c.content db) else none := by
    intro pc
    rw [Edit.at]
    apply if_congr _ rfl rfl
    obtain ⟨func, kind, space, kpc⟩ := k
    simp only [RecordKey.mk.injEq, Prod.ext_iff]
    constructor
    · rintro ⟨rfl, rfl, rfl, rfl⟩; exact ⟨⟨rfl, rfl⟩, rfl, rfl⟩
    · rintro ⟨⟨rfl, rfl⟩, rfl, rfl⟩; exact ⟨rfl, rfl, rfl, rfl⟩
  rw [Call.edits, lastSome_map]
  simp only [hat]
  rw [lastSome_const, Call.leaves]
  apply if_congr _ rfl rfl
  constructor
  · rintro ⟨pc, hpc, ht, hs, rfl⟩; exact ⟨ht, hs, hpc⟩
  · rintro ⟨ht, hs, hpc⟩; exact ⟨k.pc, hpc, ht, hs, rfl⟩

theorem rawRecord_apply_self (db : TypeDatabase Ty) (c : Call Ty) (nodes : NetNodes) (pc : UInt64)
    (hpc : pc ∈ c.location.pc) :
    rawRecord (c.apply db nodes) ⟨c.target.1, c.target.2, c.location.spaceName, pc⟩ = c.content db := by
  let key (pc : UInt64) : RecordKey := ⟨c.target.1, c.target.2, c.location.spaceName, pc⟩
  have hlast := lastSome_const (c.location.pc.map key) (c.content db) fun k => k.node = (key pc).node
  rw [if_pos ⟨key pc, List.mem_map_of_mem hpc, rfl⟩, lastSome_map] at hlast
  rw [apply_eq_run, rawRecord_eq, run_apply, Call.edits, List.map_map, lastSome_map]
  exact congrArg (Option.getD · _) hlast

theorem rawRecord_apply (db : TypeDatabase Ty) (c : Call Ty) (nodes : NetNodes) (k : RecordKey)
    (hc : NoNul c.location.spaceName) (hk : NoNul k.space) :
    rawRecord (c.apply db nodes) k = (c.leaves db k).getD (rawRecord nodes k) := by
  rw [apply_eq_run, rawRecord_eq, run_mapKey, run_apply, lastSome_edits]
  · rfl
  · intro e he hnode
    simp only [Call.edits, List.mem_map] at he
    obtain ⟨pc, -, rfl⟩ := he
    exact node_injective _ k hc hk hnode

theorem rawRecord_run (db : TypeDatabase Ty) (calls : List (Call Ty)) (nodes : NetNodes) (k : RecordKey)
    (hcalls : ∀ c ∈ calls, NoNul c.location.spaceName) (hk : NoNul k.space) :
    rawRecord (Call.run db nodes calls) k = (lastSome (Call.leaves db k) calls).getD (rawRecord nodes k) := by
  induction calls generalizing nodes with
  | nil => rfl
  | cons c calls ih =>
    have hrest := ih (c.apply db nodes) fun d hd => hcalls d (List.mem_cons_of_mem _ hd)
    rw [rawRecord_apply db c nodes k (hcalls c List.mem_cons_self) hk] at hrest
    rw [lastSome_cons]
    show rawRecord (Call.run db (c.apply db nodes) calls) k = _
    rw [hrest]
    cases lastSome (Call.leaves db k) calls <;> rfl

/-! ## A run of calls -/

/-- **Last write.** After any run of calls on empty netnodes a record holds what the last call
about it left, and a call changes no record of another function, kind, space or pc. -/
theorem rawRecord_last_write (db : TypeDatabase Ty) (calls : List (Call Ty)) (k : RecordKey)
    (hcalls : ∀ c ∈ calls, NoNul c.location.spaceName) (hk : NoNul k.space) :
    rawRecord (Call.run db (fun _ => none) calls) k = (lastSome (Call.leaves db k) calls).getD none ∧
    ∀ c ∈ calls, ¬ ((k.func, k.kind) = c.target ∧ k.space = c.location.spaceName ∧ k.pc ∈ c.location.pc) →
      ∀ nodes, rawRecord (c.apply db nodes) k = rawRecord nodes k := by
  refine ⟨rawRecord_run db calls _ k hcalls hk, ?_⟩
  intro c hc hother nodes
  rw [rawRecord_apply db c nodes k (hcalls c hc) hk, Call.leaves, if_neg hother]
  rfl

def intDatabase : TypeDatabase Unit where
  getName _ := ascii "int"
  parse_decl decl := if decl = ascii "int;" then some () else none

theorem rawRecord_last_write_two_saves :
    let calls : List (Call Unit) :=
      [.saveName 0x401000 ⟨ascii "ram.x", 8, 8, [1, 2, 1]⟩ (ascii "a"),
        .saveType 0x401000 ⟨ascii "ram.x", 8, 8, [1]⟩ (), .clearType 0x401000 ⟨ascii "ram.x", 8, 8, [1, 2]⟩]
    rawRecord (Call.run intDatabase (fun _ => none) calls) ⟨0x401000, .name, ascii "ram.x", 2⟩ =
      some (ascii "a|0x8") :=
  (rawRecord_last_write intDatabase _ ⟨0x401000, .name, ascii "ram.x", 2⟩ (by decide) (by decide)).1

/-- A space name that holds a NUL cuts the node name before the pc: the second save overwrites
the record of the first, although their pcs differ. -/
theorem rawRecord_nul_space :
    let space : Str := ascii "ram" ++ [0]
    let calls : List (Call Unit) :=
      [.saveName 0x401000 ⟨space, 0, 8, [1]⟩ (ascii "a"), .saveName 0x401000 ⟨space, 0, 8, [2]⟩ (ascii "b")]
    rawRecord (Call.run intDatabase (fun _ => none) calls) ⟨0x401000, .name, space, 1⟩ = some (ascii "b|0x0") ∧
    (lastSome (Call.leaves intDatabase ⟨0x401000, .name, space, 1⟩) calls).getD none = some (ascii "a|0x0") := by
  decide

end Yagi
