import Yagi.Annotations
import Yagi.ControlFlowGuard.Spec
import Yagi.Lib.Firing
import Yagi.Scope.Ranges
import Yagi.Scope.Spaces

/-!
# Each call is patched once

A call that is patched goes to a register. The proxy has no symbol in the space of
the registers, and the lookups of the rule add none.
-/

open Text Runs Firing

namespace Yagi

variable {φ Op Vn Block σ Sym D Ty : Type}

def NoneIn (proxy : ScopeInternal σ Sym D) (space : AddrSpace) (st : σ) : Prop :=
  ∀ sym ∈ proxy.symbols st, ∀ entry ∈ proxy.mapEntries st sym, entry.addr.space ≠ space

variable (G : GuardContext φ Op Vn Block σ Sym D Ty)

def GuardContext.rax : Address := G.getRegister (ascii "RAX")

/-- A container lies in the space that is asked for, and RAX is no address of code. -/
structure GuardContext.Laws [DecidableEq Op] [DecidableEq Sym] : Prop where
  inputs : G.graph.InputLaws
  scope : G.proxy.Laws
  found : ∀ st addr size u sym entry, G.proxy.findContainer st addr size u = some (sym, entry) →
    sym ∈ G.proxy.symbols st ∧ entry ∈ G.proxy.mapEntries st sym ∧ entry.addr.space = addr.space
  rax_space : G.rax.space ≠ G.archi.getDefaultCodeSpace

/-! ## Lookups -/

theorem noneIn_findContainer [DecidableEq Sym] (proxy : ScopeInternal σ Sym D) (archi : YagiArchitecture Ty Sym D)
    (hS : proxy.Laws) (space : AddrSpace) (hspace : space ≠ archi.getDefaultCodeSpace) (addr : Address) (size : Int32)
    (usepoint : Option Address) (st : σ) (hst : NoneIn proxy space st) :
    NoneIn proxy space (YagiScope.findContainer proxy archi addr size usepoint st).2 := by
  let q : ScopeQuery := .findContainer addr size usepoint
  show NoneIn proxy space (q.apply proxy archi st)
  cases hsource : q.source proxy archi st with
  | none =>
    rw [ScopeQuery.apply_of_source_none proxy archi st q hsource]
    exact hst
  | some data =>
    have hc := ScopeQuery.create_creates proxy archi hS st q data
    have hlocal := (ScopeQuery.local_iff proxy archi st q).mp trivial
    rw [hsource] at hlocal
    have haddr : addr.space = archi.getDefaultCodeSpace := hlocal.resolve_right (by simp)
    rw [ScopeQuery.apply_of_source_some proxy archi st q data hsource]
    intro sym hsym entry hentry
    rcases (hc.symbols sym).mp hsym with hsym | rfl
    · rw [hc.entries_old sym hsym] at hentry
      exact hst sym hsym entry hentry
    · rw [hc.entries_new] at hentry
      rw [ScopeQuery.entries_addr q data entry hentry]
      exact fun h => hspace (h.symm.trans haddr)

theorem findContainer_eq_none [DecidableEq Op] [DecidableEq Sym] (hG : G.Laws) (addr : Address) (size : Int32)
    (usepoint : Option Address) (st : σ) (hspace : addr.space ≠ G.archi.getDefaultCodeSpace)
    (hst : NoneIn G.proxy addr.space st) :
    YagiScope.findContainer G.proxy G.archi addr size usepoint st = (none, st) := by
  have hproxy : G.proxy.findContainer st addr size usepoint = none := by
    cases hfound : G.proxy.findContainer st addr size usepoint with
    | none => rfl
    | some result =>
      obtain ⟨hsym, hentry, haddr⟩ := hG.found st addr size usepoint result.1 result.2 hfound
      exact absurd haddr (hst result.1 hsym result.2 hentry)
  have hcode : YagiScope.codeSymbol G.archi addr = none := if_neg hspace
  unfold YagiScope.findContainer
  rw [hproxy, hcode]

namespace RuleWindowsControlFlowGuard

variable (rule : RuleWindowsControlFlowGuard)

/-! ## An application -/

/-- The scope's symbol for the target bears the name of the wrapper. -/
def bears (s : GuardState φ σ) (op : Op) : Bool :=
  match findTarget G s op with
  | (none, _) => false
  | (some (sym, _), scope) => G.getName scope sym = rule.m_cfgWrapperName

def raxVn (data : φ) : Vn × φ :=
  G.graph.newVarnode G.archi.getDefaultCodeSpace.addrSize.toInt32 (G.getRegister (ascii "RAX")) data

def patch (data : φ) (op : Op) : φ :=
  G.graph.warningHeader (ascii "Yagi : Control Flow Guard patching")
    (G.graph.opSetInput op (raxVn G data).1 0 (raxVn G data).2)

theorem applyOp_eq (s : GuardState φ σ) (op : Op) :
    applyOp G rule s op = ⟨if bears G rule s op then patch G s.data op else s.data, (findTarget G s op).2⟩ := by
  unfold applyOp bears
  split
  · rename_i scope hfind
    simp [hfind]
  · rename_i sym entry scope hfind
    by_cases hname : G.getName scope sym = rule.m_cfgWrapperName
    · simp only [hfind, hname, decide_true, if_true]
      rfl
    · simp [hfind, hname]

theorem bears_iff (s : GuardState φ σ) (op : Op) :
    bears G rule s op = true ↔ ∃ target sym entry scope, (G.graph.pcode s.data op).inputs.head? = some target ∧
      YagiScope.findContainer G.proxy G.archi (G.graph.getAddr target) G.archi.getDefaultCodeSpace.addrSize.toInt32
        (some (G.graph.pcode s.data op).addr) s.scope = (some (sym, entry), scope) ∧
      G.getName scope sym = rule.m_cfgWrapperName := by
  unfold bears findTarget
  cases (G.graph.pcode s.data op).inputs.head? with
  | none => simp
  | some target =>
    simp only [Option.some.injEq]
    split
    · rename_i scope hfind
      simp [hfind]
    · rename_i sym entry scope hfind
      simp [hfind]

def Patched (s : GuardState φ σ) (op : Op) : Prop :=
  ∃ vn, (G.graph.pcode s.data op).inputs.head? = some vn ∧ G.graph.getAddr vn = G.rax

section

variable [DecidableEq Op] [DecidableEq Sym] {G} (hG : G.Laws)

include hG

theorem ops_patch (data : φ) (op : Op) : G.graph.ops (patch G data op) = G.graph.ops data := by
  unfold patch raxVn
  rw [hG.inputs.ops_warningHeader, hG.inputs.ops_setInput, hG.inputs.ops_newVarnode]

theorem pcode_patch (data : φ) (op x : Op) :
    G.graph.pcode (patch G data op) x =
      if x = op then { G.graph.pcode data op with inputs := (G.graph.pcode data op).inputs.set 0 (raxVn G data).1 }
      else G.graph.pcode data x := by
  unfold patch raxVn
  rw [hG.inputs.pcode_warningHeader]
  exact hG.inputs.pcode_setInput op 0 _ _ data x

/-! ## Patched calls -/

theorem getAddr_raxVn (data : φ) : G.graph.getAddr (raxVn G data).1 = G.rax :=
  hG.inputs.getAddr_newVarnode _ _ data

theorem bears_of_patched (s : GuardState φ σ) (op : Op) (hs : NoneIn G.proxy G.rax.space s.scope)
    (hop : Patched G s op) : bears G rule s op = false := by
  obtain ⟨vn, hvn, haddr⟩ := hop
  rw [← Bool.not_eq_true, bears_iff]
  rintro ⟨target, sym, entry, scope, htarget, hfind, -⟩
  obtain rfl : vn = target := Option.some.inj (hvn.symm.trans htarget)
  rw [haddr, findContainer_eq_none G hG _ _ _ _ hG.rax_space hs] at hfind
  cases hfind

theorem applyOp_patched (s : GuardState φ σ) (op : Op) (hbears : bears G rule s op = true) :
    Patched G (applyOp G rule s op) op := by
  obtain ⟨target, -, -, -, htarget, -, -⟩ := (bears_iff G rule s op).mp hbears
  obtain ⟨tail, hinputs⟩ := List.head?_eq_some_iff.mp htarget
  rw [applyOp_eq, hbears, if_pos rfl]
  refine ⟨(raxVn G s.data).1, ?_, getAddr_raxVn hG s.data⟩
  rw [pcode_patch hG, if_pos rfl, hinputs]
  rfl

theorem applyOp_other (s : GuardState φ σ) (op x : Op) (h : bears G rule s op = false ∨ x ≠ op) :
    G.graph.pcode (applyOp G rule s op).data x = G.graph.pcode s.data x := by
  rw [applyOp_eq]
  rcases h with hbears | hx
  · rw [hbears]
    rfl
  · split
    · rw [pcode_patch hG, if_neg hx]
    · rfl

theorem noneIn_findTarget (s : GuardState φ σ) (op : Op) (hs : NoneIn G.proxy G.rax.space s.scope) :
    NoneIn G.proxy G.rax.space (findTarget G s op).2 := by
  unfold findTarget
  split
  · exact hs
  · exact noneIn_findContainer G.proxy G.archi hG.scope G.rax.space hG.rax_space _ _ _ s.scope hs

theorem patches_once :
    Once (applyOp G rule) (bears G rule) (fun s => NoneIn G.proxy G.rax.space s.scope) (Patched G) where
  keeps s op hs := by
    rw [applyOp_eq]
    exact noneIn_findTarget hG s op hs
  done s op _ hbears := applyOp_patched rule hG s op hbears
  stays s op x hs hx := by
    by_cases hop : x = op
    · subst hop
      have hbears := bears_of_patched rule hG s x hs hx
      unfold Patched
      rw [applyOp_other rule hG s x x (Or.inl hbears)]
      exact hx
    · unfold Patched
      rw [applyOp_other rule hG s op x (Or.inr hop)]
      exact hx
  disabled s op hs hop := bears_of_patched rule hG s op hs hop

end

/-! ## A run -/

/-- The calls of the list go to RAX now, and nothing else is changed. -/
structure PatchesOnly (data data' : φ) (patched : List Op) : Prop where
  ops : G.graph.ops data' = G.graph.ops data
  inputs : ∀ op ∈ patched, ∃ vn, G.graph.getAddr vn = G.rax ∧
    G.graph.pcode data' op =
      { G.graph.pcode data op with inputs := (G.graph.pcode data op).inputs.set 0 vn }
  others : ∀ op ∉ patched, G.graph.pcode data' op = G.graph.pcode data op

variable {G} in
theorem PatchesOnly.append {data data' data'' : φ} {patched patched' : List Op} (h : PatchesOnly G data data' patched)
    (h' : PatchesOnly G data' data'' patched') (hdisjoint : ∀ op ∈ patched, op ∉ patched') :
    PatchesOnly G data data'' (patched ++ patched') := by
  refine ⟨h'.ops.trans h.ops, fun op hop => ?_, fun op hop => ?_⟩
  · rcases List.mem_append.mp hop with hop | hop
    · rw [h'.others op (hdisjoint op hop)]
      exact h.inputs op hop
    · rw [← h.others op fun hmem => hdisjoint op hmem hop]
      exact h'.inputs op hop
  · rw [List.mem_append, not_or] at hop
    rw [h'.others op hop.2, h.others op hop.1]

/-- An application changes the pcodes only where the scope's symbol for the target bears the name of the wrapper. -/
def ChangesWrapped (s : GuardState φ σ) (op : Op) : Prop :=
  G.graph.pcode (applyOp G rule s op).data ≠ G.graph.pcode s.data →
    ∃ target sym entry scope, (G.graph.pcode s.data op).inputs.head? = some target ∧
      YagiScope.findContainer G.proxy G.archi (G.graph.getAddr target) G.archi.getDefaultCodeSpace.addrSize.toInt32
        (some (G.graph.pcode s.data op).addr) s.scope = (some (sym, entry), scope) ∧
      G.getName scope sym = rule.m_cfgWrapperName

section

variable [DecidableEq Op] [DecidableEq Sym] {G} (hG : G.Laws)

include hG

theorem applyOp_changesWrapped (s : GuardState φ σ) (op : Op) : ChangesWrapped G rule s op := by
  intro hchanged
  rw [← bears_iff]
  by_contra hbears
  rw [Bool.not_eq_true] at hbears
  exact hchanged (funext fun x => applyOp_other rule hG s op x (Or.inl hbears))

theorem ops_applyOp (s : GuardState φ σ) (op : Op) : G.graph.ops (applyOp G rule s op).data = G.graph.ops s.data := by
  rw [applyOp_eq]
  split
  · exact ops_patch hG s.data op
  · rfl

theorem applyOp_patchesOnly (s : GuardState φ σ) (op : Op) :
    PatchesOnly G s.data (applyOp G rule s op).data (if bears G rule s op then [op] else []) := by
  cases hbears : bears G rule s op with
  | false =>
    exact ⟨ops_applyOp rule hG s op, fun x hx => absurd hx List.not_mem_nil,
      fun x _ => applyOp_other rule hG s op x (Or.inl hbears)⟩
  | true =>
    refine ⟨ops_applyOp rule hG s op, fun x hx => ?_, fun x hx => ?_⟩
    · obtain rfl := List.mem_singleton.mp hx
      refine ⟨(raxVn G s.data).1, getAddr_raxVn hG s.data, ?_⟩
      rw [applyOp_eq, hbears, if_pos rfl, pcode_patch hG, if_pos rfl]
    · exact applyOp_other rule hG s op x (Or.inr fun h => hx (List.mem_singleton.mpr h))

theorem patchesOnly_run (s : GuardState φ σ) (calls : List Op) (hs : NoneIn G.proxy G.rax.space s.scope) :
    PatchesOnly G s.data (run (applyOp G rule) s calls).data (fired (applyOp G rule) (bears G rule) s calls) := by
  have honce := patches_once rule hG
  induction calls generalizing s with
  | nil => exact ⟨rfl, fun op hop => absurd hop List.not_mem_nil, fun op _ => rfl⟩
  | cons op calls ih =>
    have hnext := honce.keeps s op hs
    rw [fired_cons]
    refine PatchesOnly.append (applyOp_patchesOnly rule hG s op) (ih (applyOp G rule s op) hnext) fun x hx => ?_
    split at hx
    · rename_i hbears
      obtain rfl := List.mem_singleton.mp hx
      exact honce.notMem_fired _ x calls hnext (applyOp_patched rule hG s x hbears)
    · exact absurd hx List.not_mem_nil

/-- **Control Flow Guard.** However often the rule is applied, each call is patched at most once and does not match
afterwards, every patched call goes to RAX, and an application changes nothing unless the scope's symbol for the
target bears the name of the wrapper. -/
theorem patch_fixpoint (s : GuardState φ σ) (calls : List Op) (hs : NoneIn G.proxy G.rax.space s.scope) :
    let patched := fired (applyOp G rule) (bears G rule) s calls
    patched.Nodup ∧ (∀ op ∈ patched, bears G rule (run (applyOp G rule) s calls) op = false) ∧
      PatchesOnly G s.data (run (applyOp G rule) s calls).data patched ∧
      AllMeet (applyOp G rule) (ChangesWrapped G rule) s calls := by
  have honce := patches_once rule hG
  refine ⟨honce.fired_nodup s calls hs, fun op hop => ?_, patchesOnly_run rule hG s calls hs, ?_⟩
  · exact bears_of_patched rule hG _ op (honce.keeps_run s calls hs) (honce.done_of_fired s op calls hs hop)
  · exact fun before op after _ => applyOp_changesWrapped rule hG _ op

end

/-! ## A guarded program -/

theorem findContainer_cache (table : SymbolCache) (addr : Address) (size : Int32) (usepoint : Option Address)
    (sym : Nat) (entry : MapEntry) (h : SymbolCache.scope.findContainer table addr size usepoint = some (sym, entry)) :
    sym ∈ SymbolCache.scope.symbols table ∧ entry ∈ SymbolCache.scope.mapEntries table sym ∧
      entry.addr.space = addr.space := by
  obtain ⟨hsym, hanswer, front, back, hentries, -⟩ := SymbolCache.scope_rangeLaws.found _ _ _ _ _ _ h
  exact ⟨hsym, by rw [hentries]; simp, hanswer.2.1⟩

/-- The wrapper of a 64 bit program. -/
def guardedProgram : GuardContext PcodeTable Nat (Address × Int32) Unit SymbolCache Nat Int32 Unit where
  graph := PcodeTable.graph
  proxy := SymbolCache.scope
  getName table sym := (table[sym]?.map (·.name)).getD []
  archi :=
    { smallProgram with
      getDefaultCodeSpace := { ramSpace with addrSize := 8 }
      find := fun addr =>
        if addr = 0x1400335d8 then some ⟨ascii "guard_dispatch_icall_fptr", true, false, false, false⟩ else none }
  getRegister _ := ⟨registerSpace, 0⟩

theorem guardedProgram_laws : guardedProgram.Laws where
  inputs := PcodeTable.graph_inputLaws
  scope := SymbolCache.scope_laws
  found := findContainer_cache
  rax_space := by decide

def guardedCalls : GuardState PcodeTable SymbolCache where
  data :=
    { entry := ⟨{ ramSpace with addrSize := 8 }, 0x140018a60⟩
      rows := [⟨.CPUI_CALLIND, ⟨{ ramSpace with addrSize := 8 }, 0x140018aa3⟩,
        [(⟨{ ramSpace with addrSize := 8 }, 0x1400335d8⟩, 8)], none⟩,
        ⟨.CPUI_CALLIND, ⟨{ ramSpace with addrSize := 8 }, 0x140018ad5⟩,
          [(⟨{ ramSpace with addrSize := 8 }, 0x140033e78⟩, 8)], none⟩]
      warnings := [] }
  scope := []

theorem patch_fixpoint_guarded :
    let rule : RuleWindowsControlFlowGuard := ⟨ascii "analysis", ascii "guard_dispatch_icall_fptr"⟩
    let patched := fired (applyOp guardedProgram rule) (bears guardedProgram rule) guardedCalls [0, 1, 0, 0]
    patched.Nodup ∧
      (∀ op ∈ patched, bears guardedProgram rule (run (applyOp guardedProgram rule) guardedCalls [0, 1, 0, 0]) op =
        false) ∧
      PatchesOnly guardedProgram guardedCalls.data
        (run (applyOp guardedProgram rule) guardedCalls [0, 1, 0, 0]).data patched ∧
      AllMeet (applyOp guardedProgram rule) (ChangesWrapped guardedProgram rule) guardedCalls [0, 1, 0, 0] :=
  patch_fixpoint ⟨ascii "analysis", ascii "guard_dispatch_icall_fptr"⟩ guardedProgram_laws guardedCalls [0, 1, 0, 0]
    fun _ hsym => absurd hsym List.not_mem_nil

-- Only the first call is patched, and only once.
example :
    let rule : RuleWindowsControlFlowGuard := ⟨ascii "analysis", ascii "guard_dispatch_icall_fptr"⟩
    fired (applyOp guardedProgram rule) (bears guardedProgram rule) guardedCalls [0, 1, 0, 0] = [0] := by
  decide

end RuleWindowsControlFlowGuard

end Yagi
