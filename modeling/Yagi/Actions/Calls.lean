import Yagi.Actions.Prototypes
import Yagi.Scope.Once
import Yagi.Scope.Spaces

/-!
# Calls of the kernel

The functions of the table outlive the lookups of a decompilation. A call is answered
from the table, whatever the database has at the offset of its number.
-/

open Text Loop Runs

namespace Yagi.ActionAddeBPFSyscall

variable {σ Sym γ GSym D Ty φ Op Vn Block : Type} (A : ActionContext σ Sym γ GSym D Ty φ Op Vn Block)
  (getName : γ → GSym → Str) (archi : YagiArchitecture Ty GSym D)

/-- There are functions at the number, and each is one of the table. -/
structure Answered (n : UInt32) (st : γ) : Prop where
  found : ¬ A.proxy.NoneAt st .function (syscallAddress A n)
  listed : ∀ sym, A.proxy.IsAt st .function (syscallAddress A n) sym →
    ∃ row ∈ syscalls, row.syscall_number = n ∧ Serves A getName st sym row

/-- No function is made at the address, and what was there stays. -/
structure Passes (addr : Address) (st st' : γ) : Prop where
  keeps : ∀ x ∈ A.proxy.symbols st, Keeps A getName st st' x
  old : ∀ x, A.proxy.IsAt st' .function addr x → x ∈ A.proxy.symbols st

theorem passes_refl (addr : Address) (st : γ) : Passes A getName addr st st :=
  ⟨fun x hx => Keeps.refl A getName st x hx, fun _ hx => hx.1⟩

theorem passes_of_creates (addr : Address) {st st' : γ} {sym : GSym} {k : SymbolKind} {entries : List MapEntry}
    {n : Str} (hc : A.proxy.Creates st st' sym k entries) (hn : A.proxy.Names getName st st' sym n)
    (hp : ∀ x ∈ A.proxy.symbols st, A.protos.getPieces st' x = A.protos.getPieces st x)
    (hquiet : k = .function → ∀ entry ∈ entries, entry.addr ≠ addr) : Passes A getName addr st st' := by
  constructor
  · intro x hx
    exact ⟨(hc.symbols x).mpr (Or.inl hx), hc.kind_old x hx, hc.entries_old x hx, hn.2 x hx, hp x hx⟩
  · rintro x ⟨hx, hkind, entry, hentry, haddr⟩
    rcases (hc.symbols x).mp hx with hold | rfl
    · exact hold
    · rw [hc.kind_new] at hkind
      rw [hc.entries_new] at hentry
      exact absurd haddr (hquiet hkind entry hentry)

theorem Answered.passes {n : UInt32} {st st' : γ} (h : Answered A getName n st)
    (hp : Passes A getName (syscallAddress A n) st st') : Answered A getName n st' := by
  constructor
  · intro hnone
    refine h.found fun x hx hkind entry hentry => ?_
    have hk := hp.keeps x hx
    exact hnone x hk.symbols (hk.kind.trans hkind) entry (hk.entries ▸ hentry)
  · intro sym hat
    have hold := hp.old sym hat
    have hk := hp.keeps sym hold
    obtain ⟨-, hkind, hentry⟩ := hat
    rw [hk.kind] at hkind
    rw [hk.entries] at hentry
    obtain ⟨row, hrow, hn, hserves⟩ := h.listed sym ⟨hold, hkind, hentry⟩
    exact ⟨row, hrow, hn, hserves.keeps A getName hk⟩

section

variable [DecidableEq GSym] (hS : A.proxy.Laws) (hN : A.proxy.NameLaws getName)
  (hP : A.protos.Laws A.proxy getName)

include hP in
theorem pieces_create (st : γ) (q : ScopeQuery) (data : SymbolInfo) (x : GSym) (hx : x ∈ A.proxy.symbols st) :
    A.protos.getPieces (q.create A.proxy archi st data).2 x = A.protos.getPieces st x := by
  cases q with
  | findFunction addr => exact hP.pieces_addFunction addr _ st x hx
  | findContainer addr size usepoint =>
    have hpieces : A.protos.getPieces (ScopeQuery.create A.proxy archi st data (.findContainer addr size usepoint)).2 =
        A.protos.getPieces (YagiScope.addOfType A.proxy archi addr size data st).2 := by
      rw [ScopeQuery.create, hP.pieces_mapPoint, YagiScope.markReadOnly]
      split
      · exact hP.pieces_attribute _ _ _
      · rfl
    rw [hpieces]
    simp only [YagiScope.addOfType]
    cases data.getType with
    | Function => exact hP.pieces_addFunction addr _ st x hx
    | Import => exact hP.pieces_addExternalRef addr addr _ st x hx
    | Label => exact hP.pieces_addCodeLabel addr _ st x hx
    | Other => cases archi.build addr.offset <;> exact hP.pieces_addSymbol _ _ st x hx
  | findExternalRef addr => exact hP.pieces_addExternalRef addr addr _ st x hx
  | findCodeLabel addr => exact hP.pieces_addCodeLabel addr _ st x hx

include hS in
theorem source_quiet (addr : Address) (hspace : addr.space ≠ archi.getDefaultCodeSpace) (st : γ)
    (hfound : ¬ A.proxy.NoneAt st .function addr) (q : ScopeQuery) (data : SymbolInfo)
    (hsource : q.source A.proxy archi st = some data) (hkind : q.kind data = .function) : q.addr ≠ addr := by
  obtain ⟨hcached, hdata⟩ := (ScopeQuery.source_eq_some A.proxy archi st q data).mp hsource
  rintro rfl
  cases q with
  | findFunction addr =>
    exact hfound ((ScopeQuery.isCached_eq_false A.proxy hS st (.findFunction addr) .function rfl).mp hcached)
  | findContainer addr size usepoint =>
    have hnone : YagiScope.codeSymbol archi addr = none := if_neg hspace
    have hdata : YagiScope.codeSymbol archi addr = some data := hdata
    rw [hnone] at hdata
    exact Option.some_ne_none data hdata.symm
  | findExternalRef addr => exact SymbolKind.noConfusion hkind
  | findCodeLabel addr => exact SymbolKind.noConfusion hkind

include hS hN hP in
theorem apply_passes (addr : Address) (hspace : addr.space ≠ archi.getDefaultCodeSpace) (st : γ)
    (hfound : ¬ A.proxy.NoneAt st .function addr) (e : ScopeEvent D)
    (href : ∀ sym, e = .resolveExternalRefFunction sym → sym.getRefAddr ≠ addr) :
    Passes A getName addr st (e.apply A.proxy archi st) := by
  cases e with
  | query q =>
    show Passes A getName addr st (q.apply A.proxy archi st)
    cases hsource : q.source A.proxy archi st with
    | none =>
      rw [ScopeQuery.apply_of_source_none A.proxy archi st q hsource]
      exact passes_refl A getName addr st
    | some data =>
      rw [ScopeQuery.apply_of_source_some A.proxy archi st q data hsource]
      refine passes_of_creates A getName addr (ScopeQuery.create_creates A.proxy archi hS st q data)
        (ScopeEvent.create_names A.proxy getName archi hN st q data)
        (fun x hx => pieces_create A getName archi hP st q data x hx) ?_
      intro hkind entry hentry
      rw [ScopeQuery.entries_addr q data entry hentry]
      exact source_quiet A archi hS addr hspace st hfound q data hsource hkind
  | resolveExternalRefFunction sym =>
    show Passes A getName addr st (YagiScope.resolveExternalRefFunction A.proxy archi sym st).2
    rw [resolveExternalRefFunction_snd]
    cases archi.find sym.getRefAddr.offset with
    | none => exact passes_refl A getName addr st
    | some data =>
      refine passes_of_creates A getName addr (hS.addFunction _ _ st) (hN.addFunction _ _ st)
        (fun x hx => hP.pieces_addFunction _ _ st x hx) ?_
      intro _ entry hentry
      rw [List.mem_singleton.mp hentry]
      exact href sym rfl
  | addGlobal global ct usepoint =>
    have hname := hN.addSymbol (YagiScope.buildVariableName global) ct st
    unfold ScopeInternal.Names at hname
    rw [← hN.name_mapPoint (A.proxy.addSymbol (YagiScope.buildVariableName global) ct st).1 global usepoint] at hname
    refine passes_of_creates A getName addr (YagiScope.addSymbol_creates A.proxy hS _ ct global usepoint st) hname ?_ ?_
    · intro x hx
      simp only [ScopeEvent.apply, YagiScope.addSymbol, hP.pieces_mapPoint]
      exact hP.pieces_addSymbol _ ct st x hx
    · intro hkind
      exact SymbolKind.noConfusion hkind

include hS hN hP in
theorem run_answered (n : UInt32) (hspace : (syscallAddress A n).space ≠ archi.getDefaultCodeSpace)
    (events : List (ScopeEvent D)) (st : γ) (h : Answered A getName n st)
    (href : ∀ sym, .resolveExternalRefFunction sym ∈ events → sym.getRefAddr ≠ syscallAddress A n) :
    Answered A getName n (run (ScopeEvent.apply A.proxy archi) st events) := by
  induction events generalizing st with
  | nil => exact h
  | cons e events ih =>
    have hpass := apply_passes A getName archi hS hN hP _ hspace st h.found e
      fun sym he => href sym (he ▸ List.mem_cons_self)
    exact ih _ (h.passes A getName hpass) fun sym hsym => href sym (List.mem_cons_of_mem e hsym)

omit [DecidableEq GSym] in
theorem Listed.answered {st st' : γ} (h : Listed A getName syscalls st st') (n : UInt32)
    (hrow : ∃ row ∈ syscalls, row.syscall_number = n) (hfree : A.proxy.NoneAt st .function (syscallAddress A n)) :
    Answered A getName n st' := by
  constructor
  · obtain ⟨row, hrow, rfl⟩ := hrow
    obtain ⟨sym, hsym, hserves⟩ := h.listed row hrow
    intro hnone
    refine hnone sym hsym hserves.kind ⟨syscallAddress A row.syscall_number, none⟩ ?_ rfl
    rw [hserves.entries]
    exact List.mem_cons_self
  · rintro sym ⟨hsym, hkind, entry, hentry, haddr⟩
    rcases h.known sym hsym with hold | ⟨row, hrow, hserves⟩
    · have hk := h.keeps sym hold
      rw [hk.kind] at hkind
      rw [hk.entries] at hentry
      exact absurd haddr (hfree sym hold hkind entry hentry)
    · refine ⟨row, hrow, ?_, hserves⟩
      rw [hserves.entries] at hentry
      have hrowaddr : entry.addr = syscallAddress A row.syscall_number := by
        rcases List.mem_pair.mp hentry with rfl | rfl <;> rfl
      exact syscallAddress_injective A _ _ (hrowaddr.symm.trans haddr)

include hS in
theorem Answered.findFunction {n : UInt32} {st : γ} (h : Answered A getName n st) (hL : A.proxy.LookupLaws) :
    ∃ sym, YagiScope.findFunction A.proxy archi (syscallAddress A n) st = (.ok (some sym), st) ∧
      ∃ row ∈ syscalls, row.syscall_number = n ∧ HasPrototype A getName st sym row := by
  have hfound := h.found
  rw [← hS.findFunction] at hfound
  obtain ⟨sym, hsym⟩ := Option.ne_none_iff_exists'.mp hfound
  obtain ⟨row, hrow, hn, hserves⟩ := h.listed sym (hL.findFunction _ _ _ hsym)
  refine ⟨sym, ?_, row, hrow, hn, hserves.prototype⟩
  unfold YagiScope.findFunction
  rw [hsym]

end

/-- **Calls of the kernel.** Once the table is in the scope, each of its numbers is answered with a
prototype of the table, after any lookups and globals, and whatever the database has. -/
theorem syscalls_answered [DecidableEq GSym] (hS : A.proxy.Laws) (hL : A.proxy.LookupLaws)
    (hN : A.proxy.NameLaws getName) (hP : A.protos.Laws A.proxy getName) (n : UInt32)
    (hrow : ∃ row ∈ syscalls, row.syscall_number = n)
    (hspace : A.arch.getSpaceByName (ascii "syscall") ≠ archi.getDefaultCodeSpace) (st : FunctionState σ γ φ)
    (hfree : A.proxy.NoneAt st.proxy .function (syscallAddress A n)) (events : List (ScopeEvent D))
    (href : ∀ sym, .resolveExternalRefFunction sym ∈ events → sym.getRefAddr ≠ syscallAddress A n) :
    let proxy := run (ScopeEvent.apply A.proxy archi) (ActionAddeBPFSyscall.applyTo A st).2.proxy events
    ∃ sym, YagiScope.findFunction A.proxy archi (syscallAddress A n) proxy = (.ok (some sym), proxy) ∧
      ∃ row ∈ syscalls, row.syscall_number = n ∧ HasPrototype A getName proxy sym row := by
  have hlisted := foldl_addRow A getName hS hN hP syscalls st.proxy
  rw [← applyTo_proxy] at hlisted
  have hanswered := hlisted.answered A getName n hrow hfree
  exact (run_answered A getName archi hS hN hP n hspace events _ hanswered href).findFunction A getName archi hS hL

end Yagi.ActionAddeBPFSyscall

/-! ## A table with prototypes -/

namespace Yagi

def noPieces : PrototypePieces Int32 := ⟨[], 0, [], [], false⟩

abbrev ProtoCache := SymbolCache × (Nat → PrototypePieces Int32)

namespace ProtoCache

/-- The symbol is new, and so is its prototype. -/
def fresh (added : Nat × SymbolCache) (cache : ProtoCache) : Nat × ProtoCache :=
  (added.1, added.2, Function.update cache.2 added.1 noPieces)

def scope : ScopeInternal ProtoCache Nat Int32 where
  symbols cache := SymbolCache.scope.symbols cache.1
  kind cache := SymbolCache.scope.kind cache.1
  mapEntries cache := SymbolCache.scope.mapEntries cache.1
  clear cache := (SymbolCache.scope.clear cache.1, cache.2)
  findFunction cache := SymbolCache.scope.findFunction cache.1
  findContainer cache := SymbolCache.scope.findContainer cache.1
  findExternalRef cache := SymbolCache.scope.findExternalRef cache.1
  findCodeLabel cache := SymbolCache.scope.findCodeLabel cache.1
  addFunction addr n cache := fresh (SymbolCache.scope.addFunction addr n cache.1) cache
  addExternalRef addr refaddr n cache := fresh (SymbolCache.scope.addExternalRef addr refaddr n cache.1) cache
  addCodeLabel addr n cache := fresh (SymbolCache.scope.addCodeLabel addr n cache.1) cache
  addSymbol n ty cache := fresh (SymbolCache.scope.addSymbol n ty cache.1) cache
  addMapPoint i addr usepoint cache :=
    let (entry, table) := SymbolCache.scope.addMapPoint i addr usepoint cache.1
    (entry, table, cache.2)
  setAttribute i a cache := (SymbolCache.scope.setAttribute i a cache.1, cache.2)

def protos : FuncProtos ProtoCache Nat Int32 where
  getPieces cache i := cache.2 i
  setPieces i pieces cache := (cache.1, Function.update cache.2 i pieces)

def getName (cache : ProtoCache) (i : Nat) : Str := SymbolCache.getName cache.1 i

theorem creates {cache cache' : ProtoCache} {i : Nat} {k : SymbolKind} {entries : List MapEntry}
    (h : SymbolCache.scope.Creates cache.1 cache'.1 i k entries) : scope.Creates cache cache' i k entries :=
  ⟨h.new, h.symbols, h.kind_new, h.entries_new, h.kind_old, h.entries_old⟩

theorem scope_laws : scope.Laws where
  clear cache := SymbolCache.scope_laws.clear cache.1
  findFunction cache := SymbolCache.scope_laws.findFunction cache.1
  findExternalRef cache := SymbolCache.scope_laws.findExternalRef cache.1
  findCodeLabel cache := SymbolCache.scope_laws.findCodeLabel cache.1
  addFunction addr n cache := creates (SymbolCache.scope_laws.addFunction addr n cache.1)
  addExternalRef addr refaddr n cache := creates (SymbolCache.scope_laws.addExternalRef addr refaddr n cache.1)
  addCodeLabel addr n cache := creates (SymbolCache.scope_laws.addCodeLabel addr n cache.1)
  addSymbol n ty cache := creates (SymbolCache.scope_laws.addSymbol n ty cache.1)
  symbols_mapPoint i addr u cache := SymbolCache.scope_laws.symbols_mapPoint i addr u cache.1
  kind_mapPoint i addr u cache := SymbolCache.scope_laws.kind_mapPoint i addr u cache.1
  entries_mapPoint cache := SymbolCache.scope_laws.entries_mapPoint cache.1
  symbols_attribute i a cache := SymbolCache.scope_laws.symbols_attribute i a cache.1
  kind_attribute i a cache := SymbolCache.scope_laws.kind_attribute i a cache.1
  entries_attribute i a cache := SymbolCache.scope_laws.entries_attribute i a cache.1

theorem scope_nameLaws : scope.NameLaws getName where
  addFunction addr n cache := SymbolCache.scope_nameLaws.addFunction addr n cache.1
  addExternalRef addr refaddr n cache := SymbolCache.scope_nameLaws.addExternalRef addr refaddr n cache.1
  addCodeLabel addr n cache := SymbolCache.scope_nameLaws.addCodeLabel addr n cache.1
  addSymbol n ty cache := SymbolCache.scope_nameLaws.addSymbol n ty cache.1
  name_mapPoint i addr u cache := SymbolCache.scope_nameLaws.name_mapPoint i addr u cache.1
  name_attribute i a cache := SymbolCache.scope_nameLaws.name_attribute i a cache.1

theorem scope_lookupLaws : scope.LookupLaws where
  findFunction cache := SymbolCache.scope_lookupLaws.findFunction cache.1
  findExternalRef cache := SymbolCache.scope_lookupLaws.findExternalRef cache.1
  findCodeLabel cache := SymbolCache.scope_lookupLaws.findCodeLabel cache.1

theorem fresh_old (added : Nat × SymbolCache) (cache : ProtoCache) (x : Nat) (hne : x ≠ added.1) :
    (fresh added cache).2.2 x = cache.2 x := Function.update_of_ne hne _ _

theorem fresh_new (added : Nat × SymbolCache) (cache : ProtoCache) : (fresh added cache).2.2 added.1 = noPieces :=
  Function.update_self _ _ _

theorem ne_of_creates {cache cache' : ProtoCache} {i x : Nat} {k : SymbolKind} {entries : List MapEntry}
    (h : scope.Creates cache cache' i k entries) (hx : x ∈ scope.symbols cache) : x ≠ i :=
  fun he => h.new (he ▸ hx)

theorem protos_laws : protos.Laws scope getName where
  symbols_set _ _ _ := rfl
  kind_set _ _ _ := rfl
  entries_set _ _ _ := rfl
  name_set _ _ _ := rfl
  getPieces_set cache i _ pieces x := Function.update_apply cache.2 i pieces x
  new_innames _ _ cache := congrArg PrototypePieces.innames (fresh_new _ cache)
  new_intypes _ _ cache := congrArg PrototypePieces.intypes (fresh_new _ cache)
  pieces_addFunction addr n cache x hx := fresh_old _ cache x (ne_of_creates (scope_laws.addFunction addr n cache) hx)
  pieces_addExternalRef addr refaddr n cache x hx :=
    fresh_old _ cache x (ne_of_creates (scope_laws.addExternalRef addr refaddr n cache) hx)
  pieces_addCodeLabel addr n cache x hx := fresh_old _ cache x (ne_of_creates (scope_laws.addCodeLabel addr n cache) hx)
  pieces_addSymbol n ty cache x hx := fresh_old _ cache x (ne_of_creates (scope_laws.addSymbol n ty cache) hx)
  pieces_mapPoint _ _ _ _ := rfl
  pieces_attribute _ _ _ := rfl

end ProtoCache

/-- A program for the kernel, which starts from an empty scope. -/
def kernelProgram :
    ActionContext (SymbolTable Int32) Nat ProtoCache Nat Int32 Unit PcodeTable Nat (Address × Int32) Unit where
  localScope := SymbolTable.scope 0
  entries _ := []
  findHigh _ _ _ := none
  graph := PcodeTable.graph
  arch := onlySpace syscallSpace
  getDefaultCodeSpace := ramSpace
  getRegister _ := none
  find_function _ := none
  db := intDatabase
  nodes _ := none
  findByTypeInfo _ := 4
  proxy := ProtoCache.scope
  protos := ProtoCache.protos
  types := ⟨fun size _ => size, fun size _ _ => size, 1⟩

def kernelFunction : FunctionState (SymbolTable Int32) ProtoCache PcodeTable :=
  ⟨[], ([], fun _ => noPieces), ⟨⟨ramSpace, 0x401000⟩, [], []⟩⟩

namespace ActionAddeBPFSyscall

theorem main_not_syscall : (⟨ramSpace, 0x401000⟩ : Address) ≠ syscallAddress kernelProgram 1 := by decide

/-- `bpf_map_lookup_elem`, after lookups of a function and of a variable, a resolved reference and a global. -/
theorem syscalls_answered_lookup :
    let events : List (ScopeEvent Int32) := [.query (.findFunction ⟨ramSpace, 0x401000⟩),
      .query (.findContainer ⟨ramSpace, 0x403000⟩ 4 none), .resolveExternalRefFunction ⟨⟨ramSpace, 0x401000⟩⟩,
      .addGlobal ⟨ramSpace, 0x405000⟩ 4 none]
    let proxy := run (ScopeEvent.apply kernelProgram.proxy smallProgram)
      (ActionAddeBPFSyscall.applyTo kernelProgram kernelFunction).2.proxy events
    ∃ sym, YagiScope.findFunction kernelProgram.proxy smallProgram (syscallAddress kernelProgram 1) proxy =
        (.ok (some sym), proxy) ∧
      ∃ row ∈ syscalls, row.syscall_number = 1 ∧ HasPrototype kernelProgram ProtoCache.getName proxy sym row :=
  syscalls_answered kernelProgram ProtoCache.getName smallProgram ProtoCache.scope_laws ProtoCache.scope_lookupLaws
    ProtoCache.scope_nameLaws ProtoCache.protos_laws 1
    ⟨_, List.mem_cons_of_mem _ List.mem_cons_self, rfl⟩ (by decide) kernelFunction
    (fun _ h => absurd h List.not_mem_nil) _ (fun sym h => by
      have hsym : sym = ⟨⟨ramSpace, 0x401000⟩⟩ := by simpa using h
      rw [hsym]
      exact main_not_syscall)

end ActionAddeBPFSyscall

end Yagi
