import Yagi.Records

/-!
# Reading annotations back

What `findName` and `findType` give after the saves: which names survive the
encoding, and which locations share a record.
-/

open Text Hex Store

namespace Yagi

open IdaFunctionSymbolInfo

variable {Ty : Type}

/-! ## Encoding and decoding -/

/-- A name that its record gives back. -/
def Faithful (name : Str) : Prop := ch '|' ∉ name ∧ NoNul name

instance (name : Str) : Decidable (Faithful name) := inferInstanceAs (Decidable (_ ∧ _))

theorem encodeRecord_eq (value : Str) (address : UInt64) :
    encodeRecord value address = value ++ ch '|' :: to_hex address := by
  have : ascii "|" = [ch '|'] := by decide
  simp [encodeRecord, this]

theorem c_str_encodeRecord (value : Str) (address : UInt64) (h : NoNul value) :
    c_str (encodeRecord value address) = encodeRecord value address := by
  have hbar : NoNul (ascii "|") := by decide
  apply c_str_of_noNul
  simp [encodeRecord, h, hbar, to_hex_noNul]

theorem decodeRecord_encodeRecord (value : Str) (address : UInt64) (h : ch '|' ∉ value) :
    decodeRecord (encodeRecord value address) = .ok (some (value, address)) := by
  rw [encodeRecord_eq, decodeRecord, if_neg (by simp), find_append _ _ _ h]
  simp [stoull16_to_hex, Except.map]

theorem decodeRecord_ok (res name : Str) (offset : UInt64)
    (h : decodeRecord res = .ok (some (name, offset))) :
    ch '|' ∉ name ∧ ∃ rest, res = name ++ ch '|' :: rest := by
  unfold decodeRecord at h
  split at h
  · simp at h
  · split at h
    · simp at h
    · rename_i pb hpb
      obtain ⟨hres, hbefore⟩ := eq_of_find _ _ _ hpb
      cases hs : stoull16 (res.drop (pb + 1)) with
      | error e => simp [hs, Except.map] at h
      | ok o =>
        simp only [hs, Except.map, Except.ok.injEq, Option.some.injEq, Prod.mk.injEq] at h
        obtain ⟨rfl, -⟩ := h
        exact ⟨hbefore, _, hres⟩

theorem decodeRecord_saved_iff (name : Str) (offset : UInt64) :
    decodeRecord (c_str (encodeRecord name offset)) = .ok (some (name, offset)) ↔ Faithful name := by
  constructor
  · intro h
    obtain ⟨hbar, rest, hrest⟩ := decodeRecord_ok _ _ _ h
    refine ⟨hbar, ?_⟩
    have hnul := c_str_noNul (encodeRecord name offset)
    rw [hrest, noNul_append] at hnul
    exact hnul.1
  · rintro ⟨hbar, hnul⟩
    rw [c_str_encodeRecord _ _ hnul, decodeRecord_encodeRecord _ _ hbar]

/-! ## What the readers see -/

theorem findName_of_record (func : UInt64) (nodes : NetNodes) (pc : UInt64) (space value : Str) (offset : UInt64)
    (h : rawRecord nodes ⟨func, .name, space, pc⟩ = some (c_str (encodeRecord value offset))) :
    findName func nodes pc space = decodeRecord (c_str (encodeRecord value offset)) := by
  unfold rawRecord at h
  rw [findName, h]

theorem findType_of_record (db : TypeDatabase Ty) (func : UInt64) (nodes : NetNodes) (pc : UInt64)
    (space value : Str) (offset : UInt64)
    (h : rawRecord nodes ⟨func, .type, space, pc⟩ = some (c_str (encodeRecord value offset))) :
    findType db func nodes pc space = (decodeRecord (c_str (encodeRecord value offset))).map fun found =>
      found.map fun (typeName, offset) => (db.build_decl typeName, offset) := by
  unfold rawRecord at h
  rw [findType, h]

theorem findName_none (func : UInt64) (nodes : NetNodes) (pc : UInt64) (space : Str)
    (h : rawRecord nodes ⟨func, .name, space, pc⟩ = none) : findName func nodes pc space = .ok none := by
  unfold rawRecord at h
  rw [findName, h]

theorem findType_none (db : TypeDatabase Ty) (func : UInt64) (nodes : NetNodes) (pc : UInt64) (space : Str)
    (h : rawRecord nodes ⟨func, .type, space, pc⟩ = none) : findType db func nodes pc space = .ok none := by
  unfold rawRecord at h
  rw [findType, h]

/-! ## Names come back -/

theorem findName_saveName (func : UInt64) (loc : MemoryLocation) (name : Str) (nodes : NetNodes) (pc : UInt64)
    (hpc : pc ∈ loc.pc) :
    findName func (saveName func loc name nodes) pc loc.spaceName =
      decodeRecord (c_str (encodeRecord name loc.offset)) :=
  findName_of_record _ _ _ _ _ _ (rawRecord_apply_self intDatabase (.saveName func loc name) nodes pc hpc)

/-- **Round trip.** A saved name is read back at every pc of its location exactly when it holds
neither a `|` nor a NUL. -/
theorem findName_saveName_iff (func : UInt64) (loc : MemoryLocation) (name : Str) (nodes : NetNodes)
    (hpc : loc.pc ≠ []) :
    (∀ pc ∈ loc.pc, findName func (saveName func loc name nodes) pc loc.spaceName =
      .ok (some (name, loc.offset))) ↔ Faithful name := by
  constructor
  · intro h
    obtain ⟨pc, hmem⟩ := List.exists_mem_of_ne_nil _ hpc
    have hread := h pc hmem
    rw [findName_saveName _ _ _ _ _ hmem] at hread
    exact (decodeRecord_saved_iff _ _).mp hread
  · intro h pc hmem
    rw [findName_saveName _ _ _ _ _ hmem]
    exact (decodeRecord_saved_iff _ _).mpr h

theorem findName_saveName_iff_counter :
    (∀ pc ∈ [0x401fa7], findName 0x401fa0 (saveName 0x401fa0 ⟨ascii "register", 0, 4, [0x401fa7]⟩ (ascii "i")
      fun _ => none) pc (ascii "register") = .ok (some (ascii "i", 0))) ↔ Faithful (ascii "i") :=
  findName_saveName_iff 0x401fa0 ⟨ascii "register", 0, 4, [0x401fa7]⟩ (ascii "i") _ (by decide)

/-- A name with a `|` is cut there, and what follows is taken for the offset: reading it raises,
or gives another name and another offset. -/
theorem findName_saveName_bar :
    let loc : MemoryLocation := ⟨ascii "register", 0x10, 4, [0x401fa7]⟩
    findName 0x401fa0 (saveName 0x401fa0 loc (ascii "lo|hi") fun _ => none) 0x401fa7 (ascii "register") =
      .error .invalid_argument ∧
    findName 0x401fa0 (saveName 0x401fa0 loc (ascii "a|b") fun _ => none) 0x401fa7 (ascii "register") =
      .ok (some (ascii "a", 0xb)) := by
  decide

/-! ## Two locations -/

/-- A type that its record gives back. -/
def ReadsBack (db : TypeDatabase Ty) (t : Ty) : Prop :=
  Faithful (db.getName t) ∧ db.build_decl (db.getName t) = some t

/-- No instruction is annotated by both locations in the same space. -/
def Apart (a₁ a₂ : Address) (pc₁ pc₂ : List UInt64) : Prop :=
  a₁.space.name ≠ a₂.space.name ∨ ∀ pc ∈ pc₁, pc ∉ pc₂

theorem findType_of_readsBack (db : TypeDatabase Ty) (func : UInt64) (nodes : NetNodes) (pc : UInt64)
    (space : Str) (offset : UInt64) (t : Ty) (ht : ReadsBack db t)
    (h : rawRecord nodes ⟨func, .type, space, pc⟩ = some (c_str (encodeRecord (db.getName t) offset))) :
    findType db func nodes pc space = .ok (some (some t, offset)) := by
  rw [findType_of_record db _ _ _ _ _ _ h, (decodeRecord_saved_iff _ _).mpr ht.1]
  simp [Except.map, ht.2]

theorem findName_of_faithful (func : UInt64) (nodes : NetNodes) (pc : UInt64) (space : Str) (offset : UInt64)
    (name : Str) (hn : Faithful name)
    (h : rawRecord nodes ⟨func, .name, space, pc⟩ = some (c_str (encodeRecord name offset))) :
    findName func nodes pc space = .ok (some (name, offset)) := by
  rw [findName_of_record _ _ _ _ _ _ h, (decodeRecord_saved_iff _ _).mpr hn]

theorem rawRecord_two_calls (db : TypeDatabase Ty) (c₁ c₂ : Call Ty) (nodes : NetNodes) (pc : UInt64)
    (htarget : c₂.target = c₁.target) (h₁ : NoNul c₁.location.spaceName) (h₂ : NoNul c₂.location.spaceName)
    (hpc : pc ∈ c₁.location.pc) :
    rawRecord (c₂.apply db (c₁.apply db nodes)) ⟨c₁.target.1, c₁.target.2, c₁.location.spaceName, pc⟩ =
      if c₁.location.spaceName = c₂.location.spaceName ∧ pc ∈ c₂.location.pc then c₂.content db
      else c₁.content db := by
  rw [rawRecord_apply db c₂ _ _ h₂ h₁, rawRecord_apply_self db c₁ nodes pc hpc, Call.leaves, htarget]
  by_cases h : c₁.location.spaceName = c₂.location.spaceName ∧ pc ∈ c₂.location.pc
  · rw [if_pos ⟨rfl, h⟩, if_pos h]; rfl
  · rw [if_neg fun hall => h hall.2, if_neg h]; rfl

/-- Two saves under different addresses: what is read at every pc of the first one is its own
record exactly when the locations are apart. -/
theorem survives_iff {R : Type} (db : TypeDatabase Ty) (c₁ c₂ : Call Ty) (nodes : NetNodes) (a₁ a₂ : Address)
    (pc₁ pc₂ : List UInt64) (hl₁ : c₁.location = a₁.location pc₁) (hl₂ : c₂.location = a₂.location pc₂)
    (htarget : c₂.target = c₁.target) (read : NetNodes → UInt64 → Except StdError (Option (R × UInt64)))
    (r₁ r₂ : R) (hdiff : a₁.space.name ≠ a₂.space.name ∨ a₁.offset ≠ a₂.offset)
    (hread₁ : ∀ nodes pc, rawRecord nodes ⟨c₁.target.1, c₁.target.2, a₁.space.name, pc⟩ = c₁.content db →
      read nodes pc = .ok (some (r₁, a₁.offset)))
    (hread₂ : ∀ nodes pc, rawRecord nodes ⟨c₁.target.1, c₁.target.2, a₁.space.name, pc⟩ = c₂.content db →
      read nodes pc = .ok (some (r₂, a₂.offset))) :
    (∀ pc ∈ pc₁, read (c₂.apply db (c₁.apply db nodes)) pc = .ok (some (r₁, a₁.offset))) ↔
      Apart a₁ a₂ pc₁ pc₂ := by
  have hrecord : ∀ pc ∈ pc₁, rawRecord (c₂.apply db (c₁.apply db nodes))
      ⟨c₁.target.1, c₁.target.2, a₁.space.name, pc⟩ =
        if a₁.space.name = a₂.space.name ∧ pc ∈ pc₂ then c₂.content db else c₁.content db := by
    intro pc hpc
    have h := rawRecord_two_calls db c₁ c₂ nodes pc htarget (by rw [hl₁]; exact a₁.space.name_noNul)
      (by rw [hl₂]; exact a₂.space.name_noNul) (by rw [hl₁]; exact hpc)
    rwa [hl₁, hl₂] at h
  constructor
  · intro h
    by_contra hapart
    simp only [Apart, not_or, not_not, not_forall] at hapart
    obtain ⟨hspace, pc, hpc, hpc₂⟩ := hapart
    have hlast := hrecord pc hpc
    rw [if_pos ⟨hspace, hpc₂⟩] at hlast
    have heq := (hread₂ _ pc hlast).symm.trans (h pc hpc)
    simp only [Except.ok.injEq, Option.some.injEq, Prod.mk.injEq] at heq
    rcases hdiff with hne | hne
    · exact hne hspace
    · exact hne heq.2.symm
  · intro hapart pc hpc
    apply hread₁
    rw [hrecord pc hpc, if_neg]
    rintro ⟨hspace, hpc₂⟩
    rcases hapart with hne | hdisjoint
    · exact hne hspace
    · exact hdisjoint pc hpc hpc₂

/-- **Two annotations.** Saving a second location leaves the first one readable exactly when no
pc is in both lists under one space name. The same holds of names and of types. -/
theorem annotation_survives_iff (db : TypeDatabase Ty) (func : UInt64) (nodes : NetNodes) (a₁ a₂ : Address)
    (pc₁ pc₂ : List UInt64) (hdiff : a₁.space.name ≠ a₂.space.name ∨ a₁.offset ≠ a₂.offset) :
    (∀ n₁ n₂, Faithful n₁ → Faithful n₂ →
      ((∀ pc ∈ pc₁, findName func
          (saveName func (a₂.location pc₂) n₂ (saveName func (a₁.location pc₁) n₁ nodes)) pc a₁.space.name =
        .ok (some (n₁, a₁.offset))) ↔ Apart a₁ a₂ pc₁ pc₂)) ∧
    (∀ t₁ t₂, ReadsBack db t₁ → ReadsBack db t₂ →
      ((∀ pc ∈ pc₁, findType db func
          (saveType db func (a₂.location pc₂) t₂ (saveType db func (a₁.location pc₁) t₁ nodes)) pc a₁.space.name =
        .ok (some (some t₁, a₁.offset))) ↔ Apart a₁ a₂ pc₁ pc₂)) := by
  constructor
  · intro n₁ n₂ h₁ h₂
    exact survives_iff db (.saveName func (a₁.location pc₁) n₁) (.saveName func (a₂.location pc₂) n₂) nodes a₁ a₂
      pc₁ pc₂ rfl rfl rfl (fun nodes pc => findName func nodes pc a₁.space.name) n₁ n₂ hdiff
      (fun nodes pc h => findName_of_faithful _ _ _ _ _ _ h₁ h)
      (fun nodes pc h => findName_of_faithful _ _ _ _ _ _ h₂ h)
  · intro t₁ t₂ h₁ h₂
    exact survives_iff db (.saveType func (a₁.location pc₁) t₁) (.saveType func (a₂.location pc₂) t₂) nodes a₁ a₂
      pc₁ pc₂ rfl rfl rfl (fun nodes pc => findType db func nodes pc a₁.space.name) (some t₁) (some t₂) hdiff
      (fun nodes pc h => findType_of_readsBack db _ _ _ _ _ _ h₁ h)
      (fun nodes pc h => findType_of_readsBack db _ _ _ _ _ _ h₂ h)

def registerSpace : AddrSpace := ⟨ascii "register", 4, by decide⟩

theorem annotation_survives_iff_registers :
    ((∀ pc ∈ [0x10], findName 0x401fa0 (saveName 0x401fa0 (Address.location ⟨registerSpace, 4⟩ [0x14]) (ascii "n")
      (saveName 0x401fa0 (Address.location ⟨registerSpace, 0⟩ [0x10]) (ascii "i") fun _ => none)) pc
        (ascii "register") = .ok (some (ascii "i", 0))) ↔
      Apart ⟨registerSpace, 0⟩ ⟨registerSpace, 4⟩ [0x10] [0x14]) ∧
    ((∀ pc ∈ [0x10], findType intDatabase 0x401fa0
      (saveType intDatabase 0x401fa0 (Address.location ⟨registerSpace, 4⟩ [0x14]) ()
        (saveType intDatabase 0x401fa0 (Address.location ⟨registerSpace, 0⟩ [0x10]) () fun _ => none)) pc
        (ascii "register") = .ok (some (some (), 0))) ↔
      Apart ⟨registerSpace, 0⟩ ⟨registerSpace, 4⟩ [0x10] [0x14]) := by
  have hall := annotation_survives_iff intDatabase 0x401fa0 (fun _ => none) ⟨registerSpace, 0⟩ ⟨registerSpace, 4⟩
    [0x10] [0x14] (by decide)
  have hint : ReadsBack intDatabase () := ⟨by decide, by decide⟩
  exact ⟨hall.1 (ascii "i") (ascii "n") (by decide) (by decide), hall.2 () () hint hint⟩

/-- Two registers that one instruction uses share a record: the second save replaces the first. -/
theorem annotation_overwritten :
    let nodes := saveName 0x401fa0 (Address.location ⟨registerSpace, 4⟩ [0x10]) (ascii "n")
      (saveName 0x401fa0 (Address.location ⟨registerSpace, 0⟩ [0x10]) (ascii "i") fun _ => none)
    findName 0x401fa0 nodes 0x10 (ascii "register") = .ok (some (ascii "n", 4)) := by
  decide

end Yagi
