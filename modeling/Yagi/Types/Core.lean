import Yagi.Types.Invariant

/-!
# Core types (`buildTypegrp`)

The cache starts with the types that Yagi registers under names of its own.
-/

open Text

namespace Yagi

/-- The metatypes of Ghidra, as far as the types of Yagi have one. -/
inductive DatatypeMeta where
  | of (metatype : Metatype)
  | TYPE_UINT
  | TYPE_CODE
  | TYPE_PTR
  | TYPE_ARRAY
  | TYPE_STRUCT
deriving DecidableEq, Repr

/-- The metatype of the type that a call makes. -/
def TypeCall.metatype {D : Type} : TypeCall D → Option DatatypeMeta
  | .getTypePointer _ _ _ => some .TYPE_PTR
  | .newTypeBase _ metatype _ => some (.of metatype)
  | .newTypeUnicode _ _ metatype => some (.of metatype)
  | .newTypeChar _ => some (.of .TYPE_INT)
  | .getTypeCode _ _ _ _ => some .TYPE_CODE
  | .getTypeArray _ _ => some .TYPE_ARRAY
  | _ => none

/-- What a datatype tells besides its name and its size. -/
structure TypeDetails (σ D : Type) where
  getMetatype : σ → D → DatatypeMeta
  numElements : σ → D → Int32
  setCoreType : Str → Int32 → DatatypeMeta → Bool → σ → σ

namespace TypeDetails

variable {σ D : Type} (T : TypeDetails σ D) (F : TypeFactory σ D)

/-- Metatype and elements come with the call that makes a type, and stay. -/
structure Laws : Prop where
  make_metatype : ∀ c s metatype, c.metatype = some metatype →
    T.getMetatype (F.exec c s).2 (F.exec c s).1 = metatype
  struct_metatype : ∀ n s, F.findByIdLocal s n = none →
    T.getMetatype (F.exec (.getTypeStruct n) s).2 (F.exec (.getTypeStruct n) s).1 = .TYPE_STRUCT
  setName_metatype : ∀ ct n s, T.getMetatype (F.exec (.setName ct n) s).2 ct = T.getMetatype s ct
  named_metatype : ∀ c s x, F.named s x → T.getMetatype (F.exec c s).2 x = T.getMetatype s x
  array_elements : ∀ count element s,
    T.numElements (F.exec (.getTypeArray count element) s).2 (F.exec (.getTypeArray count element) s).1 = count
  setName_elements : ∀ ct n s, T.numElements (F.exec (.setName ct n) s).2 ct = T.numElements s ct
  named_elements : ∀ c s x, F.named s x → T.numElements (F.exec c s).2 x = T.numElements s x

/-- A core type is new, is found under its name, and has the size and the metatype given. -/
structure CoreLaws : Prop where
  core_found : ∀ n size metatype chartp s, F.findByIdLocal s n = none →
    ∃ d, F.findByIdLocal (T.setCoreType n size metatype chartp s) n = some d ∧
      F.getSize (T.setCoreType n size metatype chartp s) d = size.toInt ∧
      T.getMetatype (T.setCoreType n size metatype chartp s) d = metatype ∧
      ∀ x, F.named (T.setCoreType n size metatype chartp s) x → F.named s x ∨ x = d
  core_other : ∀ n size metatype chartp s m, m ≠ n →
    F.findByIdLocal (T.setCoreType n size metatype chartp s) m = F.findByIdLocal s m
  core_kept : ∀ n size metatype chartp s, F.findByIdLocal s n = none → ∀ x, F.named s x →
    F.named (T.setCoreType n size metatype chartp s) x ∧
    F.getSize (T.setCoreType n size metatype chartp s) x = F.getSize s x ∧
    T.getMetatype (T.setCoreType n size metatype chartp s) x = T.getMetatype s x

end TypeDetails

/-! ## The table of core types -/

structure CoreType where
  name : Str
  size : Int32
  metatype : DatatypeMeta
  chartp : Bool

def coreTable : List CoreType :=
  [⟨ascii "void", 1, .of .TYPE_VOID, false⟩,
    ⟨ascii "bool", 1, .of .TYPE_BOOL, false⟩,
    ⟨ascii "uint8_t", 1, .TYPE_UINT, false⟩,
    ⟨ascii "uint16_t", 2, .TYPE_UINT, false⟩,
    ⟨ascii "uint32_t", 4, .TYPE_UINT, false⟩,
    ⟨ascii "uint64_t", 8, .TYPE_UINT, false⟩,
    ⟨ascii "char", 1, .of .TYPE_INT, true⟩,
    ⟨ascii "int8_t", 1, .of .TYPE_INT, false⟩,
    ⟨ascii "int16_t", 2, .of .TYPE_INT, false⟩,
    ⟨ascii "int32_t", 4, .of .TYPE_INT, false⟩,
    ⟨ascii "int64_t", 8, .of .TYPE_INT, false⟩,
    ⟨ascii "float", 4, .of .TYPE_FLOAT, false⟩,
    ⟨ascii "double", 8, .of .TYPE_FLOAT, false⟩,
    ⟨ascii "float16", 16, .of .TYPE_FLOAT, false⟩,
    ⟨ascii "__uint8", 1, .of .TYPE_UNKNOWN, false⟩,
    ⟨ascii "__uint16", 2, .of .TYPE_UNKNOWN, false⟩,
    ⟨ascii "__uint32", 4, .of .TYPE_UNKNOWN, false⟩,
    ⟨ascii "__uint64", 8, .of .TYPE_UNKNOWN, false⟩,
    ⟨ascii "code", 1, .TYPE_CODE, false⟩]

variable {σ D : Type} (T : TypeDetails σ D) (F : TypeFactory σ D)

def setCoreTypes (cores : List CoreType) (s : σ) : σ :=
  cores.foldl (fun s core => T.setCoreType core.name core.size core.metatype core.chartp s) s

def buildTypegrp (s : σ) : σ := setCoreTypes T coreTable s

/-- The types of `cores` are found in `s'`, and all else is as in `s`. -/
structure Registers (cores : List CoreType) (s s' : σ) : Prop where
  core : ∀ core ∈ cores, ∃ d, F.findByIdLocal s' core.name = some d ∧ F.getSize s' d = core.size.toInt ∧
    T.getMetatype s' d = core.metatype
  other : ∀ n, (∀ core ∈ cores, core.name ≠ n) → F.findByIdLocal s' n = F.findByIdLocal s n
  named : ∀ d, F.named s' d → F.named s d ∨ ∃ core ∈ cores, F.findByIdLocal s' core.name = some d
  kept : ∀ d, F.named s d → F.named s' d ∧ F.getSize s' d = F.getSize s d ∧ T.getMetatype s' d = T.getMetatype s d

theorem setCoreTypes_registers (hF : F.Laws) (hC : T.CoreLaws F) (cores : List CoreType)
    (hnodup : (cores.map (·.name)).Nodup) (s : σ) (hs : ∀ core ∈ cores, F.findByIdLocal s core.name = none) :
    Registers T F cores s (setCoreTypes T cores s) := by
  induction cores generalizing s with
  | nil => exact ⟨by simp, fun _ _ => rfl, fun _ h => Or.inl h, fun _ h => ⟨h, rfl, rfl⟩⟩
  | cons head cores ih =>
    obtain ⟨hhead, hcores⟩ := List.nodup_cons.mp hnodup
    have hfresh := hs head List.mem_cons_self
    have hne : ∀ core ∈ cores, core.name ≠ head.name := fun core hcore heq =>
      hhead (List.mem_map.mpr ⟨core, hcore, heq⟩)
    obtain ⟨d, hfound, hsize, hmeta, hnew⟩ := hC.core_found head.name head.size head.metatype head.chartp s hfresh
    have hother := hC.core_other head.name head.size head.metatype head.chartp s
    have hkept := hC.core_kept head.name head.size head.metatype head.chartp s hfresh
    show Registers T F (head :: cores) s (setCoreTypes T cores _)
    have hrest := ih hcores (T.setCoreType head.name head.size head.metatype head.chartp s) fun core hcore =>
      (hother core.name (hne core hcore)).trans (hs core (List.mem_cons_of_mem _ hcore))
    have hlast := (hrest.other head.name hne).trans hfound
    obtain ⟨-, hsize', hmeta'⟩ := hrest.kept d (hF.found_named _ _ _ hfound).1
    constructor
    · intro core hcore
      rcases List.mem_cons.mp hcore with rfl | hcore
      · exact ⟨d, hlast, hsize'.trans hsize, hmeta'.trans hmeta⟩
      · exact hrest.core core hcore
    · intro n hn
      rw [hrest.other n fun core hcore => hn core (List.mem_cons_of_mem _ hcore)]
      exact hother n (hn head List.mem_cons_self).symm
    · intro x hx
      rcases hrest.named x hx with hx | ⟨core, hcore, hx⟩
      · rcases hnew x hx with hx | rfl
        · exact Or.inl hx
        · exact Or.inr ⟨head, List.mem_cons_self, hlast⟩
      · exact Or.inr ⟨core, List.mem_cons_of_mem _ hcore, hx⟩
    · intro x hx
      obtain ⟨hnamed, hsize₁, hmeta₁⟩ := hkept x hx
      obtain ⟨hnamed', hsize₂, hmeta₂⟩ := hrest.kept x hnamed
      exact ⟨hnamed', hsize₂.trans hsize₁, hmeta₂.trans hmeta₁⟩

end Yagi
