import Yagi.Types.Plan

/-!
# Shapes

What a type should look like, from its type info and the core types alone: the
name and the size of the type that a conversion of the type info gives.
-/

open Text

namespace Yagi

/-- A field, with the name and the size that its type had when the struct was laid out. -/
@[ext]
structure FieldLayout where
  offset : Int32
  name : Str
  typeName : Str
  size : Int
deriving DecidableEq

@[ext]
structure StructLayout where
  name : Str
  size : Int
  fields : List FieldLayout
deriving DecidableEq

def layoutSize (fields : List FieldLayout) : Int :=
  (fields.map fun field => field.offset.toInt + field.size).foldl max 0

/-- A layout has the offsets and the names that the struct asks for. -/
def Lists {ι : Type} (infos : List (TypeStructField ι)) (fields : List FieldLayout) : Prop :=
  fields.map (fun field => (field.offset, field.name)) = infos.map fun info => (int4 info.offset, info.name)

variable {σ D ι : Type} (F : TypeFactory σ D) (G : TypeGraph ι) (archi : TypeArchitecture) (s₀ : σ)

/-- `Shape i n z`: the type of `i` has the name `n` and the size `z`. A core type is as it is; an array
without elements is its element. -/
inductive Shape : ι → Str → Int → Prop where
  | core (i : ι) (d : D) (h : F.findByIdLocal s₀ (G.getName i) = some d) :
    Shape i (G.getName i) (F.getSize s₀ d)
  | make (i : ι) (base : BaseType) (h : F.findByIdLocal s₀ (G.getName i) = none)
    (hplan : (G.info i).plan archi = .make base) : Shape i (G.getName i) base.size
  | pointer (i pointed : ι) (h : F.findByIdLocal s₀ (G.getName i) = none)
    (hplan : (G.info i).plan archi = .pointer pointed) : Shape i (G.getName i) archi.getAddrSize.toInt32.toInt
  | func (i : ι) (func : FuncInfo ι) (h : F.findByIdLocal s₀ (G.getName i) = none)
    (hplan : (G.info i).plan archi = .func func) : Shape i (G.getName i) 1
  | struct (i : ι) (infos : List (TypeStructField ι)) (fields : List FieldLayout)
    (h : F.findByIdLocal s₀ (G.getName i) = none) (hplan : (G.info i).plan archi = .struct infos)
    (hlists : Lists infos fields)
    (hfields : ∀ (k : Nat) (info : TypeStructField ι) (field : FieldLayout),
      infos[k]? = some info → fields[k]? = some field → Shape info.type field.typeName field.size) :
    Shape i (G.getName i) (layoutSize fields)
  | element (i inner : ι) (n : Str) (z : Int) (h : F.findByIdLocal s₀ (G.getName i) = none)
    (hplan : (G.info i).plan archi = .element inner) (hinner : Shape inner n z) : Shape i n z
  | array (i : ι) (count : Int32) (inner : ι) (n : Str) (z : Int) (h : F.findByIdLocal s₀ (G.getName i) = none)
    (hplan : (G.info i).plan archi = .array count inner) (hinner : Shape inner n z) :
    Shape i (G.getName i) (count.toInt * z)

theorem Lists.unique (infos : List (TypeStructField ι)) (fields fields' : List FieldLayout)
    (h : Lists infos fields) (h' : Lists infos fields')
    (hagree : ∀ (k : Nat) (info : TypeStructField ι) (field field' : FieldLayout), infos[k]? = some info →
      fields[k]? = some field → fields'[k]? = some field' →
      field.typeName = field'.typeName ∧ field.size = field'.size) : fields = fields' := by
  apply List.ext_getElem?
  intro k
  have hk := congrArg (·[k]?) h
  have hk' := congrArg (·[k]?) h'
  simp only [List.getElem?_map] at hk hk'
  cases hinfo : infos[k]? with
  | none =>
    rw [hinfo] at hk hk'
    rw [Option.map_eq_none_iff.mp hk, Option.map_eq_none_iff.mp hk']
  | some info =>
    rw [hinfo] at hk hk'
    obtain ⟨field, hfield, heq⟩ := Option.map_eq_some_iff.mp hk
    obtain ⟨field', hfield', heq'⟩ := Option.map_eq_some_iff.mp hk'
    obtain ⟨htype, hsize⟩ := hagree k info field field' hinfo hfield hfield'
    simp only [Prod.mk.injEq] at heq heq'
    rw [hfield, hfield']
    exact congrArg some (FieldLayout.ext (heq.1.trans heq'.1.symm) (heq.2.trans heq'.2.symm) htype hsize)

variable {F G archi s₀}

theorem Shape.of_eq (i : ι) (n n' : Str) (z z' : Int) (h : Shape F G archi s₀ i n z) (hn : n' = n) (hz : z' = z) :
    Shape F G archi s₀ i n' z' := by
  rw [hn, hz]
  exact h

/-- **Shapes are unique.** -/
theorem Shape.unique (i : ι) (n n' : Str) (z z' : Int) (h : Shape F G archi s₀ i n z)
    (h' : Shape F G archi s₀ i n' z') : n = n' ∧ z = z' := by
  induction h generalizing n' z' with
  | core i d hd => cases h' <;> simp_all
  | make i base hn hplan => cases h' <;> simp_all
  | pointer i pointed hn hplan => cases h' <;> simp_all
  | func i func hn hplan => cases h' <;> simp_all
  | struct i infos fields hn hplan hlists hfields ih =>
    cases h' with
    | struct _ infos' fields' hn' hplan' hlists' hfields' =>
      rw [hplan] at hplan'
      cases hplan'
      refine ⟨rfl, congrArg layoutSize ?_⟩
      exact Lists.unique infos fields fields' hlists hlists' fun k info field field' hk hf hf' =>
        ih k info field hk hf _ _ (hfields' k info field' hk hf')
    | _ => simp_all
  | element i inner n z hn hplan hinner ih =>
    cases h' with
    | element _ inner' _ _ hn' hplan' hinner' =>
      rw [hplan] at hplan'
      cases hplan'
      exact ih _ _ hinner'
    | _ => simp_all
  | array i count inner n z hn hplan hinner ih =>
    cases h' with
    | array _ count' inner' m w hn' hplan' hinner' =>
      rw [hplan] at hplan'
      cases hplan'
      exact ⟨rfl, by rw [(ih _ _ hinner').2]⟩
    | _ => simp_all

end Yagi
