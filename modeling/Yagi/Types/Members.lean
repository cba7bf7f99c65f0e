import Yagi.Types.DetailTable
import Yagi.Types.Invariant

/-!
# The members of a struct (`IdaStructInfo`)

IDA places a member at a bit. Yagi places its type at the byte of this bit.
-/

open Text Effect

namespace Yagi

/-- A member, with its first bit and its size in bits. -/
structure UdtMember (ι : Type) where
  offset : UInt64
  size : UInt64
  name : Str
  type : ι

namespace IdaStructInfo

def getField {ι : Type} (arg : UdtMember ι) : TypeStructField ι := ⟨arg.offset / 8, c_str arg.name, arg.type⟩

def getFields {ι : Type} (attributes : List (UdtMember ι)) : List (TypeStructField ι) := attributes.map getField

end IdaStructInfo

namespace UdtMember

variable {ι : Type}

def HasBit (member : UdtMember ι) (bit : Nat) : Prop :=
  member.offset.toNat ≤ bit ∧ bit < member.offset.toNat + member.size.toNat

def SharesBit (member member' : UdtMember ι) : Prop := ∃ bit, member.HasBit bit ∧ member'.HasBit bit

/-- The member ends before the first bit of `member'`. -/
def Before (member member' : UdtMember ι) : Prop := member.offset.toNat + member.size.toNat ≤ member'.offset.toNat

/-- A type of `size` bytes, placed at the byte of the member, ends no later than the member does. -/
def EndsWithin (member : UdtMember ι) (size : Int) : Prop :=
  8 * (((member.offset / 8).toNat : Int) + size) ≤ member.offset.toNat + member.size.toNat

end UdtMember

namespace TypeField

variable {D : Type} (getSize : D → Int)

def HasByte (field : TypeField D) (byte : Int) : Prop :=
  field.offset.toInt ≤ byte ∧ byte < field.offset.toInt + getSize field.type

def SharesByte (field field' : TypeField D) : Prop := ∃ byte, field.HasByte getSize byte ∧ field'.HasByte getSize byte

end TypeField

theorem pairwise_of_forall₂ {α β : Type} (R : α → β → Prop) (P : α → α → Prop) (Q : β → β → Prop)
    (hstep : ∀ x y x' y', R x y → R x' y' → P x x' → Q y y') (xs : List α) (ys : List β) (h : List.Forall₂ R xs ys)
    (hxs : xs.Pairwise P) : ys.Pairwise Q := by
  induction h with
  | nil => exact List.Pairwise.nil
  | cons hR hrest ih =>
    obtain ⟨hhead, htail⟩ := List.pairwise_cons.mp hxs
    refine List.pairwise_cons.mpr ⟨?_, ih htail⟩
    intro y' hy'
    obtain ⟨k, hk, rfl⟩ := List.getElem_of_mem hy'
    have hlt := hrest.length_eq ▸ hk
    exact hstep _ _ _ _ hR (hrest.get hlt hk) (hhead _ (List.getElem_mem hlt))

theorem sharesBit_of_sharesByte {ι D : Type} (getSize : D → Int) (m m' : UdtMember ι) (f f' : TypeField D)
    (hf : f.offset.toInt = (m.offset / 8).toNat) (hf' : f'.offset.toInt = (m'.offset / 8).toNat)
    (hm : m.EndsWithin (getSize f.type)) (hm' : m'.EndsWithin (getSize f'.type)) (h : f.SharesByte getSize f') :
    m.SharesBit m' := by
  obtain ⟨byte, ⟨hstart, hend⟩, hstart', hend'⟩ := h
  have hbyte : ∀ offset : UInt64, (offset / 8).toNat = offset.toNat / 8 := fun offset => UInt64.toNat_div offset 8
  unfold UdtMember.EndsWithin at hm hm'
  rw [hf, hbyte] at hstart hend
  rw [hf', hbyte] at hstart' hend'
  rw [hbyte] at hm hm'
  -- The later of the two starts is in both.
  refine ⟨max m.offset.toNat m'.offset.toNat, ⟨by omega, by omega⟩, by omega, by omega⟩

theorem not_sharesByte_of_before {ι D : Type} (getSize : D → Int) (m m' : UdtMember ι) (f f' : TypeField D)
    (hf : f.offset.toInt = (m.offset / 8).toNat) (hf' : f'.offset.toInt = (m'.offset / 8).toNat)
    (hm : m.EndsWithin (getSize f.type)) (hbefore : m.Before m') : ¬ f.SharesByte getSize f' := by
  rintro ⟨byte, ⟨-, hend⟩, hstart', -⟩
  have hbyte : (m'.offset / 8).toNat = m'.offset.toNat / 8 := UInt64.toNat_div m'.offset 8
  unfold UdtMember.EndsWithin at hm
  unfold UdtMember.Before at hbefore
  rw [hf] at hend
  rw [hf', hbyte] at hstart'
  omega

namespace TypeInfo

variable {ι : Type} (archi : TypeArchitecture)

theorem otherPlan_isStruct (info : TypeInfo ι) : (info.otherPlan archi).isStruct = false := by
  unfold otherPlan
  grind [Plan.isStruct]

theorem plan_struct (info : TypeInfo ι) (fields : List (TypeStructField ι)) (hfields : info.toStruct = some fields)
    (h : (info.plan archi).isStruct) : info.plan archi = .struct fields := by
  unfold plan at h ⊢
  grind [Plan.isStruct, otherPlan_isStruct]

end TypeInfo

namespace TypeManager

variable {σ D ι : Type} {F : TypeFactory σ D} {G : TypeGraph ι} {archi : TypeArchitecture}

/-- The field of a member, as `setFields` gets it. -/
def FieldOf (member : UdtMember ι) (field : TypeField D) : Prop :=
  field.offset = int4 (member.offset / 8) ∧ field.name = c_str member.name

def FieldsDisjoint (F : TypeFactory σ D) (state : σ) (fields : List (TypeField D)) : Prop :=
  fields.Pairwise fun field field' => ¬ field.SharesByte (F.getSize state) field'

theorem parseFields_members (hF : F.Laws) (fuel : Nat) (members : List (UdtMember ι)) (st st' : Session σ D)
    (result : List (TypeField D))
    (h : (IdaStructInfo.getFields members).mapM (parseField (findByTypeInfo F G archi fuel)) st = .ok result st') :
    List.Forall₂ FieldOf members result := by
  obtain ⟨-, -, hresult⟩ := mapM_keeps (fun _ => True) (parseField (findByTypeInfo F G archi fuel))
    (fun info field _ => field.offset = int4 info.offset ∧ field.name = info.name) _ (fun _ _ _ _ _ h => h)
    (fun info _ s field s' _ hfield => by
      obtain ⟨htype, hoffset, hname⟩ := parseField_ok _ _ _ _ _ hfield
      exact ⟨(findByTypeInfo_grows hF _ _ _ _ _ htype).1, trivial, hoffset, hname⟩) st st' result trivial h
  have hmap : List.Forall₂ _ (members.map IdaStructInfo.getField) result := hresult
  rw [List.forall₂_map_left_iff] at hmap
  exact hmap

theorem FieldOf.offset_toInt (member : UdtMember ι) (field : TypeField D) (h : FieldOf member field)
    (hsmall : (member.offset / 8).toNat < 2 ^ 31) : field.offset.toInt = (member.offset / 8).toNat := by
  rw [h.1, int4_eq_iff]
  exact ⟨hsmall, Nat.mod_eq_of_lt (by omega)⟩

theorem FieldOf.same_offset (member member' : UdtMember ι) (field field' : TypeField D) (h : FieldOf member field)
    (h' : FieldOf member' field')
    (hfar : (member.offset / 8).toNat % 2 ^ 32 = (member'.offset / 8).toNat % 2 ^ 32) :
    field.offset = field'.offset := by
  rw [h.1, h'.1]
  unfold int4
  congr 1
  rw [← UInt32.toNat_inj]
  simpa using hfar

theorem fieldsDisjoint_of_members (state : σ) (members : List (UdtMember ι)) (fields : List (TypeField D))
    (hfields : List.Forall₂ FieldOf members fields)
    (hdisjoint : members.Pairwise fun member member' => ¬ member.SharesBit member')
    (hsmall : ∀ member ∈ members, (member.offset / 8).toNat < 2 ^ 31)
    (hends : List.Forall₂ (fun member field => member.EndsWithin (F.getSize state field.type)) members fields) :
    FieldsDisjoint F state fields := by
  have hboth := List.Forall₂.mp (fun member field hfield hend => And.intro hfield hend) hfields hends
  have hall := (List.forall₂_and_left _ _).mpr ⟨hsmall, hboth⟩
  refine pairwise_of_forall₂ _ _ _ ?_ members fields hall hdisjoint
  rintro m f m' f' ⟨hm, hf, hend⟩ ⟨hm', hf', hend'⟩ hbits hshare
  exact hbits (sharesBit_of_sharesByte (F.getSize state) m m' f f' (hf.offset_toInt m f hm) (hf'.offset_toInt m' f' hm')
    hend hend' hshare)

theorem field_before_disjoint (state : σ) (members : List (UdtMember ι)) (fields : List (TypeField D))
    (hfields : List.Forall₂ FieldOf members fields)
    (hsmall : ∀ member ∈ members, (member.offset / 8).toNat < 2 ^ 31) :
    ∀ pair ∈ members.zip fields, ∀ pair' ∈ members.zip fields, pair.1.Before pair'.1 →
      pair.1.EndsWithin (F.getSize state pair.2.type) → ¬ pair.2.SharesByte (F.getSize state) pair'.2 := by
  have hplace : ∀ pair ∈ members.zip fields, pair.2.offset.toInt = (pair.1.offset / 8).toNat := by
    rintro ⟨member, field⟩ hpair
    have hfield : FieldOf member field := (List.forall₂_iff_zip.mp hfields).2 hpair
    exact hfield.offset_toInt member field (hsmall member (List.of_mem_zip hpair).1)
  intro pair hpair pair' hpair' hbefore hends
  exact not_sharesByte_of_before (F.getSize state) _ _ _ _ (hplace pair hpair) (hplace pair' hpair') hends hbefore

/-- **Fields.** The fields of a struct are placed at the bytes of its members. A field that ends within its member
shares no byte with what comes after it, and when all fields do so and the members share no bit, no two fields
share a byte. -/
theorem struct_fields_disjoint (hF : F.Laws) (fuel : Nat) (i : ι) (members : List (UdtMember ι)) (st st' : Session σ D)
    (d : D) (hn : F.findByIdLocal st.factory (G.getName i) = none) (hstruct : ((G.info i).plan archi).isStruct)
    (hmembers : (G.info i).toStruct = some (IdaStructInfo.getFields members))
    (hdisjoint : members.Pairwise fun member member' => ¬ member.SharesBit member')
    (hsmall : ∀ member ∈ members, (member.offset / 8).toNat < 2 ^ 31)
    (h : findByTypeInfo F G archi fuel i st = .ok d st') :
    ∃ state fields, st'.steps.getLast? = some ⟨state, .setFields fields d 0 0⟩ ∧
      List.Forall₂ FieldOf members fields ∧
      (∀ pair ∈ members.zip fields, ∀ pair' ∈ members.zip fields, pair.1.Before pair'.1 →
        pair.1.EndsWithin (F.getSize state pair.2.type) → ¬ pair.2.SharesByte (F.getSize state) pair'.2) ∧
      (List.Forall₂ (fun member field => member.EndsWithin (F.getSize state field.type)) members fields →
        FieldsDisjoint F state fields) := by
  have hplan := TypeInfo.plan_struct archi _ _ hmembers hstruct
  obtain ⟨less, result, u, rfl, hfields, rfl⟩ := findByTypeInfo_struct_ok fuel i _ st st' d hn hplan h
  have hresult := parseFields_members hF less members _ u result hfields
  exact ⟨u.factory, result, List.getLast?_concat, hresult,
    field_before_disjoint u.factory members result hresult hsmall,
    fieldsDisjoint_of_members u.factory members result hresult hdisjoint hsmall⟩

/-! ## Bitfields -/

/-- The members `int a : 3` and `int b : 5`. -/
def flagMembers {ι : Type} (int : ι) : List (UdtMember ι) := [⟨0, 3, ascii "a", int⟩, ⟨3, 5, ascii "b", int⟩]

/-- The members `int x` and `int y`. -/
def pairMembers {ι : Type} (int : ι) : List (UdtMember ι) := [⟨0, 32, ascii "x", int⟩, ⟨32, 32, ascii "y", int⟩]

theorem struct_fields_disjoint_pair :
    ∃ d st state fields, findByTypeInfo DetailTable.factory declarations archi64 2 7 coreSession = .ok d st ∧
      st.steps.getLast? = some ⟨state, .setFields fields d 0 0⟩ ∧ List.Forall₂ FieldOf (pairMembers (0 : Fin 8)) fields ∧
      FieldsDisjoint DetailTable.factory state fields := by
  obtain ⟨d, st, state, fields, h, hlast, hsizes⟩ : ∃ d st state fields,
      findByTypeInfo DetailTable.factory declarations archi64 2 7 coreSession = .ok d st ∧
      st.steps.getLast? = some ⟨state, .setFields fields d 0 0⟩ ∧
      fields.map (fun field => DetailTable.factory.getSize state field.type) = [4, 4] :=
    ⟨_, _, _, _, rfl, rfl, by decide +kernel⟩
  have hbits : (pairMembers (0 : Fin 8)).Pairwise fun member member' => ¬ member.SharesBit member' := by
    simp [pairMembers, UdtMember.SharesBit, UdtMember.HasBit]
    omega
  obtain ⟨state', fields', hlast', hfields, -, hdisjoint⟩ := struct_fields_disjoint DetailTable.laws 2 7 (pairMembers 0)
    coreSession st d (by decide +kernel) rfl rfl hbits (by decide) h
  rw [hlast] at hlast'
  simp only [Option.some.injEq, FactoryStep.mk.injEq, TypeCall.setFields.injEq] at hlast'
  obtain ⟨rfl, rfl, -⟩ := hlast'
  refine ⟨d, st, state, fields, h, hlast, hfields, hdisjoint ?_⟩
  have hends : List.Forall₂ UdtMember.EndsWithin (pairMembers (0 : Fin 8)) [4, 4] := by
    simp [pairMembers, UdtMember.EndsWithin]
  rw [← hsizes, List.forall₂_map_right_iff] at hends
  exact hends

theorem fieldsDisjoint_iff (F : TypeFactory σ D) (state : σ) (fields : List (TypeField D)) :
    FieldsDisjoint F state fields ↔ (fields.map fun field => (field.offset.toInt, F.getSize state field.type)).Pairwise
      fun place place' => ¬ ∃ byte, (place.1 ≤ byte ∧ byte < place.1 + place.2) ∧
        place'.1 ≤ byte ∧ byte < place'.1 + place'.2 := by
  rw [List.pairwise_map]
  rfl

/-- Two bitfields of one `int` become two fields of 4 bytes at one place. -/
theorem bitfields_overlap :
    ((flagMembers (0 : Fin 8)).Pairwise fun member member' => ¬ member.SharesBit member') ∧
      ((declarations.info 6).plan archi64).isStruct ∧
      (declarations.info 6).toStruct = some (IdaStructInfo.getFields (flagMembers 0)) ∧
      ∃ d st state fields, findByTypeInfo DetailTable.factory declarations archi64 2 6 coreSession = .ok d st ∧
        st.steps.getLast? = some ⟨state, .setFields fields d 0 0⟩ ∧
        fields.map (fun field => (field.offset.toInt, DetailTable.factory.getSize state field.type)) = [(0, 4), (0, 4)] ∧
        ¬ FieldsDisjoint DetailTable.factory state fields := by
  obtain ⟨d, st, state, fields, h, hlast, hplaces⟩ : ∃ d st state fields,
      findByTypeInfo DetailTable.factory declarations archi64 2 6 coreSession = .ok d st ∧
      st.steps.getLast? = some ⟨state, .setFields fields d 0 0⟩ ∧
      fields.map (fun field => (field.offset.toInt, DetailTable.factory.getSize state field.type)) = [(0, 4), (0, 4)] :=
    ⟨_, _, _, _, rfl, rfl, by decide +kernel⟩
  refine ⟨?_, rfl, rfl, d, st, state, fields, h, hlast, hplaces, ?_⟩
  · simp [flagMembers, UdtMember.SharesBit, UdtMember.HasBit]
    omega
  · rw [fieldsDisjoint_iff, hplaces]
    intro h
    exact (List.pairwise_cons.mp h).1 _ List.mem_cons_self ⟨0, by decide⟩

end TypeManager

end Yagi
