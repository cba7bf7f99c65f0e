import Yagi.Types.DetailTable

/-!
# The length of an array

`getTypeArray` counts elements, and it is given the bytes of the array.
-/

open Text Effect

namespace Yagi

theorem int4_bytes_iff (x : UInt64) (n s : Nat) (hs : 1 ≤ s) (hx : x.toNat = n * s) :
    (int4 x).toInt = n ↔ n < 2 ^ 31 ∧ 2 ^ 32 ∣ n * (s - 1) := by
  obtain ⟨k, rfl⟩ : ∃ k, s = k + 1 := ⟨s - 1, by omega⟩
  rw [int4_eq_iff, hx, Nat.mul_succ, Nat.add_sub_cancel]
  generalize n * k = q
  constructor
  · rintro ⟨hn, hq⟩
    exact ⟨hn, by omega⟩
  · rintro ⟨hn, hq⟩
    exact ⟨hn, by omega⟩

def Plan.isArray {ι : Type} : Plan ι → Bool
  | .array _ _ => true
  | _ => false

namespace TypeInfo

variable {ι : Type} (archi : TypeArchitecture)

theorem otherPlan_array (info : TypeInfo ι) (array : ArrayInfo ι) (harray : info.toArray = some array)
    (h : (info.otherPlan archi).isArray) :
    info.otherPlan archi = .array (int4 info.getSize) array.getPointedObject ∧ info.getSize ≠ 0 := by
  unfold otherPlan at h ⊢
  grind [Plan.isArray]

theorem plan_array (info : TypeInfo ι) (array : ArrayInfo ι) (harray : info.toArray = some array)
    (h : (info.plan archi).isArray) :
    info.plan archi = .array (int4 info.getSize) array.getPointedObject ∧ info.getSize ≠ 0 := by
  unfold plan at h ⊢
  grind [Plan.isArray, otherPlan_array]

end TypeInfo

namespace TypeManager

variable {σ D ι : Type} {F : TypeFactory σ D} {T : TypeDetails σ D} {G : TypeGraph ι} {archi : TypeArchitecture}

/-- An array with `n` elements and as many bytes as `n` elements of `s` bytes have. -/
structure ArrayOf (F : TypeFactory σ D) (T : TypeDetails σ D) (state : σ) (d : D) (n s : Nat) : Prop where
  metatype : T.getMetatype state d = .TYPE_ARRAY
  elements : (T.numElements state d).toInt = n
  bytes : F.getSize state d = n * s

theorem makeArray (hF : F.Laws) (hT : T.Laws F) (count : Int32) (element : D) (name : Str) (st : Session σ D) :
    ∃ d st', makeNamed F (.getTypeArray count element) name st = .ok d st' ∧
      T.getMetatype st'.factory d = .TYPE_ARRAY ∧ T.numElements st'.factory d = count ∧
      F.getSize st'.factory d = count.toInt * F.getSize st.factory element := by
  have hunnamed := make_unnamed_after hF (.getTypeArray count element) st.factory _ rfl
  refine ⟨_, _, rfl, ?_, ?_, ?_⟩
  · exact (hT.setName_metatype _ _ _).trans (hT.make_metatype _ _ _ rfl)
  · exact (hT.setName_elements _ _ _).trans (hT.array_elements _ _ _)
  · exact (hF.setName_getSize _ _ _ hunnamed).trans (hF.make_getSize _ _ _ rfl)

/-- **Arrays.** An array whose name is not known yet keeps its length exactly when its elements are bytes,
or its bytes are cut off to its length. -/
theorem array_keeps_length_iff (hF : F.Laws) (hT : T.Laws F) (fuel : Nat) (i : ι) (array : ArrayInfo ι)
    (st t : Session σ D) (e : D) (s : Nat) (hn : F.findByIdLocal st.factory (G.getName i) = none)
    (hplan : ((G.info i).plan archi).isArray) (harray : (G.info i).toArray = some array)
    (hsize : (G.info i).getSize.toNat = array.getSize.toNat * s)
    (helement : findByTypeInfo F G archi fuel array.getPointedObject st = .ok e t)
    (hs : F.getSize t.factory e = s) :
    ∃ d st', findByTypeInfo F G archi (fuel + 1) i st = .ok d st' ∧
      (ArrayOf F T st'.factory d array.getSize.toNat s ↔
        array.getSize.toNat < 2 ^ 31 ∧ 2 ^ 32 ∣ array.getSize.toNat * (s - 1)) := by
  obtain ⟨hplan, hnonzero⟩ := TypeInfo.plan_array archi _ _ harray hplan
  obtain ⟨d, st', hmake, hmetatype, helements, hbytes⟩ := makeArray hF hT (int4 (G.info i).getSize) e (G.getName i) t
  have hs1 : 1 ≤ s := by
    rcases Nat.eq_zero_or_pos s with rfl | hpos
    · exact absurd (UInt64.toNat_inj.mp hsize) hnonzero
    · exact hpos
  refine ⟨d, st', ?_, ?_⟩
  · rw [findByTypeInfo_succ, hn, hplan]
    exact (bind_ok _ _ _ _ _).mpr ⟨e, t, helement, hmake⟩
  · rw [← int4_bytes_iff _ _ _ hs1 hsize]
    constructor
    · intro h
      exact (congrArg Int32.toInt helements).symm.trans h.elements
    · intro h
      exact ⟨hmetatype, (congrArg Int32.toInt helements).trans h, by rw [hbytes, h, hs]⟩

theorem array_keeps_length_iff_char :
    ∃ d st', findByTypeInfo DetailTable.factory declarations archi64 2 2 coreSession = .ok d st' ∧
      (ArrayOf DetailTable.factory DetailTable.typeDetails st'.factory d 8 1 ↔ 8 < 2 ^ 31 ∧ 2 ^ 32 ∣ 8 * (1 - 1)) := by
  obtain ⟨e, t, h, hs⟩ : ∃ e t, findByTypeInfo DetailTable.factory declarations archi64 1 1 coreSession = .ok e t ∧
      DetailTable.factory.getSize t.factory e = 1 := ⟨_, _, rfl, by decide +kernel⟩
  exact array_keeps_length_iff DetailTable.laws DetailTable.details_laws 1 2 ⟨1, 8⟩ coreSession t e 1
    (by decide +kernel) rfl rfl rfl h hs

/-- `int[4]` gets 16 elements, and 64 bytes. -/
theorem array_too_long :
    ∃ e t d st', findByTypeInfo DetailTable.factory declarations archi64 1 0 coreSession = .ok e t ∧
      DetailTable.factory.getSize t.factory e = (declarations.info 0).getSize.toNat ∧
      (declarations.info 3).toArray = some ⟨0, 4⟩ ∧
      (declarations.info 3).getSize.toNat = 4 * (declarations.info 0).getSize.toNat ∧
      findByTypeInfo DetailTable.factory declarations archi64 2 3 coreSession = .ok d st' ∧
      DetailTable.typeDetails.numElements st'.factory d = 16 ∧ DetailTable.factory.getSize st'.factory d = 64 := by
  refine ⟨_, _, _, _, rfl, ?_, rfl, ?_, rfl, ?_, ?_⟩ <;> decide +kernel

end TypeManager

end Yagi
