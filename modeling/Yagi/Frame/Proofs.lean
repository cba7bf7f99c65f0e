import Mathlib.Data.List.Find
import Yagi.DoubleClick
import Yagi.Lib.Twos

/-!
# Naming a stack variable and jumping to it

Ghidra reduces stack offsets to the width of an address. The lookup undoes that
for 32 bits and needs not for 64; for 16 bits it misses the negative offsets.
-/

open Text Twos

namespace Yagi

open IdaFunctionSymbolInfo

/-- Where the member lies for Ghidra: negative for locals. -/
def Frame.relative (frame : Frame) (member : FrameMember) : Int :=
  member.get_soff.toNat - (frame.frsize.toNat + frame.frregs.toNat)

theorem sofset_toNat (frame : Frame) (member : FrameMember) :
    (sofset frame member).toNat = wrap 64 (frame.relative member) := by
  unfold sofset Frame.relative wrap
  rw [UInt64.toNat_sub, UInt64.toNat_add, UInt16.toNat_toUInt64]
  have := member.get_soff.toNat_lt
  have := frame.frsize.toNat_lt
  omega

theorem sofset_eq_iff (frame : Frame) (member : FrameMember) (offset : UInt64) :
    sofset frame member = offset ↔ wrap 64 (frame.relative member) = offset.toNat := by
  rw [← UInt64.toNat_inj, sofset_toNat]

theorem sofset_low_iff (frame : Frame) (member : FrameMember) (offset : UInt64) (ho : offset.toNat < 2 ^ 32) :
    (sofset frame member).toUInt32 = offset.toUInt32 ↔ wrap 32 (frame.relative member) = offset.toNat := by
  rw [← UInt32.toNat_inj, UInt64.toNat_toUInt32, UInt64.toNat_toUInt32, sofset_toNat]
  unfold wrap
  omega

theorem isAt_iff (frame : Frame) (w : UInt32) (hw : w = 4 ∨ w = 8) (offset : UInt64)
    (ho : offset.toNat < 2 ^ (8 * w.toNat)) (member : FrameMember) :
    isAt frame offset w member = true ↔ wrap (8 * w.toNat) (frame.relative member) = offset.toNat := by
  unfold isAt
  rw [decide_eq_true_eq]
  rcases hw with rfl | rfl
  · have ho' : offset.toNat < 2 ^ 32 := ho
    rw [sofset_eq_iff, sofset_low_iff frame member offset ho']
    show _ ↔ wrap 32 _ = _
    simp only [true_and]
    unfold wrap
    omega
  · have hfour : ¬ (8 : UInt32) = 4 := by decide
    rw [sofset_eq_iff]
    simp only [hfour, false_and, or_false]
    rfl

theorem isAt_short_iff (frame : Frame) (offset : UInt64) (ho : offset.toNat < 2 ^ 16) (member : FrameMember)
    (hfit : Fits 16 (frame.relative member)) :
    isAt frame offset 2 member = true ↔
      wrap 16 (frame.relative member) = offset.toNat ∧ offset.toNat < 2 ^ 15 := by
  have hfour : ¬ (2 : UInt32) = 4 := by decide
  obtain ⟨hlo, hhi⟩ := hfit
  unfold isAt
  rw [decide_eq_true_eq, sofset_eq_iff]
  simp only [hfour, false_and, or_false]
  unfold wrap
  omega

/-! ## Names -/

/-- An offset has the name of the first member that lies there, and no name where none lies. -/
structure NamesOffset (frame : Frame) (w : UInt32) (offset : UInt64) : Prop where
  member : ∀ m ∈ frame.members, wrap (8 * w.toNat) (frame.relative m) = offset.toNat →
    findStackVar (some frame) offset w =
      (frame.members.find? fun m' => frame.relative m' = frame.relative m).map memberName
  free : (∀ m ∈ frame.members, wrap (8 * w.toNat) (frame.relative m) ≠ offset.toNat) →
    findStackVar (some frame) offset w = none

theorem findStackVar_eq_none (frame : Frame) (w : UInt32) (offset : UInt64)
    (h : ∀ m ∈ frame.members, ¬ isAt frame offset w m = true) : findStackVar (some frame) offset w = none := by
  have hfind : findStackMember frame offset w = none := List.find?_eq_none.mpr h
  rw [findStackVar, hfind]
  rfl

theorem namesOffset_of_isAt (frame : Frame) (w : UInt32) (hw : 0 < w.toNat) (offset : UInt64)
    (hfit : ∀ m ∈ frame.members, Fits (8 * w.toNat) (frame.relative m))
    (hat : ∀ m ∈ frame.members,
      isAt frame offset w m = true ↔ wrap (8 * w.toNat) (frame.relative m) = offset.toNat) :
    NamesOffset frame w offset := by
  constructor
  · intro m hm hoffset
    show (findStackMember frame offset w).map memberName = _
    rw [findStackMember, List.find?_congr]
    intro m' hm'
    rw [Bool.eq_iff_iff, hat m' hm', decide_eq_true_eq, ← hoffset]
    exact wrap_inj _ (by omega) _ _ (hfit m' hm') (hfit m hm)
  · intro hfree
    refine findStackVar_eq_none frame w offset fun m hm => ?_
    rw [hat m hm]
    exact hfree m hm

/-- **Stack variables.** An offset is named after the first member there exactly when addresses have 32 or 64
bits, the offset is not negative, or no member lies there. -/
theorem findStackVar_iff (frame : Frame) (w : UInt32) (hw : w = 2 ∨ w = 4 ∨ w = 8)
    (hfit : ∀ m ∈ frame.members, Fits (8 * w.toNat) (frame.relative m)) (offset : UInt64)
    (ho : offset.toNat < 2 ^ (8 * w.toNat)) :
    NamesOffset frame w offset ↔
      w ≠ 2 ∨ offset.toNat < 2 ^ 15 ∨
        ∀ m ∈ frame.members, wrap (8 * w.toNat) (frame.relative m) ≠ offset.toNat := by
  rcases hw with rfl | hw
  · -- A 16 bit frame, where negative offsets are not found.
    have hat := fun m hm => isAt_short_iff frame offset ho m (hfit m hm)
    constructor
    · intro h
      by_contra hnot
      push Not at hnot
      obtain ⟨-, hneg, m, hm, hoffset⟩ := hnot
      have hfound := h.member m hm hoffset
      rw [findStackVar_eq_none] at hfound
      · have hsome := List.find?_eq_none.mp (Option.map_eq_none_iff.mp hfound.symm) m hm
        simp at hsome
      · intro m' hm'
        rw [hat m' hm']
        omega
    · rintro (hw | hpos | hfree)
      · exact absurd rfl hw
      · refine namesOffset_of_isAt frame 2 (by decide) offset hfit fun m hm => ?_
        rw [hat m hm]
        exact and_iff_left hpos
      · refine ⟨fun m hm hoffset => absurd hoffset (hfree m hm), fun _ => ?_⟩
        refine findStackVar_eq_none frame 2 offset fun m hm => ?_
        rw [hat m hm]
        exact fun h => hfree m hm h.1
  · have hne : w ≠ 2 := by rcases hw with rfl | rfl <;> decide
    have hpos : 0 < w.toNat := by rcases hw with rfl | rfl <;> decide
    refine iff_of_true ?_ (Or.inl hne)
    exact namesOffset_of_isAt frame w hpos offset hfit fun m _ => isAt_iff frame w hw offset ho m

def smallFrame : Frame := ⟨4, 2, [⟨ascii "$ F1000.var_6", 0⟩, ⟨ascii "$ F1000.var_4", 2⟩, ⟨ascii "$ F1000.arg_0", 8⟩]⟩

theorem findStackVar_iff_local :
    NamesOffset smallFrame 4 0xfffffffc ↔
      (4 : UInt32) ≠ 2 ∨ (0xfffffffc : UInt64).toNat < 2 ^ 15 ∨
        ∀ m ∈ smallFrame.members, wrap 32 (smallFrame.relative m) ≠ (0xfffffffc : UInt64).toNat :=
  findStackVar_iff smallFrame 4 (by decide) (by decide) 0xfffffffc (by decide)

/-- The first local of a 16 bit frame is not found. -/
theorem findStackVar_short :
    (∀ m ∈ smallFrame.members, Fits 16 (smallFrame.relative m)) ∧
      wrap 16 (smallFrame.relative ⟨ascii "$ F1000.var_6", 0⟩) = (0xfffa : UInt64).toNat ∧
      findStackVar (some smallFrame) 0xfffa 2 = none ∧
      findStackVar (some smallFrame) 0xfffffffa 4 = some (ascii "var_6") := by
  decide

/-! ## Positions -/

theorem or_high_toNat (offset : UInt64) (ho : offset.toNat < 2 ^ 32) :
    (0xFFFFFFFF00000000 ||| offset).toNat = 0xFFFFFFFF00000000 + offset.toNat := by
  have hhigh : (0xFFFFFFFF00000000 : UInt64).toNat = 2 ^ 32 * 0xFFFFFFFF := by decide
  rw [UInt64.toNat_or, hhigh, ← Nat.two_pow_add_eq_or_of_lt ho]

theorem int32_neg_iff (offset : UInt64) (ho : offset.toNat < 2 ^ 32) :
    offset.toUInt32.toInt32 < 0 ↔ 2 ^ 31 ≤ offset.toNat := by
  have htoInt : offset.toUInt32.toInt32.toInt = (offset.toNat : Int).bmod (2 ^ 32) := by simp [Int32.toInt]
  rw [Int32.lt_iff_toInt_lt, htoInt, Int.bmod_def]
  show _ < (0 : Int) ↔ _
  split <;> omega

theorem extended_toNat (loc : MemoryLocation) (x : Int) (hw : loc.addrSize = 4 ∨ loc.addrSize = 8) (hfit : Fits 32 x)
    (hx : wrap (8 * loc.addrSize.toNat) x = loc.offset.toNat) : (extended loc).toNat = wrap 64 x := by
  obtain ⟨hlo, hhi⟩ := hfit
  unfold extended
  rcases hw with hw | hw
  · rw [hw] at hx ⊢
    have hx' : wrap 32 x = loc.offset.toNat := hx
    have ho : loc.offset.toNat < 2 ^ 32 := by
      unfold wrap at hx'
      omega
    simp only [true_and, int32_neg_iff _ ho]
    split
    · rw [or_high_toNat _ ho]
      unfold wrap at hx' ⊢
      omega
    · unfold wrap at hx' ⊢
      omega
  · have hfour : ¬ (8 : UInt32) = 4 := by decide
    rw [hw] at hx ⊢
    simp only [hfour, false_and, if_false]
    exact hx.symm

theorem framePosition_eq (frame : Frame) (loc : MemoryLocation) (member : FrameMember)
    (hoffset : (extended loc).toNat = wrap 64 (frame.relative member)) :
    framePosition frame loc = member.get_soff := by
  show extended loc + (frame.frsize + frame.frregs.toUInt64) = _
  rw [← UInt64.toNat_inj, UInt64.toNat_add, UInt64.toNat_add, UInt16.toNat_toUInt64, hoffset]
  have := member.get_soff.toNat_lt
  unfold wrap Frame.relative
  omega

/-- **Jumping.** A double click on a stack location opens the frame at the member that names it. -/
theorem doubleClick_opens_member (get_func : UInt64 → Option Frame) (code : Decompiler.Result) (keyword : Str)
    (loc : MemoryLocation) (frame : Frame) (member : FrameMember) (hfunc : get_func code.ea = some frame)
    (hloc : code.symbolAddress keyword = some loc) (hspace : loc.spaceName = ascii "stack")
    (hw : loc.addrSize = 4 ∨ loc.addrSize = 8) (ho : loc.offset.toNat < 2 ^ (8 * loc.addrSize.toNat))
    (hfit : ∀ m ∈ frame.members, Fits 32 (frame.relative m))
    (hpick : findStackMember frame loc.offset loc.addrSize = some member) :
    framePosition frame loc = member.get_soff ∧
      doubleClickCallback get_func code (some keyword) = .ok (.open_frame_window member.get_soff) := by
  have hmem := List.mem_of_find?_eq_some hpick
  have hat := List.find?_some hpick
  have hposition : framePosition frame loc = member.get_soff :=
    framePosition_eq frame loc member (extended_toNat loc _ hw (hfit member hmem)
      ((isAt_iff frame loc.addrSize hw loc.offset ho member).mp hat))
  have hram : ¬ ascii "stack" = ascii "ram" := by decide
  refine ⟨hposition, ?_⟩
  unfold doubleClickCallback
  simp only [Option.bind_some, hloc, hspace, hram, hfunc, hposition, if_false, true_or, if_true]

/-- The first local of the frame, which Ghidra sees at -6. -/
theorem doubleClick_opens_member_local :
    framePosition smallFrame ⟨ascii "stack", 0xfffffffa, 4, []⟩ = 0 ∧
      doubleClickCallback (fun _ => some smallFrame)
        ⟨0x1000, fun _ => some ⟨ascii "stack", 0xfffffffa, 4, []⟩⟩ (some (ascii "var_6")) =
          .ok (.open_frame_window 0) :=
  doubleClick_opens_member (fun _ => some smallFrame) ⟨0x1000, fun _ => some ⟨ascii "stack", 0xfffffffa, 4, []⟩⟩
    (ascii "var_6") ⟨ascii "stack", 0xfffffffa, 4, []⟩ smallFrame ⟨ascii "$ F1000.var_6", 0⟩ rfl rfl rfl (by decide)
    (by decide) (by decide) (by decide)

end Yagi
