import Mathlib.Algebra.Group.Int.Defs
import Mathlib.Algebra.Group.Nat.Defs

/-!
# Two's complement

A signed number of a given width, and the unsigned number that stands for it.
-/

namespace Twos

def wrap (bits : Nat) (x : Int) : Nat := (x % 2 ^ bits).toNat

def Fits (bits : Nat) (x : Int) : Prop := -2 ^ (bits - 1) ≤ x ∧ x < 2 ^ (bits - 1)

instance (bits : Nat) (x : Int) : Decidable (Fits bits x) := inferInstanceAs (Decidable (_ ∧ _))

theorem two_pow_pos (bits : Nat) : (0 : Int) < 2 ^ bits := Int.pow_pos (by decide)

theorem wrap_cast (bits : Nat) (x : Int) : (wrap bits x : Int) = x % 2 ^ bits :=
  Int.toNat_of_nonneg (Int.emod_nonneg x (Int.ne_of_gt (two_pow_pos bits)))

theorem wrap_inj (bits : Nat) (hbits : 0 < bits) (x y : Int) (hx : Fits bits x) (hy : Fits bits y) :
    wrap bits x = wrap bits y ↔ x = y := by
  refine ⟨?_, fun h => by rw [h]⟩
  intro h
  have hmod : x % 2 ^ bits = y % 2 ^ bits := by rw [← wrap_cast, ← wrap_cast, h]
  have hhalf : (2 : Int) ^ bits = 2 * 2 ^ (bits - 1) := by
    rw [← Int.pow_succ']
    congr 1
    omega
  obtain ⟨k, hk⟩ := Int.dvd_of_emod_eq_zero (Int.emod_eq_emod_iff_emod_sub_eq_zero.mp hmod)
  obtain ⟨hxlo, hxhi⟩ := hx
  obtain ⟨hylo, hyhi⟩ := hy
  have hpos := two_pow_pos bits
  have hlt : 2 ^ bits * k < 2 ^ bits * 1 := by omega
  have hgt : 2 ^ bits * (-1) < 2 ^ bits * k := by omega
  have hk1 := Int.lt_of_mul_lt_mul_left hlt (Int.le_of_lt hpos)
  have hk2 := Int.lt_of_mul_lt_mul_left hgt (Int.le_of_lt hpos)
  obtain rfl : k = 0 := by omega
  omega

end Twos
