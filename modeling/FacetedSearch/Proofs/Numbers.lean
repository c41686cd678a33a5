import Mathlib
import FacetedSearch.Json.Basic

/-!
# Finite numbers

Every JSON number has a finite binary64 value, also an integer beyond the 64-bit signed ones: rounding an integer of
at most 64 bits moves the exponent by a small amount only, far from where packing overflows.
-/

namespace FacetedSearch

open Float.Model (Format UnpackedFloat totalExponent)
open Float.Model.UnpackedFloat

/-- Zero, or a number whose exponent is well below the largest one. -/
inductive IsModerate : UnpackedFloat → Prop
  | zero {sign} : IsModerate (.zero sign)
  | finite {sign mantissa exponent pos} : exponent ≤ 900 → IsModerate (.finite sign mantissa exponent pos)

theorem unpackExponent_pack_ne {x : UnpackedFloat} (h : IsModerate x) :
    unpackExponent (pack .binary64 x) ≠ (-1#_) := by
  cases h with
  | zero => simp [pack, packedZero]
  | @finite sign mantissa exponent pos he =>
      have hbias : Format.binary64.exponentBias = 1023 := rfl
      have hb : ¬ 2 ^ 11 ≤ (exponent + (1023 : Nat) + (52 : Nat)).toNat + 1 := by omega
      simp only [pack, hbias]
      rw [if_neg hb]
      split
      · rw [unpackExponent_packComponents, Ne, BitVec.neg_one_eq_allOnes, ← BitVec.toNat_inj, BitVec.toNat_ofNat,
          BitVec.toNat_allOnes]
        omega
      · rw [unpackExponent_packComponents]
        decide

theorem isFinite_unpack_pack {x : UnpackedFloat} (h : IsModerate x) :
    (unpack .binary64 (pack .binary64 x)).isFinite = true := by
  have hne := unpackExponent_pack_ne h
  rw [unpack]
  simp only [hne, if_false]
  split
  · split <;> rfl
  · rfl

/-! ## Rounding -/

theorem log2_le {mantissa bits : Nat} (h : mantissa < 2 ^ bits) : mantissa.log2 ≤ bits := by
  by_cases hz : mantissa = 0
  · simp [hz]
  · exact Nat.le_of_lt ((Nat.log2_lt hz).mpr h)

theorem mantissa_shiftRight_le (em : ExtendedMantissa) (n : Nat) : (em >>> n).mantissa ≤ em.mantissa := by
  change (n.repeat ExtendedMantissa.shiftRightOne em).mantissa ≤ _
  induction n with
  | zero => exact Nat.le_refl _
  | succ n ih => exact Nat.le_trans (Nat.div_le_self _ 2) ih

theorem mantissa_shift_le (mantissa : Nat) (exponent : Int) (accuracy : Accuracy) :
    (shiftToTargetExponent .binary64 mantissa exponent accuracy).1.mantissa ≤ mantissa := by
  refine Nat.le_trans (mantissa_shiftRight_le _ _) ?_
  cases accuracy with
  | exact => exact Nat.le_refl _
  | inexact o => cases o <;> exact Nat.le_refl _

theorem roundedMantissa_le (em : ExtendedMantissa) : em.roundedMantissa ≤ em.mantissa + 1 := by
  rw [ExtendedMantissa.roundedMantissa]
  cases em.accuracy with
  | exact => exact Nat.le_succ _
  | inexact o => cases o <;> simp only [Accuracy.roundToNearestEven] <;> omega

/-- The exponent grows by no more than the bits of the mantissa. -/
theorem exponent_shift_bounds {mantissa bits : Nat} (h : mantissa < 2 ^ bits) {exponent : Int}
    (hmin : -1000 ≤ exponent) (accuracy : Accuracy) :
    exponent ≤ (shiftToTargetExponent .binary64 mantissa exponent accuracy).2 ∧
      (shiftToTargetExponent .binary64 mantissa exponent accuracy).2 ≤ exponent + bits := by
  have hl := log2_le h
  have hm : Format.binary64.minExponent = -1074 := rfl
  have hb : Format.binary64.mantissaBits = 53 := rfl
  simp only [shiftToTargetExponent, shiftToExponent, Format.targetExponent, totalExponent, hm, hb]
  omega

theorem isModerate_roundWithAccuracy {sign : Float.Model.UnpackedFloat.Sign} {mantissa : Nat} {exponent : Int}
    (h : mantissa < 2 ^ 200) (hmin : -1000 ≤ exponent) (hmax : exponent ≤ 200) (accuracy : Accuracy) :
    IsModerate (roundWithAccuracy .binary64 sign mantissa exponent accuracy) := by
  obtain ⟨hlow, hhigh⟩ := exponent_shift_bounds h hmin accuracy
  have hm := mantissa_shift_le mantissa exponent accuracy
  have hr := roundedMantissa_le (shiftToTargetExponent .binary64 mantissa exponent accuracy).1
  -- Rounding may carry into one more bit, which is why the mantissa is shifted twice.
  have hcarry : (shiftToTargetExponent .binary64 mantissa exponent accuracy).1.roundedMantissa < 2 ^ 201 := by omega
  obtain ⟨-, hfinal⟩ := exponent_shift_bounds hcarry (Int.le_trans hmin hlow) .exact
  rw [roundWithAccuracy]
  dsimp only
  split
  · exact .zero
  · exact .finite (by omega)

theorem isModerate_round {sign : Float.Model.UnpackedFloat.Sign} {mantissa : Nat} (h : mantissa < 2 ^ 64) :
    IsModerate (UnpackedFloat.round .binary64 sign mantissa 0) := by
  have hl := log2_le h
  have hm : Format.binary64.minExponent = -1074 := rfl
  have hb : Format.binary64.mantissaBits = 53 := rfl
  have hs : (0 - Format.binary64.targetExponent (totalExponent mantissa 0)).toNat ≤ 52 := by
    simp only [Format.targetExponent, totalExponent, hm, hb]
    omega
  have hshift : mantissa <<< (0 - Format.binary64.targetExponent (totalExponent mantissa 0)).toNat < 2 ^ 200 := by
    rw [Nat.shiftLeft_eq]
    calc
      _ ≤ mantissa * 2 ^ 52 := Nat.mul_le_mul_left _ (Nat.pow_le_pow_right (by decide) hs)
      _ < 2 ^ 200 := by omega
  rw [UnpackedFloat.round, decreaseExponent]
  exact isModerate_roundWithAccuracy hshift (by omega) (by omega) .exact

theorem isModerate_ofInt {n : Int} (h : n.natAbs < 2 ^ 64) : IsModerate (ofInt .binary64 n) := by
  rw [ofInt, UnpackedFloat.normalize]
  split
  · exact isModerate_round (by omega)
  · exact .zero
  · exact isModerate_round (by omega)

theorem isFinite_nearestFloat {n : Int} (h : n.natAbs < 2 ^ 64) : (nearestFloat n).isFinite = true := by
  change (unpack .binary64 (UInt64.ofBitVec (pack .binary64 (ofInt .binary64 n))).toBitVec).isFinite = true
  exact isFinite_unpack_pack (isModerate_ofInt h)

theorem Number.isFinite_toFloat (n : Number) : n.toFloat.isFinite = true := by
  cases n with
  | int n inRange => exact isFinite_nearestFloat (by omega)
  | float x finite => exact finite

end FacetedSearch
