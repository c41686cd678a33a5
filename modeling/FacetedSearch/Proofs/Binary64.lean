import FacetedSearch.Bound.Value
import FacetedSearch.Proofs.Numbers
import FacetedSearch.Proofs.Rounding

/-!
# Binary64 numbers on the line

Where a binary64 number lies on the extended real line. Numbers compare as their places do, an integer lies where it
rounds to, and a sum lies on the side of zero of its exact value. Operations and comparisons do not tell numbers at the
same place apart.
-/

namespace FacetedSearch.Binary64

open Float.Model (Format UnpackedFloat totalExponent)
open Float.Model.UnpackedFloat

/-! ## Places -/

/-- A mantissa of 53 bits with its exponent; the top bit is set unless the exponent is the least one. -/
structure IsCanonical (m : ℕ) (e : ℤ) : Prop where
  lt : m < 2 ^ 53
  le : -1074 ≤ e
  full : -1074 < e → 2 ^ 52 ≤ m

/-- The place of a number on the extended line; one that is not a number has none. -/
inductive IsAt : UnpackedFloat → EReal → Prop
  | top : IsAt (.infinity .positive) ⊤
  | bottom : IsAt (.infinity .negative) ⊥
  | zero {s : Sign} : IsAt (.zero s) (0 : ℝ)
  | finite {s : Sign} {m : ℕ} {e : ℤ} {pos : 0 < m} : IsCanonical m e →
      IsAt (.finite s m e pos) (signed s (m * 2 ^ e) : ℝ)

theorem IsCanonical.lt_of_exponent_lt {m n : ℕ} {e f : ℤ} (h : IsCanonical m e) (h' : IsCanonical n f) (hef : e < f) :
    (m : ℝ) * 2 ^ e < n * 2 ^ f := by
  have hm : (m : ℝ) < 2 ^ 53 := by exact_mod_cast h.lt
  have hn : (2 : ℝ) ^ 52 ≤ n := by exact_mod_cast h'.full (h.le.trans_lt hef)
  calc
    (m : ℝ) * 2 ^ e < 2 ^ 53 * 2 ^ e := by gcongr
    _ ≤ 2 ^ 52 * 2 ^ f := end_le_start hef
    _ ≤ n * 2 ^ f := by gcongr

theorem IsCanonical.compare_eq {m n : ℕ} {e f : ℤ} (h : IsCanonical m e) (h' : IsCanonical n f) :
    (compare e f).then (compare m n) = cmp ((m : ℝ) * 2 ^ e) (n * 2 ^ f) := by
  rcases lt_trichotomy e f with hlt | rfl | hlt
  · rw [compare_lt_iff_lt.mpr hlt, (cmp_eq_lt_iff ..).mpr (h.lt_of_exponent_lt h' hlt)]
    rfl
  · rw [compare_eq_iff_eq.mpr rfl, cmp_mul_pos_right (by positivity), Nat.strictMono_cast.cmp_map_eq, cmp_eq_compare]
    rfl
  · rw [compare_gt_iff_gt.mpr hlt, (cmp_eq_gt_iff ..).mpr (h'.lt_of_exponent_lt h hlt)]
    rfl

namespace IsAt

variable {u v : UnpackedFloat} {a b : EReal}

/-- Numbers compare as their places do. -/
theorem compare_eq (hu : IsAt u a) (hv : IsAt v b) : u.compare v = some (cmp a b) := by
  cases hu with
  | top =>
      cases hv with
      | top => exact congrArg some (cmp_self_eq_eq _).symm
      | bottom => exact congrArg some ((cmp_eq_gt_iff ..).mpr bot_lt_top).symm
      | zero => exact congrArg some ((cmp_eq_gt_iff ..).mpr (EReal.coe_lt_top _)).symm
      | finite _ => exact congrArg some ((cmp_eq_gt_iff ..).mpr (EReal.coe_lt_top _)).symm
  | bottom =>
      cases hv with
      | top => exact congrArg some ((cmp_eq_lt_iff ..).mpr bot_lt_top).symm
      | bottom => exact congrArg some (cmp_self_eq_eq _).symm
      | zero => exact congrArg some ((cmp_eq_lt_iff ..).mpr (EReal.bot_lt_coe _)).symm
      | finite _ => exact congrArg some ((cmp_eq_lt_iff ..).mpr (EReal.bot_lt_coe _)).symm
  | zero =>
      cases hv with
      | top => exact congrArg some ((cmp_eq_lt_iff ..).mpr (EReal.coe_lt_top _)).symm
      | bottom => exact congrArg some ((cmp_eq_gt_iff ..).mpr (EReal.bot_lt_coe _)).symm
      | zero => exact congrArg some (cmp_self_eq_eq _).symm
      | @finite s m e pos _ =>
          have hpos : (0 : ℝ) < m * 2 ^ e := by positivity
          rw [EReal.coe_strictMono.cmp_map_eq]
          cases s with
          | negative => exact congrArg some ((cmp_eq_gt_iff ..).mpr (neg_lt_zero.mpr hpos)).symm
          | positive => exact congrArg some ((cmp_eq_lt_iff ..).mpr hpos).symm
  | @finite s m e pos h =>
      have hpos : (0 : ℝ) < m * 2 ^ e := by positivity
      cases hv with
      | top => cases s <;> exact congrArg some ((cmp_eq_lt_iff ..).mpr (EReal.coe_lt_top _)).symm
      | bottom => cases s <;> exact congrArg some ((cmp_eq_gt_iff ..).mpr (EReal.bot_lt_coe _)).symm
      | zero =>
          rw [EReal.coe_strictMono.cmp_map_eq]
          cases s with
          | negative => exact congrArg some ((cmp_eq_lt_iff ..).mpr (neg_lt_zero.mpr hpos)).symm
          | positive => exact congrArg some ((cmp_eq_gt_iff ..).mpr hpos).symm
      | @finite r n f pos' h' =>
          have hpos' : (0 : ℝ) < n * 2 ^ f := by positivity
          rw [EReal.coe_strictMono.cmp_map_eq]
          cases s <;> cases r <;> simp only [UnpackedFloat.compare, signed, Option.some.injEq]
          · have hneg : StrictAnti fun x : ℝ => -x := fun _ _ => neg_lt_neg
            rw [h.compare_eq h', cmp_swap]
            exact (hneg.cmp_map_eq _ _).symm
          · exact ((cmp_eq_lt_iff ..).mpr (by linarith)).symm
          · exact ((cmp_eq_gt_iff ..).mpr (by linarith)).symm
          · exact h.compare_eq h'

end IsAt

/-! ## Operations -/

/-- The exponent of the grid for a number. -/
theorem targetExponent_eq (m : ℕ) (e : ℤ) :
    Format.binary64.targetExponent (totalExponent m e) = max (m.log2 + e - 52) (-1074) := by
  have hm : Format.binary64.minExponent = -1074 := rfl
  have hb : Format.binary64.mantissaBits = 53 := rfl
  rw [Format.targetExponent, totalExponent, hm, hb]
  congr 1
  omega

/-- A mantissa that has been rounded up to the next power of two loses its last bit, which is not set. -/
theorem carry {m : ℕ} {e : ℤ} (hm : m ≤ 2 ^ 53) (he : -1074 ≤ e) (hfull : -1074 < e → 2 ^ 52 ≤ m) :
    let shifted := shiftToTargetExponent .binary64 m e .exact
    IsCanonical shifted.1.mantissa shifted.2 ∧ (shifted.1.mantissa : ℝ) * 2 ^ shifted.2 = m * 2 ^ e := by
  dsimp only [shiftToTargetExponent, shiftToExponent]
  rw [targetExponent_eq]
  rcases Nat.lt_or_eq_of_le hm with hlt | rfl
  · have hl : m.log2 ≤ 52 := by
      rcases Nat.eq_zero_or_pos m with rfl | hp
      · exact Nat.zero_le _
      · exact Nat.le_of_lt_succ ((Nat.log2_lt hp.ne').mpr hlt)
    have hz : (max ((m.log2 : ℤ) + e - 52) (-1074) - e).toNat = 0 := by omega
    have hs : ((ExtendedMantissa.ofMantissaAndAccuracy m .exact) >>> 0).mantissa = m := rfl
    rw [hz, hs, Nat.cast_zero, add_zero]
    exact ⟨⟨hlt, he, hfull⟩, rfl⟩
  · have ho : (max (((2 ^ 53 : ℕ).log2 : ℤ) + e - 52) (-1074) - e).toNat = 1 := by
      rw [Nat.log2_two_pow]
      omega
    have hs : ((ExtendedMantissa.ofMantissaAndAccuracy (2 ^ 53) .exact) >>> 1).mantissa = 2 ^ 52 := rfl
    rw [ho, hs]
    refine ⟨⟨by norm_num, by push_cast; omega, fun _ => le_rfl⟩, ?_⟩
    push_cast
    rw [zpow_add₀ two_ne_zero]
    ring

theorem log2_shiftLeft {m : ℕ} (hm : m ≠ 0) (k : ℕ) : (m <<< k).log2 = m.log2 + k := by
  induction k with
  | zero => rfl
  | succ k ih => rw [Nat.shiftLeft_succ, Nat.log2_two_mul (by simpa using hm), ih, Nat.add_assoc]

theorem decreaseExponent_value (m : ℕ) (e t : ℤ) :
    ((decreaseExponent m e t).1 : ℝ) * 2 ^ (decreaseExponent m e t).2 = m * 2 ^ e := by
  simp only [decreaseExponent, Nat.shiftLeft_eq]
  push_cast
  rw [← zpow_natCast, mul_assoc, ← zpow_add₀ two_ne_zero]
  congr 2
  omega

/-- The mantissa on the grid of the number, with what the grid leaves out. -/
theorem exists_onGrid {m : ℕ} (hm : 0 < m) (e : ℤ) {t : ℤ} (ht : t = max ((m.log2 : ℤ) + e - 52) (-1074)) :
    let lowered := decreaseExponent m e t
    ∃ em, shiftToTargetExponent .binary64 lowered.1 lowered.2 .exact = (em, t) ∧ Locates em (m * 2 ^ e / 2 ^ t) := by
  intro lowered
  -- decreasing the exponent lengthens the mantissa by as much
  have hl : lowered.1.log2 = m.log2 + (e - t).toNat := log2_shiftLeft hm.ne' _
  have he : lowered.2 = e - (e - t).toNat := rfl
  have htarget : Format.binary64.targetExponent (totalExponent lowered.1 lowered.2) = t := by
    rw [targetExponent_eq, hl, he]
    omega
  rw [shiftToTargetExponent, htarget, shiftToExponent]
  refine ⟨_, Prod.ext rfl (by dsimp only; omega), ?_⟩
  have hx : (m : ℝ) * 2 ^ e / 2 ^ t = lowered.1 / 2 ^ (t - lowered.2).toNat := by
    rw [← decreaseExponent_value m e t, ← zpow_natCast, Int.toNat_of_nonneg (by omega), zpow_sub₀ two_ne_zero,
      div_div_eq_mul_div]
  rw [hx]
  exact (Locates.natural _).shiftRight _

theorem rounds_round (s : Sign) {m : ℕ} (hm : 0 < m) (e : ℤ) : ∃ p : ℝ, RoundsTo (m * 2 ^ e) p ∧
    IsAt (UnpackedFloat.round .binary64 s m e) (signed s p : ℝ) := by
  obtain ⟨t, ht⟩ : ∃ t, t = max ((m.log2 : ℤ) + e - 52) (-1074) := ⟨_, rfl⟩
  obtain ⟨em, hgrid, hl⟩ := exists_onGrid hm e ht
  have htop : (m : ℝ) * 2 ^ e < 2 ^ (t + 53) := by
    have h : (m : ℝ) < 2 ^ ((m.log2 : ℤ) + 1) := by
      exact_mod_cast (Nat.log2_lt hm.ne').mp (Nat.lt_succ_self m.log2)
    calc
      (m : ℝ) * 2 ^ e < 2 ^ ((m.log2 : ℤ) + 1) * 2 ^ e := by gcongr
      _ = 2 ^ ((m.log2 : ℤ) + 1 + e) := (zpow_add₀ two_ne_zero _ _).symm
      _ ≤ 2 ^ (t + 53) := zpow_le_zpow_right₀ one_le_two (by omega)
  have hfull : -1074 < t → (2 : ℝ) ^ (t + 52) ≤ m * 2 ^ e := by
    intro hlow
    have h : (2 : ℝ) ^ (m.log2 : ℤ) ≤ m := by exact_mod_cast Nat.log2_self_le hm.ne'
    calc
      (2 : ℝ) ^ (t + 52) = 2 ^ ((m.log2 : ℤ) + e) := by congr 1; omega
      _ = 2 ^ (m.log2 : ℤ) * 2 ^ e := zpow_add₀ two_ne_zero _ _
      _ ≤ m * 2 ^ e := by gcongr
  refine ⟨_, .intro hl (by omega) htop hfull, ?_⟩
  obtain ⟨hcanonical, hvalue⟩ :=
    carry (hl.roundedMantissa_le_top htop) (by omega) fun h => hl.le_roundedMantissa (hfull h)
  rw [← targetExponent_eq] at ht
  rw [UnpackedFloat.round, ← ht]
  dsimp only
  rw [roundWithAccuracy, hgrid, ← hvalue]
  dsimp only
  split
  · rename_i hz
    rw [hz]
    cases s <;> simpa [signed] using IsAt.zero
  · exact .finite hcanonical

theorem rounds_normalize (m e : ℤ) (s : Sign) : ∃ p : ℝ, Rounds (m * 2 ^ e) p ∧
    IsAt (UnpackedFloat.normalize .binary64 m e s) (p : ℝ) := by
  rw [UnpackedFloat.normalize]
  rcases lt_trichotomy m 0 with hm | rfl | hm
  · obtain ⟨p, hp, hat⟩ := rounds_round .negative (show 0 < (-m).toNat by omega) e
    have hcast : ((-m).toNat : ℝ) = -m := by exact_mod_cast Int.toNat_of_nonneg (by omega : 0 ≤ -m)
    rw [compare_lt_iff_lt.mpr hm]
    refine ⟨_, ?_, hat⟩
    simpa [signed, hcast] using Rounds.intro (s := .negative) hp
  · exact ⟨0, by simpa using Rounds.zero, .zero⟩
  · obtain ⟨p, hp, hat⟩ := rounds_round .positive (show 0 < m.toNat by omega) e
    have hcast : (m.toNat : ℝ) = m := by exact_mod_cast Int.toNat_of_nonneg hm.le
    rw [compare_gt_iff_gt.mpr hm]
    refine ⟨_, ?_, hat⟩
    simpa [signed, hcast] using Rounds.intro (s := .positive) hp

/-! ## Stored numbers -/

theorem toNat_implicitBit (v : BitVec 52) : (1#1 ++ v).toNat = 2 ^ 52 + v.toNat := by
  rw [BitVec.toNat_append, ← Nat.shiftLeft_add_eq_or_of_lt v.isLt]
  rfl

theorem unpackSign_packComponents {spec : Format} {s : Sign} {exponent mantissa} :
    Sign.ofBitVec (unpackSign (packComponents spec s exponent mantissa)) = s := by
  have h : unpackSign (packComponents spec s exponent mantissa) = s.toBitVec := by
    apply BitVec.eq_of_getLsbD_eq
    intro i hi
    obtain rfl : i = 0 := by omega
    simp [unpackSign, packComponents, BitVec.getLsbD_append, BitVec.getElem_append]
  rw [h]
  cases s <;> rfl

/-- Stored numbers are in canonical form, below the largest exponent. -/
theorem isCanonical_of_unpack {b : BitVec 64} {s : Sign} {m : ℕ} {e : ℤ} {pos : 0 < m}
    (h : unpack .binary64 b = .finite s m e pos) : IsCanonical m e ∧ e ≤ 971 := by
  have hbias : Format.binary64.exponentBias = 1023 := rfl
  have hm : (@unpackMantissa .binary64 b).toNat < 2 ^ 52 := BitVec.isLt _
  have he : (@unpackExponent .binary64 b).toNat < 2 ^ 11 := BitVec.isLt _
  rw [unpack] at h
  simp only [hbias] at h
  split at h
  · split at h <;> cases h
  · rename_i htop
    have htop : (@unpackExponent .binary64 b).toNat ≠ 2047 := by
      rw [← BitVec.toNat_inj] at htop
      exact htop
    split at h
    · split at h
      · cases h
      · rename_i hz _
        have hz : (@unpackExponent .binary64 b).toNat = 0 := congrArg BitVec.toNat hz
        simp only [hz] at h
        cases h
        exact ⟨⟨hm.trans (by decide), by decide, fun hlow => absurd hlow (by decide)⟩, by decide⟩
    · rename_i hz
      have hz : (@unpackExponent .binary64 b).toNat ≠ 0 := by
        rw [← BitVec.toNat_inj] at hz
        exact hz
      cases h
      refine ⟨⟨?_, by omega, fun _ => ?_⟩, by omega⟩
      · exact (toNat_implicitBit _).trans_lt (by omega)
      · exact (Nat.le_add_right _ _).trans_eq (toNat_implicitBit _).symm

theorem exists_isAt_unpack {b : BitVec 64} (h : (unpack .binary64 b).isNaN = false) :
    ∃ a, IsAt (unpack .binary64 b) a := by
  generalize hu : unpack .binary64 b = u at h ⊢
  cases u with
  | infinity s => cases s; exacts [⟨_, .bottom⟩, ⟨_, .top⟩]
  | notANumber => cases h
  | zero s => exact ⟨_, .zero⟩
  | finite s m e pos => exact ⟨_, .finite (isCanonical_of_unpack hu).1⟩

theorem unpack_pack_infinity (s : Sign) : unpack .binary64 (pack .binary64 (.infinity s)) = .infinity s := by
  cases s <;> rfl

theorem unpack_pack_zero (s : Sign) : unpack .binary64 (pack .binary64 (.zero s)) = .zero s := by
  cases s <;> rfl

/-- A number whose exponent fits is stored without loss. -/
theorem unpack_pack {s : Sign} {m : ℕ} {e : ℤ} {pos : 0 < m} (h : IsCanonical m e) (he : e ≤ 971) :
    unpack .binary64 (pack .binary64 (.finite s m e pos)) = .finite s m e pos := by
  have hbias : Format.binary64.exponentBias = 1023 := rfl
  have hbits : Format.binary64.mantissaBits = 53 := rfl
  have hlow := h.le
  have hlt := h.lt
  rw [pack]
  simp only [hbias, hbits]
  rw [if_neg (by omega)]
  split
  · rename_i hl
    have hm : 2 ^ 52 ≤ m := (Nat.le_log2 pos.ne').mp (by omega)
    have hexponent : (BitVec.ofNat 11 (e + (1023 : ℕ) + (52 : ℕ)).toNat).toNat = (e + 1075).toNat := by
      rw [BitVec.toNat_ofNat, Nat.mod_eq_of_lt (by omega)]
      omega
    have hmantissa : (1#1 ++ BitVec.ofNat 52 m).toNat = m := by
      rw [toNat_implicitBit, BitVec.toNat_ofNat]
      omega
    rw [unpack]
    simp only [unpackExponent_packComponents, unpackMantissa_packComponents, unpackSign_packComponents, hbias]
    have htop : BitVec.ofNat 11 (e + (1023 : ℕ) + (52 : ℕ)).toNat ≠ -1#11 := by
      rw [Ne, ← BitVec.toNat_inj, hexponent]
      exact ne_of_lt (show _ < 2047 by omega)
    have hzero : BitVec.ofNat 11 (e + (1023 : ℕ) + (52 : ℕ)).toNat ≠ 0#11 := by
      rw [Ne, ← BitVec.toNat_inj, hexponent]
      exact ne_of_gt (show 0 < _ by omega)
    rw [if_neg htop, if_neg hzero]
    congr 1
    rw [hexponent]
    omega
  · rename_i hl
    have hm : m < 2 ^ 52 := (Nat.log2_lt pos.ne').mp (by have := (Nat.log2_lt pos.ne').mpr hlt; omega)
    have he : e = -1074 := le_antisymm (not_lt.mp fun hgt => absurd (h.full hgt) (not_le.mpr hm)) hlow
    have hmantissa : (BitVec.ofNat 52 m).toNat = m := by rw [BitVec.toNat_ofNat, Nat.mod_eq_of_lt hm]
    have hne : BitVec.ofNat 52 m ≠ 0#52 := by
      rw [Ne, ← BitVec.toNat_inj, hmantissa]
      exact pos.ne'
    rw [unpack]
    simp only [unpackExponent_packComponents, unpackMantissa_packComponents, unpackSign_packComponents, hbias]
    rw [if_neg (by decide), if_pos trivial, dif_neg hne]
    subst he
    congr 1

/-- A number whose exponent is too large is stored as infinity. -/
theorem unpack_pack_overflow {s : Sign} {m : ℕ} {e : ℤ} {pos : 0 < m} (he : 971 < e) :
    unpack .binary64 (pack .binary64 (.finite s m e pos)) = .infinity s := by
  have hbias : Format.binary64.exponentBias = 1023 := rfl
  have hcapacity : 2 ^ Format.binary64.exponentBits = 2048 := rfl
  have hwidth : Format.binary64.mantissaBitsWithoutImplicit = 52 := rfl
  rw [← unpack_pack_infinity, pack, pack, hbias, if_pos (by omega)]

/-! ## Numbers of the program -/

def LiesAt (x : Float) (a : EReal) : Prop := IsAt x.toModel.unpack a

variable {x y : Float} {a b : EReal}

theorem LiesAt.lt_iff (hx : LiesAt x a) (hy : LiesAt y b) : x < y ↔ a < b := by
  change (decide (x.toModel.unpack.lt y.toModel.unpack = true)) = true ↔ _
  rw [decide_eq_true_iff, UnpackedFloat.lt, IsAt.compare_eq hx hy, beq_iff_eq, Option.some.injEq, cmp_eq_lt_iff]

theorem LiesAt.le_iff (hx : LiesAt x a) (hy : LiesAt y b) : x ≤ y ↔ a ≤ b := by
  change (decide (x.toModel.unpack.le y.toModel.unpack = true)) = true ↔ _
  rw [decide_eq_true_iff, UnpackedFloat.le, IsAt.compare_eq hx hy, Option.any_some, ← not_lt, ← cmp_eq_gt_iff]
  cases cmp a b <;> simp

/-- Numbers that have a place are compared by it. -/
theorem LiesAt.compareFloats_eq (hx : LiesAt x a) (hy : LiesAt y b) : Bound.compareFloats x y = cmp a b := by
  rw [Bound.compareFloats, cmp, cmpUsing]
  simp only [hx.lt_iff hy, hy.lt_iff hx]

theorem LiesAt.isLE_compareFloats_iff (hx : LiesAt x a) (hy : LiesAt y b) :
    (Bound.compareFloats x y).isLE = true ↔ a ≤ b := by
  rw [hx.compareFloats_eq hy, ← not_lt, ← cmp_eq_gt_iff]
  cases cmp a b <;> simp

theorem LiesAt.isGE_compareFloats_iff (hx : LiesAt x a) (hy : LiesAt y b) :
    (Bound.compareFloats x y).isGE = true ↔ b ≤ a := by
  rw [hx.compareFloats_eq hy, ← not_lt, ← cmp_eq_lt_iff]
  cases cmp a b <;> simp

/-- What is not a number is not compared. -/
theorem isNaN_of_compare {u v : UnpackedFloat} {o : Ordering} (h : u.compare v = some o) :
    u.isNaN = false ∧ v.isNaN = false := by
  cases u with
  | notANumber => cases h
  | _ =>
      cases v with
      | notANumber => cases h
      | _ => exact ⟨rfl, rfl⟩

theorem isNaN_of_le (h : x ≤ y) : x.isNaN = false ∧ y.isNaN = false := by
  change (decide (x.toModel.unpack.le y.toModel.unpack = true)) = true at h
  rw [decide_eq_true_iff, UnpackedFloat.le, Option.any_eq_true] at h
  obtain ⟨o, ho, -⟩ := h
  exact isNaN_of_compare ho

theorem isNaN_of_lt (h : x < y) : x.isNaN = false ∧ y.isNaN = false := by
  change (decide (x.toModel.unpack.lt y.toModel.unpack = true)) = true at h
  rw [decide_eq_true_iff, UnpackedFloat.lt, beq_iff_eq] at h
  exact isNaN_of_compare h

theorem not_le_of_isNaN (h : x.isNaN = true ∨ y.isNaN = true) : ¬ x ≤ y := fun hle =>
  h.elim (ne_true_of_eq_false (isNaN_of_le hle).1) (ne_true_of_eq_false (isNaN_of_le hle).2)

theorem not_lt_of_isNaN (h : x.isNaN = true ∨ y.isNaN = true) : ¬ x < y := fun hlt =>
  h.elim (ne_true_of_eq_false (isNaN_of_lt hlt).1) (ne_true_of_eq_false (isNaN_of_lt hlt).2)

/-- What is not a number counts as equal to everything. -/
theorem compareFloats_of_isNaN (h : y.isNaN = true) : Bound.compareFloats x y = .eq := by
  rw [Bound.compareFloats, if_neg (not_lt_of_isNaN (.inr h)), if_neg (not_lt_of_isNaN (.inl h))]

theorem isNaN_add (h : x.isNaN = true) : (x + y).isNaN = true := by
  change x.toModel.unpack.isNaN = true at h
  change (unpack .binary64 (pack .binary64 (x.toModel.unpack.add .binary64 y.toModel.unpack))).isNaN = true
  have hadd : ∀ v : UnpackedFloat, UnpackedFloat.add .binary64 .notANumber v = .notANumber := fun _ => rfl
  cases hu : x.toModel.unpack with
  | notANumber =>
      rw [hadd]
      rfl
  | _ =>
      rw [hu] at h
      cases h

theorem isNaN_of_isFinite (h : x.isFinite = true) : x.isNaN = false := by
  change x.toModel.unpack.isFinite = true at h
  change x.toModel.unpack.isNaN = false
  cases hu : x.toModel.unpack with
  | notANumber =>
      rw [hu] at h
      cases h
  | _ => rfl

theorem exists_liesAt (h : x.isNaN = false) : ∃ a, LiesAt x a := exists_isAt_unpack h

theorem LiesAt.isNaN_eq_false (h : LiesAt x a) : x.isNaN = false := (isNaN_of_le ((h.le_iff h).mpr le_rfl)).1

theorem liesAt_zero : LiesAt 0.0 (0 : ℝ) := IsAt.zero

theorem isAt_unpack_pack {u : UnpackedFloat} (h : IsAt u a) (hm : IsModerate u) :
    IsAt (unpack .binary64 (pack .binary64 u)) a := by
  cases h with
  | zero => rw [unpack_pack_zero]; exact .zero
  | finite hc =>
      cases hm with
      | finite he => rw [unpack_pack hc (by omega)]; exact .finite hc
  | _ => cases hm

/-- What does not fit is stored on its own side of zero. -/
theorem exists_isAt_unpack_pack {u : UnpackedFloat} (h : IsAt u a) :
    ∃ b, IsAt (unpack .binary64 (pack .binary64 u)) b ∧ (0 < b ↔ 0 < a) := by
  cases h with
  | top => exact ⟨⊤, (unpack_pack_infinity _).symm ▸ .top, Iff.rfl⟩
  | bottom => exact ⟨⊥, (unpack_pack_infinity _).symm ▸ .bottom, Iff.rfl⟩
  | zero => exact ⟨_, (unpack_pack_zero _).symm ▸ .zero, Iff.rfl⟩
  | @finite s m e pos hc =>
      rcases le_or_gt e 971 with he | he
      · exact ⟨_, (unpack_pack hc he).symm ▸ .finite hc, Iff.rfl⟩
      · have hv : (0 : ℝ) < m * 2 ^ e := by positivity
        rw [unpack_pack_overflow he]
        cases s with
        | negative =>
            have hn : ¬ (0 : EReal) < (-(m * 2 ^ e) : ℝ) :=
              not_lt.mpr (EReal.coe_nonpos.mpr (neg_nonpos.mpr hv.le))
            exact ⟨⊥, .bottom, iff_of_false not_lt_bot hn⟩
        | positive => exact ⟨⊤, .top, iff_of_true EReal.zero_lt_top (EReal.coe_pos.mpr hv)⟩

theorem liesAt_nearestFloat {n : ℤ} (h : n.natAbs < 2 ^ 64) : ∃ p : ℝ, Rounds n p ∧ LiesAt (nearestFloat n) p := by
  obtain ⟨p, hp, hat⟩ := rounds_normalize n 0 .positive
  exact ⟨p, by simpa using hp, isAt_unpack_pack hat (isModerate_ofInt h)⟩

theorem liesAt_one : LiesAt 1.0 (1 : ℝ) := by
  obtain ⟨p, hp, hat⟩ := liesAt_nearestFloat (n := 1) (by decide)
  rwa [hp.eq_int (by decide), Int.cast_one] at hat

theorem LiesAt.neg (h : LiesAt x a) : LiesAt (-x) (-a) := by
  change IsAt (unpack .binary64 (pack .binary64 x.toModel.unpack.neg)) (-a)
  rw [LiesAt] at h
  generalize hu : x.toModel.unpack = u at h
  cases h with
  | top => exact .bottom
  | bottom => exact .top
  | zero =>
      rw [UnpackedFloat.neg, unpack_pack_zero, ← EReal.coe_neg, neg_zero]
      exact .zero
  | @finite s m e pos hc =>
      rw [UnpackedFloat.neg, unpack_pack hc (isCanonical_of_unpack hu).2, ← EReal.coe_neg]
      cases s with
      | negative =>
          rw [show -signed .negative (m * 2 ^ e) = signed .positive (m * 2 ^ e) from neg_neg _]
          exact .finite (s := .positive) hc
      | positive => exact .finite (s := .negative) hc

theorem apply_mul (s : Sign) (n : ℕ) (c : ℝ) : (s.apply n : ℝ) * c = signed s (n * c) := by
  cases s <;> simp [Sign.apply, signed]

/-- Two numbers of the format add up to a whole number of the finest steps. -/
theorem rounds_sum {s r : Sign} {m n : ℕ} {e f : ℤ} {pos : 0 < m} {pos' : 0 < n} (h : IsCanonical m e)
    (h' : IsCanonical n f) : ∃ p : ℝ, IsAt (UnpackedFloat.add .binary64 (.finite s m e pos) (.finite r n f pos')) p ∧
      (0 < p ↔ 0 < signed s (m * 2 ^ e) + signed r (n * 2 ^ f)) := by
  let sum : ℤ := s.apply (decreaseExponent m e (min e f)).1 + r.apply (decreaseExponent n f (min e f)).1
  have hsum : (sum : ℝ) * 2 ^ min e f = signed s (m * 2 ^ e) + signed r (n * 2 ^ f) := by
    have hm := decreaseExponent_value m e (min e f)
    have hn := decreaseExponent_value n f (min e f)
    rw [show (decreaseExponent m e (min e f)).2 = min e f by dsimp only [decreaseExponent]; omega] at hm
    rw [show (decreaseExponent n f (min e f)).2 = min e f by dsimp only [decreaseExponent]; omega] at hn
    rw [Int.cast_add, add_mul, apply_mul, apply_mul, hm, hn]
  obtain ⟨p, hp, hat⟩ := rounds_normalize sum (min e f) .positive
  refine ⟨p, hat, hsum ▸ hp.pos_iff ?_⟩
  rcases eq_or_ne sum 0 with hz | hz
  · exact .inl (by rw [hz, Int.cast_zero, zero_mul])
  · right
    have hone : (1 : ℝ) ≤ |(sum : ℝ)| := by exact_mod_cast Int.one_le_abs hz
    have hgrid : (2 : ℝ) ^ (-1074 : ℤ) ≤ 2 ^ min e f := zpow_le_zpow_right₀ one_le_two (le_min h.le h'.le)
    rw [abs_mul, abs_of_pos (by positivity : (0 : ℝ) < 2 ^ min e f)]
    exact hgrid.trans (le_mul_of_one_le_left (by positivity) hone)

/-- A sum is on the side of zero that its exact value is on. -/
theorem IsAt.add {u v : UnpackedFloat} {r : ℝ} (hu : IsAt u a) (hv : IsAt v r) :
    ∃ b, IsAt (UnpackedFloat.add .binary64 u v) b ∧ (0 < b ↔ 0 < a + r) := by
  generalize hr : (r : EReal) = c at hv
  cases hu with
  | top =>
      cases hv with
      | top => exact absurd hr (EReal.coe_ne_top r)
      | bottom => exact absurd hr (EReal.coe_ne_bot r)
      | zero => exact ⟨⊤, .top, by simp⟩
      | finite _ => exact ⟨⊤, .top, by simp⟩
  | bottom =>
      cases hv with
      | top => exact absurd hr (EReal.coe_ne_top r)
      | bottom => exact absurd hr (EReal.coe_ne_bot r)
      | zero => exact ⟨⊥, .bottom, by simp⟩
      | finite _ => exact ⟨⊥, .bottom, by simp⟩
  | @zero s =>
      cases hv with
      | top => exact absurd hr (EReal.coe_ne_top r)
      | bottom => exact absurd hr (EReal.coe_ne_bot r)
      | @zero s' =>
          refine ⟨_, ?_, by rw [EReal.coe_zero, zero_add]⟩
          rw [UnpackedFloat.add]
          split <;> exact .zero
      | finite h => exact ⟨_, .finite h, by rw [EReal.coe_zero, zero_add]⟩
  | finite h =>
      cases hv with
      | top => exact absurd hr (EReal.coe_ne_top r)
      | bottom => exact absurd hr (EReal.coe_ne_bot r)
      | zero => exact ⟨_, .finite h, by rw [EReal.coe_zero, add_zero]⟩
      | finite h' =>
          obtain ⟨p, hat, hiff⟩ := rounds_sum h h'
          exact ⟨p, hat, by rw [EReal.coe_pos, hiff, ← EReal.coe_add, EReal.coe_pos]⟩

theorem LiesAt.add {r : ℝ} (hx : LiesAt x a) (hy : LiesAt y r) : ∃ b, LiesAt (x + y) b ∧ (0 < b ↔ 0 < a + r) := by
  obtain ⟨b, hb, hiff⟩ := IsAt.add hx hy
  obtain ⟨c, hc, hiff'⟩ := exists_isAt_unpack_pack hb
  exact ⟨c, hc, hiff'.trans hiff⟩

/-! ## Numbers at the same place -/

variable {z x' y' : Float}

theorem eq_or_zero_of_compare {u v : UnpackedFloat} (h : u.compare v = some .eq) :
    u = v ∨ ∃ s r, u = .zero s ∧ v = .zero r := by
  cases u with
  | notANumber => cases h
  | infinity s =>
      cases v with
      | infinity r => cases s <;> cases r <;> simp_all [UnpackedFloat.compare]
      | _ => cases s <;> simp [UnpackedFloat.compare] at h
  | zero s =>
      cases v with
      | zero r => exact .inr ⟨s, r, rfl, rfl⟩
      | notANumber => cases h
      | _ r => cases r <;> simp [UnpackedFloat.compare] at h
  | finite s m e pos =>
      cases v with
      | finite r n f pos' =>
          cases s <;> cases r <;> simp_all [UnpackedFloat.compare, Ordering.then_eq_eq]
      | notANumber => cases h
      | infinity r => cases s <;> cases r <;> simp [UnpackedFloat.compare] at h
      | zero r => cases s <;> simp [UnpackedFloat.compare] at h

theorem IsAt.of_zero {s r : Sign} (h : IsAt (.zero s) a) : IsAt (.zero r) a := by
  cases h
  exact .zero

/-- The numbers lie at the same place, or neither is a number. -/
def SamePlace (x y : Float) : Prop := ∀ a, LiesAt x a ↔ LiesAt y a

theorem LiesAt.place_eq (h : LiesAt x a) (h' : LiesAt x b) : a = b :=
  le_antisymm ((h.le_iff h').mp ((h.le_iff h).mpr le_rfl)) ((h'.le_iff h).mp ((h.le_iff h).mpr le_rfl))

theorem LiesAt.samePlace (hx : LiesAt x a) (hy : LiesAt y a) : SamePlace x y :=
  fun _ => ⟨fun h => hx.place_eq h ▸ hy, fun h => hy.place_eq h ▸ hx⟩

namespace SamePlace

theorem refl (x : Float) : SamePlace x x := fun _ => Iff.rfl

theorem symm (h : SamePlace x y) : SamePlace y x := fun a => (h a).symm

theorem trans (h : SamePlace x y) (h' : SamePlace y z) : SamePlace x z := fun a => (h a).trans (h' a)

theorem lt_of_lt (hx : SamePlace x x') (hy : SamePlace y y') (h : x < y) : x' < y' := by
  obtain ⟨a, ha⟩ := exists_liesAt (isNaN_of_lt h).1
  obtain ⟨b, hb⟩ := exists_liesAt (isNaN_of_lt h).2
  exact (((hx a).mp ha).lt_iff ((hy b).mp hb)).mpr ((ha.lt_iff hb).mp h)

theorem le_of_le (hx : SamePlace x x') (hy : SamePlace y y') (h : x ≤ y) : x' ≤ y' := by
  obtain ⟨a, ha⟩ := exists_liesAt (isNaN_of_le h).1
  obtain ⟨b, hb⟩ := exists_liesAt (isNaN_of_le h).2
  exact (((hx a).mp ha).le_iff ((hy b).mp hb)).mpr ((ha.le_iff hb).mp h)

theorem lt_iff (hx : SamePlace x x') (hy : SamePlace y y') : x < y ↔ x' < y' :=
  ⟨hx.lt_of_lt hy, hx.symm.lt_of_lt hy.symm⟩

theorem le_iff (hx : SamePlace x x') (hy : SamePlace y y') : x ≤ y ↔ x' ≤ y' :=
  ⟨hx.le_of_le hy, hx.symm.le_of_le hy.symm⟩

theorem compareFloats_eq (hx : SamePlace x x') (hy : SamePlace y y') :
    Bound.compareFloats x y = Bound.compareFloats x' y' := by
  rw [Bound.compareFloats, Bound.compareFloats]
  simp only [hx.lt_iff hy, hy.lt_iff hx]

/-- Only the sign of zero is not told by the place. -/
theorem unpack_eq (h : SamePlace x y) : x.toModel.unpack = y.toModel.unpack ∨
    ∃ s r, x.toModel.unpack = .zero s ∧ y.toModel.unpack = .zero r := by
  cases hx : x.isNaN with
  | true =>
      have hy : y.isNaN = true := Bool.of_not_eq_false fun hn =>
        have ⟨a, ha⟩ := exists_liesAt hn
        ne_true_of_eq_false ((h a).mpr ha).isNaN_eq_false hx
      change x.toModel.unpack.isNaN = true at hx
      change y.toModel.unpack.isNaN = true at hy
      left
      cases hu : x.toModel.unpack <;> cases hv : y.toModel.unpack <;> simp_all [UnpackedFloat.isNaN]
  | false =>
      obtain ⟨a, ha⟩ := exists_liesAt hx
      refine eq_or_zero_of_compare ?_
      rw [IsAt.compare_eq ha ((h a).mp ha), cmp_self_eq_eq]

theorem add (h : SamePlace x y) (z : Float) : SamePlace (x + z) (y + z) := by
  intro a
  change IsAt (unpack .binary64 (pack .binary64 (x.toModel.unpack.add .binary64 z.toModel.unpack))) a ↔
    IsAt (unpack .binary64 (pack .binary64 (y.toModel.unpack.add .binary64 z.toModel.unpack))) a
  rcases h.unpack_eq with heq | ⟨s, r, hs, hr⟩
  · rw [heq]
  · rw [hs, hr]
    cases z.toModel.unpack with
    | zero t =>
        simp only [UnpackedFloat.add]
        split <;> split <;> simp only [unpack_pack_zero] <;> exact ⟨IsAt.of_zero, IsAt.of_zero⟩
    | _ => exact Iff.rfl

end SamePlace

end FacetedSearch.Binary64
