import Mathlib

/-!
# Rounding to binary64

The number that a binary64 operation rounds to, as a relation on the reals: the nearest point on the grid of the
numbers of the same size, ties going to the even one. Rounding keeps order and sign, and a whole number of at most 53
bits stays in its place.
-/

namespace FacetedSearch.Binary64

open Float.Model.UnpackedFloat

/-! ## Mantissas -/

/-- What a mantissa and its residual bits say of a number: it is the mantissa, or it lies before, on or after the middle
between the mantissa and the next one. -/
inductive Locates : ExtendedMantissa → ℝ → Prop
  | exact {m : ℕ} {x : ℝ} : x = m → Locates ⟨m, false, false⟩ x
  | before {m : ℕ} {x : ℝ} : m < x → x < m + 1 / 2 → Locates ⟨m, false, true⟩ x
  | middle {m : ℕ} {x : ℝ} : x = m + 1 / 2 → Locates ⟨m, true, false⟩ x
  | after {m : ℕ} {x : ℝ} : m + 1 / 2 < x → x < m + 1 → Locates ⟨m, true, true⟩ x

theorem shiftRightOne_even (k : ℕ) (r s : Bool) :
    ExtendedMantissa.shiftRightOne ⟨2 * k, r, s⟩ = ⟨k, false, r || s⟩ := by
  simp [ExtendedMantissa.shiftRightOne]

theorem shiftRightOne_odd (k : ℕ) (r s : Bool) :
    ExtendedMantissa.shiftRightOne ⟨2 * k + 1, r, s⟩ = ⟨k, true, r || s⟩ := by
  have hk : (2 * k + 1) / 2 = k := by omega
  simp [ExtendedMantissa.shiftRightOne, hk]

namespace Locates

variable {em other : ExtendedMantissa} {x y : ℝ}

theorem natural (m : ℕ) : Locates ⟨m, false, false⟩ m := .exact rfl

theorem bounds (h : Locates em x) : (em.mantissa : ℝ) ≤ x ∧ x < em.mantissa + 1 := by
  cases h <;> constructor <;> dsimp only <;> linarith

theorem eq_or_lt (h : Locates em x) :
    if em.roundBit || em.stickyBit then (em.mantissa : ℝ) < x else x = em.mantissa := by
  cases h with
  | exact h => exact h
  | before h _ => exact h
  | middle h => exact (lt_add_of_pos_right _ one_half_pos).trans_eq h.symm
  | after h _ => exact (lt_add_of_pos_right _ one_half_pos).trans h

/-- The bit that is shifted out is the new residual bit, and the earlier ones still tell an exact number. -/
theorem shiftRightOne (h : Locates em x) : Locates em.shiftRightOne (x / 2) := by
  have hb := h.bounds
  have he := h.eq_or_lt
  obtain ⟨m, r, s⟩ := em
  dsimp only at hb he
  obtain ⟨k, rfl | rfl⟩ := m.even_or_odd' <;> push_cast at hb he
  · rw [shiftRightOne_even]
    cases hrs : r || s <;> simp only [hrs, if_true, Bool.false_eq_true, if_false] at he
    · exact .exact (by linarith)
    · exact .before (by linarith) (by linarith)
  · rw [shiftRightOne_odd]
    cases hrs : r || s <;> simp only [hrs, if_true, Bool.false_eq_true, if_false] at he
    · exact .middle (by linarith)
    · exact .after (by linarith) (by linarith)

theorem shiftRight (h : Locates em x) (n : ℕ) : Locates (em >>> n) (x / 2 ^ n) := by
  change Locates (n.repeat ExtendedMantissa.shiftRightOne em) _
  induction n with
  | zero => simpa [Nat.repeat] using h
  | succ n ih =>
      rw [pow_succ, ← div_div]
      exact ih.shiftRightOne

theorem roundedMantissa_bounds (h : Locates em x) :
    em.mantissa ≤ em.roundedMantissa ∧ em.roundedMantissa ≤ em.mantissa + 1 := by
  cases h <;>
    simp only [ExtendedMantissa.roundedMantissa, ExtendedMantissa.accuracy, Accuracy.roundToNearestEven] <;> omega

/-- Rounding keeps order. -/
theorem roundedMantissa_le (hx : Locates em x) (hy : Locates other y) (hxy : x ≤ y) :
    em.roundedMantissa ≤ other.roundedMantissa := by
  have hle : em.mantissa ≤ other.mantissa := by
    have h : (em.mantissa : ℝ) < (other.mantissa + 1 : ℕ) := by
      push_cast
      exact lt_of_le_of_lt (hx.bounds.1.trans hxy) hy.bounds.2
    exact Nat.lt_succ_iff.mp (by exact_mod_cast h)
  rcases Nat.lt_or_eq_of_le hle with hlt | heq
  · exact hx.roundedMantissa_bounds.2.trans (Nat.le_trans hlt hy.roundedMantissa_bounds.1)
  · -- with the same mantissa the residual bits decide, and they are in order
    cases hx <;> cases hy <;> cases heq <;>
      simp only [ExtendedMantissa.roundedMantissa, ExtendedMantissa.accuracy, Accuracy.roundToNearestEven] <;>
      first
      | omega
      | linarith

/-- The rounded mantissa of a number below the end of the grid; rounding may reach the end. -/
theorem roundedMantissa_le_top {t : ℤ} (h : Locates em (x / 2 ^ t)) (hx : x < 2 ^ (t + 53)) :
    em.roundedMantissa ≤ 2 ^ 53 := by
  refine h.roundedMantissa_le (natural _) ?_
  rw [div_le_iff₀ (by positivity)]
  refine hx.le.trans_eq ?_
  rw [zpow_add₀ two_ne_zero, mul_comm]
  norm_cast

theorem le_roundedMantissa {t : ℤ} (h : Locates em (x / 2 ^ t)) (hx : 2 ^ (t + 52) ≤ x) :
    2 ^ 52 ≤ em.roundedMantissa := by
  refine (natural (2 ^ 52)).roundedMantissa_le h ?_
  rw [le_div_iff₀ (by positivity)]
  refine Eq.trans_le ?_ hx
  rw [zpow_add₀ two_ne_zero, mul_comm]
  norm_cast

/-- A whole number of steps stays in its place. -/
theorem roundedMantissa_eq {k : ℕ} (h : Locates em k) : em.roundedMantissa = k :=
  le_antisymm (h.roundedMantissa_le (natural k) le_rfl) ((natural k).roundedMantissa_le h le_rfl)

end Locates

/-! ## Rounding -/

/-- One grid ends where the next one starts. -/
theorem end_le_start {t u : ℤ} (h : t < u) : (2 : ℝ) ^ 53 * 2 ^ t ≤ 2 ^ 52 * 2 ^ u :=
  calc
    (2 : ℝ) ^ 53 * 2 ^ t = 2 ^ 52 * 2 ^ (t + 1) := by rw [zpow_add₀ two_ne_zero]; ring
    _ ≤ 2 ^ 52 * 2 ^ u := by gcongr; exacts [one_le_two, h]

/-- The grid of the numbers that are as large as this one, and the nearest point on it. -/
inductive RoundsTo (x : ℝ) : ℝ → Prop
  | intro {em : ExtendedMantissa} {t : ℤ} : Locates em (x / 2 ^ t) → -1074 ≤ t → x < 2 ^ (t + 53) →
      (-1074 < t → 2 ^ (t + 52) ≤ x) → RoundsTo x (em.roundedMantissa * 2 ^ t)

namespace RoundsTo

variable {x y p q : ℝ}

theorem nonneg (h : RoundsTo x p) : 0 ≤ x ∧ 0 ≤ p := by
  obtain ⟨hl, -, -, -⟩ := h
  rename_i em t
  refine ⟨?_, by positivity⟩
  have hx : 0 ≤ x / 2 ^ t := (Nat.cast_nonneg _).trans hl.bounds.1
  calc
    0 ≤ x / 2 ^ t * 2 ^ t := by positivity
    _ = x := div_mul_cancel₀ _ (by positivity)

theorem mono (hx : RoundsTo x p) (hy : RoundsTo y q) (hxy : x ≤ y) : p ≤ q := by
  obtain ⟨hx, htx, hbx, hfx⟩ := hx
  obtain ⟨hy, hty, hby, hfy⟩ := hy
  rename_i em t other u
  rcases lt_trichotomy t u with htu | rfl | htu
  · -- the numbers are on either side of a power of two
    have hbelow : (em.roundedMantissa : ℝ) ≤ 2 ^ 53 := by exact_mod_cast hx.roundedMantissa_le_top hbx
    have habove : (2 : ℝ) ^ 52 ≤ other.roundedMantissa := by
      exact_mod_cast hy.le_roundedMantissa (hfy (htx.trans_lt htu))
    calc
      (em.roundedMantissa : ℝ) * 2 ^ t ≤ 2 ^ 53 * 2 ^ t := by gcongr
      _ ≤ 2 ^ 52 * 2 ^ u := end_le_start htu
      _ ≤ other.roundedMantissa * 2 ^ u := by gcongr
  · have h : (em.roundedMantissa : ℝ) ≤ other.roundedMantissa :=
      Nat.cast_le.mpr (hx.roundedMantissa_le hy (by gcongr))
    gcongr
  · exfalso
    have h := hfx (hty.trans_lt htu)
    have hle : (2 : ℝ) ^ (u + 53) ≤ 2 ^ (t + 52) := zpow_le_zpow_right₀ one_le_two (by omega)
    linarith

/-- A natural number of at most 53 bits stays in its place, and so does the next one. -/
theorem eq_natural {k : ℕ} (hk : k ≤ 2 ^ 53) (h : RoundsTo k p) : p = k := by
  obtain ⟨hl, ht, hb, hf⟩ := h
  rename_i em t
  -- the number is a whole number of grid steps
  obtain ⟨steps, hs⟩ : ∃ steps : ℕ, (k : ℝ) / 2 ^ t = steps := by
    rcases le_or_gt t 0 with hn | hp
    · refine ⟨k * 2 ^ (-t).toNat, ?_⟩
      push_cast
      rw [← zpow_natCast, Int.toNat_of_nonneg (by omega), zpow_neg, div_eq_mul_inv]
    · have hk' : (2 : ℝ) ^ (t + 52) ≤ 2 ^ (53 : ℤ) := (hf (by omega)).trans (by exact_mod_cast hk)
      have ht1 : t = 1 := by have := (zpow_le_zpow_iff_right₀ one_lt_two).mp hk'; omega
      subst ht1
      have hk2 : k = 2 ^ 53 := le_antisymm hk (by exact_mod_cast hf (by omega))
      exact ⟨2 ^ 52, by rw [hk2]; norm_num⟩
  rw [hs] at hl
  rw [hl.roundedMantissa_eq, ← hs, div_mul_cancel₀ _ (by positivity)]

/-- No number on the finest grid is lost. -/
theorem pos (hx : 2 ^ (-1074 : ℤ) ≤ x) (h : RoundsTo x p) : 0 < p := by
  obtain ⟨hl, ht, hb, hf⟩ := h
  rename_i em t
  have hone : 1 ≤ em.roundedMantissa := by
    refine (Locates.natural 1).roundedMantissa_le hl ?_
    rw [le_div_iff₀ (by positivity), Nat.cast_one, one_mul]
    rcases eq_or_lt_of_le ht with rfl | ht
    · exact hx
    · exact (zpow_le_zpow_right₀ one_le_two (by omega)).trans (hf ht)
  have : (0 : ℝ) < em.roundedMantissa := by exact_mod_cast hone
  positivity

end RoundsTo

def signed : Sign → ℝ → ℝ
  | .negative, x => -x
  | .positive, x => x

/-- The same on both sides of zero. -/
inductive Rounds : ℝ → ℝ → Prop
  | intro {s : Sign} {x p : ℝ} : RoundsTo x p → Rounds (signed s x) (signed s p)

namespace Rounds

variable {x y p q : ℝ}

theorem zero : Rounds 0 0 := by
  have h : RoundsTo 0 ((⟨0, false, false⟩ : ExtendedMantissa).roundedMantissa * 2 ^ (-1074 : ℤ)) :=
    .intro (by simpa using Locates.natural 0) le_rfl (by positivity) (fun h => absurd h (lt_irrefl _))
  simpa [signed, ExtendedMantissa.roundedMantissa, ExtendedMantissa.accuracy, Accuracy.roundToNearestEven] using
    Rounds.intro (s := .positive) h

theorem mono (hx : Rounds x p) (hy : Rounds y q) (hxy : x ≤ y) : p ≤ q := by
  obtain ⟨hx⟩ := hx
  obtain ⟨hy⟩ := hy
  rename_i s x p r y q
  obtain ⟨hx0, hp0⟩ := hx.nonneg
  obtain ⟨hy0, hq0⟩ := hy.nonneg
  cases s <;> cases r <;> simp only [signed] at hxy ⊢
  · exact neg_le_neg (hy.mono hx (neg_le_neg_iff.mp hxy))
  · linarith
  · -- both are zero
    have hle := hx.mono hy (by linarith)
    have hq : q = (0 : ℕ) := RoundsTo.eq_natural (by simp) (by rwa [show y = (0 : ℕ) by push_cast; linarith] at hy)
    push_cast at hq
    linarith
  · exact hx.mono hy hxy

theorem eq_int {k : ℤ} (hk : k.natAbs ≤ 2 ^ 53) (h : Rounds k p) : p = k := by
  generalize hx : (k : ℝ) = x at h
  obtain ⟨h⟩ := h
  rename_i s x p
  have hxk : x = k.natAbs := by
    rw [Nat.cast_natAbs, Int.cast_abs, hx, ← abs_of_nonneg h.nonneg.1]
    cases s <;> simp [signed]
  rw [hxk] at h
  rw [RoundsTo.eq_natural hk h, ← hxk]

theorem pos_iff (h : Rounds x p) (hx : x = 0 ∨ 2 ^ (-1074 : ℤ) ≤ |x|) : 0 < p ↔ 0 < x := by
  obtain ⟨h⟩ := h
  rename_i s x p
  obtain ⟨hx0, hp0⟩ := h.nonneg
  cases s <;> simp only [signed, abs_neg, neg_eq_zero, abs_of_nonneg hx0] at hx ⊢
  · constructor <;> intro <;> linarith
  · rcases hx with rfl | hx
    · have hp : p = (0 : ℕ) := RoundsTo.eq_natural (by simp) (by exact_mod_cast h)
      simp [hp]
    · exact iff_of_true (h.pos hx) (lt_of_lt_of_le (by positivity) hx)

end Rounds

end FacetedSearch.Binary64
