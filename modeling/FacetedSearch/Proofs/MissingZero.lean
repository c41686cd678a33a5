import FacetedSearch.Proofs.Demands
import FacetedSearch.Proofs.FiniteBounds
import FacetedSearch.Proofs.IntegerRanges

/-!
# Missing values that count as zero

Whether a missing value is in a range is read off the numbers of its bounds, with the upper one moved up a little and
texts left aside. Whether zero is in the range is found by comparison, of texts where a bound is no number. The two
readings of a bound agree but for NaN, for texts on the wrong side of zero's and for upper bounds just below zero.
-/

namespace FacetedSearch

open FacetedSearch.Bound FacetedSearch.Binary64

/-! ## Bounds beside zero -/

namespace Bound.Value

/-- As a lower bound the value lets a missing value in; a text without a number bounds nothing. -/
def AdmitsMissingFrom (v : Value) : Prop := ∀ x, v.toFloat? = some x → x ≤ 0.0

/-- As an upper bound, moved up, the value lets a missing value in. -/
def AdmitsMissingTo (epsilon : Float) (v : Value) : Prop := ∀ x, v.toFloat? = some x → 0.0 < x + epsilon

/-- A lower bound that is read alike for zero and for a missing value: a number, or a text that is not after that of
zero. -/
def AgreesFrom : Value → Prop
  | .text s => (Decimal.float? s).elim (s ≤ "0") (·.isNaN = false)
  | _ => True

/-- An upper bound that is read alike for zero and for a missing value: an integer, a number that is not just below
zero, or a text that is not before that of zero. -/
def AgreesTo (epsilon : Float) : Value → Prop
  | .long _ => True
  | v => v.toFloat?.elim ("0" ≤ v.display) fun x => x ≤ -epsilon ∨ 0.0 ≤ x

/-- A lower bound that keeps out zero and a missing value alike: a number above zero. -/
def KeepsOutFrom (v : Value) : Prop := ∃ x, v.toFloat? = some x ∧ 0.0 < x

/-- An upper bound that keeps out zero and a missing value alike: a number that is not above zero when moved up. -/
def KeepsOutTo (epsilon : Float) (v : Value) : Prop := ∃ x, v.toFloat? = some x ∧ x ≤ -epsilon

variable {v : Value} {epsilon : Float}

theorem compare_zero (v : Value) : (Value.long 0).compare v =
    v.toFloat?.elim (Ord.compare "0" v.display) (compareFloats 0.0) := by
  have hzero : (Value.long 0).toFloat? = some 0.0 := rfl
  rw [compare, hzero]
  · cases v.toFloat? <;> rfl
  · nofun

theorem agreesFrom_iff_elim (hf : v.IsFinite) :
    v.AgreesFrom ↔ v.toFloat?.elim (v.display ≤ "0") (·.isNaN = false) := by
  cases v with
  | long n =>
      obtain ⟨p, hp⟩ := exists_place n
      exact iff_of_true trivial hp.isNaN_eq_false
  | double x => exact iff_of_true trivial (isNaN_of_isFinite hf)
  | text s => exact Iff.rfl

/-- NaN counts as equal to zero and lets nothing in. -/
theorem isNaN_eq_false_iff_from {x : Float} :
    x.isNaN = false ↔ ((compareFloats 0.0 x).isGE = true ↔ x ≤ 0.0) := by
  cases hx : x.isNaN with
  | true => simp [compareFloats_of_isNaN hx, not_le_of_isNaN (.inl hx)]
  | false =>
      obtain ⟨a, ha⟩ := exists_liesAt hx
      exact iff_of_true rfl ((liesAt_zero.isGE_compareFloats_iff ha).trans (ha.le_iff liesAt_zero).symm)

theorem agreesFrom_iff (hf : v.IsFinite) :
    v.AgreesFrom ↔ (((Value.long 0).compare v).isGE = true ↔ v.AdmitsMissingFrom) := by
  rw [agreesFrom_iff_elim hf, compare_zero, AdmitsMissingFrom]
  cases v.toFloat? with
  | none => simp [isGE_compare_text]
  | some x => simpa using isNaN_eq_false_iff_from

theorem keepsOutFrom_iff :
    v.KeepsOutFrom ↔ ¬ ((Value.long 0).compare v).isGE = true ∧ ¬ v.AdmitsMissingFrom := by
  rw [KeepsOutFrom, compare_zero, AdmitsMissingFrom]
  cases v.toFloat? with
  | none => simp
  | some x =>
      simp only [Option.some.injEq, exists_eq_left', forall_eq', Option.elim_some]
      constructor
      · intro h
        have hge : ¬ (compareFloats 0.0 x).isGE = true := by rw [compareFloats, if_pos h]; decide
        exact ⟨hge, fun hle => hge ((isNaN_eq_false_iff_from.mp (isNaN_of_lt h).2).mpr hle)⟩
      · rintro ⟨hge, -⟩
        by_contra h
        rw [compareFloats, if_neg h] at hge
        split at hge <;> exact hge rfl

section Epsilon

variable (hpos : 0.0 < epsilon) (hone : epsilon ≤ 1.0)

include hpos hone

theorem exists_liesAt_epsilon : ∃ r : ℝ, LiesAt epsilon r ∧ 0 < r ∧ r ≤ 1 := by
  obtain ⟨r, hr⟩ := exists_liesAt (isNaN_of_le hone).1
  rw [liesAt_zero.lt_iff hr] at hpos
  rw [hr.le_iff liesAt_one] at hone
  lift r to ℝ using ⟨ne_top_of_le_ne_top (EReal.coe_ne_top 1) hone, ne_bot_of_gt hpos⟩
  exact ⟨r, hr, EReal.coe_lt_coe_iff.mp hpos, EReal.coe_le_coe_iff.mp hone⟩

/-- No integer is just below zero. -/
theorem nearestFloat_le_or_ge (n : Int64) : nearestFloat n.toInt ≤ -epsilon ∨ 0.0 ≤ nearestFloat n.toInt := by
  have hn := natAbs_toInt_lt n
  rcases lt_or_ge n.toInt 0 with h | h
  · left
    obtain ⟨r, hr, -, hrone⟩ := exists_liesAt_epsilon hpos hone
    obtain ⟨p, hp, hat⟩ := liesAt_nearestFloat hn
    obtain ⟨q, hq, -⟩ := liesAt_nearestFloat (n := -1) (by decide)
    have hpq : p ≤ q := hp.mono hq (by exact_mod_cast (by omega : n.toInt ≤ -1))
    rw [hq.eq_int (by decide)] at hpq
    rw [hat.le_iff hr.neg, ← EReal.coe_neg, EReal.coe_le_coe_iff]
    push_cast at hpq
    linarith
  · exact .inr (nearestFloat_le_of_le (a := 0) (by decide) hn h)

theorem agreesTo_iff_elim :
    v.AgreesTo epsilon ↔ v.toFloat?.elim ("0" ≤ v.display) fun x => x ≤ -epsilon ∨ 0.0 ≤ x := by
  cases v with
  | long n => exact iff_of_true trivial (nearestFloat_le_or_ge hpos hone n)
  | double x => exact Iff.rfl
  | text s => exact Iff.rfl

/-- A number that is moved up gets above zero from there, or from just below. -/
theorem le_or_ge_iff_to {x : Float} :
    (x ≤ -epsilon ∨ 0.0 ≤ x) ↔ ((compareFloats 0.0 x).isLE = true ↔ 0.0 < x + epsilon) := by
  cases hx : x.isNaN with
  | true =>
      have hle : ¬ x ≤ -epsilon := not_le_of_isNaN (.inl hx)
      have hge : ¬ 0.0 ≤ x := not_le_of_isNaN (.inr hx)
      have hsum : ¬ 0.0 < x + epsilon := not_lt_of_isNaN (.inr (isNaN_add hx))
      simp [compareFloats_of_isNaN hx, hle, hge, hsum]
  | false =>
      obtain ⟨r, hr, hrpos, -⟩ := exists_liesAt_epsilon hpos hone
      obtain ⟨a, ha⟩ := exists_liesAt hx
      obtain ⟨b, hb, hside⟩ := ha.add hr
      have hneg : -(r : EReal) < 0 := by exact_mod_cast neg_lt_zero.mpr hrpos
      have hsum : 0 < a + r ↔ -(r : EReal) < a := by
        rw [← EReal.coe_neg]
        induction a with
        | bot => simp
        | top => exact iff_of_true (by simp) (EReal.coe_lt_top _)
        | coe s =>
            norm_cast
            exact neg_lt_iff_pos_add.symm
      rw [ha.le_iff hr.neg, liesAt_zero.le_iff ha, liesAt_zero.isLE_compareFloats_iff ha, liesAt_zero.lt_iff hb,
        EReal.coe_zero, hside, hsum]
      constructor
      · rintro (h | h)
        · exact iff_of_false (not_le.mpr (h.trans_lt hneg)) (not_lt.mpr h)
        · exact iff_of_true h (hneg.trans_le h)
      · intro h
        exact (le_or_gt a (-r)).imp_right h.mpr

theorem agreesTo_iff :
    v.AgreesTo epsilon ↔ (((Value.long 0).compare v).isLE = true ↔ v.AdmitsMissingTo epsilon) := by
  rw [agreesTo_iff_elim hpos hone, compare_zero, AdmitsMissingTo]
  cases v.toFloat? with
  | none => simp [isLE_compare_text]
  | some x => simpa using le_or_ge_iff_to hpos hone

theorem keepsOutTo_iff :
    v.KeepsOutTo epsilon ↔ ¬ ((Value.long 0).compare v).isLE = true ∧ ¬ v.AdmitsMissingTo epsilon := by
  rw [KeepsOutTo, compare_zero, AdmitsMissingTo]
  cases v.toFloat? with
  | none => simp
  | some x =>
      simp only [Option.some.injEq, exists_eq_left', forall_eq', Option.elim_some]
      constructor
      · intro h
        obtain ⟨r, hr, hrpos, -⟩ := exists_liesAt_epsilon hpos hone
        obtain ⟨a, ha⟩ := exists_liesAt (isNaN_of_le h).1
        have hneg : -(r : EReal) < 0 := by exact_mod_cast neg_lt_zero.mpr hrpos
        have hle : ¬ (compareFloats 0.0 x).isLE = true := by
          rw [liesAt_zero.isLE_compareFloats_iff ha, not_le]
          exact ((ha.le_iff hr.neg).mp h).trans_lt hneg
        exact ⟨hle, fun hsum => hle (((le_or_ge_iff_to hpos hone).mp (.inl h)).mpr hsum)⟩
      · rintro ⟨hle, hsum⟩
        refine ((le_or_ge_iff_to hpos hone).mpr (iff_of_false hle hsum)).resolve_right fun h => ?_
        obtain ⟨a, ha⟩ := exists_liesAt (isNaN_of_le h).2
        exact hle ((liesAt_zero.isLE_compareFloats_iff ha).mpr ((liesAt_zero.le_iff ha).mp h))

end Epsilon

end Bound.Value

namespace RangeCriterion

variable {r : RangeCriterion} {epsilon : Float}

/-! ## The two readings of a range -/

theorem lowerEnd_le_zero_iff (h : r.bounds.gt = none) :
    r.lowerEnd epsilon ≤ 0.0 ↔ ∀ v, r.bounds.gte = some v → v.AdmitsMissingFrom := by
  have hopen : (-1.0 / 0.0 : Float) ≤ 0.0 := by decide +kernel
  simp only [lowerEnd, number?, Bounds.get, h, Option.bind_none, Option.map_none, Option.or_none]
  cases r.bounds.gte with
  | none => exact iff_of_true hopen (by simp)
  | some v =>
      rw [Option.bind_some]
      simp only [Option.some.injEq, forall_eq', Value.AdmitsMissingFrom]
      cases v.toFloat? with
      | none => exact iff_of_true hopen (by simp)
      | some x => simp

theorem zero_lt_upperEnd_iff (h : r.bounds.lt = none) :
    0.0 < r.upperEnd epsilon ↔ ∀ v, r.bounds.lte = some v → v.AdmitsMissingTo epsilon := by
  have hopen : 0.0 < (1.0 / 0.0 : Float) := by decide +kernel
  simp only [upperEnd, number?, Bounds.get, h, Option.bind_none, Option.or_none]
  cases r.bounds.lte with
  | none => exact iff_of_true hopen (by simp)
  | some v =>
      rw [Option.bind_some]
      simp only [Option.some.injEq, forall_eq', Value.AdmitsMissingTo]
      cases v.toFloat? with
      | none => exact iff_of_true hopen (by simp)
      | some x => simp

variable {view : FieldView} {request : Request}

theorem includesMissing_iff_contains_zero (hr : r ∈ (Criteria.ofRequest view request).ranges)
    (hd : view.isDate r.field = false) (hz : view.missingIsZero r.field = true) (hpos : 0.0 < epsilon)
    (hone : epsilon ≤ 1.0)
    (hl : ∀ v, r.bounds.gte = some v → v.AgreesFrom ∨ ∃ w, r.bounds.lte = some w ∧ w.KeepsOutTo epsilon)
    (hu : ∀ v, r.bounds.lte = some v → v.AgreesTo epsilon ∨ ∃ w, r.bounds.gte = some w ∧ w.KeepsOutFrom) :
    r.includesMissing epsilon = true ↔ r.bounds.contains (.long 0) = true := by
  have hunbounded := unbounded_ofRequest hr
  have hdate : r.isDate = false := (congrArg RangeCriterion.isDate hunbounded).trans hd
  have hzero : r.missingIsZero = true := (congrArg RangeCriterion.missingIsZero hunbounded).trans hz
  obtain ⟨hgt, hlt⟩ := exclusive_ofRequest hr
  simp only [includesMissing, includesZero, hdate, hzero, Bool.not_false, Bool.true_and, Bool.and_eq_true,
    decide_eq_true_eq]
  rw [lowerEnd_le_zero_iff hgt, zero_lt_upperEnd_iff hlt, Bounds.contains_inclusive ⟨hgt, hlt⟩]
  -- A bound that keeps both out decides for the whole range; without one, the two bounds agree by themselves.
  by_cases hfrom : ∃ w, r.bounds.gte = some w ∧ w.KeepsOutFrom
  · obtain ⟨w, hw, hout⟩ := hfrom
    obtain ⟨hzero, hmissing⟩ := Value.keepsOutFrom_iff.mp hout
    exact iff_of_false (fun h => hmissing (h.1 w hw)) fun h => hzero (h.1 w hw)
  by_cases hto : ∃ w, r.bounds.lte = some w ∧ w.KeepsOutTo epsilon
  · obtain ⟨w, hw, hout⟩ := hto
    obtain ⟨hzero, hmissing⟩ := (Value.keepsOutTo_iff hpos hone).mp hout
    exact iff_of_false (fun h => hmissing (h.2 w hw)) fun h => hzero (h.2 w hw)
  refine and_congr (forall₂_congr fun v hv => ?_) (forall₂_congr fun v hv => ?_)
  · have hagrees : v.AgreesFrom := (hl v hv).resolve_right hto
    exact ((Value.agreesFrom_iff (Criteria.areFinite_of_mem_ranges r hr .gte v hv)).mp hagrees).symm
  · have hagrees : v.AgreesTo epsilon := (hu v hv).resolve_right hfrom
    exact ((Value.agreesTo_iff hpos hone).mp hagrees).symm

/-- On a number whose missing values count as zero, a range admits a document without the field if and only if it admits
zero there, as long as each of its bounds is read alike or the other one keeps both out. A lower bound is read alike that
is a number or a text that is not after that of zero; an upper bound that is an integer, another number that is not just
below zero, or a text that is not before that of zero. -/
theorem holds_missing_iff_zero (hr : r ∈ (Criteria.ofRequest view request).ranges)
    (hd : view.isDate r.field = false) (hz : view.missingIsZero r.field = true) (hpos : 0.0 < epsilon)
    (hone : epsilon ≤ 1.0)
    (hl : ∀ v, r.bounds.gte = some v → v.AgreesFrom ∨ ∃ w, r.bounds.lte = some w ∧ w.KeepsOutTo epsilon)
    (hu : ∀ v, r.bounds.lte = some v → v.AgreesTo epsilon ∨ ∃ w, r.bounds.gte = some w ∧ w.KeepsOutFrom)
    {rawSuffix : String} {empty zero : Scope}
    (hempty : ¬ empty.HasField (documentField rawSuffix r.queryField))
    (hzero : ∀ v, zero.HasLeaf (documentField rawSuffix r.queryField) v ↔ v = Json.ofInt64 0) :
    (r.toQuery epsilon).holds rawSuffix empty = true ↔ (r.toQuery epsilon).holds rawSuffix zero = true := by
  have hzeroField : zero.HasField (documentField rawSuffix r.queryField) := ⟨_, (hzero _).mpr rfl⟩
  have hemptyWithin : ¬ empty.HasWithin (documentField rawSuffix r.queryField) r.bounds :=
    fun ⟨v, _, hv, _⟩ => hempty ⟨v, hv⟩
  have hzeroWithin : zero.HasWithin (documentField rawSuffix r.queryField) r.bounds ↔
      r.bounds.contains (.long 0) = true := by
    simp [Scope.HasWithin, hzero, Json.ofInt64, Value.ofLeaf?, Value.ofNumber, Number.toInt64?_ofInt64]
  rw [holds_toQuery, holds_toQuery, Admits, Admits, hzeroWithin,
    includesMissing_iff_contains_zero hr hd hz hpos hone hl hu]
  simp [hemptyWithin, hempty, hzeroField]

theorem holds_missing_iff_zero_score :
    let view : FieldView := ⟨{}, ⟨fun _ _ => some { fieldType := .double, missingIsZero := true }⟩, []⟩
    let request : Request := [⟨"score.from", "-5"⟩, ⟨"score.to", "0.5"⟩]
    let empty : Json := .obj []
    let zero : Json := .obj [("embedded", .obj [("score", Json.ofInt64 0)])]
    ∃ r ∈ (Criteria.ofRequest view request).ranges,
      ((r.toQuery 0.25).holds ".raw" empty.scope = true ↔ (r.toQuery 0.25).holds ".raw" zero.scope = true) := by
  intro view request empty zero
  have hr : view.rangeSteps.gathered "score" (view.intents request) ∈ (Criteria.ofRequest view request).ranges := by
    decide +kernel
  have hgte : (view.rangeSteps.gathered "score" (view.intents request)).bounds.gte = some (.long (-5)) := by
    decide +kernel
  have hlte : (view.rangeSteps.gathered "score" (view.intents request)).bounds.lte = some (.double 0.5) := by
    decide +kernel
  have hfield : documentField ".raw" (view.rangeSteps.gathered "score" (view.intents request)).queryField =
      "embedded.score" := by decide +kernel
  have hsegments : Text.segments "embedded.score" = ["embedded", "score"] := by decide +kernel
  have hempty : ¬ empty.scope.HasField "embedded.score" := by
    rintro ⟨v, hv⟩
    rw [Scope.hasLeaf_document_iff hsegments] at hv
    simp [empty, Json.valuesAt, Json.valuesAtMember] at hv
  have hzero : ∀ v, zero.scope.HasLeaf "embedded.score" v ↔ v = Json.ofInt64 0 := fun v => by
    rw [Scope.hasLeaf_document_iff hsegments]
    simp +contextual [zero, Json.ofInt64, Json.valuesAt, Json.valuesAtMember, Json.isObject]
  rw [← hfield] at hempty hzero
  refine ⟨_, hr, holds_missing_iff_zero hr (by decide +kernel) (by decide +kernel) (by decide +kernel)
    (by decide +kernel) ?_ ?_ hempty hzero⟩
  · rintro v hv
    cases hgte.symm.trans hv
    exact .inl trivial
  · rintro v hv
    cases hlte.symm.trans hv
    exact .inl (.inr (by decide +kernel))

/-- An upper bound just below zero, which zero is above: moved up, it lets a missing value in. -/
theorem not_holds_missing_iff_zero :
    let view : FieldView := ⟨{}, ⟨fun _ _ => some { fieldType := .double, missingIsZero := true }⟩, []⟩
    let request : Request := [⟨"score.to", "-0.00000001"⟩]
    let empty : Json := .obj []
    let zero : Json := .obj [("embedded", .obj [("score", Json.ofInt64 0)])]
    ∃ r ∈ (Criteria.ofRequest view request).ranges,
      (r.toQuery view.settings.zeroEpsilon).holds ".raw" empty.scope = true ∧
        (r.toQuery view.settings.zeroEpsilon).holds ".raw" zero.scope = false := by
  intro view request empty zero
  have hr : view.rangeSteps.gathered "score" (view.intents request) ∈ (Criteria.ofRequest view request).ranges := by
    decide +kernel
  exact ⟨_, hr, by decide +kernel, by decide +kernel⟩

end RangeCriterion

end FacetedSearch
