import FacetedSearch.Proofs.Binary64
import FacetedSearch.Proofs.Collection

/-!
# Ranges of integers

Integers are compared as binary64 numbers. A range that is asked for with integers is the exact one up to rounding,
which no integer strictly within 53 bits notices: such bounds are the least and the greatest ones, and hold exactly
the integers between them.
-/

namespace FacetedSearch

open FacetedSearch.Bound FacetedSearch.Binary64

/-! ## Integers as binary64 numbers -/

section Rounding

variable {a b : ℤ}

/-- Rounding keeps the order of integers. -/
theorem nearestFloat_le_of_le (ha : a.natAbs < 2 ^ 64) (hb : b.natAbs < 2 ^ 64) (h : a ≤ b) :
    nearestFloat a ≤ nearestFloat b := by
  obtain ⟨p, hp, hat⟩ := liesAt_nearestFloat ha
  obtain ⟨q, hq, hat'⟩ := liesAt_nearestFloat hb
  rw [hat.le_iff hat', EReal.coe_le_coe_iff]
  exact hp.mono hq (by exact_mod_cast h)

/-- An integer strictly within 53 bits is told from every other one: its neighbours stay in their places. -/
theorem nearestFloat_le_iff (ha : a.natAbs < 2 ^ 64) (hb : b.natAbs < 2 ^ 64)
    (h : a.natAbs < 2 ^ 53 ∨ b.natAbs < 2 ^ 53) : nearestFloat a ≤ nearestFloat b ↔ a ≤ b := by
  refine ⟨fun hle => ?_, nearestFloat_le_of_le ha hb⟩
  by_contra hlt
  obtain ⟨p, hp, hat⟩ := liesAt_nearestFloat ha
  obtain ⟨q, hq, hat'⟩ := liesAt_nearestFloat hb
  rw [hat.le_iff hat', EReal.coe_le_coe_iff] at hle
  rcases h with h | h
  · obtain ⟨r, hr, -⟩ := liesAt_nearestFloat (show (a - 1).natAbs < 2 ^ 64 by omega)
    have hqr : q ≤ r := hq.mono hr (by exact_mod_cast (by omega : b ≤ a - 1))
    rw [hr.eq_int (by omega), Int.cast_sub, Int.cast_one] at hqr
    rw [hp.eq_int h.le] at hle
    linarith
  · obtain ⟨r, hr, -⟩ := liesAt_nearestFloat (show (b + 1).natAbs < 2 ^ 64 by omega)
    have hrp : r ≤ p := hr.mono hp (by exact_mod_cast (by omega : b + 1 ≤ a))
    rw [hr.eq_int (by omega), Int.cast_add, Int.cast_one] at hrp
    rw [hq.eq_int h.le] at hle
    linarith

end Rounding

/-- The order in which integers are compared with bounds. -/
def RoundsBelow (a b : Int64) : Prop := nearestFloat a.toInt ≤ nearestFloat b.toInt

section RoundsBelow

variable {a b c : Int64}

theorem natAbs_toInt_lt (a : Int64) : a.toInt.natAbs < 2 ^ 64 := by
  have := a.le_toInt
  have := a.toInt_lt
  omega

theorem exists_place (a : Int64) : ∃ p : ℝ, LiesAt (nearestFloat a.toInt) p := by
  obtain ⟨p, -, hat⟩ := liesAt_nearestFloat (natAbs_toInt_lt a)
  exact ⟨p, hat⟩

theorem RoundsBelow.trans (hab : RoundsBelow a b) (hbc : RoundsBelow b c) : RoundsBelow a c := by
  obtain ⟨p, hp⟩ := exists_place a
  obtain ⟨q, hq⟩ := exists_place b
  obtain ⟨r, hr⟩ := exists_place c
  exact (hp.le_iff hr).mpr (((hp.le_iff hq).mp hab).trans ((hq.le_iff hr).mp hbc))

theorem roundsBelow_total (a b : Int64) : RoundsBelow a b ∨ RoundsBelow b a := by
  obtain ⟨p, hp⟩ := exists_place a
  obtain ⟨q, hq⟩ := exists_place b
  exact (le_total (p : EReal) q).imp (hp.le_iff hq).mpr (hq.le_iff hp).mpr

theorem roundsBelow_of_le (h : a ≤ b) : RoundsBelow a b :=
  nearestFloat_le_of_le (natAbs_toInt_lt a) (natAbs_toInt_lt b) (Int64.le_iff_toInt_le.mp h)

theorem roundsBelow_iff (h : a.toInt.natAbs < 2 ^ 53 ∨ b.toInt.natAbs < 2 ^ 53) : RoundsBelow a b ↔ a ≤ b :=
  (nearestFloat_le_iff (natAbs_toInt_lt a) (natAbs_toInt_lt b) h).trans Int64.le_iff_toInt_le.symm

theorem isLE_compare_long : ((Value.long a).compare (.long b)).isLE = true ↔ RoundsBelow a b := by
  obtain ⟨p, hp⟩ := exists_place a
  obtain ⟨q, hq⟩ := exists_place b
  exact (hp.isLE_compareFloats_iff hq).trans (hp.le_iff hq).symm

theorem isGE_compare_long : ((Value.long a).compare (.long b)).isGE = true ↔ RoundsBelow b a := by
  obtain ⟨p, hp⟩ := exists_place a
  obtain ⟨q, hq⟩ := exists_place b
  exact (hp.isGE_compareFloats_iff hq).trans (hq.le_iff hp).symm

end RoundsBelow

/-! ## Ranges -/

/-- A bound at the first of the integers in an order, and none where there are none. -/
inductive IsFirst (le : Int64 → Int64 → Prop) (ns : List Int64) : Option Value → Prop
  | empty : ns = [] → IsFirst le ns none
  | first {n : Int64} : n ∈ ns → (∀ m ∈ ns, le n m) → IsFirst le ns (some (.long n))

namespace IsFirst

variable {le le' : Int64 → Int64 → Prop} {ns : List Int64} {v : Option Value} {n : Int64}

theorem exists_long (h : IsFirst le ns v) {w : Value} (hw : v = some w) : ∃ m, w = .long m := by
  cases h with
  | empty => cases hw
  | first => exact ⟨_, (Option.some.inj hw).symm⟩

theorem eq_first (h : IsFirst le ns v) (hn : v = some (.long n)) : n ∈ ns ∧ ∀ m ∈ ns, le n m := by
  cases h with
  | empty => cases hn
  | first hmem hall =>
      cases hn
      exact ⟨hmem, hall⟩

theorem imp (h : IsFirst le ns v) (himp : ∀ m ∈ ns, ∀ n ∈ ns, le m n → le' m n) : IsFirst le' ns v := by
  cases h with
  | empty h => exact .empty h
  | first hmem hall => exact .first hmem fun m hm => himp _ hmem m hm (hall m hm)

theorem of_widest {d : Direction} (hle : ∀ a b, RangeCriterion.isWider d (.long a) (.long b) = true → le a b)
    (h : RangeCriterion.Widest d .long ns v) : IsFirst le ns v := by
  cases h with
  | none h => exact .empty h
  | some ha hall => exact .first ha fun b hb => hle _ _ (hall b hb)

end IsFirst

/-- The bounds are at the least of the lower integers and the greatest of the upper ones, and hold the integers from
the one to the other. -/
structure Bounds.IsRangeOf (le : Int64 → Int64 → Prop) (lowers uppers : List Int64) (b : Bounds) : Prop where
  least : IsFirst le lowers b.gte
  greatest : IsFirst (fun m n => le n m) uppers b.lte
  contains_iff : ∀ n, b.contains (.long n) = true ↔
    (∀ m, b.gte = some (.long m) → le m n) ∧ ∀ m, b.lte = some (.long m) → le n m

namespace Bounds.IsRangeOf

variable {b : Bounds} {lowers uppers : List Int64} {n : Int64}

/-- Rounding makes a range no narrower. -/
theorem contains_of_between (h : b.IsRangeOf RoundsBelow lowers uppers) (hl : lowers = [] ∨ ∃ m ∈ lowers, m ≤ n)
    (hu : uppers = [] ∨ ∃ m ∈ uppers, n ≤ m) : b.contains (.long n) = true := by
  refine (h.contains_iff n).mpr ⟨fun k hk => ?_, fun k hk => ?_⟩
  · obtain ⟨hmem, hall⟩ := h.least.eq_first hk
    rcases hl with rfl | ⟨m, hm, hle⟩
    · exact absurd hmem List.not_mem_nil
    · exact (hall m hm).trans (roundsBelow_of_le hle)
  · obtain ⟨hmem, hall⟩ := h.greatest.eq_first hk
    rcases hu with rfl | ⟨m, hm, hle⟩
    · exact absurd hmem List.not_mem_nil
    · exact (roundsBelow_of_le hle).trans (hall m hm)

/-- Rounding does not tell on bounds strictly within 53 bits. -/
theorem exact (h : b.IsRangeOf RoundsBelow lowers uppers)
    (hsmall : ∀ n ∈ lowers ++ uppers, n.toInt.natAbs < 2 ^ 53) : b.IsRangeOf (· ≤ ·) lowers uppers where
  least := h.least.imp fun m hm n _ => (roundsBelow_iff (.inl (hsmall m (List.mem_append_left _ hm)))).mp
  greatest := h.greatest.imp fun m hm n _ => (roundsBelow_iff (.inr (hsmall m (List.mem_append_right _ hm)))).mp
  contains_iff n := by
    have hlower : ∀ m, b.gte = some (.long m) → (RoundsBelow m n ↔ m ≤ n) := fun m hm =>
      roundsBelow_iff (.inl (hsmall m (List.mem_append_left _ (h.least.eq_first hm).1)))
    have hupper : ∀ m, b.lte = some (.long m) → (RoundsBelow n m ↔ n ≤ m) := fun m hm =>
      roundsBelow_iff (.inr (hsmall m (List.mem_append_right _ (h.greatest.eq_first hm).1)))
    rw [h.contains_iff]
    exact and_congr (forall₂_congr hlower) (forall₂_congr hupper)

end Bounds.IsRangeOf

namespace RangeCriterion

variable {view : FieldView} {request : Request} {r : RangeCriterion}

theorem isWider_long {d : Direction} {a b : Int64} :
    isWider d (.long a) (.long b) = true ↔ if d.isLower then RoundsBelow a b else RoundsBelow b a := by
  rw [isWider]
  split
  · exact isLE_compare_long
  · exact isGE_compare_long

/-- A direction that is bounded with integers only is bounded with the widest of them. -/
theorem widest_integers (hr : r ∈ (Criteria.ofRequest view request).ranges) (hd : view.isDate r.field = false)
    {d : Direction} {ns : List Int64} (h : (view.literals request r.field d).map Decimal.int64? = ns.map some) :
    Widest d .long ns (r.bounds.get d) := by
  have hvalues : (view.literals request r.field d).map ((fresh view r.field).boundValue d) = ns.map .long := by
    rw [← List.forall₂_eq_eq_eq, List.forall₂_map_left_iff, List.forall₂_map_right_iff] at h ⊢
    refine h.imp fun literal n hn => ?_
    have hdate : (fresh view r.field).isDate = false := hd
    simp [boundValue, hdate, Value.ofLiteral, hn]
  rw [get_ofRequest hr, hvalues]
  refine widest_foldl (fun a b => ?_) (fun a b c hab hbc => ?_) ns
  · rw [isWider_long, isWider_long]
    cases d.isLower <;> simp [roundsBelow_total]
  · rw [isWider_long] at *
    cases hl : d.isLower <;> simp only [hl, if_true, Bool.false_eq_true, if_false] at *
    · exact hbc.trans hab
    · exact hab.trans hbc

/-- Bounds at integers are the range of these integers as far as rounding tells. -/
theorem isRangeOf_of_widest {b : Bounds} {lowers uppers : List Int64} (hexclusive : b.gt = none ∧ b.lt = none)
    (hl : Widest .gte .long lowers b.gte) (hu : Widest .lte .long uppers b.lte) :
    b.IsRangeOf RoundsBelow lowers uppers := by
  have hleast : IsFirst RoundsBelow lowers b.gte := .of_widest (fun _ _ => isWider_long.mp) hl
  have hgreatest : IsFirst (fun m n => RoundsBelow n m) uppers b.lte := .of_widest (fun _ _ => isWider_long.mp) hu
  refine ⟨hleast, hgreatest, fun n => ?_⟩
  rw [Bounds.contains_inclusive hexclusive]
  constructor
  · rintro ⟨hge, hle⟩
    exact ⟨fun m hm => isGE_compare_long.mp (hge _ hm), fun m hm => isLE_compare_long.mp (hle _ hm)⟩
  · rintro ⟨hge, hle⟩
    refine ⟨fun w hw => ?_, fun w hw => ?_⟩
    · obtain ⟨m, rfl⟩ := hleast.exists_long hw
      exact isGE_compare_long.mpr (hge m hw)
    · obtain ⟨m, rfl⟩ := hgreatest.exists_long hw
      exact isLE_compare_long.mpr (hle m hw)

/-- A range on a number that is asked for with integers is the range of these integers in the order of their
roundings. It holds every integer that is in the exact range, and is the exact one where all of them are strictly
within 53 bits. -/
theorem range_of_integers (hr : r ∈ (Criteria.ofRequest view request).ranges) (hd : view.isDate r.field = false)
    {lowers uppers : List Int64}
    (hl : (view.literals request r.field .gte).map Decimal.int64? = lowers.map some)
    (hu : (view.literals request r.field .lte).map Decimal.int64? = uppers.map some) :
    r.bounds.IsRangeOf RoundsBelow lowers uppers ∧
      (∀ n, (lowers = [] ∨ ∃ m ∈ lowers, m ≤ n) → (uppers = [] ∨ ∃ m ∈ uppers, n ≤ m) →
        r.bounds.contains (.long n) = true) ∧
      ((∀ n ∈ lowers ++ uppers, n.toInt.natAbs < 2 ^ 53) → r.bounds.IsRangeOf (· ≤ ·) lowers uppers) := by
  have h : r.bounds.IsRangeOf RoundsBelow lowers uppers :=
    isRangeOf_of_widest (exclusive_ofRequest hr) (widest_integers hr hd hl) (widest_integers hr hd hu)
  exact ⟨h, fun n => h.contains_of_between, h.exact⟩

theorem range_of_integers_age :
    let view : FieldView := ⟨{}, ⟨fun _ _ => some { fieldType := .long }⟩, []⟩
    let request : Request := [⟨"age.from", "5"⟩, ⟨"age.to", "9"⟩, ⟨"age.from", "-3"⟩]
    ∃ r ∈ (Criteria.ofRequest view request).ranges, r.bounds.IsRangeOf (· ≤ ·) [5, -3] [9] := by
  intro view request
  have hr : view.rangeSteps.gathered "age" (view.intents request) ∈ (Criteria.ofRequest view request).ranges := by
    decide +kernel
  have hten : ([5, -3, 9] : List Int64).all (·.toInt.natAbs < 10) = true := by decide
  have hsmall : ∀ n ∈ ([5, -3, 9] : List Int64), n.toInt.natAbs < 2 ^ 53 := fun n hn =>
    lt_trans (of_decide_eq_true (List.all_eq_true.mp hten n hn)) (by norm_num)
  exact ⟨_, hr, (range_of_integers hr (by decide +kernel) (by decide +kernel) (by decide +kernel)).2.2 hsmall⟩

/-- Two integers that round to the same number: the first one given stays, whichever is the smaller. -/
theorem not_range_of_integers :
    let view : FieldView := ⟨{}, ⟨fun _ _ => some { fieldType := .long }⟩, []⟩
    let request : Request := [⟨"age.from", "9007199254740993"⟩, ⟨"age.from", "9007199254740992"⟩]
    ∃ r ∈ (Criteria.ofRequest view request).ranges,
      ¬ r.bounds.IsRangeOf (· ≤ ·) [9007199254740993, 9007199254740992] [] := by
  intro view request
  have hr : view.rangeSteps.gathered "age" (view.intents request) ∈ (Criteria.ofRequest view request).ranges := by
    decide +kernel
  refine ⟨_, hr, fun h => ?_⟩
  have hgte : (view.rangeSteps.gathered "age" (view.intents request)).bounds.gte = some (.long 9007199254740993) := by
    decide +kernel
  have hle := (h.least.eq_first hgte).2 _ (List.mem_cons_of_mem _ (List.mem_singleton_self _))
  exact absurd hle (by decide)

end RangeCriterion

end FacetedSearch
