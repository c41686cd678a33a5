import FacetedSearch.Proofs.Demands
import FacetedSearch.Proofs.FiniteBounds
import FacetedSearch.Proofs.IntegerRanges

/-!
# Merging bounds in any order

Of several bounds in one direction one stays, the first that none of the others beats when they meet. The order in
which bounds are added does not matter if and only if one of them is strictly wider than all those that can be told
from it. That is so on dates, and for numbers among numbers. A text and two numbers can beat each other in a circle,
since numbers are compared with each other as numbers and with the text as texts.
-/

namespace FacetedSearch

open FacetedSearch.Bound FacetedSearch.Binary64

/-! ## Bounds that are not told apart -/

namespace Bound.Value

variable {among : Value → Prop} {a b c v : Value} {d : Direction}

def isText : Value → Bool
  | .text _ => true
  | _ => false

/-- Two values are compared as numbers where both denote one, and as texts otherwise. -/
def compareMixed (a b : Value) : Ordering :=
  match a.toFloat?, b.toFloat? with
  | some x, some y => compareFloats x y
  | _, _ => Ord.compare a.display b.display

theorem compare_eq_mixed (h : a.isText = false ∨ b.isText = false) : a.compare b = a.compareMixed b := by
  cases a with
  | text s =>
      cases b with
      | text t => exact (h.elim nofun nofun)
      | _ => rfl
  | _ => rfl

theorem compareFloats_swap (x y : Float) : (compareFloats x y).swap = compareFloats y x := by
  have hasymm : x < y → ¬ y < x := fun hxy hyx => by
    obtain ⟨hx, hy⟩ := isNaN_of_lt hxy
    obtain ⟨p, hp⟩ := exists_liesAt hx
    obtain ⟨q, hq⟩ := exists_liesAt hy
    exact lt_asymm ((hp.lt_iff hq).mp hxy) ((hq.lt_iff hp).mp hyx)
  rw [compareFloats, compareFloats]
  split
  · rename_i h
    rw [if_neg (hasymm h)]
    rfl
  · split <;> rfl

theorem compare_swap (a b : Value) : (a.compare b).swap = b.compare a := by
  have htexts : ∀ s t : String, (Ord.compare s t).swap = Ord.compare t s := fun s t =>
    (Std.OrientedOrd.eq_swap (a := t)).symm
  by_cases h : a.isText = false ∨ b.isText = false
  · rw [compare_eq_mixed h, compare_eq_mixed h.symm, compareMixed, compareMixed]
    cases a.toFloat? with
    | none => cases b.toFloat? <;> exact htexts _ _
    | some x =>
        cases b.toFloat? with
        | none => exact htexts _ _
        | some y => exact compareFloats_swap x y
  · cases a <;> cases b <;> first | exact htexts _ _ | exact absurd (by simp [isText]) h

/-- No value of a kind tells the bounds apart, and the numbers they denote, if any, are at the same place. -/
structure Alike (among : Value → Prop) (a b : Value) : Prop where
  compare_eq : ∀ v, among v → v.compare a = v.compare b
  samePlace : Option.Rel SamePlace a.toFloat? b.toFloat?

namespace Alike

theorem refl (a : Value) : a.Alike among a where
  compare_eq _ _ := rfl
  samePlace := by
    cases a.toFloat? with
    | none => exact .none
    | some x => exact .some (.refl x)

theorem symm (h : a.Alike among b) : b.Alike among a where
  compare_eq v hv := (h.compare_eq v hv).symm
  samePlace := by
    have hab := h.samePlace
    generalize a.toFloat? = x, b.toFloat? = y at hab ⊢
    cases hab with
    | none => exact .none
    | some hp => exact .some hp.symm

theorem trans (h : a.Alike among b) (h' : b.Alike among c) : a.Alike among c where
  compare_eq v hv := (h.compare_eq v hv).trans (h'.compare_eq v hv)
  samePlace := by
    have hab := h.samePlace
    have hbc := h'.samePlace
    generalize a.toFloat? = x, b.toFloat? = y, c.toFloat? = z at hab hbc ⊢
    cases hab with
    | none => exact hbc
    | some hp => cases hbc with | some hq => exact .some (hp.trans hq)

theorem isWider_eq (h : a.Alike among b) (hv : among v) :
    RangeCriterion.isWider d v a = RangeCriterion.isWider d v b := by
  rw [RangeCriterion.isWider, RangeCriterion.isWider, h.compare_eq v hv]

end Alike

/-- The value is a number at this place. -/
def IsNumberAt (v : Value) (p : EReal) : Prop := v.isText = false ∧ ∃ x, v.toFloat? = some x ∧ LiesAt x p

theorem exists_isNumberAt (hf : v.IsFinite) (ht : v.isText = false) : ∃ p, v.IsNumberAt p := by
  cases v with
  | long n =>
      obtain ⟨p, hp⟩ := exists_place n
      exact ⟨p, ht, _, rfl, hp⟩
  | double x =>
      obtain ⟨p, hp⟩ := exists_liesAt (isNaN_of_isFinite hf)
      exact ⟨p, ht, x, rfl, hp⟩
  | text s => cases ht

namespace IsNumberAt

variable {p q : EReal}

theorem isWider_iff (ha : a.IsNumberAt p) (hb : b.IsNumberAt q) :
    RangeCriterion.isWider d a b = true ↔ if d.isLower then p ≤ q else q ≤ p := by
  obtain ⟨hat, x, hx, hp⟩ := ha
  obtain ⟨-, y, hy, hq⟩ := hb
  rw [RangeCriterion.isWider, compare_eq_mixed (.inl hat), compareMixed, hx, hy]
  split
  · exact hp.isLE_compareFloats_iff hq
  · exact hp.isGE_compareFloats_iff hq

/-- Numbers are told apart by their places only, among numbers. -/
theorem alike (ha : a.IsNumberAt p) (hb : b.IsNumberAt p) (hamong : ∀ v, among v → v.toFloat?.isSome = true) :
    a.Alike among b := by
  obtain ⟨hat, x, hx, hp⟩ := ha
  obtain ⟨hbt, y, hy, hq⟩ := hb
  constructor
  · intro v hv
    obtain ⟨z, hz⟩ := Option.isSome_iff_exists.mp (hamong v hv)
    rw [compare_eq_mixed (.inr hat), compare_eq_mixed (.inr hbt), compareMixed, compareMixed, hx, hy, hz]
    exact (SamePlace.refl z).compareFloats_eq (hp.samePlace hq)
  · rw [hx, hy]
    exact .some (hp.samePlace hq)

end IsNumberAt

end Bound.Value

namespace RangeCriterion

variable {among : Value → Prop} {d : Direction} {a b v w : Value} {vs : List Value}

/-- Of two bounds that meet, one is at least as wide as the other. -/
theorem isWider_of_not (h : isWider d a b = false) : isWider d b a = true := by
  rw [isWider, ← Value.compare_swap b a] at h
  rw [isWider]
  generalize b.compare a = o at h ⊢
  cases o <;> cases hd : d.isLower <;> simp [hd] at h ⊢

/-! ## The bound that stays -/

/-- The bound that stays is one of those given. -/
theorem exists_foldl_wider (vs : List Value) (a : Value) :
    ∃ v ∈ a :: vs, vs.foldl (wider d) (some a) = some v := by
  induction vs generalizing a with
  | nil => exact ⟨a, List.mem_cons_self, rfl⟩
  | cons b vs ih =>
      rw [List.foldl_cons, wider, Option.any_some]
      split
      · obtain ⟨v, hv, h⟩ := ih a
        exact ⟨v, (List.cons_subset_cons a (List.subset_cons_self b vs)) hv, h⟩
      · obtain ⟨v, hv, h⟩ := ih b
        exact ⟨v, List.mem_cons_of_mem a hv, h⟩

/-- A bound stays while it meets none that is strictly wider. -/
theorem foldl_wider_eq (h : ∀ v ∈ vs, isWider d a v = true) : vs.foldl (wider d) (some a) = some a := by
  induction vs with
  | nil => rfl
  | cons b vs ih =>
      rw [List.forall_mem_cons] at h
      rw [List.foldl_cons, wider, Option.any_some, if_pos h.1]
      exact ih h.2

/-- One of the bounds is strictly wider than all those that can be told from it. -/
def Decided (among : Value → Prop) (d : Direction) (vs : List Value) : Prop :=
  vs ≠ [] → ∃ w ∈ vs, ∀ v ∈ vs, v.Alike among w ∨ isWider d v w = false

/-- In whatever order they are met, a bound like the widest one stays. -/
theorem exists_foldl_alike (hamong : ∀ v ∈ a :: vs, among v)
    (hw : ∀ v ∈ a :: vs, v.Alike among w ∨ isWider d v w = false) (hmet : ∃ v ∈ a :: vs, v.Alike among w) :
    ∃ v, vs.foldl (wider d) (some a) = some v ∧ v.Alike among w := by
  induction vs generalizing a with
  | nil =>
      obtain ⟨v, hv, hlike⟩ := hmet
      exact ⟨v, congrArg some (List.mem_singleton.mp hv).symm, hlike⟩
  | cons b vs ih =>
      rw [List.forall_mem_cons, List.forall_mem_cons] at hamong hw
      obtain ⟨ha, hb, hamong⟩ := hamong
      obtain ⟨hwa, hwb, hw⟩ := hw
      simp only [List.mem_cons, exists_eq_or_imp] at hmet
      rw [List.foldl_cons, wider, Option.any_some]
      split
      · rename_i hab
        -- if the new bound is like the widest one, so is the earlier one, which is as wide
        have hback : b.Alike among w → a.Alike among w := fun hlike =>
          hwa.resolve_right (by simp [← hlike.isWider_eq ha, hab])
        refine ih (List.forall_mem_cons.mpr ⟨ha, hamong⟩) (List.forall_mem_cons.mpr ⟨hwa, hw⟩) ?_
        simp only [List.mem_cons, exists_eq_or_imp]
        exact hmet.elim .inl (Or.imp_left hback)
      · rename_i hab
        have hforth : a.Alike among w → b.Alike among w := fun hlike =>
          hwb.resolve_right (by simp [← hlike.isWider_eq hb, isWider_of_not (eq_false_of_ne_true hab)])
        refine ih (List.forall_mem_cons.mpr ⟨hb, hamong⟩) (List.forall_mem_cons.mpr ⟨hwb, hw⟩) ?_
        simp only [List.mem_cons, exists_eq_or_imp]
        exact hmet.elim (.inl ∘ hforth) id

/-! ## Lists of bounds -/

/-- The criterion with these bounds only, added one after the other. -/
def bounded (r : RangeCriterion) (boundaries : List (Direction × String)) : RangeCriterion :=
  boundaries.foldl (fun r b => r.addBound b.1 b.2) r.unbounded

/-- What the literals in one direction stand for. -/
def values (r : RangeCriterion) (boundaries : List (Direction × String)) (d : Direction) : List Value :=
  (boundaries.filter (·.1 = d)).map fun b => r.boundValue d b.2

variable {r : RangeCriterion} {boundaries others : List (Direction × String)}

theorem mem_values : v ∈ r.values boundaries d ↔ ∃ b ∈ boundaries, b.1 = d ∧ r.boundValue d b.2 = v := by
  simp [values, and_assoc]

theorem values_perm (h : boundaries.Perm others) (d : Direction) :
    (r.values boundaries d).Perm (r.values others d) := (h.filter _).map _

theorem unbounded_bounded : (r.bounded boundaries).unbounded = r.unbounded := by
  rw [bounded]
  induction boundaries using List.reverseRecOn with
  | nil => rfl
  | append_singleton boundaries b ih => rw [List.foldl_concat, unbounded_addBound, ih]

theorem boundValue_bounded (d : Direction) (literal : String) :
    (r.bounded boundaries).boundValue d literal = r.boundValue d literal := by
  have hdate : (r.bounded boundaries).isDate = r.isDate := (congrArg RangeCriterion.isDate unbounded_bounded :)
  rw [boundValue, hdate, boundValue]

/-- The bound in one direction, from the literals in that direction alone. -/
theorem get_bounded (d : Direction) :
    (r.bounded boundaries).bounds.get d = (r.values boundaries d).foldl (wider d) none := by
  induction boundaries using List.reverseRecOn with
  | nil => cases d <;> rfl
  | append_singleton boundaries b ih =>
      have hlast : r.bounded (boundaries ++ [b]) = (r.bounded boundaries).addBound b.1 b.2 := List.foldl_concat ..
      rw [hlast, get_addBound, values, List.filter_append, List.map_append, List.foldl_append, ← values, ← ih]
      split
      · rename_i hd
        subst hd
        rw [boundValue_bounded, List.filter_cons_of_pos (by simp)]
        rfl
      · rename_i hd
        rw [List.filter_cons_of_neg (by simpa using hd)]
        rfl

theorem get_bounded_cases (r : RangeCriterion) (boundaries : List (Direction × String)) (d : Direction) :
    (r.values boundaries d = [] ∧ (r.bounded boundaries).bounds.get d = none) ∨
      ∃ v ∈ r.values boundaries d, (r.bounded boundaries).bounds.get d = some v := by
  rw [get_bounded]
  cases r.values boundaries d with
  | nil => exact .inl ⟨rfl, rfl⟩
  | cons a vs => exact .inr (exists_foldl_wider vs a)

theorem exists_get_bounded_alike (hamong : ∀ v ∈ r.values boundaries d, among v) (hw : w ∈ r.values boundaries d)
    (hbeats : ∀ v ∈ r.values boundaries d, v.Alike among w ∨ isWider d v w = false) :
    ∃ v, (r.bounded boundaries).bounds.get d = some v ∧ v.Alike among w := by
  rw [get_bounded]
  cases hvs : r.values boundaries d with
  | nil => exact absurd (hvs ▸ hw) List.not_mem_nil
  | cons a vs =>
      rw [hvs] at hw hamong hbeats
      exact exists_foldl_alike hamong hbeats ⟨w, hw, .refl w⟩

/-- Where one bound is strictly wider than those that can be told from it, all orders end with a bound like it. -/
theorem get_bounded_alike (hamong : ∀ v ∈ r.values boundaries d, among v)
    (hdecided : Decided among d (r.values boundaries d)) (h : boundaries.Perm others) :
    Option.Rel (Value.Alike among) ((r.bounded boundaries).bounds.get d) ((r.bounded others).bounds.get d) := by
  have hmem : ∀ v, v ∈ r.values others d ↔ v ∈ r.values boundaries d := fun v => (values_perm h d).symm.mem_iff
  by_cases hvs : r.values boundaries d = []
  · have hvs' : r.values others d = [] := ((values_perm h d).symm.trans (.of_eq hvs)).eq_nil
    rw [get_bounded, get_bounded, hvs, hvs']
    exact .none
  · obtain ⟨w, hw, hbeats⟩ := hdecided hvs
    obtain ⟨a, ha, hlike⟩ := exists_get_bounded_alike hamong hw hbeats
    obtain ⟨b, hb, hlike'⟩ := exists_get_bounded_alike (fun v hv => hamong v ((hmem v).mp hv)) ((hmem w).mpr hw)
      fun v hv => hbeats v ((hmem v).mp hv)
    rw [ha, hb]
    exact .some (hlike.trans hlike'.symm)

/-- A bound that is told from another one and not beaten by it keeps it out when it comes first, followed by the bounds
like the other one. -/
theorem exists_perm_not_alike (hamong : ∀ v ∈ r.values boundaries d, among v) (ha : a ∈ r.values boundaries d)
    (hne : ¬ a.Alike among w) (hwide : isWider d a w = true) :
    ∃ others, boundaries.Perm others ∧ ∀ v, (r.bounded others).bounds.get d = some v → ¬ v.Alike among w := by
  classical
  have hama := hamong a ha
  obtain ⟨b, hb, rfl, rfl⟩ := mem_values.mp ha
  let alike (c : Direction × String) : Bool := (r.boundValue b.1 c.2).Alike among w
  let rest := boundaries.erase b
  refine ⟨b :: (rest.filter alike ++ rest.filter (!alike ·)), ?_, fun v hv => ?_⟩
  · exact (List.perm_cons_erase hb).trans ((List.filter_append_perm alike rest).symm.cons b)
  · have hvalues : r.values (b :: (rest.filter alike ++ rest.filter (!alike ·))) b.1 =
        r.boundValue b.1 b.2 :: (r.values (rest.filter alike) b.1 ++ r.values (rest.filter (!alike ·)) b.1) := by
      simp [values]
    have hstays : ∀ v ∈ r.values (rest.filter alike) b.1, isWider b.1 (r.boundValue b.1 b.2) v = true := by
      intro v hv
      obtain ⟨c, hc, -, rfl⟩ := mem_values.mp hv
      have hlike : (r.boundValue b.1 c.2).Alike among w := of_decide_eq_true (List.mem_filter.mp hc).2
      rwa [hlike.isWider_eq hama]
    have hrest : ∀ v ∈ r.values (rest.filter (!alike ·)) b.1, ¬ v.Alike among w := by
      intro v hv
      obtain ⟨c, hc, -, rfl⟩ := mem_values.mp hv
      simpa [alike] using (List.mem_filter.mp hc).2
    rw [get_bounded, hvalues, List.foldl_cons, List.foldl_append, wider, Option.any_none, if_neg Bool.false_ne_true,
      foldl_wider_eq hstays] at hv
    obtain ⟨u, hu, huv⟩ := exists_foldl_wider (d := b.1) (r.values (rest.filter (!alike ·)) b.1) (r.boundValue b.1 b.2)
    cases huv.symm.trans hv
    rcases List.mem_cons.mp hu with rfl | hu
    · exact hne
    · exact hrest _ hu

/-- The order of the bounds does not matter exactly where it is decided which of them stays. -/
theorem decided_iff (hamong : ∀ v ∈ r.values boundaries d, among v) : Decided among d (r.values boundaries d) ↔
    ∀ others, boundaries.Perm others →
      Option.Rel (Value.Alike among) ((r.bounded boundaries).bounds.get d) ((r.bounded others).bounds.get d) := by
  refine ⟨fun hdecided others => get_bounded_alike hamong hdecided, fun hall hne => ?_⟩
  obtain ⟨hnil, -⟩ | ⟨w, hw, hget⟩ := r.get_bounded_cases boundaries d
  · exact absurd hnil hne
  · refine ⟨w, hw, fun v hv => ?_⟩
    by_contra hnot
    rw [not_or, Bool.not_eq_false] at hnot
    obtain ⟨others, hperm, hothers⟩ := exists_perm_not_alike hamong hv hnot.1 hnot.2
    have hrel := hall others hperm
    rw [hget] at hrel
    cases hget' : (r.bounded others).bounds.get d with
    | none => rw [hget'] at hrel; cases hrel
    | some u =>
        rw [hget'] at hrel
        cases hrel with | some hlike => exact hothers u hget' hlike.symm

/-! ## Documents -/

variable {s : RangeCriterion} {epsilon : Float}

theorem contains_eq {b c : Bounds} (h : ∀ d, Option.Rel (Value.Alike among) (b.get d) (c.get d)) (hv : among v) :
    b.contains v = c.contains v := by
  have hadmits : ∀ d, b.admits d v = c.admits d v := fun d => by
    have hd := h d
    rw [Bounds.admits, Bounds.admits]
    generalize b.get d = x, c.get d = y at hd ⊢
    cases hd with
    | none => rfl
    | some hlike => rw [Option.all_some, Option.all_some, hlike.compare_eq v hv]
  rw [Bounds.contains, Bounds.contains, hadmits, hadmits, hadmits, hadmits]

theorem samePlace_number? (h : ∀ d, Option.Rel (Value.Alike among) (r.bounds.get d) (s.bounds.get d))
    (d : Direction) : Option.Rel SamePlace (r.number? d) (s.number? d) := by
  have hd := h d
  rw [number?, number?]
  generalize r.bounds.get d = x, s.bounds.get d = y at hd ⊢
  cases hd with
  | none => exact .none
  | some hlike => exact hlike.samePlace

theorem includesZero_eq (hdate : r.isDate = s.isDate) (h : ∀ d, Option.Rel SamePlace (r.number? d) (s.number? d)) :
    r.includesZero epsilon = s.includesZero epsilon := by
  have hlower : SamePlace (r.lowerEnd epsilon) (s.lowerEnd epsilon) := by
    have hgte := h .gte
    have hgt := h .gt
    rw [lowerEnd, lowerEnd]
    generalize r.number? .gte = x, s.number? .gte = y at hgte ⊢
    generalize r.number? .gt = x', s.number? .gt = y' at hgt ⊢
    cases hgte with
    | none =>
        cases hgt with
        | none => exact .refl _
        | some hp => exact hp.add epsilon
    | some hp => exact hp
  have hupper : SamePlace (r.upperEnd epsilon) (s.upperEnd epsilon) := by
    have hlte := h .lte
    have hlt := h .lt
    rw [upperEnd, upperEnd]
    generalize r.number? .lte = x, s.number? .lte = y at hlte ⊢
    generalize r.number? .lt = x', s.number? .lt = y' at hlt ⊢
    cases hlte with
    | none =>
        cases hlt with
        | none => exact .refl _
        | some hp => exact hp
    | some hp => exact hp.add epsilon
  rw [includesZero, includesZero, hdate]
  simp only [hlower.le_iff (.refl 0.0), (SamePlace.refl 0.0).lt_iff hupper]

/-- Criteria that differ in bounds that are not told apart hold the same documents. -/
theorem holds_toQuery_eq (hunbounded : r.unbounded = s.unbounded)
    (h : ∀ d, Option.Rel (Value.Alike among) (r.bounds.get d) (s.bounds.get d)) {rawSuffix : String} {scope : Scope}
    (hleaves : ∀ leaf v, scope.HasLeaf (documentField rawSuffix r.queryField) leaf → Value.ofLeaf? leaf = some v →
      among v) : (r.toQuery epsilon).holds rawSuffix scope = (s.toQuery epsilon).holds rawSuffix scope := by
  have hfield : r.queryField = s.queryField := (congrArg RangeCriterion.queryField hunbounded :)
  have hdate : r.isDate = s.isDate := (congrArg RangeCriterion.isDate hunbounded :)
  have hzero : r.missingIsZero = s.missingIsZero := (congrArg RangeCriterion.missingIsZero hunbounded :)
  have hmissing : r.includesMissing epsilon = s.includesMissing epsilon := by
    rw [includesMissing, includesMissing, hzero, includesZero_eq hdate (samePlace_number? h)]
  have hwithin : scope.HasWithin (documentField rawSuffix r.queryField) r.bounds ↔
      scope.HasWithin (documentField rawSuffix r.queryField) s.bounds := by
    refine exists₂_congr fun leaf v => and_congr_right fun hleaf => and_congr_right fun hv => ?_
    rw [contains_eq h (hleaves leaf v hleaf hv)]
  rw [Bool.eq_iff_iff, holds_toQuery, holds_toQuery, Admits, Admits, hmissing, hwithin, hfield]

/-! ## Dates and numbers -/

/-- Bounds that are ordered by width, up to those that are not told apart. -/
theorem decided_of_preorder {α : Type} {f : α → Value}
    (htrans : ∀ a b c, isWider d (f a) (f b) = true → isWider d (f b) (f c) = true → isWider d (f a) (f c) = true)
    (halike : ∀ a b, isWider d (f a) (f b) = true → isWider d (f b) (f a) = true → (f a).Alike among (f b))
    (as : List α) : Decided among d (as.map f) := by
  have htotal : ∀ a b, isWider d (f a) (f b) = true ∨ isWider d (f b) (f a) = true := fun a b =>
    or_iff_not_imp_left.mpr fun h => isWider_of_not (eq_false_of_ne_true h)
  intro hne
  have hwidest := widest_foldl htotal htrans as
  generalize (as.map f).foldl (wider d) none = kept at hwidest
  cases hwidest with
  | none h => exact absurd (congrArg (List.map f) h) hne
  | @some a ha hall =>
      refine ⟨f a, List.mem_map_of_mem ha, List.forall_mem_map.mpr fun b hb => ?_⟩
      cases hb' : isWider d (f b) (f a) with
      | false => exact .inr rfl
      | true => exact .inl (halike b a hb' (hall b hb))

theorem decided_date (hd : r.isDate = true) : Decided among d (r.values boundaries d) := by
  have hvalues : r.values boundaries d =
      ((boundaries.filter (·.1 = d)).map fun b => completeDay b.2 d).map Value.text := by
    simp [values, boundValue, hd]
  rw [hvalues]
  refine decided_of_preorder (fun _ _ _ => isWider_trans) (fun s t hst hts => ?_) _
  rw [isWider_antisymm hst hts]
  exact .refl _

theorem decided_numbers (hnumbers : ∀ b ∈ boundaries, (r.boundValue b.1 b.2).isText = false)
    (hamong : ∀ v, among v → v.toFloat?.isSome = true) : Decided among d (r.values boundaries d) := by
  have hplaces : ∀ v ∈ r.values boundaries d, ∃ p, v.IsNumberAt p := by
    intro v hv
    obtain ⟨b, hb, rfl, rfl⟩ := mem_values.mp hv
    exact Value.exists_isNumberAt (r.isFinite_boundValue b.1 b.2) (hnumbers b hb)
  generalize r.values boundaries d = vs at hplaces ⊢
  lift vs to List { v : Value // ∃ p, v.IsNumberAt p } using hplaces
  refine decided_of_preorder ?_ ?_ vs
  · rintro ⟨a, p, ha⟩ ⟨b, q, hb⟩ ⟨c, k, hc⟩ hab hbc
    rw [ha.isWider_iff hb] at hab
    rw [hb.isWider_iff hc] at hbc
    rw [ha.isWider_iff hc]
    split at hab <;> rename_i hd
    · rw [if_pos hd] at hbc ⊢
      exact hab.trans hbc
    · rw [if_neg hd] at hbc ⊢
      exact hbc.trans hab
  · rintro ⟨a, p, ha⟩ ⟨b, q, hb⟩ hab hba
    rw [ha.isWider_iff hb] at hab
    rw [hb.isWider_iff ha] at hba
    have hpq : p = q := by
      split at hab <;> rename_i hd
      · rw [if_pos hd] at hba
        exact le_antisymm hab hba
      · rw [if_neg hd] at hba
        exact le_antisymm hba hab
    exact ha.alike (hpq ▸ hb) hamong

/-! ## Any order -/

/-- In every order the bounds make ranges that hold the same documents, of those whose field has values of a kind. -/
def HoldsInAnyOrder (r : RangeCriterion) (boundaries : List (Direction × String)) (among : Value → Prop) : Prop :=
  ∀ others, boundaries.Perm others → ∀ (epsilon : Float) (rawSuffix : String) (scope : Scope),
    (∀ leaf v, scope.HasLeaf (documentField rawSuffix r.queryField) leaf → Value.ofLeaf? leaf = some v → among v) →
      ((r.bounded boundaries).toQuery epsilon).holds rawSuffix scope =
        ((r.bounded others).toQuery epsilon).holds rawSuffix scope

/-- The order in which bounds are added to a criterion does not matter, for values of a kind that the bounds are of,
exactly where in each direction one bound is strictly wider than all that can be told from it. Then the ranges hold
the same documents in every order. On dates it is always so, and it is so for numbers among numbers. -/
theorem merging_in_any_order (r : RangeCriterion) (boundaries : List (Direction × String)) (among : Value → Prop)
    (hamong : ∀ b ∈ boundaries, among (r.boundValue b.1 b.2)) :
    ((∀ d, Decided among d (r.values boundaries d)) ↔ ∀ d others, boundaries.Perm others →
      Option.Rel (Value.Alike among) ((r.bounded boundaries).bounds.get d) ((r.bounded others).bounds.get d)) ∧
    ((∀ d, Decided among d (r.values boundaries d)) → r.HoldsInAnyOrder boundaries among) ∧
    (r.isDate = true → ∀ d, Decided among d (r.values boundaries d)) ∧
    ((∀ b ∈ boundaries, (r.boundValue b.1 b.2).isText = false) → (∀ v, among v → v.toFloat?.isSome = true) →
      ∀ d, Decided among d (r.values boundaries d)) := by
  have hvalues : ∀ d, ∀ v ∈ r.values boundaries d, among v := by
    intro d v hv
    obtain ⟨b, hb, rfl, rfl⟩ := mem_values.mp hv
    exact hamong b hb
  refine ⟨forall_congr' fun d => decided_iff (hvalues d), ?_, fun hd d => decided_date hd, ?_⟩
  · intro hdecided others hperm epsilon rawSuffix scope hleaves
    have hfield : (r.bounded boundaries).queryField = r.queryField :=
      (congrArg RangeCriterion.queryField unbounded_bounded :)
    refine holds_toQuery_eq (unbounded_bounded.trans unbounded_bounded.symm)
      (fun d => get_bounded_alike (hvalues d) (hdecided d) hperm) ?_
    rwa [hfield]
  · exact fun hnumbers hkind d => decided_numbers hnumbers hkind

theorem merging_in_any_order_age :
    let view : FieldView := ⟨{}, ⟨fun _ _ => some { fieldType := .long }⟩, []⟩
    (fresh view "age").HoldsInAnyOrder [(.gte, "9"), (.lte, "70"), (.gte, "5.5")]
      fun v => v.toFloat?.isSome = true := by
  intro view
  obtain ⟨-, hholds, -, hnumbers⟩ := merging_in_any_order (fresh view "age") [(.gte, "9"), (.lte, "70"), (.gte, "5.5")]
    (fun v => v.toFloat?.isSome = true) (by decide +kernel)
  exact hholds (hnumbers (by decide +kernel) fun _ => id)

/-- Two numbers and a text that beat each other in a circle. -/
theorem not_merging_in_any_order :
    let view : FieldView := ⟨{}, ⟨fun _ _ => some { fieldType := .long }⟩, []⟩
    ¬ (fresh view "age").HoldsInAnyOrder [(.gte, "9"), (.gte, "5x"), (.gte, "100")] fun _ => True := by
  intro view h
  let document : Json := .obj [("embedded", .obj [("age", Json.ofInt64 50)])]
  have hsame := h [(.gte, "100"), (.gte, "5x"), (.gte, "9")] (by decide) 0.0 ".raw" document.scope
    fun _ _ _ _ => trivial
  have hout : (((fresh view "age").bounded [(.gte, "9"), (.gte, "5x"), (.gte, "100")]).toQuery 0.0).holds ".raw"
      document.scope = false := by decide +kernel
  have hin : (((fresh view "age").bounded [(.gte, "100"), (.gte, "5x"), (.gte, "9")]).toQuery 0.0).holds ".raw"
      document.scope = true := by decide +kernel
  rw [hout, hin] at hsame
  cases hsame

end RangeCriterion

end FacetedSearch
