import FacetedSearch.Proofs.Clauses
import FacetedSearch.Proofs.Permission

/-!
# Demands of criteria

What the clauses of criteria ask of a document, said on the index names that the criteria carry, and the proof that
the assembled filter accepts the documents that meet it. The raw suffix is the one that evaluation takes off index
names; it need not be the one that the names were made with.
-/

namespace FacetedSearch

/-! ## Demands -/

namespace TermCriterion

/-- A lone wish for documents without the field. -/
def WantsAbsence (t : TermCriterion) : Prop := t.wanted = [] ∧ t.noValue = some true

/-- The criterion asks for more than absence. -/
def AsksOfInstance (t : TermCriterion) : Prop := t.wanted ≠ [] ∨ t.unwanted ≠ [] ∨ t.noValue = some false

variable (t : TermCriterion) (rawSuffix : String) (scope : Scope)

def HasValue : Prop := scope.HasField (documentField rawSuffix t.valueField)

def HasOneOf (values : List String) : Prop := scope.HasAnyOf (documentField rawSuffix t.queryField) values

/-- One of the wanted values, or what is wished about presence instead; without wanted values, presence if wished. -/
def AdmitsWanted : Prop :=
  (t.wanted ≠ [] → t.HasOneOf rawSuffix scope t.wanted ∨ (t.noValue = some true ∧ ¬ t.HasValue rawSuffix scope) ∨
    (t.noValue = some false ∧ t.HasValue rawSuffix scope)) ∧
  (t.wanted = [] → t.noValue = some false → t.HasValue rawSuffix scope)

/-- Every demand of the criterion but a lone wish for absence. -/
structure Admits : Prop where
  wanted : t.AdmitsWanted rawSuffix scope
  noneUnwanted : ¬ t.HasOneOf rawSuffix scope t.unwanted

end TermCriterion

/-- A value within the bounds, or none at all where zero is in range and missing values count as zero. -/
def RangeCriterion.Admits (r : RangeCriterion) (rawSuffix : String) (epsilon : Float) (scope : Scope) : Prop :=
  scope.HasWithin (documentField rawSuffix r.queryField) r.bounds ∨
    (r.includesMissing epsilon = true ∧ ¬ scope.HasField (documentField rawSuffix r.queryField))

namespace Criteria

/-- Something is asked of one instance at the path. -/
def AsksAt (c : Criteria) (path : String) : Prop :=
  (∃ t ∈ c.fields, t.isBelowPath = true ∧ t.nestedPath = some path ∧ t.AsksOfInstance) ∨
    ∃ r ∈ c.ranges, r.nestedPath = some path

/-- All that is asked at the path is met in scope. -/
structure AdmitsAt (c : Criteria) (settings : Settings) (rawSuffix path : String) (scope : Scope) : Prop where
  terms : ∀ t ∈ c.fields, t.isBelowPath = true → t.nestedPath = some path → t.Admits rawSuffix scope
  ranges : ∀ r ∈ c.ranges, r.nestedPath = some path → r.Admits rawSuffix settings.zeroEpsilon scope

structure Admits (c : Criteria) (settings : Settings) (rawSuffix : String) (types : List String)
    (principals : Principals) (document : Json) : Prop where
  docType : document.scope.HasAnyOf (documentField rawSuffix settings.typeQueryField) (c.typesOr types)
  notDocType : ¬ document.scope.HasAnyOf (documentField rawSuffix settings.typeQueryField) c.typeNotTerms
  granted : document.Grants rawSuffix settings.permissionField principals
  flatTerms : ∀ t ∈ c.fields, t.isBelowPath = false →
    t.Admits rawSuffix document.scope ∧ (t.WantsAbsence → ¬ t.HasValue rawSuffix document.scope)
  flatRanges : ∀ r ∈ c.ranges, r.nestedPath = none → r.Admits rawSuffix settings.zeroEpsilon document.scope
  instances : ∀ path, c.AsksAt path → ∃ object, document.scope.HasInstance path object ∧
    c.AdmitsAt settings rawSuffix path (document.scope.enter path object)
  absences : ∀ t ∈ c.fields, t.isBelowPath = true → t.WantsAbsence → ∀ path, t.nestedPath = some path →
    ∀ object, document.scope.HasInstance path object → ¬ t.HasValue rawSuffix (document.scope.enter path object)

end Criteria

/-! ## Clauses of one criterion -/

/-- The clauses do their part in scope. -/
def FlatClauses.HoldIn (c : FlatClauses) (rawSuffix : String) (scope : Scope) : Prop :=
  (∀ q, c.must = some q → q.holds rawSuffix scope = true) ∧
    ∀ q, c.mustNot = some q → ¬ q.holds rawSuffix scope = true

namespace TermCriterion

variable {t : TermCriterion} {rawSuffix : String} {scope : Scope}

theorem holds_present :
    Query.holds rawSuffix (.present t.valueField) scope = true ↔ t.HasValue rawSuffix scope :=
  Query.holds_present

theorem holds_missing :
    Query.holds rawSuffix (.missing t.valueField) scope = true ↔ ¬ t.HasValue rawSuffix scope :=
  Query.holds_missing

theorem holds_terms {values : List String} :
    Query.holds rawSuffix (.terms t.queryField values) scope = true ↔ t.HasOneOf rawSuffix scope values :=
  Query.holds_terms

theorem holds_anyMatch {values : List String} {q : Query} (hq : anyMatch? t.queryField values = some q) :
    q.holds rawSuffix scope = true ↔ t.HasOneOf rawSuffix scope values := by
  cases values with
  | nil => simp [anyMatch?] at hq
  | cons v vs =>
      simp only [anyMatch?, Option.some.injEq] at hq
      subst hq
      rw [Query.holds_anyOf (by simp)]
      constructor
      · rintro ⟨_, hm, hh⟩
        obtain ⟨w, hw, rfl⟩ := List.mem_map.mp hm
        obtain ⟨l, s, hl, ht, hs⟩ := Query.holds_matching.mp hh
        exact ⟨l, s, hl, ht, List.mem_singleton.mp hs ▸ hw⟩
      · rintro ⟨l, s, hl, ht, hs⟩
        exact ⟨_, List.mem_map_of_mem hs, Query.holds_matching.mpr ⟨l, s, hl, ht, List.mem_singleton_self s⟩⟩

theorem not_hasOneOf_nil : ¬ t.HasOneOf rawSuffix scope [] := Scope.not_hasAnyOf_nil

theorem admits_iff : t.Admits rawSuffix scope ↔
    t.AdmitsWanted rawSuffix scope ∧ ¬ t.HasOneOf rawSuffix scope t.unwanted :=
  ⟨fun h => ⟨h.wanted, h.noneUnwanted⟩, fun h => ⟨h.1, h.2⟩⟩

theorem positiveClauses_hold : t.positiveClauses.HoldIn rawSuffix scope ↔
    t.AdmitsWanted rawSuffix scope ∧ (t.WantsAbsence → ¬ t.HasValue rawSuffix scope) := by
  unfold positiveClauses FlatClauses.HoldIn AdmitsWanted WantsAbsence
  cases t.wanted with
  | nil =>
      cases t.noValue with
      | none => simp
      | some wish => cases wish <;> simp [holds_present, -Bool.not_eq_true]
  | cons w ws =>
      cases t.noValue with
      | none => simp [holds_terms]
      | some wish => cases wish <;> simp [Query.holds_alternatives, holds_present, holds_missing, holds_terms]

theorem flatClauses_hold : t.flatClauses.HoldIn rawSuffix scope ↔
    t.Admits rawSuffix scope ∧ (t.WantsAbsence → ¬ t.HasValue rawSuffix scope) := by
  have hnegative : t.flatClauses.HoldIn rawSuffix scope ↔
      t.positiveClauses.HoldIn rawSuffix scope ∧ ¬ t.HasOneOf rawSuffix scope t.unwanted := by
    unfold flatClauses FlatClauses.HoldIn
    cases t.unwanted with
    | nil => simp [not_hasOneOf_nil]
    | cons u us =>
        cases hm : t.positiveClauses.mustNot with
        | none => simp [holds_terms, hm, -Bool.not_eq_true]
        | some absence => simp [Query.holds_anyOf, holds_terms, hm, and_assoc, -Bool.not_eq_true]
  rw [hnegative, positiveClauses_hold, admits_iff]
  exact and_right_comm

end TermCriterion

theorem RangeCriterion.holds_toQuery {r : RangeCriterion} {rawSuffix : String} {epsilon : Float} {scope : Scope} :
    (r.toQuery epsilon).holds rawSuffix scope = true ↔ r.Admits rawSuffix epsilon scope := by
  rw [toQuery, Admits]
  cases hm : r.includesMissing epsilon with
  | true => simp [Query.holds_alternatives, Query.holds_range, Query.holds_missing]
  | false => simp [Query.holds_range]

/-! ## Conditions on one instance -/

/-- The clauses that the condition adds to its wrapper do their part in scope. -/
def NestedCondition.HoldsIn (c : NestedCondition) (rawSuffix : String) (scope : Scope) : Prop :=
  (∀ q, c.mustClause? = some q → q.holds rawSuffix scope = true) ∧
    ∀ q, c.mustNotClause? = some q → ¬ q.holds rawSuffix scope = true

namespace NestedCondition

variable {rawSuffix path field : String} {q : Query} {scope : Scope}

theorem holdsIn_must : HoldsIn ⟨.must, path, field, q⟩ rawSuffix scope ↔ q.holds rawSuffix scope = true := by
  simp [HoldsIn, mustClause?, mustNotClause?]

theorem holdsIn_mustNot (hq : q.isPresence = false) :
    HoldsIn ⟨.mustNot, path, field, q⟩ rawSuffix scope ↔ ¬ q.holds rawSuffix scope = true := by
  simp [HoldsIn, mustClause?, mustNotClause?, hq]

theorem holdsIn_of_isAbsence {c : NestedCondition} (h : c.isAbsence = true) : c.HoldsIn rawSuffix scope := by
  simp [HoldsIn, clauses_of_isAbsence h]

theorem holdsIn_should : HoldsIn ⟨.should, path, field, q⟩ rawSuffix scope ↔
    q.holds rawSuffix scope = true ∨ Query.holds rawSuffix (.missing field) scope = true := by
  simp [HoldsIn, mustClause?, mustNotClause?, either, Query.holds_alternatives]

end NestedCondition

namespace TermCriterion

variable {t : TermCriterion} {rawSuffix : String} {scope : Scope}

theorem isPresence_of_anyMatch? {field : String} {values : List String} {q : Query}
    (hq : anyMatch? field values = some q) : q.isPresence = false := by
  match values with
  | [] => simp [anyMatch?] at hq
  | [v] =>
      simp only [anyMatch?, Option.some.injEq] at hq
      exact hq ▸ rfl
  | v :: w :: vs =>
      simp only [anyMatch?, Option.some.injEq] at hq
      exact hq ▸ rfl

theorem negative_holds (path : String) :
    (∀ c ∈ (t.negative? path).toList, c.HoldsIn rawSuffix scope) ↔ ¬ t.HasOneOf rawSuffix scope t.unwanted := by
  rw [negative?]
  cases hu : anyMatch? t.queryField t.unwanted with
  | none => simp [anyMatch?_eq_none_iff.mp hu, not_hasOneOf_nil]
  | some q =>
      rw [← holds_anyMatch hu]
      simp [NestedCondition.holdsIn_mustNot (isPresence_of_anyMatch? hu), -Bool.not_eq_true]

theorem positive_holds {path : String} {positive : List NestedCondition} (hp : t.Positive path positive) :
    (∀ c ∈ positive, c.HoldsIn rawSuffix scope) ↔ t.AdmitsWanted rawSuffix scope := by
  rw [AdmitsWanted]
  cases hp with
  | nothing hw hv => simp [hw, hv]
  | absence hw hv =>
      have ha : NestedCondition.isAbsence ⟨.mustNot, path, t.valueField, .present t.valueField⟩ = true := rfl
      simp [hw, hv, NestedCondition.holdsIn_of_isAbsence ha]
  | presence hw hv => simp [hw, hv, NestedCondition.holdsIn_must, holds_present]
  | wanted hq hv => simp [ne_nil_of_anyMatch hq, hv, NestedCondition.holdsIn_must, holds_anyMatch hq]
  | wantedOrAbsence hq hv =>
      simp [ne_nil_of_anyMatch hq, hv, NestedCondition.holdsIn_should, holds_anyMatch hq, holds_missing]
  | wantedOrPresence hq hv =>
      simp [ne_nil_of_anyMatch hq, hv, NestedCondition.holdsIn_must, Query.holds_anyOf, holds_anyMatch hq,
        holds_present]

theorem nestedConditions_hold (hb : t.isBelowPath = true) :
    (∀ c ∈ t.nestedConditions, c.HoldsIn rawSuffix scope) ↔ t.Admits rawSuffix scope := by
  obtain ⟨path, hpath⟩ := exists_nestedPath hb
  obtain ⟨positive, hp, he⟩ := exists_positive hpath
  rw [he, List.forall_mem_append, positive_holds hp, negative_holds, admits_iff]

theorem nestedPath_of_mem {c : NestedCondition} (hc : c ∈ t.nestedConditions) : t.nestedPath = some c.path := by
  cases hpath : t.nestedPath with
  | none => simp [nestedConditions_of_none hpath] at hc
  | some path =>
      obtain ⟨positive, hp, he⟩ := exists_positive hpath
      rw [he, List.mem_append, Option.mem_toList, negative?, Option.map_eq_some_iff] at hc
      rcases hc with hc | ⟨q, _, rfl⟩
      · cases hp with
        | nothing => cases hc
        | _ => rw [List.mem_singleton.mp hc]
      · rfl

theorem isAbsence_of_mem_negative {path : String} {c : NestedCondition} (hc : c ∈ (t.negative? path).toList) :
    c.isAbsence = false := by
  rw [Option.mem_toList, negative?, Option.map_eq_some_iff] at hc
  obtain ⟨q, hq, rfl⟩ := hc
  simp [NestedCondition.isAbsence, isPresence_of_anyMatch? hq]

theorem absence_mem_iff {path : String} (hpath : t.nestedPath = some path) {c : NestedCondition} :
    c ∈ t.nestedConditions ∧ c.isAbsence = true ↔
      t.WantsAbsence ∧ c = ⟨.mustNot, path, t.valueField, .present t.valueField⟩ := by
  obtain ⟨positive, hp, he⟩ := exists_positive hpath
  have hnegative : ¬ (c ∈ (t.negative? path).toList ∧ c.isAbsence = true) := by
    rintro ⟨hc, ha⟩
    rw [isAbsence_of_mem_negative hc] at ha
    cases ha
  rw [he, List.mem_append, or_and_right, or_iff_left hnegative, WantsAbsence]
  cases hp with
  | nothing hw hv => simp [hv]
  | absence hw hv =>
      simp only [hw, hv, List.mem_singleton, true_and]
      exact ⟨fun h => h.1, fun h => ⟨h, h ▸ rfl⟩⟩
  | presence hw hv =>
      simp only [hv, List.mem_singleton, Option.some.injEq, Bool.false_eq_true, and_false, false_and, iff_false]
      rintro ⟨rfl, ha⟩
      cases ha
  | wanted hq hv | wantedOrAbsence hq hv | wantedOrPresence hq hv =>
      simp only [ne_nil_of_anyMatch hq, false_and, iff_false, List.mem_singleton]
      rintro ⟨rfl, ha⟩
      cases ha

theorem exists_shared_iff (hb : t.isBelowPath = true) :
    (∃ c ∈ t.nestedConditions, c.isAbsence = false) ↔ t.AsksOfInstance := by
  obtain ⟨path, hpath⟩ := exists_nestedPath hb
  obtain ⟨positive, hp, he⟩ := exists_positive hpath
  have hnegative : (∃ c ∈ (t.negative? path).toList, c.isAbsence = false) ↔ t.unwanted ≠ [] := by
    cases hu : anyMatch? t.queryField t.unwanted with
    | none => simp [negative?, anyMatch?, anyMatch?_eq_none_iff.mp hu]
    | some q =>
        have hc : ⟨.mustNot, path, t.valueField, q⟩ ∈ (t.negative? path).toList := by simp [negative?, hu]
        exact iff_of_true ⟨_, hc, isAbsence_of_mem_negative hc⟩ (ne_nil_of_anyMatch hu)
  simp only [he, List.mem_append, or_and_right, exists_or, hnegative, AsksOfInstance]
  cases hp with
  | nothing hw hv => simp [hw, hv]
  | absence hw hv => simp [hw, hv, NestedCondition.isAbsence, Query.isPresence]
  | presence hw hv => exact iff_of_true (.inl ⟨_, List.mem_singleton_self _, rfl⟩) (.inr (.inr hv))
  | wanted hq hv | wantedOrAbsence hq hv | wantedOrPresence hq hv =>
      exact iff_of_true (.inl ⟨_, List.mem_singleton_self _, rfl⟩) (.inl (ne_nil_of_anyMatch hq))

end TermCriterion

/-! ## Gathered conditions -/

namespace NestedCondition

variable {rawSuffix : String} {conditions : List NestedCondition} {scope : Scope}

theorem gathered_holds {path : String} :
    (Wrapper.gathered path (byRole conditions)).toQuery.holds rawSuffix scope = true ↔
      ∃ object, scope.HasInstance path object ∧
        ∀ c ∈ conditions, c.path = path → c.HoldsIn rawSuffix (scope.enter path object) := by
  rw [Wrapper.toQuery, Query.holds_nested]
  refine exists_congr fun object => and_congr_right fun _ => ?_
  simp only [Query.holds_bool, Wrapper.gathered, onPath, List.mem_filterMap, List.mem_filter, mem_byRole,
    decide_eq_true_eq]
  constructor
  · rintro ⟨hm, hn, -⟩ c hc hp
    exact ⟨fun q hq => hm q ⟨c, ⟨hc, hp⟩, hq⟩, fun q hq => hn q ⟨c, ⟨hc, hp⟩, hq⟩⟩
  · intro h
    refine ⟨?_, ?_, by simp⟩
    · rintro q ⟨c, ⟨hc, hp⟩, hq⟩
      exact (h c hc hp).1 q hq
    · rintro q ⟨c, ⟨hc, hp⟩, hq⟩
      exact (h c hc hp).2 q hq

theorem holds_nested_allOf {path : String} {q : Query} :
    Query.holds rawSuffix (.nested path (.allOf [q])) scope = true ↔
      ∃ object, scope.HasInstance path object ∧ q.holds rawSuffix (scope.enter path object) = true := by
  rw [Query.holds_nested]
  simp [Query.allOf, Query.holds_bool]

/-- Grouped conditions ask for one instance at each path, and rule each absent field out on all instances. -/
theorem group_holds :
    ((∀ q ∈ (group conditions).must, q.holds rawSuffix scope = true) ∧
      ∀ q ∈ (group conditions).mustNot, ¬ q.holds rawSuffix scope = true) ↔
    (∀ path, (∃ c ∈ conditions, c.isAbsence = false ∧ c.path = path) → ∃ object, scope.HasInstance path object ∧
      ∀ c ∈ conditions, c.path = path → c.HoldsIn rawSuffix (scope.enter path object)) ∧
    ∀ c ∈ conditions, c.isAbsence = true → ∀ object, scope.HasInstance c.path object →
      ¬ c.query.holds rawSuffix (scope.enter c.path object) = true := by
  refine and_congr ?_ ?_
  · simp only [NestedClauses.must, List.forall_mem_map]
    constructor
    · rintro h path hc
      exact gathered_holds.mp (h _ (mem_wrappers_group.mpr ⟨rfl, hc⟩))
    · intro h w hw
      obtain ⟨he, hc⟩ := mem_wrappers_group.mp hw
      rw [he]
      exact gathered_holds.mpr (h w.path hc)
  · rw [NestedClauses.mustNot, (group_gathers conditions).absences_eq]
    simp only [List.mem_filterMap, mem_byRole, absence?_eq_some_iff]
    constructor
    · intro h c hc ha object hi hq
      exact h _ ⟨c, hc, ha, rfl⟩ (holds_nested_allOf.mpr ⟨object, hi, hq⟩)
    · rintro h _ ⟨c, hc, ha, rfl⟩ hq
      obtain ⟨object, hi, hh⟩ := holds_nested_allOf.mp hq
      exact h c hc ha object hi hh

end NestedCondition

/-! ## The assembled filter -/

namespace Criteria

variable {c : Criteria} {document : Json} {rawSuffix : String} {scope : Scope}

theorem holds_flatClauses : ((∀ q ∈ c.flatClauses.filterMap FlatClauses.must, q.holds rawSuffix scope = true) ∧
    ∀ q ∈ c.flatClauses.filterMap FlatClauses.mustNot, ¬ q.holds rawSuffix scope = true) ↔
    ∀ t ∈ c.fields, t.isBelowPath = false → t.flatClauses.HoldIn rawSuffix scope := by
  simp only [flatClauses, List.mem_filterMap, List.mem_map, List.mem_filter, Bool.not_eq_true']
  constructor
  · rintro ⟨hm, hn⟩ t ht hb
    exact ⟨fun q hq => hm q ⟨_, ⟨t, ⟨ht, hb⟩, rfl⟩, hq⟩, fun q hq => hn q ⟨_, ⟨t, ⟨ht, hb⟩, rfl⟩, hq⟩⟩
  · intro h
    constructor
    · rintro q ⟨_, ⟨t, ⟨ht, hb⟩, rfl⟩, hq⟩
      exact (h t ht hb).1 q hq
    · rintro q ⟨_, ⟨t, ⟨ht, hb⟩, rfl⟩, hq⟩
      exact (h t ht hb).2 q hq

theorem holds_flatRanges {epsilon : Float} :
    (∀ q ∈ c.ranges.filterMap (·.flatQuery? epsilon), q.holds rawSuffix scope = true) ↔
      ∀ r ∈ c.ranges, r.nestedPath = none → (r.toQuery epsilon).holds rawSuffix scope = true := by
  simp only [List.mem_filterMap, RangeCriterion.flatQuery?_eq_some_iff]
  constructor
  · intro h r hr hp
    exact h _ ⟨r, hr, hp, rfl⟩
  · rintro h q ⟨r, hr, hp, rfl⟩
    exact h r hr hp

/-- No clause rules types out where none are to be ruled out. -/
theorem holds_typeNotTerms {field : String} :
    (∀ q ∈ (if c.typeNotTerms.isEmpty then [] else [Query.terms field c.typeNotTerms]),
      ¬ q.holds rawSuffix scope = true) ↔
    ¬ (Query.terms field c.typeNotTerms).holds rawSuffix scope = true := by
  cases c.typeNotTerms with
  | nil => simp [Query.holds_terms, Scope.not_hasAnyOf_nil, -Bool.not_eq_true]
  | cons t ts => simp

/-- The clauses of the assembled filter, by where they come from. -/
theorem accepts_filter {settings : Settings} {types : List String} {principals : Principals} :
    (c.filter settings types principals).accepts rawSuffix document = true ↔
      (Query.terms settings.typeQueryField (c.typesOr types)).holds rawSuffix document.scope = true ∧
      ¬ (Query.terms settings.typeQueryField c.typeNotTerms).holds rawSuffix document.scope = true ∧
      document.Grants rawSuffix settings.permissionField principals ∧
      (∀ t ∈ c.fields, t.isBelowPath = false → t.flatClauses.HoldIn rawSuffix document.scope) ∧
      (∀ r ∈ c.ranges, r.nestedPath = none → (r.toQuery settings.zeroEpsilon).holds rawSuffix document.scope = true) ∧
      ((∀ q ∈ (NestedCondition.group (c.nestedConditions settings.zeroEpsilon)).must,
          q.holds rawSuffix document.scope = true) ∧
        ∀ q ∈ (NestedCondition.group (c.nestedConditions settings.zeroEpsilon)).mustNot,
          ¬ q.holds rawSuffix document.scope = true) := by
  have hguard : ((⟨settings.permissionField⟩ : PermissionGuard).clause principals).holds rawSuffix document.scope =
      true ↔ document.Grants rawSuffix settings.permissionField principals := Query.holds_terms
  change Query.holds rawSuffix (.bool _ _ _) document.scope = true ↔ _
  rw [Query.holds_bool, ← hguard, ← holds_flatClauses]
  simp only [List.forall_mem_append, List.forall_mem_cons, holds_flatRanges, holds_typeNotTerms]
  constructor
  · rintro ⟨⟨⟨⟨⟨ht, hp, -⟩, hfm⟩, hr⟩, hgm⟩, ⟨⟨hn, hfn⟩, hgn⟩, -⟩
    exact ⟨ht, hn, hp, ⟨hfm, hfn⟩, hr, hgm, hgn⟩
  · rintro ⟨ht, hn, hp, ⟨hfm, hfn⟩, hr, hgm, hgn⟩
    exact ⟨⟨⟨⟨⟨ht, hp, by simp⟩, hfm⟩, hr⟩, hgm⟩, ⟨⟨hn, hfn⟩, hgn⟩, by simp⟩

theorem exists_shared_iff {epsilon : Float} {path : String} :
    (∃ d ∈ c.nestedConditions epsilon, d.isAbsence = false ∧ d.path = path) ↔ c.AsksAt path := by
  simp only [mem_nestedConditions, AsksAt]
  constructor
  · rintro ⟨d, ⟨t, ht, hb, hd⟩ | ⟨r, hr, p, hp, rfl⟩, ha, rfl⟩
    · exact .inl ⟨t, ht, hb, TermCriterion.nestedPath_of_mem hd, (TermCriterion.exists_shared_iff hb).mp ⟨d, hd, ha⟩⟩
    · exact .inr ⟨r, hr, hp⟩
  · rintro (⟨t, ht, hb, hp, ha⟩ | ⟨r, hr, hp⟩)
    · obtain ⟨d, hd, hda⟩ := (TermCriterion.exists_shared_iff hb).mpr ha
      have hpath := TermCriterion.nestedPath_of_mem hd
      rw [hp, Option.some.injEq] at hpath
      exact ⟨d, .inl ⟨t, ht, hb, hd⟩, hda, hpath.symm⟩
    · exact ⟨_, .inr ⟨r, hr, path, hp, rfl⟩, rfl, rfl⟩

theorem conditions_hold {settings : Settings} (path : String) (scope : Scope) :
    (∀ d ∈ c.nestedConditions settings.zeroEpsilon, d.path = path → d.HoldsIn rawSuffix scope) ↔
      c.AdmitsAt settings rawSuffix path scope := by
  simp only [mem_nestedConditions]
  constructor
  · intro h
    constructor
    · intro t ht hb hp
      rw [← TermCriterion.nestedConditions_hold hb]
      intro d hd
      have hpath := TermCriterion.nestedPath_of_mem hd
      rw [hp, Option.some.injEq] at hpath
      exact h d (.inl ⟨t, ht, hb, hd⟩) hpath.symm
    · intro r hr hp
      rw [← RangeCriterion.holds_toQuery]
      exact NestedCondition.holdsIn_must.mp (h _ (.inr ⟨r, hr, path, hp, rfl⟩) rfl)
  · rintro h d (⟨t, ht, hb, hd⟩ | ⟨r, hr, p, hp, rfl⟩) rfl
    · exact (TermCriterion.nestedConditions_hold hb).mpr
        (h.terms t ht hb (TermCriterion.nestedPath_of_mem hd)) d hd
    · exact NestedCondition.holdsIn_must.mpr (RangeCriterion.holds_toQuery.mpr (h.ranges r hr hp))

theorem absences_hold {epsilon : Float} {scope : Scope} :
    (∀ d ∈ c.nestedConditions epsilon, d.isAbsence = true → ∀ object, scope.HasInstance d.path object →
      ¬ d.query.holds rawSuffix (scope.enter d.path object) = true) ↔
    ∀ t ∈ c.fields, t.isBelowPath = true → t.WantsAbsence → ∀ path, t.nestedPath = some path →
      ∀ object, scope.HasInstance path object → ¬ t.HasValue rawSuffix (scope.enter path object) := by
  simp only [mem_nestedConditions]
  constructor
  · intro h t ht hb hw path hp object hi
    obtain ⟨hd, ha⟩ := (TermCriterion.absence_mem_iff hp).mpr ⟨hw, rfl⟩
    rw [← TermCriterion.holds_present]
    exact h _ (.inl ⟨t, ht, hb, hd⟩) ha object hi
  · rintro h d (⟨t, ht, hb, hd⟩ | ⟨r, hr, p, hp, rfl⟩) ha object hi
    · have hp := TermCriterion.nestedPath_of_mem hd
      obtain ⟨hw, he⟩ := (TermCriterion.absence_mem_iff hp).mp ⟨hd, ha⟩
      rw [he] at hi ⊢
      rw [TermCriterion.holds_present]
      exact h t ht hb hw _ hp object hi
    · cases ha

theorem accepts_filter_iff {settings : Settings} {types : List String} {principals : Principals} :
    (c.filter settings types principals).accepts rawSuffix document = true ↔
      c.Admits settings rawSuffix types principals document := by
  rw [accepts_filter, NestedCondition.group_holds, absences_hold]
  simp only [TermCriterion.flatClauses_hold, RangeCriterion.holds_toQuery, exists_shared_iff, conditions_hold,
    Query.holds_terms]
  exact ⟨fun ⟨ht, hnt, hg, hf, hr, hi, ha⟩ => ⟨ht, hnt, hg, hf, hr, hi, ha⟩,
    fun ⟨ht, hnt, hg, hf, hr, hi, ha⟩ => ⟨ht, hnt, hg, hf, hr, hi, ha⟩⟩

end Criteria

end FacetedSearch
