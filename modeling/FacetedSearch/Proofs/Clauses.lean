import FacetedSearch.Filter.Assembly
import FacetedSearch.Proofs.Grouping

/-!
# Clauses of criteria

Every clause and every condition that a criterion comes to is built from leaves of its own.
-/

namespace FacetedSearch

/-- Leaves, fields without a value, and alternatives of these. -/
inductive Query.BuiltFrom (leaf : Query → Prop) : Query → Prop
  | leaf {q} : leaf q → BuiltFrom leaf q
  | missing {f} : leaf (.present f) → BuiltFrom leaf (.missing f)
  | alternatives {queries} : queries ≠ [] → (∀ q ∈ queries, BuiltFrom leaf q) →
      BuiltFrom leaf (.bool [] [] queries)

namespace Query.BuiltFrom

variable {leaf leaf' : Query → Prop} {p q : Query}

theorem either (hp : p.BuiltFrom leaf) (hq : q.BuiltFrom leaf) : (Query.bool [] [] [p, q]).BuiltFrom leaf :=
  .alternatives (by simp) (by simpa using ⟨hp, hq⟩)

theorem anyOf {queries : List Query} (hne : queries ≠ []) (h : ∀ q ∈ queries, q.BuiltFrom leaf) :
    (Query.anyOf queries).BuiltFrom leaf := by
  match queries with
  | [q] => exact h q (by simp)
  | p :: q :: rest => exact .alternatives (by simp) h

theorem mono (h : q.BuiltFrom leaf) (hleaf : ∀ q, leaf q → leaf' q) : q.BuiltFrom leaf' := by
  induction h with
  | leaf hq => exact .leaf (hleaf _ hq)
  | missing hf => exact .missing (hleaf _ hf)
  | alternatives hne _ ih => exact .alternatives hne ih

theorem leaf_or_bool (h : q.BuiltFrom leaf) : leaf q ∨ ∃ must mustNot should, q = .bool must mustNot should := by
  cases h with
  | leaf hq => exact .inl hq
  | missing _ => exact .inr ⟨_, _, _, rfl⟩
  | alternatives _ _ => exact .inr ⟨_, _, _, rfl⟩

theorem ne_nested (h : q.BuiltFrom leaf) (hleaf : ∀ path inner, ¬ leaf (.nested path inner)) (path : String)
    (inner : Query) : q ≠ .nested path inner := by
  rintro rfl
  rcases h.leaf_or_bool with hl | ⟨_, _, _, he⟩
  · exact hleaf path inner hl
  · cases he

end Query.BuiltFrom

/-- The query is built from the leaves, and so is the presence of the field. -/
structure NestedCondition.BuiltFrom (leaf : Query → Prop) (c : NestedCondition) : Prop where
  query : c.query.BuiltFrom leaf
  present : leaf (.present c.field)

namespace NestedCondition.BuiltFrom

variable {leaf leaf' : Query → Prop} {c : NestedCondition} {q : Query}

theorem mono (h : c.BuiltFrom leaf) (hleaf : ∀ q, leaf q → leaf' q) : c.BuiltFrom leaf' :=
  ⟨h.query.mono hleaf, hleaf _ h.present⟩

theorem mustClause (h : c.BuiltFrom leaf) (hq : c.mustClause? = some q) : q.BuiltFrom leaf := by
  rw [mustClause?] at hq
  split at hq
  · exact Option.some.inj hq ▸ h.query
  · cases hq
  · exact Option.some.inj hq ▸ h.query.either (.missing h.present)

theorem mustNotClause (h : c.BuiltFrom leaf) (hq : c.mustNotClause? = some q) : q.BuiltFrom leaf := by
  rw [mustNotClause?] at hq
  split at hq
  · exact Option.some.inj hq ▸ h.query
  · cases hq

end NestedCondition.BuiltFrom

namespace NestedCondition

variable {leaf : Query → Prop} {conditions : List NestedCondition} {q : Query}

theorem builtFrom_of_mem_wrappers (h : ∀ d ∈ conditions, d.BuiltFrom leaf) {w : Wrapper}
    (hw : w ∈ (group conditions).wrappers) (hq : q ∈ w.must ∨ q ∈ w.mustNot) : q.BuiltFrom leaf := by
  have hon : ∀ d ∈ onPath w.path (byRole conditions), d.BuiltFrom leaf :=
    fun d hd => h d (mem_byRole.mp (List.mem_of_mem_filter hd))
  rw [(mem_wrappers_group.mp hw).1] at hq
  rcases hq with hq | hq
  · obtain ⟨d, hd, hc⟩ := List.mem_filterMap.mp hq
    exact (hon d hd).mustClause hc
  · obtain ⟨d, hd, hc⟩ := List.mem_filterMap.mp hq
    exact (hon d hd).mustNotClause hc

theorem mem_absences_group : q ∈ (group conditions).absences ↔
    ∃ d ∈ conditions, d.isAbsence = true ∧ .nested d.path (.allOf [d.query]) = q := by
  rw [(group_gathers conditions).absences_eq, List.mem_filterMap]
  simp only [mem_byRole, absence?_eq_some_iff]

end NestedCondition

/-! ## Terms -/

namespace TermCriterion

/-- A leaf on the field of the criterion. -/
inductive Leaf (t : TermCriterion) : Query → Prop
  | terms (values : List String) : t.Leaf (.terms t.queryField values)
  | matching (value : String) : t.Leaf (.matching t.queryField value)
  | present : t.Leaf (.present t.valueField)

variable {t : TermCriterion} {q : Query}

theorem builtFrom_positive (hq : t.positiveClauses.must = some q ∨ t.positiveClauses.mustNot = some q) :
    q.BuiltFrom t.Leaf := by
  have hwanted : (Query.terms t.queryField t.wanted).BuiltFrom t.Leaf := .leaf (.terms _)
  have hpresent : (Query.present t.valueField).BuiltFrom t.Leaf := .leaf .present
  unfold positiveClauses at hq
  split at hq <;> simp only [reduceCtorEq, Option.some.injEq, or_false, false_or] at hq <;> subst hq
  · exact hpresent
  · exact hpresent
  · exact hwanted
  · exact hwanted.either (.missing .present)
  · exact hwanted.either hpresent

theorem must_flatClauses : t.flatClauses.must = t.positiveClauses.must := by
  rw [flatClauses]
  split <;> rfl

theorem builtFrom_flat (hq : t.flatClauses.must = some q ∨ t.flatClauses.mustNot = some q) :
    q.BuiltFrom t.Leaf := by
  unfold flatClauses at hq
  split at hq
  · exact builtFrom_positive hq
  · rcases hq with hq | hq
    · exact builtFrom_positive (.inl hq)
    · simp only [Option.some.injEq] at hq
      subst hq
      cases hm : t.positiveClauses.mustNot with
      | none => exact .leaf (.terms _)
      | some absence => exact (builtFrom_positive (.inr hm)).either (.leaf (.terms _))

theorem ne_nested_of_flat (hq : t.flatClauses.must = some q ∨ t.flatClauses.mustNot = some q) (path : String)
    (inner : Query) : q ≠ .nested path inner :=
  (builtFrom_flat hq).ne_nested nofun path inner

theorem anyMatch?_eq_none_iff {field : String} {values : List String} :
    anyMatch? field values = none ↔ values = [] := by
  cases values <;> simp [anyMatch?]

theorem ne_nil_of_anyMatch {field : String} {values : List String} (hq : anyMatch? field values = some q) :
    values ≠ [] := by
  intro hnil
  rw [anyMatch?_eq_none_iff.mpr hnil] at hq
  cases hq

theorem builtFrom_anyMatch {values : List String} (hq : anyMatch? t.queryField values = some q) :
    q.BuiltFrom t.Leaf := by
  cases values with
  | nil => exact absurd rfl (ne_nil_of_anyMatch hq)
  | cons v vs =>
      simp only [anyMatch?, Option.some.injEq] at hq
      subst hq
      apply Query.BuiltFrom.anyOf (by simp)
      simp only [List.forall_mem_map]
      exact fun w _ => .leaf (.matching w)

/-- What wanted values and the wish about absence come to below a path. -/
inductive Positive (t : TermCriterion) (path : String) : List NestedCondition → Prop
  | nothing : t.wanted = [] → t.noValue = none → Positive t path []
  | absence : t.wanted = [] → t.noValue = some true →
      Positive t path [⟨.mustNot, path, t.valueField, .present t.valueField⟩]
  | presence : t.wanted = [] → t.noValue = some false →
      Positive t path [⟨.must, path, t.valueField, .present t.valueField⟩]
  | wanted {r : Query} : anyMatch? t.queryField t.wanted = some r → t.noValue = none →
      Positive t path [⟨.must, path, t.valueField, r⟩]
  | wantedOrAbsence {r : Query} : anyMatch? t.queryField t.wanted = some r → t.noValue = some true →
      Positive t path [⟨.should, path, t.valueField, r⟩]
  | wantedOrPresence {r : Query} : anyMatch? t.queryField t.wanted = some r → t.noValue = some false →
      Positive t path [⟨.must, path, t.valueField, .anyOf [r, .present t.valueField]⟩]

/-- What unwanted values come to below a path. -/
def negative? (t : TermCriterion) (path : String) : Option NestedCondition :=
  (anyMatch? t.queryField t.unwanted).map (NestedCondition.mk .mustNot path t.valueField)

theorem exists_nestedPath (hb : t.isBelowPath = true) : ∃ path, t.nestedPath = some path := by
  rw [isBelowPath, Bool.and_eq_true] at hb
  exact Option.isSome_iff_exists.mp hb.1

theorem nestedConditions_of_none (h : t.nestedPath = none) : t.nestedConditions = [] := by
  simp [nestedConditions, h]

theorem exists_positive {path : String} (h : t.nestedPath = some path) :
    ∃ positive, t.Positive path positive ∧ t.nestedConditions = positive ++ (t.negative? path).toList := by
  rw [nestedConditions, h]
  refine ⟨_, ?_, rfl⟩
  cases hw : anyMatch? t.queryField t.wanted with
  | none =>
      have hnil := anyMatch?_eq_none_iff.mp hw
      cases hn : t.noValue with
      | none => exact .nothing hnil hn
      | some wish =>
          cases wish with
          | true => exact .absence hnil hn
          | false => exact .presence hnil hn
  | some q =>
      cases hn : t.noValue with
      | none => exact .wanted hw hn
      | some wish =>
          cases wish with
          | true => exact .wantedOrAbsence hw hn
          | false => exact .wantedOrPresence hw hn

theorem builtFrom_condition {c : NestedCondition} (hc : c ∈ t.nestedConditions) : c.BuiltFrom t.Leaf := by
  have hpresent : (Query.present t.valueField).BuiltFrom t.Leaf := .leaf .present
  cases hpath : t.nestedPath with
  | none => simp [nestedConditions_of_none hpath] at hc
  | some path =>
      obtain ⟨positive, hp, he⟩ := exists_positive hpath
      rw [he, List.mem_append, Option.mem_toList, negative?, Option.map_eq_some_iff] at hc
      rcases hc with hc | ⟨q, hq, rfl⟩
      · cases hp with
        | nothing => cases hc
        | absence | presence => exact List.mem_singleton.mp hc ▸ ⟨hpresent, .present⟩
        | wanted hw | wantedOrAbsence hw =>
            exact List.mem_singleton.mp hc ▸ ⟨builtFrom_anyMatch hw, .present⟩
        | wantedOrPresence hw =>
            exact List.mem_singleton.mp hc ▸ ⟨(builtFrom_anyMatch hw).either hpresent, .present⟩
      · exact ⟨builtFrom_anyMatch hq, .present⟩

end TermCriterion

/-! ## Ranges -/

namespace RangeCriterion

inductive Leaf (r : RangeCriterion) : Query → Prop
  | range : r.Leaf (.range r.queryField r.bounds)
  | present : r.Leaf (.present r.queryField)

theorem builtFrom_toQuery (r : RangeCriterion) (epsilon : Float) : (r.toQuery epsilon).BuiltFrom r.Leaf := by
  rw [toQuery]
  split
  · exact .either (.leaf .range) (.missing .present)
  · exact .leaf .range

theorem toQuery_ne_nested (r : RangeCriterion) (epsilon : Float) (path : String) (inner : Query) :
    r.toQuery epsilon ≠ .nested path inner :=
  (r.builtFrom_toQuery epsilon).ne_nested nofun path inner

theorem flatQuery?_eq_some_iff {r : RangeCriterion} {epsilon : Float} {q : Query} :
    r.flatQuery? epsilon = some q ↔ r.nestedPath = none ∧ r.toQuery epsilon = q := by
  rw [flatQuery?]
  cases r.nestedPath <;> simp

end RangeCriterion

/-! ## Criteria -/

theorem Criteria.mem_nestedConditions {c : Criteria} {epsilon : Float} {d : NestedCondition} :
    d ∈ c.nestedConditions epsilon ↔
      (∃ t ∈ c.fields, t.isBelowPath = true ∧ d ∈ t.nestedConditions) ∨
      ∃ r ∈ c.ranges, ∃ path, r.nestedPath = some path ∧ d = ⟨.must, path, r.queryField, r.toQuery epsilon⟩ := by
  simp only [nestedConditions, List.mem_append, List.mem_flatMap, List.mem_filter, List.mem_filterMap,
    RangeCriterion.nestedCondition?, Option.map_eq_some_iff, and_assoc, @eq_comm _ d]

/-- The clauses that stand side by side in the filter of the criteria. -/
inductive Criteria.OuterClause (c : Criteria) (epsilon : Float) : Query → Prop
  | terms (field : String) (values : List String) : OuterClause c epsilon (.terms field values)
  | flat {t : TermCriterion} {q : Query} : t ∈ c.fields → t.isBelowPath = false →
      (t.flatClauses.must = some q ∨ t.flatClauses.mustNot = some q) → OuterClause c epsilon q
  | range {r : RangeCriterion} : r ∈ c.ranges → OuterClause c epsilon (r.toQuery epsilon)
  | wrapper {w : Wrapper} : w ∈ (NestedCondition.group (c.nestedConditions epsilon)).wrappers →
      OuterClause c epsilon w.toQuery
  | absence {d : NestedCondition} : d ∈ c.nestedConditions epsilon → d.isAbsence = true →
      OuterClause c epsilon (.nested d.path (.allOf [d.query]))

namespace Criteria

variable {c : Criteria} {epsilon : Float}

theorem OuterClause.of_mem_flatClauses {f : FlatClauses} (hf : f ∈ c.flatClauses) {q : Query}
    (hq : f.must = some q ∨ f.mustNot = some q) : c.OuterClause epsilon q := by
  obtain ⟨t, ht, rfl⟩ := List.mem_map.mp hf
  rw [List.mem_filter, Bool.not_eq_true'] at ht
  exact .flat ht.1 ht.2 hq

theorem exists_outerClauses (c : Criteria) (settings : Settings) (types : List String) (principals : Principals) :
    ∃ must mustNot, c.filter settings types principals = .bool must mustNot [] ∧
      (∀ q ∈ must, c.OuterClause settings.zeroEpsilon q) ∧ ∀ q ∈ mustNot, c.OuterClause settings.zeroEpsilon q := by
  refine ⟨_, _, rfl, ?_, ?_⟩
  · simp only [List.forall_mem_append, List.forall_mem_cons, List.forall_mem_filterMap, NestedClauses.must,
      List.forall_mem_map]
    refine ⟨⟨⟨⟨.terms _ _, .terms _ _, by simp⟩, ?flat⟩, ?ranges⟩, fun w hw => .wrapper hw⟩
    case flat => exact fun f hf q hq => .of_mem_flatClauses hf (.inl hq)
    case ranges =>
      intro r hr q hq
      obtain ⟨-, rfl⟩ := RangeCriterion.flatQuery?_eq_some_iff.mp hq
      exact .range hr
  · simp only [List.forall_mem_append, List.forall_mem_filterMap, NestedClauses.mustNot]
    refine ⟨⟨?types, ?flat⟩, ?absences⟩
    case types =>
      intro q hq
      split at hq
      · cases hq
      · exact List.mem_singleton.mp hq ▸ .terms _ _
    case flat => exact fun f hf q hq => .of_mem_flatClauses hf (.inr hq)
    case absences =>
      intro q hq
      obtain ⟨d, hd, ha, rfl⟩ := NestedCondition.mem_absences_group.mp hq
      exact .absence hd ha

end Criteria

end FacetedSearch
