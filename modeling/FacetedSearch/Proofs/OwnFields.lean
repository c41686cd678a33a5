import FacetedSearch.Proofs.LeaveOneOut

/-!
# Clauses that outlive their field

Leaving a field out takes away the clauses on the field alone. A clause that joins values of a field with its
presence is on two names if the name of the field ends in the raw suffix: it stays, and still mentions the field.
Any other clause of an assembled filter is on one name, and does not mention a field that was left out.
-/

namespace FacetedSearch

namespace Query

variable {settings : Settings} {q : Query}

/-- A field in the query leads back to the name. -/
def Mentions (settings : Settings) (name : String) (q : Query) : Prop := ∃ f ∈ q.fields, settings.baseField f = name

/-- All fields in the query lead back to one name. -/
def IsPure (settings : Settings) (q : Query) : Prop := ∃ name, q.IsAbout settings name

theorem isPure_leaf {f : String} (hq : q.fields = [f]) : q.IsPure settings := ⟨_, isAbout_leaf hq rfl⟩

theorem IsPure.not_mentions {field : String} (h : q.IsPure settings)
    (ho : LeaveOneOut.isOnlyAbout settings field q = false) : ¬ q.Mentions settings field := by
  obtain ⟨name, ha⟩ := h
  rw [LeaveOneOut.isOnlyAbout_eq ha, decide_eq_false_iff_not] at ho
  rintro ⟨f, hf, he⟩
  exact ho ((ha.2 f hf).symm.trans he)

/-- Each part that leaving a field out takes away on its own is pure. -/
inductive IsPlain (settings : Settings) : Query → Prop
  | flat {q : Query} : q.IsPure settings → (∀ path inner, q ≠ .nested path inner) → IsPlain settings q
  | nested {path : String} {must mustNot : List Query} : (∀ q ∈ must, q.IsPure settings) →
      (∀ q ∈ mustNot, q.IsPure settings) → IsPlain settings (.nested path (.bool must mustNot []))

theorem mentions_bool {must mustNot should : List Query} {name : String} :
    (Query.bool must mustNot should).Mentions settings name ↔
      ∃ q ∈ must ++ mustNot ++ should, q.Mentions settings name := by
  simp only [Mentions, fields, fieldsOf_eq_flatMap, ← List.flatMap_append, List.mem_flatMap]
  constructor
  · rintro ⟨f, ⟨q, hq, hf⟩, he⟩
    exact ⟨q, hq, f, hf, he⟩
  · rintro ⟨q, hq, f, hf, he⟩
    exact ⟨f, ⟨q, hq, hf⟩, he⟩

end Query

namespace LeaveOneOut

variable {settings : Settings} {field : String}

theorem not_mentions_of_mem_without {clauses : List Query} (h : ∀ q ∈ clauses, q.IsPure settings) {q : Query}
    (hq : q ∈ without settings field clauses) : ¬ q.Mentions settings field := by
  rw [without, List.mem_filter, Bool.not_eq_true'] at hq
  exact (h q hq.1).not_mentions hq.2

theorem not_mentions_of_strip {q q' : Query} (h : q.IsPlain settings) (hs : strip settings field q = .ok (some q')) :
    isProtected settings q' = true ∨ ¬ q'.Mentions settings field := by
  cases h with
  | flat hp hn =>
      obtain ⟨name, ha⟩ := hp
      cases hpr : isProtected settings q with
      | true =>
          rw [strip_of_isProtected hpr, Except.ok.injEq, Option.some.injEq] at hs
          exact .inl (hs ▸ hpr)
      | false =>
          rw [strip_eq ha hn fun _ => hpr, Except.ok.injEq] at hs
          split at hs
          · cases hs
          · rename_i hne
            cases hs
            refine .inr (Query.IsPure.not_mentions ⟨name, ha⟩ ?_)
            rw [isOnlyAbout_eq ha, decide_eq_false hne]
  | nested hm hn =>
      rw [strip_nested, Except.ok.injEq, Wrapper.query?] at hs
      split at hs
      · cases hs
      · cases hs
        refine .inr ?_
        change ¬ Query.Mentions settings field (.bool _ _ _)
        rw [Query.mentions_bool]
        rintro ⟨q, hq, hmentions⟩
        rw [List.append_nil, List.mem_append] at hq
        rcases hq with hq | hq
        · exact not_mentions_of_mem_without hm hq hmentions
        · exact not_mentions_of_mem_without hn hq hmentions

end LeaveOneOut

namespace TermCriterion

variable {settings : Settings} {t : TermCriterion} {q : Query}

/-- A clause of the criterion is on values and on presence at once. -/
def JoinsPresence (t : TermCriterion) : Prop :=
  (t.wanted ≠ [] ∧ t.noValue ≠ none) ∨ (t.unwanted ≠ [] ∧ t.noValue = some true ∧ t.isBelowPath = false)

theorem noValue_of_positive_mustNot (hq : t.positiveClauses.mustNot = some q) : t.noValue = some true := by
  unfold positiveClauses at hq
  split at hq <;> first | assumption | cases hq

theorem positive_of_not_joinsPresence (hw : t.wanted ≠ [] → t.noValue = none)
    (hq : t.positiveClauses.must = some q ∨ t.positiveClauses.mustNot = some q) :
    q = .present t.valueField ∨ ∃ values, q = .terms t.queryField values := by
  unfold positiveClauses at hq
  cases hwanted : t.wanted with
  | nil =>
      cases hn : t.noValue with
      | none => simp [hwanted, hn] at hq
      | some wish =>
          left
          cases wish <;> simpa [hwanted, hn, eq_comm] using hq
  | cons w ws =>
      have hn := hw (by simp [hwanted])
      exact .inr ⟨w :: ws, by simpa [hwanted, hn, eq_comm] using hq⟩

theorem flat_of_not_joinsPresence (hj : ¬ t.JoinsPresence) (hb : t.isBelowPath = false)
    (hq : t.flatClauses.must = some q ∨ t.flatClauses.mustNot = some q) :
    q = .present t.valueField ∨ ∃ values, q = .terms t.queryField values := by
  simp only [JoinsPresence, hb, and_true, not_or, not_and, Decidable.not_not] at hj
  obtain ⟨hw, hu⟩ := hj
  unfold flatClauses at hq
  split at hq
  · exact positive_of_not_joinsPresence hw hq
  · rename_i hne
    rcases hq with hq | hq
    · exact positive_of_not_joinsPresence hw (.inl hq)
    · cases hm : t.positiveClauses.mustNot with
      | none => exact .inr ⟨t.unwanted, by simpa [hm, eq_comm] using hq⟩
      | some absence => exact absurd (noValue_of_positive_mustNot hm) (hu hne)

theorem condition_of_not_joinsPresence (hj : ¬ t.JoinsPresence) {c : NestedCondition} (hc : c ∈ t.nestedConditions) :
    c.role ≠ .should ∧
      (c.query = .present t.valueField ∨ ∃ values, anyMatch? t.queryField values = some c.query) := by
  cases hpath : t.nestedPath with
  | none => simp [nestedConditions_of_none hpath] at hc
  | some path =>
      obtain ⟨positive, hp, he⟩ := exists_positive hpath
      rw [he, List.mem_append, Option.mem_toList, negative?, Option.map_eq_some_iff] at hc
      rcases hc with hc | ⟨q, hq, rfl⟩
      · cases hp with
        | nothing => cases hc
        | absence | presence =>
            rw [List.mem_singleton.mp hc]
            exact ⟨by simp, .inl rfl⟩
        | wanted hw =>
            rw [List.mem_singleton.mp hc]
            exact ⟨by simp, .inr ⟨_, hw⟩⟩
        | wantedOrAbsence hw hn | wantedOrPresence hw hn =>
            exact absurd (.inl ⟨ne_nil_of_anyMatch hw, by simp [hn]⟩) hj
      · exact ⟨by simp, .inr ⟨_, hq⟩⟩

/-- Without such a clause, or with a name that is found back, every clause of the criterion is on one name. -/
def IsPlain (settings : Settings) (t : TermCriterion) : Prop := t.LeadsBack settings ∨ ¬ t.JoinsPresence

theorem IsPlain.isPure_flat (h : t.IsPlain settings) (hb : t.isBelowPath = false)
    (hq : t.flatClauses.must = some q ∨ t.flatClauses.mustNot = some q) : q.IsPure settings := by
  rcases h with hl | hj
  · exact ⟨t.field, (builtFrom_flat hq).isAbout hl.isAbout_leaf⟩
  · rcases flat_of_not_joinsPresence hj hb hq with rfl | ⟨values, rfl⟩ <;> exact Query.isPure_leaf rfl

theorem isPure_anyMatch {field : String} {values : List String} (hq : anyMatch? field values = some q) :
    q.IsPure settings := by
  cases values with
  | nil => exact absurd rfl (ne_nil_of_anyMatch hq)
  | cons v vs =>
      simp only [anyMatch?, Option.some.injEq] at hq
      subst hq
      have hb : (Query.anyOf ((v :: vs).map (Query.matching field))).BuiltFrom
          (·.IsAbout settings (settings.baseField field)) := by
        apply Query.BuiltFrom.anyOf (by simp)
        simp only [List.forall_mem_map]
        exact fun w _ => .leaf (Query.isAbout_leaf rfl rfl)
      exact ⟨_, hb.isAbout fun _ ha => ha⟩

theorem IsPlain.isPure_condition (h : t.IsPlain settings) {c : NestedCondition} (hc : c ∈ t.nestedConditions) :
    c.query.IsPure settings ∧ ∀ q, c.mustClause? = some q → q.IsPure settings := by
  rcases h with hl | hj
  · have hb := (builtFrom_condition hc).mono hl.isAbout_leaf
    exact ⟨⟨t.field, hb.query.isAbout fun _ ha => ha⟩,
      fun q hq => ⟨t.field, (hb.mustClause hq).isAbout fun _ ha => ha⟩⟩
  · obtain ⟨hr, hs⟩ := condition_of_not_joinsPresence hj hc
    have hp : c.query.IsPure settings := by
      rcases hs with hq | ⟨values, hq⟩
      · exact hq ▸ Query.isPure_leaf rfl
      · exact isPure_anyMatch hq
    refine ⟨hp, fun q hq => ?_⟩
    rw [NestedCondition.mustClause?] at hq
    split at hq
    · exact Option.some.inj hq ▸ hp
    · cases hq
    · rename_i hs
      exact absurd hs hr

end TermCriterion

theorem RangeCriterion.isPure_of_builtFrom {settings : Settings} {r : RangeCriterion} {q : Query}
    (h : q.BuiltFrom r.Leaf) : q.IsPure settings := by
  refine ⟨settings.baseField r.queryField, h.isAbout fun leaf hl => ?_⟩
  cases hl <;> exact Query.isAbout_leaf rfl rfl

/-! ## The clauses of an assembled filter -/

namespace Criteria

variable {settings : Settings} {c : Criteria} {q : Query}

theorem isPure_condition (h : ∀ t ∈ c.fields, t.IsPlain settings) {epsilon : Float} {d : NestedCondition}
    (hd : d ∈ c.nestedConditions epsilon) :
    d.query.IsPure settings ∧ ∀ q, d.mustClause? = some q → q.IsPure settings := by
  rcases mem_nestedConditions.mp hd with ⟨t, ht, -, hdt⟩ | ⟨r, hr, path, -, rfl⟩
  · exact (h t ht).isPure_condition hdt
  · have hp : (r.toQuery epsilon).IsPure settings := RangeCriterion.isPure_of_builtFrom (r.builtFrom_toQuery epsilon)
    refine ⟨hp, fun q hq => ?_⟩
    exact Option.some.inj hq ▸ hp

theorem OuterClause.isPlain (h : ∀ t ∈ c.fields, t.IsPlain settings) {epsilon : Float}
    (hq : c.OuterClause epsilon q) : q.IsPlain settings := by
  cases hq with
  | terms field values => exact .flat (Query.isPure_leaf rfl) nofun
  | flat ht hb hf => exact .flat ((h _ ht).isPure_flat hb hf) (TermCriterion.ne_nested_of_flat hf)
  | @range r _ =>
      exact .flat (RangeCriterion.isPure_of_builtFrom (r.builtFrom_toQuery epsilon)) (r.toQuery_ne_nested epsilon)
  | wrapper hw =>
      rw [(NestedCondition.mem_wrappers_group.mp hw).1]
      refine .nested ?_ ?_
      · intro q hq
        obtain ⟨d, hd, hq⟩ := List.mem_filterMap.mp hq
        exact (isPure_condition h (NestedCondition.mem_byRole.mp (List.mem_of_mem_filter hd))).2 q hq
      · intro q hq
        obtain ⟨d, hd, hq⟩ := List.mem_filterMap.mp hq
        have hp := (isPure_condition h (NestedCondition.mem_byRole.mp (List.mem_of_mem_filter hd))).1
        rw [NestedCondition.mustNotClause?] at hq
        split at hq
        · exact Option.some.inj hq ▸ hp
        · cases hq
  | absence hd _ => exact .nested (by simpa using (isPure_condition h hd).1) (by simp)

theorem isPlain_of_mem_filter (h : ∀ t ∈ c.fields, t.IsPlain settings) {types : List String} {principals : Principals}
    {must mustNot should : List Query} (he : c.filter settings types principals = .bool must mustNot should) :
    (∀ q ∈ must, q.IsPlain settings) ∧ ∀ q ∈ mustNot, q.IsPlain settings := by
  obtain ⟨must', mustNot', he', hm, hn⟩ := c.exists_outerClauses settings types principals
  cases he.symm.trans he'
  exact ⟨fun q hq => (hm q hq).isPlain h, fun q hq => (hn q hq).isPlain h⟩

end Criteria

/-! ## Clauses on two names -/

namespace TermCriterion

variable {settings : Settings} {t : TermCriterion} {q : Query}

/-- The query has the field for values and the field for presence of the criterion. -/
def Joins (t : TermCriterion) (q : Query) : Prop := t.queryField ∈ q.fields ∧ t.valueField ∈ q.fields

theorem queryField_mem_anyMatch {field : String} {values : List String} (hq : anyMatch? field values = some q) :
    field ∈ q.fields := by
  match values with
  | [] => cases hq
  | [v] =>
      cases hq
      exact List.mem_singleton_self field
  | v :: w :: rest =>
      cases hq
      simp [Query.anyOf, Query.fields, Query.fieldsOf]

theorem exists_joined_wanted (hw : t.wanted ≠ []) (hn : t.noValue ≠ none) :
    ∃ queries, t.flatClauses.must = some (.bool [] [] queries) ∧ t.Joins (.bool [] [] queries) := by
  rw [must_flatClauses]
  unfold positiveClauses
  cases hwanted : t.wanted with
  | nil => exact absurd hwanted hw
  | cons w ws =>
      cases hwish : t.noValue with
      | none => exact absurd hwish hn
      | some wish =>
          cases wish
          · exact ⟨_, rfl, by simp [Joins, Query.fields, Query.fieldsOf]⟩
          · exact ⟨_, rfl, by simp [Joins, Query.fields, Query.fieldsOf, Query.missing, Query.noneOf]⟩

theorem exists_joined_unwanted (hw : t.wanted = []) (hu : t.unwanted ≠ []) (hn : t.noValue = some true) :
    ∃ queries, t.flatClauses.mustNot = some (.bool [] [] queries) ∧ t.Joins (.bool [] [] queries) := by
  unfold flatClauses positiveClauses
  cases hunwanted : t.unwanted with
  | nil => exact absurd hunwanted hu
  | cons u us =>
      simp only [hw, hn]
      exact ⟨_, rfl, by simp [Joins, Query.fields, Query.fieldsOf]⟩

theorem exists_joined_flat (hj : t.JoinsPresence) :
    ∃ queries, (t.flatClauses.must = some (.bool [] [] queries) ∨ t.flatClauses.mustNot = some (.bool [] [] queries)) ∧
      t.Joins (.bool [] [] queries) := by
  by_cases hw : t.wanted = []
  · rcases hj with ⟨hne, -⟩ | ⟨hu, hn, -⟩
    · exact absurd hw hne
    · obtain ⟨queries, hq, h⟩ := exists_joined_unwanted hw hu hn
      exact ⟨queries, .inr hq, h⟩
  · have hn : t.noValue ≠ none := by
      rcases hj with ⟨-, hn⟩ | ⟨-, hn, -⟩
      · exact hn
      · simp [hn]
    obtain ⟨queries, hq, h⟩ := exists_joined_wanted hw hn
    exact ⟨queries, .inl hq, h⟩

theorem exists_joined_condition (hj : t.JoinsPresence) (hb : t.isBelowPath = true) :
    ∃ d ∈ t.nestedConditions, ∃ q, d.mustClause? = some q ∧ t.Joins q := by
  obtain ⟨path, hpath⟩ := exists_nestedPath hb
  obtain ⟨positive, hp, he⟩ := exists_positive hpath
  have hw : t.wanted ≠ [] ∧ t.noValue ≠ none := by
    rcases hj with hj | ⟨-, -, hn⟩
    · exact hj
    · rw [hb] at hn
      cases hn
  rw [he]
  cases hp with
  | nothing hnil | absence hnil | presence hnil => exact absurd hnil hw.1
  | wanted _ hn => exact absurd hn hw.2
  | wantedOrAbsence hq =>
      refine ⟨_, List.mem_append_left _ (List.mem_singleton_self _), _, rfl, ?_⟩
      have hf := queryField_mem_anyMatch hq
      simp [Joins, NestedCondition.either, Query.fields, Query.fieldsOf, Query.missing, Query.noneOf, hf]
  | wantedOrPresence hq =>
      refine ⟨_, List.mem_append_left _ (List.mem_singleton_self _), _, rfl, ?_⟩
      have hf := queryField_mem_anyMatch hq
      simp [Joins, Query.anyOf, Query.fields, Query.fieldsOf, hf]

theorem Joins.mentions (h : t.Joins q) (hf : settings.baseField t.queryField = t.field) :
    q.Mentions settings t.field :=
  ⟨t.queryField, h.1, hf⟩

theorem Joins.isOnlyAbout_eq_false (h : t.Joins q) (hv : settings.baseField t.valueField ≠ t.field) :
    LeaveOneOut.isOnlyAbout settings t.field q = false := by
  rw [LeaveOneOut.isOnlyAbout, Bool.and_eq_false_iff, List.all_eq_false]
  exact .inr ⟨t.valueField, h.2, by simpa using hv⟩

end TermCriterion

namespace LeaveOneOut

variable {settings : Settings} {field : String}

theorem strip_bool_of_not_isOnlyAbout {must mustNot should : List Query}
    (h : isOnlyAbout settings field (.bool must mustNot should) = false) :
    strip settings field (.bool must mustNot should) = .ok (some (.bool must mustNot should)) := by
  unfold strip
  rw [if_neg (by simp [isProtected])]
  simp [h]

/-- A wrapper stays with any clause that is not on the field alone. -/
theorem exists_strip_wrapper {w : Wrapper} {q : Query} (hq : q ∈ w.must) (ho : isOnlyAbout settings field q = false)
    (hm : q.Mentions settings field) :
    ∃ q', strip settings field w.toQuery = .ok (some q') ∧ isProtected settings q' = false ∧
      q'.Mentions settings field := by
  have hkept : q ∈ without settings field w.must := List.mem_filter.mpr ⟨hq, by simp [ho]⟩
  refine ⟨.nested w.path (.bool (without settings field w.must) (without settings field w.mustNot) []), ?_, rfl, ?_⟩
  · rw [Wrapper.toQuery, strip_nested, Wrapper.query?, if_neg fun h => List.ne_nil_of_mem hkept h.1]
    rfl
  · change Query.Mentions settings field (.bool _ _ _)
    rw [Query.mentions_bool]
    exact ⟨q, by simp [hkept], hm⟩

end LeaveOneOut

namespace Criteria

open LeaveOneOut

variable {settings : Settings} {c : Criteria} {t : TermCriterion}

/-- Leaving out a field on two names leaves a clause that still mentions it. -/
theorem exists_clause_on_own_field (ht : t ∈ c.fields) (hj : t.JoinsPresence)
    (hf : settings.baseField t.queryField = t.field) (hv : settings.baseField t.valueField ≠ t.field)
    {types : List String} {principals : Principals} {must mustNot should : List Query}
    (he : c.filter settings types principals = .bool must mustNot should) :
    ∃ q, (q ∈ must ∨ q ∈ mustNot) ∧ ∃ q', strip settings t.field q = .ok (some q') ∧
      isProtected settings q' = false ∧ q'.Mentions settings t.field := by
  rw [filter, Query.bool.injEq] at he
  obtain ⟨rfl, rfl, -⟩ := he
  cases hb : t.isBelowPath with
  | false =>
      obtain ⟨queries, hq, hjoins⟩ := TermCriterion.exists_joined_flat hj
      have hflat : t.flatClauses ∈ c.flatClauses := List.mem_map_of_mem (List.mem_filter.mpr ⟨ht, by simp [hb]⟩)
      refine ⟨.bool [] [] queries, ?_, _, strip_bool_of_not_isOnlyAbout (hjoins.isOnlyAbout_eq_false hv), rfl,
        hjoins.mentions hf⟩
      simp only [List.mem_append, List.mem_filterMap]
      rcases hq with hq | hq
      · exact .inl (.inl (.inl (.inr ⟨_, hflat, hq⟩)))
      · exact .inr (.inl (.inr ⟨_, hflat, hq⟩))
  | true =>
      obtain ⟨d, hd, q, hq, hjoins⟩ := TermCriterion.exists_joined_condition hj hb
      have hmem : d ∈ c.nestedConditions settings.zeroEpsilon := mem_nestedConditions.mpr (.inl ⟨t, ht, hb, hd⟩)
      have ha : d.isAbsence = false := by
        cases ha : d.isAbsence with
        | false => rfl
        | true =>
            rw [(NestedCondition.clauses_of_isAbsence ha).1] at hq
            cases hq
      have hw : Wrapper.gathered d.path (NestedCondition.byRole (c.nestedConditions settings.zeroEpsilon)) ∈
          (NestedCondition.group (c.nestedConditions settings.zeroEpsilon)).wrappers :=
        NestedCondition.mem_wrappers_group.mpr ⟨rfl, d, hmem, ha, rfl⟩
      refine ⟨_, .inl (List.mem_append_right _ (List.mem_map_of_mem hw)), exists_strip_wrapper ?_
        (hjoins.isOnlyAbout_eq_false hv) (hjoins.mentions hf)⟩
      refine List.mem_filterMap.mpr ⟨d, List.mem_filter.mpr ⟨NestedCondition.mem_byRole.mpr hmem, ?_⟩, hq⟩
      simp

end Criteria

end FacetedSearch
