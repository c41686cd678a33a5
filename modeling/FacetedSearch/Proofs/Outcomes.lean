import FacetedSearch.Proofs.DerivedFilters
import FacetedSearch.Proofs.LeaveOneOut

/-!
# Outcomes of a compilation

A search is compiled, or it is refused for one of two reasons: the request names others than the principals in a
clause of its own on the permission field, or two of its facets share a name. Assembled filters have the form that
leaving a field out relies on, and planned facets the form that their aggregations rely on, so nothing else fails.
-/

namespace FacetedSearch

/-! ## Filters that can be stripped -/

/-- A nested query is one around a boolean query. -/
def Query.IsStrippable (q : Query) : Prop :=
  ∀ path inner, q = .nested path inner → ∃ must mustNot should, inner = .bool must mustNot should

theorem Query.isStrippable_of_ne_nested {q : Query} (h : ∀ path inner, q ≠ .nested path inner) : q.IsStrippable :=
  fun path inner he => absurd he (h path inner)

namespace LeaveOneOut

variable {settings : Settings} {field : String}

theorem exists_strip {q : Query} (h : q.IsStrippable) : ∃ left, strip settings field q = .ok left := by
  cases q with
  | nested path inner =>
      obtain ⟨must, mustNot, should, rfl⟩ := h path inner rfl
      rw [strip, if_neg (by simp [isProtected])]
      split <;> exact ⟨_, rfl⟩
  | _ =>
      unfold strip
      split <;> exact ⟨_, rfl⟩

theorem exists_filterFor {must mustNot should : List Query} (hm : ∀ q ∈ must, q.IsStrippable)
    (hn : ∀ q ∈ mustNot, q.IsStrippable) : ∃ own, filterFor settings (.bool must mustNot should) field = .ok own := by
  obtain ⟨kept, hk⟩ := exists_stripAll fun q hq => exists_strip (hm q hq)
  obtain ⟨keptNot, hkn⟩ := exists_stripAll fun q hq => exists_strip (hn q hq)
  exact ⟨_, filterFor_eq_ok_iff.mpr ⟨_, _, _, _, _, rfl, hk, hkn, rfl⟩⟩

end LeaveOneOut

namespace Criteria

theorem OuterClause.isStrippable {c : Criteria} {epsilon : Float} {q : Query} (hq : c.OuterClause epsilon q) :
    q.IsStrippable := by
  cases hq with
  | terms field values => exact Query.isStrippable_of_ne_nested nofun
  | flat _ _ hf => exact Query.isStrippable_of_ne_nested (TermCriterion.ne_nested_of_flat hf)
  | range _ => exact Query.isStrippable_of_ne_nested (RangeCriterion.toQuery_ne_nested _ _)
  | wrapper _ =>
      intro path inner he
      cases he
      exact ⟨_, _, _, rfl⟩
  | absence _ _ =>
      intro path inner he
      cases he
      exact ⟨_, _, _, rfl⟩

theorem exists_filterFor_filter (c : Criteria) (settings : Settings) (types : List String) (principals : Principals)
    (field : String) : ∃ own, LeaveOneOut.filterFor settings (c.filter settings types principals) field = .ok own := by
  obtain ⟨must, mustNot, he, hm, hn⟩ := c.exists_outerClauses settings types principals
  rw [he]
  exact LeaveOneOut.exists_filterFor (fun q hq => (hm q hq).isStrippable) fun q hq => (hn q hq).isStrippable

end Criteria

/-! ## Planned facets -/

theorem PlannedFacet.exists_toJson {p : PlannedFacet} (h : p.facet.kind.isNested = true → p.nestedPath.isSome = true)
    (settings : Settings) : ∃ aggs, p.toJson settings = .ok aggs := by
  rw [toJson]
  split
  · rename_i hn
    obtain ⟨path, hp⟩ := Option.isSome_iff_exists.mp (h hn)
    rw [hp]
    exact ⟨_, rfl⟩
  · exact ⟨_, rfl⟩

theorem FieldView.isNested_resolveFacet (view : FieldView) (criteria : Criteria) (facet : Facet) :
    (view.resolveFacet criteria facet).facet.kind.isNested = (view.resolveFacet criteria facet).nestedPath.isSome := by
  rw [resolveFacet]
  cases (view.nestedPath? facet.field).isSome <;> rfl

/-! ## Clauses on the permission field -/

theorem TermCriterion.must_flatClauses_eq_terms_iff {t : TermCriterion} {field : String} {values : List String} :
    t.flatClauses.must = some (.terms field values) ↔
      t.queryField = field ∧ t.noValue = none ∧ t.wanted ≠ [] ∧ values = t.wanted := by
  rw [must_flatClauses, positiveClauses]
  split <;> simp_all [eq_comm]

theorem RangeCriterion.toQuery_ne_terms (r : RangeCriterion) (epsilon : Float) (field : String) (values : List String) :
    r.toQuery epsilon ≠ .terms field values := by
  rw [toQuery]
  split <;> simp

namespace Criteria

/-- The values of a plain clause on the permission field that is not the one of the guard: the clause on types, or
one on a field that the request asks for. -/
def ClaimsPermission (c : Criteria) (settings : Settings) (types values : List String) : Prop :=
  (settings.typeQueryField = settings.permissionField ∧ values = c.typesOr types) ∨
    ∃ t ∈ c.fields, t.isBelowPath = false ∧ t.queryField = settings.permissionField ∧ t.noValue = none ∧
      t.wanted ≠ [] ∧ values = t.wanted

theorem terms_mem_flatClauses_iff {c : Criteria} {field : String} {values : List String} :
    .terms field values ∈ c.flatClauses.filterMap FlatClauses.must ↔
      ∃ t ∈ c.fields, t.isBelowPath = false ∧ t.queryField = field ∧ t.noValue = none ∧ t.wanted ≠ [] ∧
        values = t.wanted := by
  simp only [flatClauses, List.filterMap_map, List.mem_filterMap, List.mem_filter, Function.comp_apply,
    Bool.not_eq_true', and_assoc, TermCriterion.must_flatClauses_eq_terms_iff]

theorem hasClause_filter_iff {c : Criteria} {settings : Settings} {types : List String} {principals : Principals}
    {values : List String} :
    PermissionGuard.HasClause ⟨settings.permissionField⟩ (c.filter settings types principals) values ↔
      values = principals ∨ c.ClaimsPermission settings types values := by
  have hrange : .terms settings.permissionField values ∉ c.ranges.filterMap (·.flatQuery? settings.zeroEpsilon) := by
    intro hm
    obtain ⟨r, -, hr⟩ := List.mem_filterMap.mp hm
    exact r.toQuery_ne_terms _ _ _ (RangeCriterion.flatQuery?_eq_some_iff.mp hr).2
  have hgroup : .terms settings.permissionField values ∉
      (NestedCondition.group (c.nestedConditions settings.zeroEpsilon)).must := by
    intro hm
    obtain ⟨w, -, hw⟩ := List.mem_map.mp hm
    cases hw
  have hmem : PermissionGuard.HasClause ⟨settings.permissionField⟩ (c.filter settings types principals) values ↔
      .terms settings.permissionField values ∈ (c.filter settings types principals).must := by
    constructor
    · rintro ⟨_, _, _, he, hm⟩
      rw [he]
      exact hm
    · exact fun hm => ⟨_, _, _, rfl, hm⟩
  rw [hmem, filter, Query.must]
  simp only [List.mem_append, hrange, hgroup, or_false, terms_mem_flatClauses_iff, List.mem_cons, List.not_mem_nil,
    PermissionGuard.clause, Query.terms.injEq, true_and, ClaimsPermission]
  rw [or_comm (b := values = principals), or_assoc, eq_comm (a := settings.permissionField)]

end Criteria

/-! ## Compilation -/

namespace Compiler

variable {c : Compiler} {request : Request} {types : List String} {principals : Principals} {declared : List Facet}
  {failure : Failure}

theorem compileFilter_eq_error_iff : c.compileFilter request types principals = .error failure ↔
    c.guard.verify ((Criteria.ofRequest (c.view types) request).filter c.settings types principals) principals =
      .error failure := by
  simp only [compileFilter, bind_eq_error_iff, pure_ne_error, and_false, exists_false, or_false]

def criteria (c : Compiler) (request : Request) (types : List String) : Criteria :=
  .ofRequest (c.view (c.searchTypes request types)) request

/-- The filter that is assembled for a request and handed to the guard. -/
def assembled (c : Compiler) (request : Request) (types : List String) (principals : Principals) : Query :=
  (c.criteria request types).filter c.settings (c.searchTypes request types) principals

def planned (c : Compiler) (request : Request) (types : List String) (declared : List Facet) : List PlannedFacet :=
  (c.view (c.searchTypes request types)).planFacets declared request (c.criteria request types)

def facetNames (c : Compiler) (request : Request) (types : List String) (declared : List Facet) : List String :=
  (c.planned request types declared).map (·.aggregationName)

/-- A clause on the permission field that is not the one of the guard has other values than the principals. -/
def MisnamesPrincipals (c : Compiler) (request : Request) (types : List String) (principals : Principals) : Prop :=
  ∃ values, (c.criteria request types).ClaimsPermission c.settings (c.searchTypes request types) values ∧
    ¬ ∀ s, s ∈ values ↔ s ∈ principals

theorem hasClause_assembled_iff {values : List String} :
    c.guard.HasClause (c.assembled request types principals) values ↔ values = principals ∨
      (c.criteria request types).ClaimsPermission c.settings (c.searchTypes request types) values :=
  Criteria.hasClause_filter_iff

theorem verify_assembled_eq_mismatch_iff :
    (∃ expected found, c.guard.verify (c.assembled request types principals) principals =
      .error (.permissionMismatch expected found)) ↔ c.MisnamesPrincipals request types principals := by
  rw [PermissionGuard.verify_eq_mismatch_iff]
  refine exists_congr fun values => ?_
  rw [hasClause_assembled_iff]
  constructor
  · rintro ⟨rfl | hc, hne⟩
    · exact absurd (fun _ => Iff.rfl) hne
    · exact ⟨hc, hne⟩
  · exact fun ⟨hc, hne⟩ => ⟨.inr hc, hne⟩

/-- The guard finds its own clause, so it can only find another one with other values. -/
theorem mismatch_of_verify_assembled
    (h : c.guard.verify (c.assembled request types principals) principals = .error failure) :
    ∃ expected found, failure = .permissionMismatch expected found := by
  have hown : c.guard.HasClause (c.assembled request types principals) principals :=
    hasClause_assembled_iff.mpr (.inl rfl)
  rcases PermissionGuard.verify_eq c.guard (c.assembled request types principals) principals with
    ⟨hnil, -⟩ | ⟨-, -, hv⟩ | ⟨values, -, -, hv⟩
  · rw [← PermissionGuard.mem_clauses_iff, hnil] at hown
    cases hown
  · cases hv.symm.trans h
  · cases hv.symm.trans h
    exact ⟨_, _, rfl⟩

theorem verify_assembled_eq_ok_iff : c.guard.verify (c.assembled request types principals) principals = .ok () ↔
    ¬ c.MisnamesPrincipals request types principals := by
  rw [← verify_assembled_eq_mismatch_iff]
  cases h : c.guard.verify (c.assembled request types principals) principals with
  | ok => simp
  | error failure =>
      obtain ⟨expected, found, rfl⟩ := mismatch_of_verify_assembled h
      simp

theorem exists_isEntry_of_mem_planned {p : PlannedFacet} (hp : p ∈ c.planned request types declared) :
    ∃ entry, Aggregations.IsEntry c.settings (c.assembled request types principals) p entry := by
  obtain ⟨own, ho⟩ := (c.criteria request types).exists_filterFor_filter c.settings (c.searchTypes request types)
    principals p.facet.field
  obtain ⟨facet, -, rfl⟩ := List.mem_map.mp hp
  obtain ⟨aggs, ha⟩ := PlannedFacet.exists_toJson
    (fun hn => (FieldView.isNested_resolveFacet _ _ facet).symm.trans hn) c.settings
  exact ⟨_, own, aggs, ho, ha, rfl⟩

/-- The guard is asked first, and only names that repeat make what it lets through fail. -/
theorem compile_eq_error_iff : c.compile request types principals declared = .error failure ↔
    c.guard.verify (c.assembled request types principals) principals = .error failure ∨
      ¬ c.MisnamesPrincipals request types principals ∧
        ∃ name, failure = .nameCollision name ∧
          Aggregations.FirstRepeat (c.facetNames request types declared) name := by
  have hbuild : Aggregations.build c.settings (c.planned request types declared)
      (c.assembled request types principals) = .error failure ↔ _ :=
    Aggregations.build_eq_error_iff fun p hp => exists_isEntry_of_mem_planned hp
  rw [← verify_assembled_eq_ok_iff, facetNames, ← hbuild]
  simp only [compile, bind_eq_error_iff, compileFilter_eq_error_iff, pure_ne_error, and_false, exists_false, or_false]
  refine or_congr Iff.rfl ?_
  constructor
  · rintro ⟨⟨criteria, filter⟩, hf, hb⟩
    obtain ⟨rfl, rfl, hv⟩ := compileFilter_eq_ok_iff.mp hf
    exact ⟨hv, hb⟩
  · rintro ⟨hv, hb⟩
    exact ⟨_, compileFilter_eq_ok_iff.mpr ⟨rfl, rfl, hv⟩, hb⟩

theorem exists_compile_iff : (∃ search, c.compile request types principals declared = .ok search) ↔
    ¬ c.MisnamesPrincipals request types principals ∧ (c.facetNames request types declared).Nodup := by
  constructor
  · rintro ⟨search, h⟩
    have hm : ¬ c.MisnamesPrincipals request types principals := by
      intro hm
      obtain ⟨_, _, hv⟩ := verify_assembled_eq_mismatch_iff.mpr hm
      cases h.symm.trans (compile_eq_error_iff.mpr (.inl hv))
    refine ⟨hm, ?_⟩
    by_contra hd
    obtain ⟨name, hf⟩ := Aggregations.exists_firstRepeat_iff.mpr hd
    cases h.symm.trans (compile_eq_error_iff.mpr (.inr ⟨hm, name, rfl, hf⟩))
  · rintro ⟨hm, hd⟩
    cases h : c.compile request types principals declared with
    | ok search => exact ⟨search, rfl⟩
    | error failure =>
        rcases compile_eq_error_iff.mp h with hv | ⟨-, name, -, hf⟩
        · cases (verify_assembled_eq_ok_iff.mpr hm).symm.trans hv
        · exact absurd hd (Aggregations.exists_firstRepeat_iff.mp ⟨name, hf⟩)

theorem stages_of_compile {search : CompiledSearch} (h : c.compile request types principals declared = .ok search) :
    search.filter = c.assembled request types principals ∧ search.facets = c.planned request types declared := by
  obtain ⟨criteria, hf, hfacets, -, -⟩ := compile_eq_ok_iff.mp h
  obtain ⟨rfl, hfilter, -⟩ := compileFilter_eq_ok_iff.mp hf
  exact ⟨hfilter, hfacets⟩

/-- Compilation fails on a clause of the request's own on the permission field that has other values than the
principals; otherwise on the first aggregation name that repeats; otherwise it succeeds. -/
theorem compile_outcomes (c : Compiler) (request : Request) (types : List String) (principals : Principals)
    (declared : List Facet) :
    (∀ values, c.guard.HasClause (c.assembled request types principals) values ↔ values = principals ∨
      (c.criteria request types).ClaimsPermission c.settings (c.searchTypes request types) values) ∧
    ((∃ expected found, c.compile request types principals declared = .error (.permissionMismatch expected found)) ↔
      c.MisnamesPrincipals request types principals) ∧
    ((∃ name, c.compile request types principals declared = .error (.nameCollision name)) ↔
      ¬ c.MisnamesPrincipals request types principals ∧ ¬ (c.facetNames request types declared).Nodup) ∧
    (∀ name, c.compile request types principals declared = .error (.nameCollision name) →
      Aggregations.FirstRepeat (c.facetNames request types declared) name) ∧
    ((∃ search, c.compile request types principals declared = .ok search) ↔
      ¬ c.MisnamesPrincipals request types principals ∧ (c.facetNames request types declared).Nodup) ∧
    (∀ search, c.compile request types principals declared = .ok search →
      search.filter = c.assembled request types principals ∧ search.facets = c.planned request types declared) ∧
    ∀ failure, c.compile request types principals declared = .error failure →
      (∃ expected found, failure = .permissionMismatch expected found) ∨ ∃ name, failure = .nameCollision name := by
  have hcollision : ∀ name, c.compile request types principals declared = .error (.nameCollision name) ↔
      ¬ c.MisnamesPrincipals request types principals ∧
        Aggregations.FirstRepeat (c.facetNames request types declared) name := by
    intro name
    rw [compile_eq_error_iff]
    constructor
    · rintro (hv | ⟨hm, _, he, hf⟩)
      · obtain ⟨_, _, he⟩ := mismatch_of_verify_assembled hv
        cases he
      · cases he
        exact ⟨hm, hf⟩
    · exact fun ⟨hm, hf⟩ => .inr ⟨hm, name, rfl, hf⟩
  refine ⟨fun _ => hasClause_assembled_iff, ?_, ?_, fun name h => ((hcollision name).mp h).2, exists_compile_iff,
    fun _ => stages_of_compile, ?_⟩
  · rw [← verify_assembled_eq_mismatch_iff]
    refine exists_congr fun expected => exists_congr fun found => ?_
    rw [compile_eq_error_iff]
    simp
  · simp only [hcollision, exists_and_left, Aggregations.exists_firstRepeat_iff]
  · intro failure h
    rcases compile_eq_error_iff.mp h with hv | ⟨-, name, rfl, -⟩
    · exact .inl (mismatch_of_verify_assembled hv)
    · exact .inr ⟨name, rfl⟩

example : (⟨{}, ⟨fun _ _ => none⟩⟩ : Compiler).compile [] [] ["a"] [{ field := "kin.sex" }, { field := "kin-sex" }] =
    .error (.nameCollision "terms:kin-sex") := by rfl

end Compiler

end FacetedSearch
