import FacetedSearch.Proofs.Aggregation
import FacetedSearch.Proofs.FiniteBounds
import FacetedSearch.Proofs.Permission
import FacetedSearch.Search.Compound

/-!
# Permissions of derived filters

The filter of a compound search and the filters of facets are made from checked filters, and are not checked again.
They still accept only documents that grant access: each checked filter that is joined asks for the permission by
itself, and the permission clause is never left out.
-/

namespace FacetedSearch

theorem Criteria.hasClause_filter (criteria : Criteria) (settings : Settings) (types : List String)
    (principals : Principals) :
    PermissionGuard.HasClause ⟨settings.permissionField⟩ (criteria.filter settings types principals) principals :=
  ⟨_, _, _, rfl, by simp [PermissionGuard.clause]⟩

theorem LeaveOneOut.hasClause_of_filterFor {settings : Settings} {field : String} {filter own : Query}
    {values : List String} (hc : PermissionGuard.HasClause ⟨settings.permissionField⟩ filter values)
    (ho : filterFor settings filter field = .ok own) :
    PermissionGuard.HasClause ⟨settings.permissionField⟩ own values := by
  obtain ⟨must, mustNot, should, rfl, hm⟩ := hc
  obtain ⟨_, _, _, kept, keptNot, he, hk, -, rfl⟩ := filterFor_eq_ok_iff.mp ho
  cases he
  have hp : isProtected settings (.terms settings.permissionField values) = true := by simp [isProtected]
  exact ⟨kept, keptNot, should, rfl, (mem_kept_iff hk).mpr ⟨_, hm, strip_of_isProtected hp⟩⟩

theorem Combination.accepts_join_iff {combination : Combination} {filters : List Query} (hne : filters ≠ [])
    {rawSuffix : String} {document : Json} : (combination.join filters).accepts rawSuffix document = true ↔
      match combination with
      | .any => ∃ filter ∈ filters, filter.accepts rawSuffix document = true
      | .all => ∀ filter ∈ filters, filter.accepts rawSuffix document = true := by
  cases combination with
  | any => exact Query.holds_alternatives hne
  | all =>
      refine Query.holds_bool.trans ?_
      simp [Query.accepts]

/-- A join of filters accepts a document only if one of them does. -/
theorem Combination.exists_accepts_of_join {combination : Combination} {filters : List Query} (hne : filters ≠ [])
    {rawSuffix : String} {document : Json} (ha : (combination.join filters).accepts rawSuffix document = true) :
    ∃ filter ∈ filters, filter.accepts rawSuffix document = true := by
  have hj := (accepts_join_iff hne).mp ha
  cases combination with
  | any => exact hj
  | all =>
      obtain ⟨filter, hf⟩ := List.exists_mem_of_ne_nil _ hne
      exact ⟨filter, hf, hj filter hf⟩

namespace Compiler

variable {c : Compiler} {types : List String} {principals : Principals} {request : Request} {rawSuffix : String}
  {document : Json}

theorem compileFilter_eq_ok_iff {criteria : Criteria} {filter : Query} :
    c.compileFilter request types principals = .ok (criteria, filter) ↔
      criteria = Criteria.ofRequest (c.view types) request ∧ filter = criteria.filter c.settings types principals ∧
        c.guard.verify filter principals = .ok () := by
  simp only [compileFilter, bind_eq_ok_iff, pure_eq_ok_iff, Prod.mk.injEq]
  constructor
  · rintro ⟨_, hv, rfl, rfl⟩
    exact ⟨rfl, rfl, hv⟩
  · rintro ⟨rfl, rfl, hv⟩
    exact ⟨(), hv, rfl, rfl⟩

theorem compile_eq_ok_iff {declared : List Facet} {search : CompiledSearch} :
    c.compile request types principals declared = .ok search ↔
      ∃ criteria, c.compileFilter request (c.searchTypes request types) principals = .ok (criteria, search.filter) ∧
        search.facets = (c.view (c.searchTypes request types)).planFacets declared request criteria ∧
        Aggregations.build c.settings search.facets search.filter = .ok search.aggregations ∧
        search.applied = (c.view (c.searchTypes request types)).appliedFilters request := by
  simp only [compile, bind_eq_ok_iff, pure_eq_ok_iff]
  constructor
  · rintro ⟨⟨criteria, filter⟩, hf, aggregations, hb, rfl⟩
    exact ⟨criteria, hf, rfl, hb, rfl⟩
  · rintro ⟨criteria, hf, hfacets, hb, ha⟩
    obtain ⟨filter, aggregations, applied, facets⟩ := search
    cases hfacets
    cases ha
    exact ⟨(criteria, filter), hf, aggregations, hb, rfl⟩

/-! ## Compound searches -/

theorem grants_of_compileBlock {query : String} {filter : Query}
    (h : c.compileBlock types principals query = .ok filter) (ha : filter.accepts rawSuffix document = true) :
    document.Grants rawSuffix c.settings.permissionField principals := by
  simp only [compileBlock, bind_eq_ok_iff, pure_eq_ok_iff] at h
  obtain ⟨request, -, ⟨criteria, checked⟩, hf, rfl⟩ := h
  obtain ⟨-, -, hv⟩ := compileFilter_eq_ok_iff.mp hf
  -- Stated apart from the goal, whose field is the one of the guard only after unfolding.
  have hg := PermissionGuard.grants_of_verify hv ha
  exact hg

theorem grants_of_compileCompound {s : CompoundSearch} {filter : Query}
    (h : c.compileCompound s types principals = .ok filter) (ha : filter.accepts rawSuffix document = true) :
    document.Grants rawSuffix c.settings.permissionField principals := by
  unfold compileCompound at h
  split at h
  · exact grants_of_compileBlock h ha
  · rename_i hne
    simp only [bind_eq_ok_iff, pure_eq_ok_iff, mapM_eq_ok_iff] at h
    obtain ⟨filters, hall, rfl⟩ := h
    have hfilters : filters ≠ [] := by
      rintro rfl
      exact hne (List.forall₂_nil_right_iff.mp hall)
    obtain ⟨f, hf, hfa⟩ := Combination.exists_accepts_of_join hfilters ha
    obtain ⟨b, -, hb⟩ := exists_item_of_mem_results hall hf
    exact grants_of_compileBlock hb hfa

/-! ## Facets -/

theorem own_of_isEntry {declared : List Facet} {search : CompiledSearch}
    (h : c.compile request types principals declared = .ok search) {p : PlannedFacet} {entry : String × Json}
    (he : Aggregations.IsEntry c.settings search.filter p entry) :
    ∃ own, entry.1 = p.aggregationName ∧ LeaveOneOut.filterFor c.settings search.filter p.facet.field = .ok own ∧
      (entry.2.get? "filter").map Query.ofJson = some (.ok own) := by
  obtain ⟨criteria, hf, -⟩ := compile_eq_ok_iff.mp h
  obtain ⟨rfl, hfilter, -⟩ := compileFilter_eq_ok_iff.mp hf
  obtain ⟨own, aggs, ho, -, rfl⟩ := he
  refine ⟨own, rfl, ho, ?_⟩
  have hfinite : search.filter.IsFinite :=
    hfilter ▸ Criteria.isFinite_filter Criteria.areFinite_of_mem_ranges _ _
  change some (Query.ofJson own.toJson) = _
  rw [Query.ofJson_toJson (LeaveOneOut.isFinite_of_filterFor hfinite ho)]

/-- Each entry carries the wire form of what is left of the filter of the search without the field of a facet. -/
theorem exists_own_of_mem_entries {declared : List Facet} {search : CompiledSearch}
    (h : c.compile request types principals declared = .ok search) {name : String} {entry : Json}
    (he : (name, entry) ∈ search.aggregations.entries) :
    ∃ p ∈ search.facets, ∃ own, name = p.aggregationName ∧
      LeaveOneOut.filterFor c.settings search.filter p.facet.field = .ok own ∧
      (entry.get? "filter").map Query.ofJson = some (.ok own) := by
  obtain ⟨criteria, -, -, hb, -⟩ := compile_eq_ok_iff.mp h
  obtain ⟨p, hp, hentry⟩ := exists_item_of_mem_results (Aggregations.forall₂_entries_of_build hb) he
  exact ⟨p, hp, own_of_isEntry h hentry⟩

/-- The entry of each facet is found under its name. -/
theorem exists_own_of_mem_facets {declared : List Facet} {search : CompiledSearch}
    (h : c.compile request types principals declared = .ok search) {p : PlannedFacet} (hp : p ∈ search.facets) :
    ∃ own, LeaveOneOut.filterFor c.settings search.filter p.facet.field = .ok own ∧
      ((search.aggregations.get? p.aggregationName).bind (·.get? "filter")).map Query.ofJson = some (.ok own) := by
  obtain ⟨criteria, -, -, hb, -⟩ := compile_eq_ok_iff.mp h
  obtain ⟨⟨name, entry⟩, hm, hentry⟩ := exists_item_of_mem_results (Aggregations.forall₂_entries_of_build hb).flip hp
  obtain ⟨own, hname, ho, hread⟩ := own_of_isEntry h hentry
  refine ⟨own, ho, ?_⟩
  rw [Aggregations.get?, ← hname, Table.find?_eq_some_of_mem (Aggregations.distinct_of_build hb) hm]
  exact hread

theorem grants_of_filterFor {declared : List Facet} {search : CompiledSearch}
    (h : c.compile request types principals declared = .ok search) {field : String} {own : Query}
    (ho : LeaveOneOut.filterFor c.settings search.filter field = .ok own)
    (ha : own.accepts rawSuffix document = true) :
    document.Grants rawSuffix c.settings.permissionField principals := by
  obtain ⟨criteria, hf, -, -, -⟩ := compile_eq_ok_iff.mp h
  obtain ⟨-, hfilter, -⟩ := compileFilter_eq_ok_iff.mp hf
  rw [hfilter] at ho
  have hc := LeaveOneOut.hasClause_of_filterFor (criteria.hasClause_filter c.settings _ principals) ho
  have hg := PermissionGuard.grants_of_hasClause hc (fun _ hs => hs) ha
  exact hg

/-- The filter of a compound search and the filter of every facet, as read back from its entry, accept only
documents that grant access. -/
theorem derived_filters_grant (c : Compiler) (types : List String) (principals : Principals) (rawSuffix : String)
    (document : Json) :
    (∀ (s : CompoundSearch) (filter : Query), c.compileCompound s types principals = .ok filter →
      filter.accepts rawSuffix document = true →
        document.Grants rawSuffix c.settings.permissionField principals) ∧
    ∀ (request : Request) (declared : List Facet) (search : CompiledSearch),
      c.compile request types principals declared = .ok search →
        ∀ name entry, (name, entry) ∈ search.aggregations.entries →
          ∃ p ∈ search.facets, ∃ own, name = p.aggregationName ∧
            LeaveOneOut.filterFor c.settings search.filter p.facet.field = .ok own ∧
            (entry.get? "filter").map Query.ofJson = some (.ok own) ∧
            (own.accepts rawSuffix document = true →
              document.Grants rawSuffix c.settings.permissionField principals) := by
  refine ⟨fun s filter h ha => grants_of_compileCompound h ha, ?_⟩
  intro request declared search h name entry he
  obtain ⟨p, hp, own, hname, ho, hread⟩ := exists_own_of_mem_entries h he
  exact ⟨p, hp, own, hname, ho, hread, fun ha => grants_of_filterFor h ho ha⟩

/-- The open search joined with one for a sex, and the facet of that sex. -/
theorem derived_filters_grant_sex :
    Json.Grants (.obj [("embedded", .obj [("@type", .str "Item")]), ("acl", .arr [.str "b", .str "a"])]) ".raw" "acl"
      ["a"] ∧
    ∃ search, (⟨{ permissionField := "acl" }, ⟨fun _ _ => none⟩⟩ : Compiler).compile [⟨"sex", "F"⟩] [] ["a"] [] =
      .ok search ∧ ∃ entry own, search.aggregations.get? "terms:sex" = some entry ∧
        (entry.get? "filter").map Query.ofJson = some (.ok own) := by
  have h := derived_filters_grant ⟨{ permissionField := "acl" }, ⟨fun _ _ => none⟩⟩ [] ["a"] ".raw"
  constructor
  · exact (h _).1 ⟨[⟨"sex=F", true⟩, ⟨"", true⟩], false, none⟩ _ rfl (by decide +kernel)
  · obtain ⟨p, -, own, -, -, hread, -⟩ := (h .null).2 [⟨"sex", "F"⟩] [] _ rfl _ _ List.mem_cons_self
    exact ⟨_, rfl, _, own, rfl, hread⟩

end Compiler

end FacetedSearch
