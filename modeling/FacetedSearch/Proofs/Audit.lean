import FacetedSearch.Proofs.OwnFields
import FacetedSearch.Proofs.Planning
import FacetedSearch.Search.Audit

/-!
# What the audit finds

With the default settings a compiled search has one permission clause and one nested query for each path. The audit
finds fault with it exactly if a field whose name ends in the raw suffix has its values joined with its presence in
one clause.
-/

namespace FacetedSearch

namespace Audit

/-! ## Permissions and paths -/

theorem firstRepeated?_eq_none_iff {seen items : List String} :
    firstRepeated? seen items = none ↔ items.Nodup ∧ ∀ s ∈ items, s ∉ seen := by
  induction items generalizing seen with
  | nil => simp [firstRepeated?]
  | cons s rest ih =>
      rw [firstRepeated?, List.nodup_cons, List.forall_mem_cons]
      split
      · rename_i hs
        exact iff_of_false nofun fun h => h.2.1 hs
      · rename_i hs
        rw [ih]
        simp only [List.mem_cons, not_or]
        constructor
        · rintro ⟨hn, hr⟩
          exact ⟨⟨fun hm => (hr s hm).1 rfl, hn⟩, hs, fun u hu => (hr u hu).2⟩
        · rintro ⟨⟨hm, hn⟩, -, hr⟩
          exact ⟨hn, fun u hu => ⟨fun he => hm (he ▸ hu), hr u hu⟩⟩

variable {c : Criteria} {settings : Settings} {types : List String} {principals : Principals}

/-- What is read off the outer `must` comes from the clauses on types and permissions and from the wrappers, if it
does not come from leaves of criteria or from boolean queries. -/
theorem filterMap_must_filter {β : Type} {f : Query → Option β}
    (hbool : ∀ must mustNot should, f (.bool must mustNot should) = none)
    (hterms : ∀ t ∈ c.fields, ∀ q, t.Leaf q → f q = none) (hranges : ∀ r ∈ c.ranges, ∀ q, r.Leaf q → f q = none) :
    (c.filter settings types principals).must.filterMap f =
      [Query.terms settings.typeQueryField (c.typesOr types), .terms settings.permissionField principals].filterMap f ++
        (NestedCondition.group (c.nestedConditions settings.zeroEpsilon)).wrappers.filterMap fun w => f w.toQuery := by
  have hflat : (c.flatClauses.filterMap FlatClauses.must).filterMap f = [] := by
    rw [List.filterMap_eq_nil_iff]
    intro q hq
    obtain ⟨_, hm, hq⟩ := List.mem_filterMap.mp hq
    obtain ⟨t, ht, rfl⟩ := List.mem_map.mp hm
    rcases (TermCriterion.builtFrom_flat (.inl hq)).leaf_or_bool with hl | ⟨_, _, _, rfl⟩
    · exact hterms t (List.mem_of_mem_filter ht) q hl
    · exact hbool ..
  have hflatRanges : (c.ranges.filterMap (·.flatQuery? settings.zeroEpsilon)).filterMap f = [] := by
    rw [List.filterMap_eq_nil_iff]
    intro q hq
    obtain ⟨r, hr, hq⟩ := List.mem_filterMap.mp hq
    obtain ⟨-, rfl⟩ := RangeCriterion.flatQuery?_eq_some_iff.mp hq
    rcases (r.builtFrom_toQuery settings.zeroEpsilon).leaf_or_bool with hl | ⟨_, _, _, he⟩
    · exact hranges r hr _ hl
    · rw [he]
      exact hbool ..
  change List.filterMap f (_ ++ _ ++ _ ++ List.map Wrapper.toQuery _) = _
  rw [List.filterMap_append, List.filterMap_append, List.filterMap_append, hflat, hflatRanges, List.append_nil,
    List.append_nil, List.filterMap_map]
  rfl

/-- The nested queries in the outer `must` are the wrappers. -/
theorem nestedPaths_filter : nestedPaths (c.filter settings types principals).must =
    (NestedCondition.group (c.nestedConditions settings.zeroEpsilon)).wrappers.map Wrapper.path := by
  rw [nestedPaths, filterMap_must_filter]
  · exact congrFun List.filterMap_eq_map _
  · exact fun _ _ _ => rfl
  · rintro t - q hl
    cases hl <;> rfl
  · rintro r - q hl
    cases hl <;> rfl

theorem clauses_filter (h : ∀ t ∈ c.fields, t.queryField ≠ settings.permissionField)
    (ht : settings.typeQueryField ≠ settings.permissionField) :
    (⟨settings.permissionField⟩ : PermissionGuard).clauses (c.filter settings types principals) = [principals] := by
  rw [PermissionGuard.clauses, filterMap_must_filter]
  · have hwrappers : (NestedCondition.group (c.nestedConditions settings.zeroEpsilon)).wrappers.filterMap
        (fun w => (⟨settings.permissionField⟩ : PermissionGuard).clauseValues? w.toQuery) = [] :=
      List.filterMap_eq_nil_iff.mpr fun _ _ => rfl
    rw [hwrappers]
    simp [PermissionGuard.clauseValues?, ht]
  · exact fun _ _ _ => rfl
  · intro t hm q hl
    cases hl with
    | terms values => exact if_neg (h t hm)
    | _ => rfl
  · rintro r - q hl
    cases hl <;> rfl

/-! ## Facets -/

theorem checkFacet_eq_none_iff {aggregations : Aggregations} {p : PlannedFacet} {must mustNot should : List Query}
    (hentry : ((aggregations.get? p.aggregationName).bind (·.get? "filter")).map Query.ofJson =
      some (.ok (.bool must mustNot should))) :
    checkFacet settings aggregations p = none ↔ ∀ q ∈ must ++ mustNot,
      LeaveOneOut.isProtected settings q = true ∨ ¬ q.Mentions settings p.facet.field := by
  obtain ⟨raw, hraw, hread⟩ := Option.map_eq_some_iff.mp hentry
  rw [checkFacet]
  simp only [hraw, hread, Option.map_eq_none_iff, ownClause?, List.find?_eq_none]
  refine forall₂_congr fun q _ => ?_
  simp only [Bool.and_eq_true, Bool.not_eq_true', List.any_eq_true, beq_iff_eq, not_and, Query.Mentions]
  cases LeaveOneOut.isProtected settings q <;> simp

end Audit

/-! ## The default settings -/

namespace Criteria

variable {view : FieldView} {request : Request} {t : TermCriterion}

/-- A default prefix never starts the name of the permission field. -/
theorem termField_ne_permissionField (name : String) :
    ({} : Settings).termField name ≠ ({} : Settings).permissionField := by
  intro he
  have hs : Text.after? "embedded." (({} : Settings).termField name) = some (name ++ ".raw") := by
    rw [Settings.termField, String.append_assoc]
    exact Text.after?_append _ _
  have hnone : Text.after? "embedded." ({} : Settings).permissionField = none := by decide
  rw [he, hnone] at hs
  cases hs

theorem isImplicit_of_joinsPresence (ht : t ∈ (ofRequest view request).fields) (hj : t.JoinsPresence) :
    t.isImplicit = false := by
  rcases mem_fields_ofRequest.mp ht with ht | ⟨-, rfl⟩
  · exact isImplicit_requested t ht
  · rcases hj with ⟨-, hn⟩ | ⟨-, hn, -⟩
    · exact absurd rfl hn
    · cases hn

theorem isPlain_ofRequest (ht : t ∈ (ofRequest view request).fields)
    (h : t.JoinsPresence → ¬ ∃ stem, t.field = stem ++ view.settings.rawSuffix) : t.IsPlain view.settings := by
  have hn := named_of_mem_fields t ht
  by_cases hj : t.JoinsPresence
  · refine .inl ⟨hn.queryField_eq, ?_⟩
    rw [hn.valueField_eq]
    exact view.settings.baseField_valueField fun _ => h hj
  · exact .inr hj

end Criteria

namespace Compiler

variable {c : Compiler} {request : Request} {types : List String} {principals : Principals} {declared : List Facet}
  {search : CompiledSearch}

/-- A facet of a compiled search passes its check exactly if what is left of the filter does not mention its field. -/
theorem checkFacet_of_compile (h : c.compile request types principals declared = .ok search) {p : PlannedFacet}
    (hp : p ∈ search.facets) {must mustNot should : List Query} (he : search.filter = .bool must mustNot should) :
    Audit.checkFacet c.settings search.aggregations p = none ↔
      ∀ q, q ∈ must ∨ q ∈ mustNot → ∀ q', LeaveOneOut.strip c.settings p.facet.field q = .ok (some q') →
        LeaveOneOut.isProtected c.settings q' = true ∨ ¬ q'.Mentions c.settings p.facet.field := by
  obtain ⟨own, ho, hread⟩ := exists_own_of_mem_facets h hp
  rw [he] at ho
  obtain ⟨_, _, _, kept, keptNot, hbool, hk, hkn, rfl⟩ := LeaveOneOut.filterFor_eq_ok_iff.mp ho
  cases hbool
  rw [Audit.checkFacet_eq_none_iff hread]
  simp only [List.mem_append, LeaveOneOut.mem_kept_iff hk, LeaveOneOut.mem_kept_iff hkn]
  constructor
  · rintro hall q (hq | hq) q' hs
    · exact hall q' (.inl ⟨q, hq, hs⟩)
    · exact hall q' (.inr ⟨q, hq, hs⟩)
  · rintro hall q' (⟨q, hq, hs⟩ | ⟨q, hq, hs⟩)
    · exact hall q (.inl hq) q' hs
    · exact hall q (.inr hq) q' hs

variable {criteria : Criteria} {searched : List String}

theorem checkFacet_eq_none_of_isPlain (h : c.compile request types principals declared = .ok search)
    (hf : search.filter = criteria.filter c.settings searched principals)
    (hplain : ∀ t ∈ criteria.fields, t.IsPlain c.settings) {p : PlannedFacet} (hp : p ∈ search.facets) :
    Audit.checkFacet c.settings search.aggregations p = none := by
  obtain ⟨must, mustNot, should, he⟩ : ∃ must mustNot should, search.filter = .bool must mustNot should := ⟨_, _, _, hf⟩
  have hall := Criteria.isPlain_of_mem_filter hplain (hf ▸ he)
  refine (checkFacet_of_compile h hp he).mpr ?_
  rintro q (hq | hq) q' hs
  · exact LeaveOneOut.not_mentions_of_strip (hall.1 q hq) hs
  · exact LeaveOneOut.not_mentions_of_strip (hall.2 q hq) hs

theorem checkFacet_ne_none_of_joinsPresence (h : c.compile request types principals declared = .ok search)
    (hf : search.filter = criteria.filter c.settings searched principals) {t : TermCriterion} (ht : t ∈ criteria.fields)
    (hj : t.JoinsPresence) (hquery : c.settings.baseField t.queryField = t.field)
    (hvalue : c.settings.baseField t.valueField ≠ t.field) {p : PlannedFacet} (hp : p ∈ search.facets)
    (hfield : p.facet.field = t.field) : Audit.checkFacet c.settings search.aggregations p ≠ none := by
  obtain ⟨must, mustNot, should, he⟩ : ∃ must mustNot should, search.filter = .bool must mustNot should := ⟨_, _, _, hf⟩
  obtain ⟨q, hq, q', hs, hopen, hmentions⟩ := Criteria.exists_clause_on_own_field ht hj hquery hvalue (hf ▸ he)
  rw [← hfield] at hs hmentions
  intro hnone
  rcases (checkFacet_of_compile h hp he).mp hnone q hq q' hs with hprotected | hnot
  · rw [hopen] at hprotected
    cases hprotected
  · exact hnot hmentions

end Compiler

namespace Audit

theorem hasPermissionClause_of_clauses {settings : Settings} {search : CompiledSearch} {principals : Principals}
    (h : (⟨settings.permissionField⟩ : PermissionGuard).clauses search.filter = [principals]) :
    (hasPermissionClause settings).check search = none := by
  simp [hasPermissionClause, h]

theorem wrapsOnce_of_nodup {search : CompiledSearch} (h : (nestedPaths search.filter.must).Nodup) :
    wrapsOnce.check search = none := by
  rw [wrapsOnce, Option.map_eq_none_iff, firstRepeated?_eq_none_iff]
  exact ⟨h, fun _ _ => List.not_mem_nil⟩

theorem run_eq_nil_iff_facets {settings : Settings} {search : CompiledSearch}
    (hp : (hasPermissionClause settings).check search = none) (hw : wrapsOnce.check search = none) :
    run settings search = [] ↔ ∀ p ∈ search.facets, checkFacet settings search.aggregations p = none := by
  simp [run, invariants, List.filterMap_eq_nil_iff, hp, hw, excludesOwnField]

/-- The audit finds nothing in a compiled search unless one clause joins values of a field with its presence and the
name of the field ends in the raw suffix. -/
theorem run_eq_nil_iff (lookup : FieldLookup) (request : Request) (types : List String) (principals : Principals)
    (declared : List Facet) (search : CompiledSearch)
    (h : (⟨{}, lookup⟩ : Compiler).compile request types principals declared = .ok search) :
    run {} search = [] ↔ ∀ t ∈ (Criteria.ofRequest
      ((⟨{}, lookup⟩ : Compiler).view ((⟨{}, lookup⟩ : Compiler).searchTypes request types)) request).fields,
        t.JoinsPresence → ¬ ∃ stem, t.field = stem ++ ".raw" := by
  obtain ⟨criteria, hc, hfacets, -⟩ := Compiler.compile_eq_ok_iff.mp h
  obtain ⟨rfl, hf, -⟩ := Compiler.compileFilter_eq_ok_iff.mp hc
  have hpermission : (hasPermissionClause {}).check search = none := by
    apply hasPermissionClause_of_clauses
    rw [hf]
    refine clauses_filter (fun t ht => ?_) (Criteria.termField_ne_permissionField _)
    rw [(Criteria.named_of_mem_fields t ht).queryField_eq]
    exact Criteria.termField_ne_permissionField _
  have hpaths : wrapsOnce.check search = none := by
    apply wrapsOnce_of_nodup
    rw [hf, nestedPaths_filter]
    exact (NestedCondition.group_gathers _).nodup
  rw [run_eq_nil_iff_facets hpermission hpaths]
  have hsuffix : ({} : Settings).rawSuffix ≠ "" := by decide
  constructor
  · intro hall t ht hj hraw
    have hn := Criteria.named_of_mem_fields t ht
    obtain ⟨p, hp, hfield⟩ : ∃ p ∈ search.facets, p.facet.field = t.field := by
      rw [hfacets]
      exact FieldView.exists_planned_of_mem_fields rfl ht (Criteria.isImplicit_of_joinsPresence ht hj)
    refine Compiler.checkFacet_ne_none_of_joinsPresence h hf ht hj ?_ ?_ hp hfield (hall p hp)
    · rw [hn.queryField_eq]
      exact Settings.baseField_termField _ _
    · rw [hn.valueField_eq]
      exact Settings.baseField_valueField_ne _ hsuffix hraw
  · intro hno p hp
    exact Compiler.checkFacet_eq_none_of_isPlain h hf (fun t ht => Criteria.isPlain_ofRequest ht (hno t ht)) hp

/-- One clause joins the sex with its presence. It is stripped whole, for no raw suffix is part of the name. -/
theorem run_eq_nil_iff_sex : ∃ search, (⟨{}, ⟨fun _ _ => none⟩⟩ : Compiler).compile [⟨"sex", "F"⟩, ⟨"sex", "No value"⟩]
    ["Cohort"] ["system.Everyone"] [] = .ok search ∧ run {} search = [] := by
  refine ⟨_, rfl, (run_eq_nil_iff ⟨fun _ _ => none⟩ [⟨"sex", "F"⟩, ⟨"sex", "No value"⟩] ["Cohort"]
    ["system.Everyone"] [] _ rfl).mpr ?_⟩
  rintro t ht - ⟨stem, he⟩
  have hnames : ∀ u ∈ (Criteria.ofRequest ⟨{}, ⟨fun _ _ => none⟩, ["Cohort"]⟩
      [⟨"sex", "F"⟩, ⟨"sex", "No value"⟩]).fields, Text.before? ".raw" u.field = none := by decide +kernel
  have hb := hnames t ht
  rw [he, Text.before?_append] at hb
  cases hb

/-- The same clause on a field with the suffix in its name stays in the filter of its own facet. -/
theorem run_names_own_field : ∃ search, (⟨{}, ⟨fun _ _ => none⟩⟩ : Compiler).compile
    [⟨"sex.raw", "F"⟩, ⟨"sex.raw", "No value"⟩] ["Cohort"] ["system.Everyone"] [] = .ok search ∧
    (run {} search).map Violation.invariant = ["LeaveOneOutExcludesOwnField"] := by
  refine ⟨_, rfl, by decide +kernel⟩

end Audit

end FacetedSearch
