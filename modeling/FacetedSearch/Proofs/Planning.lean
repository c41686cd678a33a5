import FacetedSearch.Proofs.Aggregation
import FacetedSearch.Proofs.Classification
import FacetedSearch.Proofs.Outcomes

/-!
# Plans and what serves them

A plan has one facet for each field that is declared, added or filtered by a criterion on values, in the order in
which the fields first come. Aggregations that are built for a plan serve its facets one by one.
-/

namespace FacetedSearch

/-! ## First facets -/

namespace Catalog

variable {candidates : List Facet} {f : Facet}

theorem map_field_addFacet (facets : List Facet) (f : Facet) : (addFacet facets f).map (·.field) =
    if f.field ∈ facets.map (·.field) then facets.map (·.field) else facets.map (·.field) ++ [f.field] := by
  have hany : facets.any (·.field == f.field) = true ↔ f.field ∈ facets.map (·.field) := by
    simp
  by_cases h : f.field ∈ facets.map (·.field)
  · rw [addFacet, if_pos (hany.mpr h), if_pos h]
  · rw [addFacet, if_neg (hany.not.mpr h), if_neg h, List.map_append, List.map_singleton]

theorem map_field_foldl_addFacet (candidates : List Facet) :
    (candidates.foldl addFacet []).map (·.field) = (candidates.map (·.field)).eraseDups := by
  induction candidates using List.reverseRecOn with
  | nil => rfl
  | append_singleton candidates f ih =>
      rw [List.foldl_concat, map_field_addFacet, ih, List.map_append, List.map_singleton, eraseDups_concat]
      simp only [List.mem_eraseDups]

/-- The first facet of a field is the one that stays. -/
theorem find?_foldl_addFacet (candidates : List Facet) (field : String) :
    (candidates.foldl addFacet []).find? (·.field == field) = candidates.find? (·.field == field) := by
  induction candidates using List.reverseRecOn with
  | nil => rfl
  | append_singleton candidates f ih =>
      rw [List.foldl_concat, addFacet, List.find?_append, ← ih]
      split
      · rename_i hany
        by_cases he : f.field = field
        · subst he
          have hsome : ((candidates.foldl addFacet []).find? (·.field == f.field)).isSome = true := by
            rw [List.find?_isSome]
            exact List.any_eq_true.mp hany
          rw [Option.or_of_isSome hsome]
        · simp [he]
      · rw [List.find?_append]

theorem find?_of_mem_foldl_addFacet (h : f ∈ candidates.foldl addFacet []) :
    candidates.find? (·.field == f.field) = some f := by
  have hnodup : ((candidates.foldl addFacet []).map (·.field)).Nodup := by
    rw [map_field_foldl_addFacet]
    exact nodup_eraseDups _
  rw [← find?_foldl_addFacet]
  obtain ⟨g, hg⟩ : ∃ g, (candidates.foldl addFacet []).find? (·.field == f.field) = some g := by
    rw [← Option.isSome_iff_exists, List.find?_isSome]
    exact ⟨f, h, beq_self_eq_true _⟩
  have he : g.field = f.field := by simpa using List.find?_some hg
  rw [hg, List.inj_on_of_nodup_map hnodup (List.mem_of_find?_eq_some hg) h he]

end Catalog

/-! ## Plans -/

namespace FieldView

variable (view : FieldView)

/-- The fields to be faceted, with repetitions: declared ones, added ones, and those the request asks for values on. -/
def facetedFields (declared : List Facet) (request : Request) (criteria : Criteria) : List String :=
  declared.map (·.field) ++ (request.values "additional_facet").filter (· ≠ "") ++
    if view.settings.facetFilteredFields then (criteria.fields.filter (·.isImplicit = false)).map (·.field) else []

/-- The first declaration of the field; any other field gets a facet on its values. -/
def declaration (declared : List Facet) (field : String) : Facet :=
  (declared.find? (·.field == field)).getD (view.implicitFacet field)

end FieldView

/-- The facet is as declared, but nested exactly if its field is. -/
structure PlannedFacet.Fits (view : FieldView) (declared : List Facet) (criteria : Criteria) (p : PlannedFacet) :
    Prop where
  facet_eq : p.facet = (view.declaration declared p.facet.field).withKind p.facet.kind
  shape_eq : p.facet.kind.shape = (view.declaration declared p.facet.field).kind.shape
  isNested_iff : p.facet.kind.isNested = true ↔ (view.lookup.nestedPath? p.facet.field view.types).isSome = true
  nestedPath_eq : p.nestedPath = (view.lookup.nestedPath? p.facet.field view.types).map view.settings.valueField
  requested_eq : p.requested = criteria.wantedValues p.facet.field

structure FieldView.Plans (view : FieldView) (declared : List Facet) (request : Request) (criteria : Criteria)
    (planned : List PlannedFacet) : Prop where
  fields_nodup : (planned.map (·.facet.field)).Nodup
  fields_eq : planned.map (·.facet.field) = (view.facetedFields declared request criteria).eraseDups
  fits : ∀ p ∈ planned, p.Fits view declared criteria

namespace FieldView

variable {view : FieldView} {declared : List Facet} {request : Request} {criteria : Criteria}

theorem map_field_facetCandidates : (view.facetCandidates declared request criteria).map (·.field) =
    view.facetedFields declared request criteria := by
  have hfield : ∀ names : List String, (names.map view.implicitFacet).map (·.field) = names := by
    intro names
    rw [List.map_map]
    exact List.map_id names
  have hadded : ((request.values "additional_facet").filter fun s => !s.isEmpty) =
      (request.values "additional_facet").filter (· ≠ "") :=
    List.filter_congr fun s _ => Bool.eq_iff_iff.mpr (by simp)
  rw [facetCandidates, facetedFields, List.map_append, List.map_append, hfield, hadded]
  split
  · simp [implicitFacet]
  · rfl

theorem map_field_planFacets : (view.planFacets declared request criteria).map (·.facet.field) =
    (view.facetedFields declared request criteria).eraseDups := by
  rw [← map_field_facetCandidates, ← Catalog.map_field_foldl_addFacet, planFacets, List.map_map]
  rfl

theorem nodup_planFacets : ((view.planFacets declared request criteria).map (·.facet.field)).Nodup := by
  rw [map_field_planFacets]
  exact nodup_eraseDups _

/-- A filtered field has a facet, its own or an earlier one. -/
theorem exists_planned_of_mem_fields (hs : view.settings.facetFilteredFields = true) {t : TermCriterion}
    (ht : t ∈ criteria.fields) (hi : t.isImplicit = false) :
    ∃ p ∈ view.planFacets declared request criteria, p.facet.field = t.field := by
  have hm : t.field ∈ (view.planFacets declared request criteria).map (·.facet.field) := by
    rw [map_field_planFacets, List.mem_eraseDups, facetedFields, if_pos hs]
    exact List.mem_append_right _ (List.mem_map_of_mem (List.mem_filter.mpr ⟨ht, decide_eq_true hi⟩))
  exact List.mem_map.mp hm

theorem eq_declaration_of_mem {f : Facet}
    (h : f ∈ (view.facetCandidates declared request criteria).foldl Catalog.addFacet []) :
    f = view.declaration declared f.field := by
  have hfind := Catalog.find?_of_mem_foldl_addFacet h
  rw [facetCandidates, List.append_assoc, List.find?_append] at hfind
  rw [declaration]
  rcases Option.or_eq_some_iff.mp hfind with hdeclared | ⟨hnone, hother⟩
  · rw [hdeclared, Option.getD_some]
  · -- The other candidates are made from a name alone.
    rw [hnone, Option.getD_none]
    have hm := List.mem_of_find?_eq_some hother
    rcases List.mem_append.mp hm with hm | hm
    · obtain ⟨name, -, rfl⟩ := List.mem_map.mp hm
      rfl
    · split at hm
      · obtain ⟨t, -, rfl⟩ := List.mem_map.mp hm
        rfl
      · cases hm

end FieldView

namespace Criteria

variable {view : FieldView} {request : Request}

/-- The label for documents without a value is never a value. -/
theorem ne_noValueLabel_of_mem_wantedValues {field v : String} (h : v ∈ (ofRequest view request).wantedValues field) :
    v ≠ view.settings.noValueLabel := by
  rw [wantedValues] at h
  cases ht : (ofRequest view request).field? field with
  | none =>
      rw [ht] at h
      cases h
  | some t =>
      rw [ht] at h
      rcases mem_fields_ofRequest.mp (List.mem_of_find?_eq_some ht) with hm | ⟨-, rfl⟩
      · obtain ⟨name, -, rfl⟩ := collects_fields.mem_iff.mp hm
        obtain ⟨p, -, hp⟩ := List.mem_map.mp (TermCriterion.mem_wanted_gathered.mp h)
        cases FieldView.reads_iff.mpr hp with
        | term _ _ _ hv _ => exact hv
      · cases h

end Criteria

namespace FieldView

variable {view : FieldView} {declared : List Facet} {request : Request}

theorem fits_resolveFacet {criteria : Criteria} {f : Facet} (hf : f = view.declaration declared f.field)
    (hlabel : ∀ v ∈ criteria.wantedValues f.field, v ≠ view.settings.noValueLabel) :
    (view.resolveFacet criteria f).Fits view declared criteria := by
  have hpath : (view.resolveFacet criteria f).nestedPath.isSome =
      (view.lookup.nestedPath? f.field view.types).isSome := Option.isSome_map
  constructor
  · change f.withKind _ = (view.declaration declared f.field).withKind _
    rw [← hf]
    rfl
  · change _ = (view.declaration declared f.field).kind.shape
    rw [← hf, resolveFacet]
    split <;> rfl
  · rw [isNested_resolveFacet, hpath]
    rfl
  · rfl
  · exact List.filter_eq_self.mpr fun v hv => bne_iff_ne.mpr (hlabel v hv)

theorem plans (view : FieldView) (declared : List Facet) (request : Request) :
    view.Plans declared request (.ofRequest view request)
      (view.planFacets declared request (.ofRequest view request)) where
  fields_nodup := nodup_planFacets
  fields_eq := map_field_planFacets
  fits p hp := by
    obtain ⟨f, hf, rfl⟩ := List.mem_map.mp hp
    exact fits_resolveFacet (eq_declaration_of_mem hf) fun v hv => Criteria.ne_noValueLabel_of_mem_wantedValues hv

end FieldView

/-! ## Entries -/

/-- The value that is reached along the names. -/
def Json.member? (v : Json) (names : List String) : Option Json := names.foldlM (fun v name => v.get? name) v

namespace PlannedFacet

/-- Where the aggregations of the facet stand in its entry. -/
def bodyPlace (p : PlannedFacet) : List String :=
  if p.facet.kind.isNested then ["aggs", primaryAggregation, "aggs"] else ["aggs"]

/-- Some values are counted apart from the others. -/
def CountsApart (p : PlannedFacet) : Prop := p.facet.kind.shape = .terms ∧ p.requested ≠ []

instance (p : PlannedFacet) : Decidable p.CountsApart := inferInstanceAs (Decidable (_ ∧ _))

/-- The entry has the name of the facet, the filter without its field, and its aggregations at their place. -/
structure IsServedBy (settings : Settings) (filter : Query) (p : PlannedFacet) (entry : String × Json) : Prop where
  name_eq : entry.1 = p.aggregationName
  filter_eq : ∃ own, LeaveOneOut.filterFor settings filter p.facet.field = .ok own ∧
    entry.2.member? ["filter"] = some own.toJson
  nested_eq : entry.2.member? ["aggs", primaryAggregation, "nested"] =
    p.nestedPath.map fun path => Json.single "path" (.str path)
  body_eq : entry.2.member? p.bodyPlace = some (p.flatJson settings)
  primary_eq : entry.2.member? (p.bodyPlace ++ [primaryAggregation, p.facet.kind.shape.name, "field"]) =
    some (.str (if p.facet.kind.shape = .terms then settings.termField p.facet.field
      else settings.valueField p.facet.field))
  requested_iff : (entry.2.member? (p.bodyPlace ++ [requestedAggregation])).isSome = true ↔ p.CountsApart
  include_eq : entry.2.member? (p.bodyPlace ++ [requestedAggregation, "terms", "include"]) =
    if p.CountsApart then some (Json.ofStrings p.requested) else none

end PlannedFacet

namespace Json

theorem member?_append {v w : Json} {names others : List String} (h : v.member? names = some w) :
    v.member? (names ++ others) = w.member? others := by
  rw [member?, List.foldlM_append]
  exact congrArg (· >>= fun v => v.member? others) h

theorem member?_cons (v : Json) (name : String) (names : List String) :
    v.member? (name :: names) = (v.get? name).bind (·.member? names) := List.foldlM_cons

theorem member?_singleton (v : Json) (name : String) : v.member? [name] = v.get? name := by
  rw [member?_cons]
  exact Option.bind_fun_some _

end Json

namespace PlannedFacet

variable {settings : Settings} {filter : Query} {p : PlannedFacet} {entry : String × Json}

theorem get?_requested_flatJson : (p.flatJson settings).get? requestedAggregation =
    if p.CountsApart then some (p.termsJson settings p.requested.length [("include", Json.ofStrings p.requested)])
    else none := by
  by_cases hs : p.facet.kind.shape = .terms
  · rw [flatJson, hs]
    by_cases hr : p.requested = []
    · rw [if_neg (fun h => h.2 hr), hr]
      rfl
    · rw [if_pos ⟨hs, hr⟩]
      simp [hr, Json.get?, Table.find?, primaryAggregation, requestedAggregation]
  · rw [if_neg (fun h => hs h.1), flatJson]
    split
    · rfl
    · rfl
    · contradiction

/-- Values are counted on the keyword sub-field, anything else is computed on the field itself. -/
theorem field_flatJson : (p.flatJson settings).member? [primaryAggregation, p.facet.kind.shape.name, "field"] =
    some (.str (if p.facet.kind.shape = .terms then settings.termField p.facet.field
      else settings.valueField p.facet.field)) := by
  rw [flatJson]
  cases p.facet.kind.shape <;> rfl

/-- In flat scope no aggregation of a facet is a nested one. -/
theorem member?_nested_flatJson : (p.flatJson settings).member? [primaryAggregation, "nested"] = none := by
  rw [flatJson]
  cases p.facet.kind.shape <;> rfl

theorem include_flatJson : (p.flatJson settings).member? [requestedAggregation, "terms", "include"] =
    if p.CountsApart then some (Json.ofStrings p.requested) else none := by
  rw [Json.member?_cons, get?_requested_flatJson]
  split <;> rfl

theorem isServedBy_of_isEntry (hp : p.facet.kind.isNested = p.nestedPath.isSome)
    (h : Aggregations.IsEntry settings filter p entry) : p.IsServedBy settings filter entry := by
  obtain ⟨own, aggs, hown, haggs, rfl⟩ := h
  obtain ⟨hbody, hnested⟩ : (Json.obj [("aggs", aggs), ("filter", own.toJson)]).member? p.bodyPlace =
      some (p.flatJson settings) ∧ aggs.member? [primaryAggregation, "nested"] =
        p.nestedPath.map fun path => Json.single "path" (.str path) := by
    rw [toJson] at haggs
    rw [bodyPlace]
    -- A facet has a path exactly if it is nested, so the path tells the two forms of an entry apart.
    cases hpath : p.nestedPath with
    | some path =>
        rw [hpath, Option.isSome_some] at hp
        rw [if_pos hp, hpath] at haggs
        cases haggs
        rw [if_pos hp]
        exact ⟨rfl, rfl⟩
    | none =>
        rw [hpath, Option.isSome_none] at hp
        rw [if_neg (by simp [hp])] at haggs ⊢
        cases haggs
        exact ⟨rfl, member?_nested_flatJson⟩
  refine ⟨rfl, ⟨own, hown, rfl⟩, hnested, hbody, ?_, ?_, ?_⟩
  · rw [Json.member?_append hbody, field_flatJson]
  · rw [Json.member?_append hbody, Json.member?_singleton, get?_requested_flatJson]
    split <;> simp [*]
  · rw [Json.member?_append hbody, include_flatJson]

end PlannedFacet

/-- A plan has its facets in order, and aggregations built for it have one entry for each. -/
theorem FieldView.planFacets_served (view : FieldView) (declared : List Facet) (request : Request) (filter : Query) :
    view.Plans declared request (.ofRequest view request)
        (view.planFacets declared request (.ofRequest view request)) ∧
      ∀ aggregations, Aggregations.build view.settings
          (view.planFacets declared request (.ofRequest view request)) filter = .ok aggregations →
        Table.Distinct aggregations.entries ∧
          List.Forall₂ (PlannedFacet.IsServedBy view.settings filter)
            (view.planFacets declared request (.ofRequest view request)) aggregations.entries := by
  refine ⟨plans view declared request, fun aggregations h => ⟨Aggregations.distinct_of_build h, ?_⟩⟩
  have hnested : ∀ p ∈ view.planFacets declared request (.ofRequest view request),
      p.facet.kind.isNested = p.nestedPath.isSome := by
    intro p hp
    obtain ⟨f, -, rfl⟩ := List.mem_map.mp hp
    exact isNested_resolveFacet ..
  have hentries := (List.forall₂_and_left _ _).mpr ⟨hnested, Aggregations.forall₂_entries_of_build h⟩
  exact hentries.imp fun p entry hboth => PlannedFacet.isServedBy_of_isEntry hboth.1 hboth.2

/-- The declared age is flat whatever its declaration says, and the chosen proband is counted apart. -/
theorem FieldView.planFacets_served_proband :
    let view : FieldView := ⟨{}, ⟨fun field _ => if field = "families.proband" then
      some { fieldType := .keyword, nestedPath := some "families" } else none⟩, []⟩
    let declared : List Facet := [{ field := "age", kind := ⟨.stats, true⟩ }, { field := "age" }]
    let request : Request := [⟨"families.proband", "A"⟩]
    let planned := view.planFacets declared request (.ofRequest view request)
    planned.map (·.aggregationName) = ["stats:age", "nested-terms:families-proband"] ∧
      ∃ aggregations, Aggregations.build view.settings planned (.bool [] [] []) = .ok aggregations ∧
        List.Forall₂ (PlannedFacet.IsServedBy view.settings (.bool [] [] [])) planned aggregations.entries := by
  intro view declared request planned
  have hserved := (view.planFacets_served declared request (.bool [] [] [])).2
  exact ⟨by decide +kernel, _, rfl, (hserved _ rfl).2⟩

/-! ## Facets of filtered fields -/

namespace FieldView

variable {view : FieldView} {declared : List Facet} {request : Request}

theorem mem_facetedFields_iff (hs : view.settings.facetFilteredFields = true) {field : String} :
    field ∈ view.facetedFields declared request (.ofRequest view request) ↔
      field ∈ declared.map (·.field) ∨ (field ∈ request.values "additional_facet" ∧ field ≠ "") ∨
        ∃ intent ∈ view.intents request, intent.termField? = some field := by
  rw [← Criteria.asksOn_ofRequest_iff, facetedFields, if_pos hs]
  simp only [List.mem_append, List.mem_filter, List.mem_map, decide_eq_true_eq, Criteria.AsksOn, or_assoc, and_assoc]

/-- With facets for filtered fields on, a field has one facet exactly if it is declared, added, or asked for by value
or presence. -/
theorem count_planFacets (view : FieldView) (declared : List Facet) (request : Request) (field : String)
    (hs : view.settings.facetFilteredFields = true) :
    ((view.planFacets declared request (.ofRequest view request)).map (·.facet.field)).count field =
      if field ∈ declared.map (·.field) ∨ (field ∈ request.values "additional_facet" ∧ field ≠ "") ∨
        ∃ intent ∈ view.intents request, intent.termField? = some field then 1 else 0 := by
  rw [nodup_planFacets.count, map_field_planFacets]
  exact if_congr (List.mem_eraseDups.trans (mem_facetedFields_iff hs)) rfl rfl

/-- A value that is ruled out gives its field a facet. -/
theorem count_planFacets_sex :
    let view : FieldView := ⟨{}, ⟨fun _ _ => none⟩, []⟩
    view.settings.facetFilteredFields = true ∧
      ((view.planFacets [] [⟨"sex!", "F"⟩] (.ofRequest view [⟨"sex!", "F"⟩])).map (·.facet.field)).count "sex" = 1 := by
  intro view
  refine ⟨rfl, ?_⟩
  rw [view.count_planFacets [] [⟨"sex!", "F"⟩] "sex" rfl]
  decide

/-- A field with a bound alone is filtered and has no facet. -/
theorem no_facet_of_bound :
    let view : FieldView := ⟨{}, ⟨fun _ _ => some { fieldType := .long }⟩, []⟩
    view.settings.facetFilteredFields = true ∧
      (∃ intent ∈ view.intents [⟨"age.from", "18"⟩], intent.field? = some "age") ∧
      ((view.planFacets [] [⟨"age.from", "18"⟩] (.ofRequest view [⟨"age.from", "18"⟩])).map (·.facet.field)).count
        "age" ≠ 1 := by
  decide

end FieldView

end FacetedSearch
