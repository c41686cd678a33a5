import FacetedSearch.Proofs.Collection

/-!
# Classification

Classifying a request loses nothing and invents nothing. What comes out is said from the intents of the parameters:
one criterion for each field that is asked about, with the values in the order in which they were first named, and
one more for the excluded statuses where the status is left open.
-/

namespace FacetedSearch

/-! ## What the criteria record -/

/-- The values named on the field of the criterion, each once, and whether presence was asked about. -/
structure TermCriterion.Records (view : FieldView) (request : Request) (t : TermCriterion) : Prop where
  wanted_eq : t.wanted = ((view.intents request).filterMap (Intent.value? t.field false)).eraseDups
  unwanted_eq : t.unwanted = ((view.intents request).filterMap (Intent.value? t.field true)).eraseDups
  noValue_iff : t.noValue.isSome = true ↔ ∃ negated, .noValue t.field negated ∈ view.intents request

namespace Criteria

/-- The request itself asks for values or presence of the field. -/
def AsksOn (c : Criteria) (field : String) : Prop := ∃ t ∈ c.fields, t.isImplicit = false ∧ t.field = field

/-- The criteria are those of the request, and one on the status if it is left open. -/
structure Classifies (view : FieldView) (request : Request) (c : Criteria) : Prop where
  fields_nodup : (c.fields.map (·.field)).Nodup
  ranges_nodup : (c.ranges.map (·.field)).Nodup
  asksOn_iff : ∀ field, c.AsksOn field ↔ ∃ intent ∈ view.intents request, intent.termField? = some field
  records : ∀ t ∈ c.fields, t.isImplicit = false → t.Records view request
  typeTerms_eq : c.typeTerms = ((view.intents request).filterMap (Intent.docType? false)).eraseDups
  typeNotTerms_eq : c.typeNotTerms = ((view.intents request).filterMap (Intent.docType? true)).eraseDups
  ranges_iff : ∀ field,
    field ∈ c.ranges.map (·.field) ↔ ∃ intent ∈ view.intents request, intent.rangeField? = some field
  implicit_iff : ∀ t, t ∈ c.fields ∧ t.isImplicit = true ↔
    (view.settings.excludedStatuses ≠ [] ∧ ¬ c.AsksOn view.settings.statusField ∧
      view.settings.statusField ∉ c.ranges.map (·.field)) ∧
    t = { TermCriterion.fresh view view.settings.statusField with
      unwanted := view.settings.excludedStatuses.eraseDups, isImplicit := true }

end Criteria

namespace TermCriterion

variable {view : FieldView} {request : Request} {field : String}

theorem isSome_noValue_gathered {intents : List Intent} :
    (view.termSteps.gathered field intents).noValue.isSome = true ↔ ∃ negated, .noValue field negated ∈ intents := by
  rw [noValue_gathered, List.getLast?_isSome]
  constructor
  · intro hne
    obtain ⟨wish, hwish⟩ := List.exists_mem_of_ne_nil _ hne
    exact ⟨!wish, Intent.mem_wishes.mp hwish⟩
  · rintro ⟨negated, hi⟩
    exact List.ne_nil_of_mem (Intent.mem_wishes.mpr (by rwa [Bool.not_not]))

theorem records_gathered : (view.termSteps.gathered field (view.intents request)).Records view request := by
  constructor
  · rw [field_gathered, wanted_gathered]
  · rw [field_gathered, unwanted_gathered]
  · rw [field_gathered]
    exact isSome_noValue_gathered

end TermCriterion

namespace Criteria

variable {view : FieldView} {request : Request}

theorem statusExclusion_eq : statusExclusion view = { TermCriterion.fresh view view.settings.statusField with
    unwanted := view.settings.excludedStatuses.eraseDups, isImplicit := true } := by
  rw [statusExclusion, TermCriterion.foldl_addOnce]

theorem isImplicit_requested : ∀ t ∈ (requested view request).fields, t.isImplicit = false := by
  intro t ht
  obtain ⟨field, -, rfl⟩ := collects_fields.mem_iff.mp ht
  exact TermCriterion.isImplicit_gathered

/-- The criteria that are not implicit are the requested ones. -/
theorem mem_requested_iff {t : TermCriterion} : t ∈ (requested view request).fields ↔
    t ∈ (ofRequest view request).fields ∧ t.isImplicit = false := by
  rw [mem_fields_ofRequest]
  constructor
  · exact fun ht => ⟨.inl ht, isImplicit_requested t ht⟩
  · rintro ⟨ht | ⟨-, rfl⟩, hi⟩
    · exact ht
    · cases hi

theorem mem_implicit_iff {t : TermCriterion} : t ∈ (ofRequest view request).fields ∧ t.isImplicit = true ↔
    (requested view request).needsStatusExclusion view = true ∧ t = statusExclusion view := by
  rw [mem_fields_ofRequest]
  constructor
  · rintro ⟨ht | h, hi⟩
    · cases hi.symm.trans (isImplicit_requested t ht)
    · exact h
  · rintro ⟨hn, rfl⟩
    exact ⟨.inr ⟨hn, rfl⟩, rfl⟩

theorem asksOn_ofRequest_iff {field : String} : (ofRequest view request).AsksOn field ↔
    ∃ intent ∈ view.intents request, intent.termField? = some field := by
  refine Iff.trans ?_ (collects_fields.mem_keys field)
  simp only [AsksOn, List.mem_map, mem_requested_iff, and_assoc]
  rfl

theorem mem_ranges_names_iff {field : String} : field ∈ (ofRequest view request).ranges.map (·.field) ↔
    ∃ intent ∈ view.intents request, intent.rangeField? = some field := by
  rw [ranges_ofRequest]
  exact collects_ranges.mem_keys field

/-- The status is left open if no criterion is on it. -/
theorem needsStatusExclusion_iff : (requested view request).needsStatusExclusion view = true ↔
    view.settings.excludedStatuses ≠ [] ∧ ¬ (ofRequest view request).AsksOn view.settings.statusField ∧
      view.settings.statusField ∉ (ofRequest view request).ranges.map (·.field) := by
  rw [needsStatusExclusion_requested, asksOn_ofRequest_iff, mem_ranges_names_iff]
  simp only [ne_eq, Intent.field?_eq_some_iff, not_or, forall_and, not_exists, not_and]

theorem nodup_fields_ofRequest : ((ofRequest view request).fields.map (·.field)).Nodup := by
  have hrequested : ((requested view request).fields.map (·.field)).Nodup := collects_fields.nodup
  rw [ofRequest, withStatusExclusion]
  split
  · rename_i hn
    rw [List.map_append, List.map_singleton, ← List.concat_eq_append, List.nodup_concat]
    refine ⟨fun hm => ?_, hrequested⟩
    obtain ⟨t, ht, he⟩ := List.mem_map.mp hm
    obtain ⟨ha, hi⟩ := mem_requested_iff.mp ht
    exact (needsStatusExclusion_iff.mp hn).2.1 ⟨t, ha, hi, he⟩
  · exact hrequested

theorem classifies (view : FieldView) (request : Request) : (ofRequest view request).Classifies view request where
  fields_nodup := nodup_fields_ofRequest
  ranges_nodup := by
    rw [ranges_ofRequest]
    exact collects_ranges.nodup
  asksOn_iff _ := asksOn_ofRequest_iff
  records t ht hi := by
    obtain ⟨field, -, rfl⟩ := collects_fields.mem_iff.mp (mem_requested_iff.mpr ⟨ht, hi⟩)
    exact TermCriterion.records_gathered
  typeTerms_eq := (types_ofRequest view request).1.trans types_requested.1
  typeNotTerms_eq := (types_ofRequest view request).2.trans types_requested.2
  ranges_iff _ := mem_ranges_names_iff
  implicit_iff t := by rw [mem_implicit_iff, needsStatusExclusion_iff, statusExclusion_eq]

end Criteria

/-! ## Applied filters -/

/-- The parameter that a filter was made of. -/
def AppliedFilter.parameter (a : AppliedFilter) : Parameter := ⟨a.field, a.term⟩

theorem FieldView.map_parameter_appliedFilters (view : FieldView) (request : Request) :
    (view.appliedFilters request).map AppliedFilter.parameter = request.filter fun p => view.intent p ≠ .skip := by
  have hitem : ∀ item : Parameter × Nat,
      (if view.intent item.1 = .skip then none else some (AppliedFilter.of request item.2 item.1)).map
        AppliedFilter.parameter = Option.guard (fun p => view.intent p ≠ .skip) item.1 := by
    intro item
    by_cases hskip : view.intent item.1 = .skip
    · simp [Option.guard, hskip]
    · simp [Option.guard, hskip, AppliedFilter.of, AppliedFilter.parameter]
  rw [appliedFilters, List.map_filterMap]
  calc
    _ = request.zipIdx.filterMap (Option.guard (fun p => view.intent p ≠ .skip) ∘ Prod.fst) :=
      List.filterMap_congr fun item _ => hitem item
    _ = (request.zipIdx.map Prod.fst).filterMap (Option.guard fun p => view.intent p ≠ .skip) :=
      (List.filterMap_map ..).symm
    _ = request.filter fun p => view.intent p ≠ .skip := by rw [List.zipIdx_map_fst, List.filterMap_eq_filter]

/-- The criteria and the applied filters of a request are exactly what its parameters ask for. -/
theorem Criteria.classifies_ofRequest (view : FieldView) (request : Request) :
    (ofRequest view request).Classifies view request ∧
      (view.appliedFilters request).map AppliedFilter.parameter = request.filter fun p => view.intent p ≠ .skip :=
  ⟨classifies view request, view.map_parameter_appliedFilters request⟩

end FacetedSearch
