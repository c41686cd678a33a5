import FacetedSearch.Proofs.DerivedFilters
import FacetedSearch.Proofs.QueryString
import FacetedSearch.Search.Compilation

/-!
# Ignored parameters

Reserved parameters put anywhere into a request change nothing in what is compiled from it but the links, which
keep them.
-/

namespace FacetedSearch

/-- No stage reads the parameter: it is reserved, and it neither names a type nor adds a facet. -/
structure Settings.Ignores (settings : Settings) (p : Parameter) : Prop where
  reserved : settings.isReserved p.field = true
  names_no_type : p.field ≠ "type"
  adds_no_facet : p.field ≠ "additional_facet"

/-- The second request is the first with ignored parameters put in. -/
inductive Request.Padded (settings : Settings) : Request → Request → Prop
  | nil : Padded settings [] []
  | keep (p : Parameter) {request padded : Request} : Padded settings request padded →
      Padded settings (p :: request) (p :: padded)
  | insert {p : Parameter} {request padded : Request} : settings.Ignores p → Padded settings request padded →
      Padded settings request (p :: padded)

namespace Request.Padded

variable {settings : Settings} {request padded : Request}

theorem filter_eq (h : Padded settings request padded) {keep : Parameter → Bool}
    (hkeep : ∀ p, settings.Ignores p → keep p = false) : padded.filter keep = request.filter keep := by
  induction h with
  | nil => rfl
  | keep p _ ih => rw [List.filter_cons, List.filter_cons, ih]
  | @insert p _ _ hp _ ih => rw [List.filter_cons, hkeep p hp, if_neg Bool.false_ne_true, ih]

theorem values_eq (h : Padded settings request padded) {field : String}
    (hfield : ∀ p, settings.Ignores p → p.field ≠ field) : padded.values field = request.values field := by
  rw [values, values, h.filter_eq fun p hp => decide_eq_false (hfield p hp)]

theorem searchTypes_eq {c : Compiler} (h : Padded c.settings request padded) (types : List String) :
    c.searchTypes padded types = c.searchTypes request types := by
  rw [Compiler.searchTypes, Compiler.searchTypes, h.values_eq fun _ hp => hp.names_no_type]

section

variable {view : FieldView}

theorem intent_eq_skip {p : Parameter} (hp : view.settings.Ignores p) : view.intent p = .skip :=
  (FieldView.Reads.reserved hp.reserved).intent_eq

theorem requested_eq (h : Padded view.settings request padded) :
    Criteria.requested view padded = Criteria.requested view request := by
  rw [Criteria.requested, Criteria.requested]
  generalize ({} : Criteria) = collected
  induction h generalizing collected with
  | nil => rfl
  | keep p _ ih => exact ih _
  | insert hp _ ih =>
      rw [List.foldl_cons, intent_eq_skip hp]
      exact ih collected

theorem ofRequest_eq (h : Padded view.settings request padded) :
    Criteria.ofRequest view padded = Criteria.ofRequest view request := by
  rw [Criteria.ofRequest, Criteria.ofRequest, h.requested_eq]

theorem planFacets_eq (h : Padded view.settings request padded) (declared : List Facet) (criteria : Criteria) :
    view.planFacets declared padded criteria = view.planFacets declared request criteria := by
  simp only [FieldView.planFacets, FieldView.facetCandidates, h.values_eq fun _ hp => hp.adds_no_facet]

end

end Request.Padded

/-! ## Links apart -/

/-- What a filter of the applied list says, its link left out. -/
def AppliedFilter.condition (a : AppliedFilter) : String × String := (a.field, a.term)

theorem FieldView.conditions_appliedFilters (view : FieldView) (request : Request) :
    (view.appliedFilters request).map AppliedFilter.condition =
      (request.filter fun p => view.intent p ≠ .skip).map fun p => (p.field, p.value) := by
  have hitems : (view.appliedFilters request).map AppliedFilter.condition = (request.zipIdx.map Prod.fst).filterMap
      fun p => if view.intent p = .skip then none else some (p.field, p.value) := by
    rw [FieldView.appliedFilters, List.map_filterMap, List.filterMap_map]
    congr 1
    funext ⟨p, index⟩
    dsimp only [Function.comp_apply]
    split <;> rfl
  rw [hitems, List.zipIdx_map_fst, ← List.filterMap_eq_map, List.filterMap_filter]
  congr 1
  funext p
  by_cases hp : view.intent p = .skip
  · simp [hp]
  · simp [hp]

theorem Request.Padded.conditions_eq {view : FieldView} {request padded : Request}
    (h : Padded view.settings request padded) :
    (view.appliedFilters padded).map AppliedFilter.condition =
      (view.appliedFilters request).map AppliedFilter.condition := by
  rw [view.conditions_appliedFilters, view.conditions_appliedFilters, h.filter_eq fun p hp => ?_]
  simp [intent_eq_skip hp]

/-- Two compiled searches that differ in the links of their filters at most. -/
structure CompiledSearch.SameButLinks (s s' : CompiledSearch) : Prop where
  filter : s'.filter = s.filter
  facets : s'.facets = s.facets
  aggregations : s'.aggregations = s.aggregations
  conditions : s'.applied.map AppliedFilter.condition = s.applied.map AppliedFilter.condition

namespace Compiler

variable {c : Compiler} {request padded : Request}

/-- The padded request compiles to the same search with its own applied list, or fails in the same way. -/
theorem compile_eq_map (h : Request.Padded c.settings request padded) (types : List String) (principals : Principals)
    (declared : List Facet) :
    c.compile padded types principals declared = (c.compile request types principals declared).map fun s =>
      { s with applied := (c.view (c.searchTypes padded types)).appliedFilters padded } := by
  rw [h.searchTypes_eq]
  generalize htypes : c.searchTypes request types = searched
  have hfilter : c.compileFilter padded searched principals = c.compileFilter request searched principals := by
    rw [compileFilter, compileFilter, Request.Padded.ofRequest_eq h]
  have hfacets : ∀ criteria, (c.view searched).planFacets declared padded criteria =
      (c.view searched).planFacets declared request criteria := Request.Padded.planFacets_eq h declared
  rw [compile, compile, h.searchTypes_eq, htypes, hfilter]
  cases c.compileFilter request searched principals with
  | error failure => rfl
  | ok pair =>
      simp only [bind, Except.bind, hfacets]
      cases Aggregations.build c.settings ((c.view searched).planFacets declared request pair.1) pair.2 with
      | error failure => rfl
      | ok aggregations => rfl

/-- Ignored parameters in a request neither let its compilation fail nor let it succeed, and what is compiled with
them is the same but for the links, each of which leads to the padded request without one parameter. -/
theorem compile_padded (h : Request.Padded c.settings request padded) (types : List String) (principals : Principals)
    (declared : List Facet) :
    (∀ failure, c.compile padded types principals declared = .error failure ↔
      c.compile request types principals declared = .error failure) ∧
    ∀ s, c.compile request types principals declared = .ok s →
      ∃ s', c.compile padded types principals declared = .ok s' ∧ s.SameButLinks s' ∧
        (c.view (c.searchTypes padded types)).Lists padded s'.applied := by
  have hmap := compile_eq_map h types principals declared
  refine ⟨fun failure => ?_, fun s hs => ?_⟩
  · rw [hmap]
    cases c.compile request types principals declared <;> simp [Except.map]
  · rw [hs] at hmap
    obtain ⟨_, -, -, -, happlied⟩ := compile_eq_ok_iff.mp hs
    refine ⟨_, hmap, ⟨rfl, rfl, rfl, ?_⟩, FieldView.lists_appliedFilters _ padded⟩
    rw [happlied, ← h.searchTypes_eq]
    exact h.conditions_eq

/-- A page size before a filter and a sort order after it. -/
theorem compile_padded_sex : ∃ s s',
    Request.Padded {} [⟨"sex", "F"⟩] [⟨"limit", "5"⟩, ⟨"sex", "F"⟩, ⟨"sort", "age"⟩] ∧
    Compiler.compile ⟨{}, ⟨fun _ _ => none⟩⟩ [⟨"sex", "F"⟩] [] ["a"] [] = .ok s ∧
    Compiler.compile ⟨{}, ⟨fun _ _ => none⟩⟩ [⟨"limit", "5"⟩, ⟨"sex", "F"⟩, ⟨"sort", "age"⟩] [] ["a"] [] = .ok s' ∧
    s.SameButLinks s' ∧ FieldView.Lists ⟨{}, ⟨fun _ _ => none⟩, ["Item"]⟩
      [⟨"limit", "5"⟩, ⟨"sex", "F"⟩, ⟨"sort", "age"⟩] s'.applied := by
  have hpadded : Request.Padded {} [⟨"sex", "F"⟩] [⟨"limit", "5"⟩, ⟨"sex", "F"⟩, ⟨"sort", "age"⟩] :=
    .insert ⟨by decide, by decide, by decide⟩ (.keep _ (.insert ⟨by decide, by decide, by decide⟩ .nil))
  have hcompiles : ∃ s, Compiler.compile ⟨{}, ⟨fun _ _ => none⟩⟩ [⟨"sex", "F"⟩] [] ["a"] [] = .ok s := ⟨_, rfl⟩
  obtain ⟨s, hs⟩ := hcompiles
  have h : Request.Padded (⟨{}, ⟨fun _ _ => none⟩⟩ : Compiler).settings _ _ := hpadded
  obtain ⟨s', hs', hsame, hlists⟩ := (compile_padded h [] ["a"] []).2 s hs
  exact ⟨s, s', hpadded, hs, hs', hsame, hlists⟩

end Compiler

end FacetedSearch
