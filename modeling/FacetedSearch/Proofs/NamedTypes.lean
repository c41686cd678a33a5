import FacetedSearch.CommandLine.Run
import FacetedSearch.Proofs.Collection
import FacetedSearch.Proofs.Outcomes

/-!
# Types that a request names

Without types of its own the command line gives a compiler every type that the request names. A compiler that is given
none passes over empty names and falls back to the base type. The types select the mappings to consult, and stand in the
filter of a request that restricts no types; where an empty name changes neither, both compile the same.
-/

namespace FacetedSearch

/-! ## What the types are asked for -/

/-- The view with the descriptions under its types built in. -/
def FieldView.described (view : FieldView) : FieldView :=
  ⟨view.settings, ⟨fun field _ => view.lookup.describe field view.types⟩, []⟩

namespace FieldView

variable (view : FieldView) (request : Request)

theorem ofRequest_described : Criteria.ofRequest view.described request = Criteria.ofRequest view request := rfl

theorem planFacets_described (declared : List Facet) (criteria : Criteria) :
    view.described.planFacets declared request criteria = view.planFacets declared request criteria := rfl

theorem appliedFilters_described : view.described.appliedFilters request = view.appliedFilters request := rfl

end FieldView

theorem Criteria.filter_congr {c : Criteria} {types types' : List String} (h : c.typesOr types = c.typesOr types')
    (settings : Settings) (principals : Principals) :
    c.filter settings types principals = c.filter settings types' principals := by
  rw [filter, filter, h]

namespace Compiler

variable {c : Compiler} {request : Request} {types types' : List String} {principals : Principals}
  {declared : List Facet}

theorem compile_eq_stages : c.compile request types principals declared = do
    c.guard.verify (c.assembled request types principals) principals
    let aggregations ← Aggregations.build c.settings (c.planned request types declared)
      (c.assembled request types principals)
    return { filter := c.assembled request types principals, aggregations
             applied := (c.view (c.searchTypes request types)).appliedFilters request
             facets := c.planned request types declared } := by
  simp only [compile, compileFilter, bind_assoc, pure_bind]
  rfl

/-- Searching the types describes every field alike, and restricts the filter to the same types. -/
structure SearchesAlike (c : Compiler) (request : Request) (types types' : List String) : Prop where
  described_eq : (c.view (c.searchTypes request types)).described = (c.view (c.searchTypes request types')).described
  typesOr_eq : (c.criteria request types).typesOr (c.searchTypes request types) =
    (c.criteria request types).typesOr (c.searchTypes request types')

namespace SearchesAlike

theorem criteria_eq (h : c.SearchesAlike request types types') :
    c.criteria request types = c.criteria request types' := by
  rw [criteria, ← FieldView.ofRequest_described, h.described_eq]
  rfl

theorem assembled_eq (h : c.SearchesAlike request types types') :
    c.assembled request types principals = c.assembled request types' principals := by
  rw [assembled, Criteria.filter_congr h.typesOr_eq, h.criteria_eq]
  rfl

theorem planned_eq (h : c.SearchesAlike request types types') :
    c.planned request types declared = c.planned request types' declared := by
  rw [planned, ← FieldView.planFacets_described, h.described_eq, h.criteria_eq]
  rfl

theorem appliedFilters_eq (h : c.SearchesAlike request types types') :
    (c.view (c.searchTypes request types)).appliedFilters request =
      (c.view (c.searchTypes request types')).appliedFilters request := by
  rw [← FieldView.appliedFilters_described, h.described_eq]
  rfl

theorem compile_eq (h : c.SearchesAlike request types types') :
    c.compile request types principals declared = c.compile request types' principals declared := by
  rw [compile_eq_stages, compile_eq_stages, h.assembled_eq, h.planned_eq, h.appliedFilters_eq]

end SearchesAlike

end Compiler

theorem Catalog.described_congr {catalog : Catalog} {types types' : List String}
    (h : catalog.candidates types = catalog.candidates types') (settings : Settings) :
    FieldView.described ⟨settings, catalog.lookup, types⟩ = FieldView.described ⟨settings, catalog.lookup, types'⟩ := by
  simp only [FieldView.described, lookup, describe, h]

/-! ## Empty names -/

/-- The request is restricted to the types it names, the catalog does not know the empty one, and a search without
it consults the same mappings. -/
structure Request.EmptyTypeIsIdle (request : Request) (settings : Settings) (catalog : Catalog) : Prop where
  restricts : settings.isReserved "type" = false
  ne_base : settings.baseType ≠ ""
  unknown : catalog.mapping? "" = none
  fallback : (∃ t ∈ request.values "type", t ≠ "") ∨ catalog.mapping? settings.baseType = none

theorem Catalog.candidates_filter {catalog : Catalog} (h : catalog.mapping? "" = none) (types : List String) :
    catalog.candidates (types.filter fun t => !t.isEmpty) = catalog.candidates types := by
  have hknown : (types.filter fun t => !t.isEmpty).filterMap catalog.mapping? = types.filterMap catalog.mapping? := by
    rw [List.filterMap_filter]
    refine List.filterMap_congr fun t _ => ?_
    by_cases ht : t = ""
    · simp [ht, h]
    · simp [ht]
  rw [candidates, candidates, hknown]

theorem Request.mem_of_mem_values {request : Request} {field value : String} (h : value ∈ request.values field) :
    ⟨field, value⟩ ∈ request := by
  simp only [values, List.mem_map, List.mem_filter, decide_eq_true_eq] at h
  obtain ⟨p, ⟨hp, rfl⟩, rfl⟩ := h
  exact hp

namespace Request.EmptyTypeIsIdle

variable {request : Request} {settings : Settings} {catalog : Catalog}

theorem candidates_eq (h : request.EmptyTypeIsIdle settings catalog) :
    catalog.candidates (request.values "type") =
      catalog.candidates (Compiler.searchTypes ⟨settings, catalog.lookup⟩ request []) := by
  rw [← Catalog.candidates_filter h.unknown, Compiler.searchTypes, if_pos (by rfl)]
  split
  · rename_i hnone
    rcases h.fallback with ⟨t, ht, hne⟩ | hbase
    · have hin : t ∈ (request.values "type").filter fun t => !t.isEmpty :=
        List.mem_filter.mpr ⟨ht, by simpa using hne⟩
      rw [hnone] at hin
      cases hin
    · rw [hnone]
      simp [Catalog.candidates, hbase]
  · rfl

/-- The filter restricts the types to those the request names, so the searched ones do not stand in it. -/
theorem typesOr_eq (h : request.EmptyTypeIsIdle settings catalog) (hempty : "" ∈ request.values "type")
    (searched types types' : List String) :
    (Criteria.ofRequest ⟨settings, catalog.lookup, searched⟩ request).typesOr types =
      (Criteria.ofRequest ⟨settings, catalog.lookup, searched⟩ request).typesOr types' := by
  have hintent : (⟨settings, catalog.lookup, searched⟩ : FieldView).intent ⟨"type", ""⟩ = .docType "" false :=
    (FieldView.Reads.docType h.restricts (by decide) fun hbase => h.ne_base hbase.1.symm).intent_eq
  have hterm : "" ∈ (Criteria.ofRequest ⟨settings, catalog.lookup, searched⟩ request).typeTerms := by
    rw [(Criteria.types_ofRequest _ _).1]
    exact Criteria.mem_types_requested.1.mpr (hintent ▸ List.mem_map_of_mem (mem_of_mem_values hempty))
  simp [Criteria.typesOr, List.ne_nil_of_mem hterm]

end Request.EmptyTypeIsIdle

/-- No type is named by an empty name, or none of it makes a difference. -/
def Request.NamesTypes (request : Request) (settings : Settings) (catalog : Catalog) : Prop :=
  "" ∈ request.values "type" → request.EmptyTypeIsIdle settings catalog

namespace Compiler

variable {settings : Settings} {catalog : Catalog} {request : Request}

theorem compileQueryString_eq_compile {query : String} (hq : Request.ofQueryString query = .ok request) (c : Compiler)
    (types : List String) (principals : Principals) (declared : List Facet) :
    c.compileQueryString query types principals declared = c.compile request types principals declared := by
  rw [compileQueryString, hq]
  rfl

theorem searchTypes_of_ne_nil {c : Compiler} {types : List String} (h : types ≠ []) :
    c.searchTypes request types = types := by
  rw [searchTypes, if_neg (by simpa using h)]

theorem searchTypes_values {c : Compiler} (h : "" ∉ request.values "type") :
    c.searchTypes request (request.values "type") = c.searchTypes request [] := by
  by_cases hnil : request.values "type" = []
  · rw [hnil]
  · have hall : (request.values "type").filter (fun t => !t.isEmpty) = request.values "type" :=
      List.filter_eq_self.mpr fun t ht => by simpa using fun he : t = "" => h (he ▸ ht)
    rw [searchTypes_of_ne_nil hnil, searchTypes, if_pos (by rfl), hall]
    split
    · rename_i he
      exact absurd he hnil
    · rfl

theorem searchesAlike_values (h : request.NamesTypes settings catalog) :
    (⟨settings, catalog.lookup⟩ : Compiler).SearchesAlike request (request.values "type") [] := by
  by_cases hempty : "" ∈ request.values "type"
  · have hidle := h hempty
    refine ⟨?_, hidle.typesOr_eq hempty _ _ _⟩
    rw [searchTypes_of_ne_nil (List.ne_nil_of_mem hempty)]
    exact Catalog.described_congr hidle.candidates_eq settings
  · exact ⟨by rw [searchTypes_values hempty], by rw [searchTypes_values hempty]⟩

end Compiler

/-! ## The command line -/

/-- The outcomes of one request with other facets: only a name that two facets share may come between them. -/
structure AgreeButFacets (outcome outcome' : Except Failure CompiledSearch) : Prop where
  filter_eq : ∀ search search', outcome = .ok search → outcome' = .ok search' → search'.filter = search.filter
  mismatch_iff : ∀ expected found, outcome = .error (.permissionMismatch expected found) ↔
    outcome' = .error (.permissionMismatch expected found)

theorem Compiler.SearchesAlike.agreeButFacets {c : Compiler} {request : Request} {types types' : List String}
    (h : c.SearchesAlike request types types') (principals : Principals) (declared declared' : List Facet) :
    AgreeButFacets (c.compile request types principals declared) (c.compile request types' principals declared') where
  filter_eq search search' hs hs' := by
    rw [(Compiler.stages_of_compile hs).1, (Compiler.stages_of_compile hs').1, h.assembled_eq]
  mismatch_iff expected found := by simp [Compiler.compile_eq_error_iff, h.assembled_eq]

namespace CommandLine

variable {o : Options} {settings : Settings} {catalog : Catalog} {files : String → Option String}

/-- What a run compiles under the settings and the catalog it has loaded. -/
def Options.compiled (o : Options) (settings : Settings) (catalog : Catalog) : Except Failure CompiledSearch := do
  let request ← Request.ofQueryString o.query
  (Inputs.compile ⟨settings, catalog, request⟩ o).1

/-- A run prints what it compiles, or fails with the failure of that. -/
structure Outcome.Reports (outcome : Outcome) (o : Options) (compiled : Except Failure CompiledSearch) : Prop where
  failed : ∀ failure, compiled = .error failure → outcome = .failed "" failure
  printed : ∀ search, compiled = .ok search → ∃ rest, outcome.output = searchText o search ++ rest

theorem reports_run (hs : load files {} Settings.ofText o.settings = .ok settings)
    (hc : load files {} Catalog.ofText o.schema = .ok catalog) :
    (o.run files).Reports o (o.compiled settings catalog) := by
  have hinputs : o.inputs files =
      (Request.ofQueryString o.query).map fun request => (⟨settings, catalog, request⟩ : Inputs) := by
    rw [Options.inputs, hs, hc]
    cases Request.ofQueryString o.query <;> rfl
  rw [Options.run, hinputs, Options.compiled]
  cases Request.ofQueryString o.query with
  | error failure => exact ⟨fun _ h => by cases h; rfl, nofun⟩
  | ok request =>
      simp only [Except.map, bind, Except.bind]
      obtain ⟨compiled, metrics⟩ := Inputs.compile ⟨settings, catalog, request⟩ o
      cases compiled with
      | error failure => exact ⟨fun _ h => by cases h; rfl, nofun⟩
      | ok search =>
          refine ⟨nofun, fun _ h => ?_⟩
          cases h
          dsimp only
          split
          · exact ⟨"", (String.append_empty).symm⟩
          · exact ⟨_, String.append_assoc ..⟩

theorem compiled_eq (hopen : o.docTypes = []) {request : Request} (hq : Request.ofQueryString o.query = .ok request) :
    o.compiled settings catalog = (⟨settings, catalog.lookup⟩ : Compiler).compile request (request.values "type")
      (Principals.ofList o.principals) (catalog.facetsFor (request.values "type")) := by
  have htypes : o.typesFor request = request.values "type" := by rw [Options.typesFor, hopen]; rfl
  rw [Options.compiled, hq, ← htypes]
  rfl

/-- Without types of its own the command line compiles a query as a compiler does that is given the types it names,
and so, where no empty name among them makes a difference, as one that is given none. -/
theorem compiles_without_types (o : Options) (settings : Settings) (catalog : Catalog) (hopen : o.docTypes = []) :
    let compiler : Compiler := ⟨settings, catalog.lookup⟩
    let compileQuery (types : List String) (declared : List Facet) : Except Failure CompiledSearch :=
      compiler.compileQueryString o.query types (Principals.ofList o.principals) declared
    (∀ failure, Request.ofQueryString o.query = .error failure →
      o.compiled settings catalog = .error failure ∧ ∀ declared, compileQuery [] declared = .error failure) ∧
    (∀ request, Request.ofQueryString o.query = .ok request →
      o.compiled settings catalog =
        compileQuery (request.values "type") (catalog.facetsFor (request.values "type")) ∧
      (request.NamesTypes settings catalog →
        o.compiled settings catalog = compileQuery [] (catalog.facetsFor (request.values "type")) ∧
        ∀ declared, AgreeButFacets (o.compiled settings catalog) (compileQuery [] declared))) ∧
    ∀ files, load files {} Settings.ofText o.settings = .ok settings →
      load files {} Catalog.ofText o.schema = .ok catalog → (o.run files).Reports o (o.compiled settings catalog) := by
  intro compiler compileQuery
  refine ⟨fun failure hq => ?unreadable, fun request hq => ?readable, fun _ => reports_run⟩
  case unreadable =>
    constructor
    · rw [Options.compiled, hq]
      rfl
    · intro declared
      simp only [compileQuery, Compiler.compileQueryString, hq]
      rfl
  case readable =>
    simp only [compileQuery, Compiler.compileQueryString_eq_compile hq, compiled_eq hopen hq]
    refine ⟨rfl, fun hnames => ?_⟩
    have halike := Compiler.searchesAlike_values hnames
    exact ⟨halike.compile_eq, fun declared => halike.agreeButFacets _ _ declared⟩

/-- An empty type beside a known one, which the filter is restricted to as well. -/
theorem compiles_without_types_cohort :
    let catalog : Catalog := ⟨[("Cohort", { properties := [("age", { fieldType := .long })] })]⟩
    let o : Options := { query := "type=Cohort&type=&age.from=18", principals := "a, b" }
    let request : Request := [⟨"type", "Cohort"⟩, ⟨"type", ""⟩, ⟨"age.from", "18"⟩]
    o.docTypes = [] ∧ Request.ofQueryString o.query = .ok request ∧ request.NamesTypes {} catalog ∧
      o.compiled {} catalog = (⟨{}, catalog.lookup⟩ : Compiler).compileQueryString o.query []
        (Principals.ofList o.principals) (catalog.facetsFor (request.values "type")) := by
  intro catalog o request
  have hq : Request.ofQueryString o.query = .ok request := by decide +kernel
  have hnames : request.NamesTypes {} catalog :=
    fun _ => ⟨by decide, by decide, rfl, .inl ⟨"Cohort", by decide, by decide⟩⟩
  exact ⟨rfl, hq, hnames, (((compiles_without_types o {} catalog rfl).2.1 request hq).2 hnames).1⟩

/-- The empty type is unknown, so that all mappings are consulted, and the age is a number in the first of them. The
base type, which stands in for no type, has ages that are keywords. -/
theorem not_compiles_without_types :
    let settings : Settings := { facetFilteredFields := false }
    let catalog : Catalog := ⟨[("Cohort", { properties := [("age", { fieldType := .long })] }),
      ("Item", { properties := [("age", { fieldType := .keyword })] })]⟩
    let o : Options := { query := "type=&age.from=5" }
    let document : Json := .obj [("embedded", .obj [("@type", .str ""), ("age", .num (.int 7 (by decide)))]),
      ("principals_allowed", .obj [("view", .str "system.Everyone")])]
    let accepted (compiled : Except Failure CompiledSearch) : Except Failure Bool :=
      compiled.map fun search => search.filter.accepts settings.rawSuffix document
    o.docTypes = [] ∧ accepted (o.compiled settings catalog) = .ok true ∧
      accepted ((⟨settings, catalog.lookup⟩ : Compiler).compileQueryString o.query [] (Principals.ofList o.principals)
        (catalog.facetsFor [])) = .ok false := by
  decide +kernel

end CommandLine

end FacetedSearch
