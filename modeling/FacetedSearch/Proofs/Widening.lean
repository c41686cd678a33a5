import FacetedSearch.Proofs.Outcomes

/-!
# When leaving out widens

Fewer clauses on the outside accept more documents. Inside a nested query that is ruled out they accept fewer, and
alternatives that were optional beside other clauses have to be met without them. Where neither happens, and so in
every assembled or joined filter, what is left accepts all the documents that the filter accepts.
-/

namespace FacetedSearch

namespace Query

/-- The clauses of `mustNot`, for a boolean query. -/
def mustNot : Query → List Query
  | bool _ mustNot _ => mustNot
  | _ => []

/-- The clauses of `should`, for a boolean query. -/
def should : Query → List Query
  | bool _ _ should => should
  | _ => []

/-- Every document that the query accepts is accepted by the other. -/
def Within (q q' : Query) : Prop :=
  ∀ rawSuffix document, q.accepts rawSuffix document = true → q'.accepts rawSuffix document = true

/-- If one of the alternatives has to be met after the change, one of the same had to be met before. -/
def AlternativesStay (must should must' should' : List Query) : Prop :=
  should' ≠ [] → must' = [] → must = [] ∧ should' = should

variable {rawSuffix : String} {scope : Scope} {must mustNot should must' mustNot' should' : List Query}

theorem holds_bool_of_fewer (hm : must' ⊆ must) (hn : mustNot' ⊆ mustNot)
    (hs : AlternativesStay must should must' should') (h : holds rawSuffix (.bool must mustNot should) scope = true) :
    holds rawSuffix (.bool must' mustNot' should') scope = true := by
  obtain ⟨hmust, hnot, hshould⟩ := holds_bool.mp h
  refine holds_bool.mpr ⟨fun q hq => hmust q (hm hq), fun q hq => hnot q (hn hq), fun hne hnil => ?_⟩
  obtain ⟨hempty, rfl⟩ := hs hne hnil
  exact hshould hne hempty

/-- Fewer alternatives are harder to meet, unless none is left. -/
theorem holds_bool_of_fewer_alternatives (hs : should' ⊆ should) (hne : should ≠ [] → must = [] → should' ≠ [])
    (h : holds rawSuffix (.bool must mustNot should') scope = true) :
    holds rawSuffix (.bool must mustNot should) scope = true := by
  obtain ⟨hmust, hnot, hshould⟩ := holds_bool.mp h
  refine holds_bool.mpr ⟨hmust, hnot, fun hsome hnil => ?_⟩
  obtain ⟨q, hq, hh⟩ := hshould (hne hsome hnil) hnil
  exact ⟨q, hs hq, hh⟩

theorem holds_nested_mono {path : String} {inner inner' : Query}
    (hi : ∀ scope, holds rawSuffix inner scope = true → holds rawSuffix inner' scope = true)
    (h : holds rawSuffix (.nested path inner) scope = true) : holds rawSuffix (.nested path inner') scope = true := by
  obtain ⟨object, ho, hh⟩ := holds_nested.mp h
  exact holds_nested.mpr ⟨object, ho, hi _ hh⟩

end Query

namespace LeaveOneOut

variable {settings : Settings} {field : String}

/-- A clause that has to hold does not become stricter. -/
def Loosens (settings : Settings) (field : String) : Query → Prop
  | .nested _ (.bool must _ should) =>
    Query.AlternativesStay must should (without settings field must) (without settings field should)
  | _ => True

/-- A clause that is ruled out goes, or does not become looser. -/
def Tightens (settings : Settings) (field : String) : Query → Prop
  | .nested _ (.bool must mustNot should) =>
    (without settings field must = [] ∧ without settings field mustNot = [] ∧ without settings field should = []) ∨
      (without settings field must = must ∧ without settings field mustNot = mustNot ∧
        (should ≠ [] → must = [] → without settings field should ≠ []))
  | _ => True

/-- What is left of the filter asks for no more than the filter. -/
structure Relaxes (settings : Settings) (field : String) (filter own : Query) : Prop where
  alternatives : Query.AlternativesStay filter.must filter.should own.must own.should
  must : ∀ q ∈ filter.must, Loosens settings field q
  mustNot : ∀ q ∈ filter.mustNot, Tightens settings field q

theorem without_subset {clauses : List Query} : without settings field clauses ⊆ clauses :=
  fun _ => mem_of_mem_without

theorem loosens_of_ne_nested {q : Query} (h : ∀ path inner, q ≠ .nested path inner) : Loosens settings field q := by
  cases q with
  | nested path inner => exact absurd rfl (h path inner)
  | _ => trivial

theorem tightens_of_ne_nested {q : Query} (h : ∀ path inner, q ≠ .nested path inner) : Tightens settings field q := by
  cases q with
  | nested path inner => exact absurd rfl (h path inner)
  | _ => trivial

variable {rawSuffix : String} {scope : Scope} {q q' : Query}

theorem Loosens.holds (h : Loosens settings field q) (hs : strip settings field q = .ok (some q'))
    (hq : q.holds rawSuffix scope = true) : q'.holds rawSuffix scope = true := by
  rcases eq_of_strip hs with rfl | ⟨path, must, mustNot, should, rfl, rfl⟩
  · exact hq
  · exact Query.holds_nested_mono (fun _ => Query.holds_bool_of_fewer without_subset without_subset h) hq

theorem Tightens.holds (h : Tightens settings field q) (hs : strip settings field q = .ok (some q'))
    (hq : q'.holds rawSuffix scope = true) : q.holds rawSuffix scope = true := by
  rcases eq_of_strip hs with rfl | ⟨path, must, mustNot, should, rfl, rfl⟩
  · exact hq
  · rcases h with ⟨hm, hn, hsh⟩ | ⟨hm, hn, hsh⟩
    · simp [strip, isProtected, hm, hn, hsh] at hs
    · rw [hm, hn] at hq
      exact Query.holds_nested_mono (fun _ => Query.holds_bool_of_fewer_alternatives without_subset hsh) hq

theorem Relaxes.within {filter own : Query} (h : Relaxes settings field filter own)
    (ho : filterFor settings filter field = .ok own) : filter.Within own := by
  obtain ⟨must, mustNot, should, kept, keptNot, rfl, hk, hkn, rfl⟩ := filterFor_eq_ok_iff.mp ho
  intro rawSuffix document ha
  obtain ⟨hmust, hnot, hshould⟩ := Query.holds_bool.mp ha
  refine Query.holds_bool.mpr ⟨?_, ?_, ?_⟩
  · intro q' hq'
    obtain ⟨q, hq, hs⟩ := (mem_kept_iff hk).mp hq'
    exact (h.must q hq).holds hs (hmust q hq)
  · intro q' hq' hh
    obtain ⟨q, hq, hs⟩ := (mem_kept_iff hkn).mp hq'
    exact hnot q hq ((h.mustNot q hq).holds hs hh)
  · intro hne hnil
    exact hshould hne (h.alternatives hne hnil).1

/-- The outer alternatives are never looked at, and none becomes binding unless a clause stood beside them. -/
theorem alternativesStay_of_filterFor {filter own : Query} (ho : filterFor settings filter field = .ok own)
    (h : filter.should = [] ∨ filter.must = []) :
    Query.AlternativesStay filter.must filter.should own.must own.should := by
  obtain ⟨must, mustNot, should, kept, keptNot, rfl, -, -, rfl⟩ := filterFor_eq_ok_iff.mp ho
  exact fun hne _ => ⟨h.resolve_left hne, rfl⟩

end LeaveOneOut

/-! ## Assembled and joined filters -/

namespace Criteria

open LeaveOneOut

variable {c : Criteria} {settings : Settings} {types : List String} {principals : Principals} {field : String}

theorem OuterClause.loosens {epsilon : Float} {q : Query} (hq : c.OuterClause epsilon q) :
    Loosens settings field q := by
  cases hq with
  | terms field values => trivial
  | flat _ _ hf => exact loosens_of_ne_nested (TermCriterion.ne_nested_of_flat hf)
  | range _ => exact loosens_of_ne_nested (RangeCriterion.toQuery_ne_nested _ _)
  | wrapper _ => exact fun hne => absurd rfl hne
  | absence _ _ => exact fun hne => absurd rfl hne

/-- Of the nested queries only those on one presence are ruled out, and these go or stay whole. -/
theorem tightens_nested_allOf {path : String} {q : Query} : Tightens settings field (.nested path (.allOf [q])) := by
  rw [Query.allOf, Tightens]
  cases ho : isOnlyAbout settings field q <;> simp [without, ho]

theorem tightens_mustNot_filter :
    ∀ q ∈ (c.filter settings types principals).mustNot, Tightens settings field q := by
  simp only [filter, Query.mustNot, List.forall_mem_append, List.forall_mem_filterMap, NestedClauses.mustNot]
  refine ⟨⟨?types, ?flat⟩, ?absences⟩
  case types =>
    intro q hq
    split at hq
    · cases hq
    · exact List.mem_singleton.mp hq ▸ trivial
  case flat =>
    intro f hf q hq
    obtain ⟨t, -, rfl⟩ := List.mem_map.mp hf
    exact tightens_of_ne_nested (TermCriterion.ne_nested_of_flat (.inr hq))
  case absences =>
    intro q hq
    obtain ⟨d, -, -, rfl⟩ := NestedCondition.mem_absences_group.mp hq
    exact tightens_nested_allOf

theorem relaxes_filter {own : Query} (ho : filterFor settings (c.filter settings types principals) field = .ok own) :
    Relaxes settings field (c.filter settings types principals) own := by
  refine ⟨alternativesStay_of_filterFor ho (.inl rfl), ?_, tightens_mustNot_filter⟩
  obtain ⟨must, mustNot, he, hm, -⟩ := c.exists_outerClauses settings types principals
  rw [he]
  exact fun q hq => (hm q hq).loosens

end Criteria

namespace LeaveOneOut

variable {settings : Settings} {field : String}

theorem relaxes_join {combination : Combination} {filters : List Query}
    (h : ∀ q ∈ filters, ∀ path inner, q ≠ .nested path inner) {own : Query}
    (ho : filterFor settings (combination.join filters) field = .ok own) :
    Relaxes settings field (combination.join filters) own := by
  cases combination with
  | any => exact ⟨alternativesStay_of_filterFor ho (.inr rfl), nofun, nofun⟩
  | all => exact ⟨alternativesStay_of_filterFor ho (.inl rfl), fun q hq => loosens_of_ne_nested (h q hq), nofun⟩

theorem exists_filterFor_join (combination : Combination) {filters : List Query}
    (h : ∀ q ∈ filters, ∀ path inner, q ≠ .nested path inner) :
    ∃ own, filterFor settings (combination.join filters) field = .ok own := by
  have hstrippable : ∀ q ∈ filters, q.IsStrippable := fun q hq => Query.isStrippable_of_ne_nested (h q hq)
  cases combination with
  | any => exact exists_filterFor nofun nofun
  | all => exact exists_filterFor hstrippable nofun

/-- Leaving a field out hides no document where it makes no clause stricter, and it never does so in an assembled
filter or in a join of filters. -/
theorem within_filterFor (settings : Settings) (field : String) :
    (∀ filter own, filterFor settings filter field = .ok own → Relaxes settings field filter own →
      filter.Within own) ∧
    (∀ (c : Criteria) types principals, ∃ own,
      filterFor settings (c.filter settings types principals) field = .ok own ∧
        (c.filter settings types principals).Within own) ∧
    ∀ (combination : Combination) filters, (∀ q ∈ filters, ∀ path inner, q ≠ .nested path inner) → ∃ own,
      filterFor settings (combination.join filters) field = .ok own ∧ (combination.join filters).Within own := by
  refine ⟨fun filter own ho h => h.within ho, ?_, ?_⟩
  · intro c types principals
    obtain ⟨own, ho⟩ := c.exists_filterFor_filter settings types principals field
    exact ⟨own, ho, (Criteria.relaxes_filter ho).within ho⟩
  · intro combination filters h
    obtain ⟨own, ho⟩ := exists_filterFor_join combination h
    exact ⟨own, ho, (relaxes_join h ho).within ho⟩

/-- The nested query is left with the role, and the age stays optional beside the laboratory. -/
theorem within_filterFor_role :
    let filter : Query := .bool [.terms "embedded.lab.raw" ["a"],
      .nested "embedded.kin" (.bool [.matching "embedded.kin.sex.raw" "F", .matching "embedded.kin.role.raw" "child"]
        [] [])] [] [.terms "embedded.age.raw" ["1"]]
    let own : Query := .bool [.terms "embedded.lab.raw" ["a"],
      .nested "embedded.kin" (.bool [.matching "embedded.kin.role.raw" "child"] [] [])] []
        [.terms "embedded.age.raw" ["1"]]
    filterFor {} filter "kin.sex" = .ok own ∧ filter.Within own := by
  intro filter own
  have ho : filterFor {} filter "kin.sex" = .ok own := rfl
  refine ⟨ho, (within_filterFor {} "kin.sex").1 filter own ho ⟨?_, ?_, nofun⟩⟩
  · exact fun _ hnil => absurd hnil (List.cons_ne_nil _ _)
  · exact List.forall_mem_cons.mpr ⟨trivial, List.forall_mem_singleton.mpr fun hne => absurd rfl hne⟩

/-- What is left of the filter rejects a document that the filter accepts. -/
def Hides (settings : Settings) (field : String) (filter : Query) (document : Json) : Prop :=
  ∃ own, filterFor settings filter field = .ok own ∧ filter.accepts settings.rawSuffix document = true ∧
    own.accepts settings.rawSuffix document = false

/-- A female child is hidden where an alternative comes to bind, on the outside or in a nested query, where one of
two alternatives goes, and where a nested query that is ruled out loses a clause or its only alternative. -/
theorem hides_child :
    let document : Json := .obj [("embedded", .obj [("sex", .str "F"),
      ("kin", .arr [.obj [("sex", .str "F"), ("role", .str "child")]])])]
    let kin (must mustNot should : List Query) : Query := .nested "embedded.kin" (.bool must mustNot should)
    let sex (value : String) : Query := .matching "embedded.kin.sex.raw" value
    let role (value : String) : Query := .matching "embedded.kin.role.raw" value
    Hides {} "sex" (.bool [.terms "embedded.sex.raw" ["F"]] [] [.terms "embedded.age.raw" ["1"]]) document ∧
      Hides {} "kin.sex" (.bool [kin [sex "F"] [] [role "parent"]] [] []) document ∧
      Hides {} "kin.sex" (.bool [kin [] [] [sex "F", role "parent"]] [] []) document ∧
      Hides {} "kin.sex" (.bool [] [kin [sex "M", role "child"] [] []] []) document ∧
      Hides {} "kin.sex" (.bool [] [kin [role "child"] [sex "F"] []] []) document ∧
      Hides {} "kin.sex" (.bool [] [kin [] [role "parent"] [sex "M"]] []) document := by
  refine ⟨⟨_, rfl, ?_⟩, ⟨_, rfl, ?_⟩, ⟨_, rfl, ?_⟩, ⟨_, rfl, ?_⟩, ⟨_, rfl, ?_⟩, ⟨_, rfl, ?_⟩⟩ <;> decide +kernel

end LeaveOneOut

end FacetedSearch
