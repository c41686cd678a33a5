import FacetedSearch.Proofs.Demands
import FacetedSearch.Proofs.Naming

/-!
# What criteria ask of a document

The demands of criteria, said on the fields of documents without any query, and the proof that the assembled filter
accepts the documents that satisfy them.
-/

namespace FacetedSearch

namespace TermCriterion

/-- The field has a value. A name that ends in the raw suffix stands for the field before the suffix. -/
def IsPresent (t : TermCriterion) (settings : Settings) (scope : Scope) : Prop :=
  scope.HasField (documentField settings.rawSuffix (settings.valueField t.field))

/-- One of the wanted values, or what is wished about presence instead; without wanted values, presence if wished. -/
def MeetsWanted (t : TermCriterion) (settings : Settings) (scope : Scope) : Prop :=
  (t.wanted ≠ [] → scope.HasAnyOf (settings.valueField t.field) t.wanted ∨
    (t.noValue = some true ∧ ¬ t.IsPresent settings scope) ∨
    (t.noValue = some false ∧ t.IsPresent settings scope)) ∧
  (t.wanted = [] → t.noValue = some false → t.IsPresent settings scope)

/-- Every demand of the criterion but a lone wish for absence. -/
structure HoldsIn (t : TermCriterion) (settings : Settings) (scope : Scope) : Prop where
  meetsWanted : t.MeetsWanted settings scope
  noneUnwanted : ¬ scope.HasAnyOf (settings.valueField t.field) t.unwanted

theorem holdsIn_iff {t : TermCriterion} {settings : Settings} {scope : Scope} : t.HoldsIn settings scope ↔
    t.MeetsWanted settings scope ∧ ¬ scope.HasAnyOf (settings.valueField t.field) t.unwanted :=
  ⟨fun h => ⟨h.meetsWanted, h.noneUnwanted⟩, fun h => ⟨h.1, h.2⟩⟩

end TermCriterion

/-- A value within the bounds, or none at all where zero is in range and missing values count as zero. -/
def RangeCriterion.HoldsIn (r : RangeCriterion) (settings : Settings) (scope : Scope) : Prop :=
  scope.HasWithin (documentField settings.rawSuffix (settings.valueField r.field)) r.bounds ∨
    (r.includesMissing settings.zeroEpsilon = true ∧
      ¬ scope.HasField (documentField settings.rawSuffix (settings.valueField r.field)))

namespace Criteria

/-- All that is asked at the path holds in scope. -/
structure HoldsAt (c : Criteria) (settings : Settings) (path : String) (scope : Scope) : Prop where
  terms : ∀ t ∈ c.fields, t.isBelowPath = true → t.nestedPath = some path → t.HoldsIn settings scope
  ranges : ∀ r ∈ c.ranges, r.nestedPath = some path → r.HoldsIn settings scope

structure SatisfiedBy (c : Criteria) (settings : Settings) (types : List String) (principals : Principals)
    (document : Json) : Prop where
  docType : document.scope.HasAnyOf (settings.valueField settings.typeField) (c.typesOr types)
  notDocType : ¬ document.scope.HasAnyOf (settings.valueField settings.typeField) c.typeNotTerms
  granted : document.Grants settings.rawSuffix settings.permissionField principals
  flatTerms : ∀ t ∈ c.fields, t.isBelowPath = false →
    t.HoldsIn settings document.scope ∧ (t.WantsAbsence → ¬ t.IsPresent settings document.scope)
  flatRanges : ∀ r ∈ c.ranges, r.nestedPath = none → r.HoldsIn settings document.scope
  /-- One instance at a path meets every demand at the path. -/
  instances : ∀ path, c.AsksAt path → ∃ object, document.scope.HasInstance path object ∧
    c.HoldsAt settings path (document.scope.enter path object)
  absences : ∀ t ∈ c.fields, t.isBelowPath = true → t.WantsAbsence → ∀ path, t.nestedPath = some path →
    ∀ object, document.scope.HasInstance path object →
      ¬ t.IsPresent settings (document.scope.enter path object)

end Criteria

/-! ## Criteria that carry the names of a view -/

namespace TermCriterion.NamedBy

variable {view : FieldView} {t : TermCriterion}

theorem hasOneOf_iff (hn : t.NamedBy view) (scope : Scope) (values : List String) :
    t.HasOneOf view.settings.rawSuffix scope values ↔ scope.HasAnyOf (view.settings.valueField t.field) values := by
  rw [HasOneOf, hn.queryField_eq, Settings.documentField_termField]

theorem hasValue_iff (hn : t.NamedBy view) (scope : Scope) :
    t.HasValue view.settings.rawSuffix scope ↔ t.IsPresent view.settings scope := by
  rw [HasValue, hn.valueField_eq, IsPresent]

theorem admits_iff (hn : t.NamedBy view) (scope : Scope) :
    t.Admits view.settings.rawSuffix scope ↔ t.HoldsIn view.settings scope := by
  rw [TermCriterion.admits_iff, holdsIn_iff, AdmitsWanted, MeetsWanted]
  simp only [hn.hasOneOf_iff, hn.hasValue_iff]

end TermCriterion.NamedBy

theorem RangeCriterion.NamedBy.admits_iff {view : FieldView} {r : RangeCriterion} (hn : r.NamedBy view)
    (scope : Scope) :
    r.Admits view.settings.rawSuffix view.settings.zeroEpsilon scope ↔ r.HoldsIn view.settings scope := by
  rw [Admits, HoldsIn, hn.queryField_eq]

namespace Criteria

variable {view : FieldView} {c : Criteria}

/-- The criteria carry the index names of their fields. -/
structure NamedBy (view : FieldView) (c : Criteria) : Prop where
  fields : ∀ t ∈ c.fields, t.NamedBy view
  ranges : ∀ r ∈ c.ranges, r.NamedBy view

theorem namedBy_ofRequest (view : FieldView) (request : Request) : (ofRequest view request).NamedBy view :=
  ⟨named_of_mem_fields, named_of_mem_ranges⟩

theorem NamedBy.admitsAt_iff (hn : c.NamedBy view) {path : String} {scope : Scope} :
    c.AdmitsAt view.settings view.settings.rawSuffix path scope ↔ c.HoldsAt view.settings path scope := by
  have hterms := fun t ht => (hn.fields t ht).admits_iff scope
  have hranges := fun r hr => (hn.ranges r hr).admits_iff scope
  constructor
  · intro h
    exact ⟨fun t ht hb hp => (hterms t ht).mp (h.terms t ht hb hp),
      fun r hr hp => (hranges r hr).mp (h.ranges r hr hp)⟩
  · intro h
    exact ⟨fun t ht hb hp => (hterms t ht).mpr (h.terms t ht hb hp),
      fun r hr hp => (hranges r hr).mpr (h.ranges r hr hp)⟩

theorem NamedBy.accepts_filter_iff (hn : c.NamedBy view) (types : List String) (principals : Principals)
    (document : Json) :
    (c.filter view.settings types principals).accepts view.settings.rawSuffix document = true ↔
      c.SatisfiedBy view.settings types principals document := by
  have htype := view.settings.documentField_typeQueryField
  have hterms : (∀ t ∈ c.fields, t.isBelowPath = false → t.Admits view.settings.rawSuffix document.scope ∧
      (t.WantsAbsence → ¬ t.HasValue view.settings.rawSuffix document.scope)) ↔
      ∀ t ∈ c.fields, t.isBelowPath = false → t.HoldsIn view.settings document.scope ∧
        (t.WantsAbsence → ¬ t.IsPresent view.settings document.scope) :=
    forall₂_congr fun t ht => by rw [(hn.fields t ht).admits_iff, (hn.fields t ht).hasValue_iff]
  have hranges : (∀ r ∈ c.ranges, r.nestedPath = none →
      r.Admits view.settings.rawSuffix view.settings.zeroEpsilon document.scope) ↔
      ∀ r ∈ c.ranges, r.nestedPath = none → r.HoldsIn view.settings document.scope :=
    forall₂_congr fun r hr => by rw [(hn.ranges r hr).admits_iff]
  have habsences : (∀ t ∈ c.fields, t.isBelowPath = true → t.WantsAbsence → ∀ path, t.nestedPath = some path →
      ∀ object, document.scope.HasInstance path object →
        ¬ t.HasValue view.settings.rawSuffix (document.scope.enter path object)) ↔
      ∀ t ∈ c.fields, t.isBelowPath = true → t.WantsAbsence → ∀ path, t.nestedPath = some path →
        ∀ object, document.scope.HasInstance path object →
          ¬ t.IsPresent view.settings (document.scope.enter path object) :=
    forall₂_congr fun t ht => by simp only [(hn.fields t ht).hasValue_iff]
  rw [Criteria.accepts_filter_iff]
  constructor
  · intro h
    refine ⟨htype ▸ h.docType, htype ▸ h.notDocType, h.granted, hterms.mp h.flatTerms, hranges.mp h.flatRanges, ?_,
      habsences.mp h.absences⟩
    simpa only [hn.admitsAt_iff] using h.instances
  · intro h
    refine ⟨htype ▸ h.docType, htype ▸ h.notDocType, h.granted, hterms.mpr h.flatTerms, hranges.mpr h.flatRanges, ?_,
      habsences.mpr h.absences⟩
    simpa only [hn.admitsAt_iff] using h.instances

/-- The filter of a request accepts exactly the documents that satisfy its criteria. -/
theorem accepts_filter_ofRequest_iff (view : FieldView) (request : Request) (types : List String)
    (principals : Principals) (document : Json) :
    ((ofRequest view request).filter view.settings types principals).accepts view.settings.rawSuffix document =
        true ↔
      (ofRequest view request).SatisfiedBy view.settings types principals document :=
  (namedBy_ofRequest view request).accepts_filter_iff types principals document

end Criteria

end FacetedSearch
