import FacetedSearch.Proofs.Collection
import FacetedSearch.Proofs.Document

/-!
# Names of fields

Index names lead back to the names they were made from, and every criterion of a request carries the index names of
its field.
-/

namespace FacetedSearch

namespace Settings

variable (s : Settings)

theorem documentField_termField (name : String) :
    documentField s.rawSuffix (s.termField name) = s.valueField name := by
  rw [documentField, termField, Text.before?_append, valueField, Option.getD_some]

theorem documentField_typeQueryField : documentField s.rawSuffix s.typeQueryField = s.valueField s.typeField :=
  s.documentField_termField _

theorem baseField_termField (name : String) : s.baseField (s.termField name) = name := by
  rw [baseField, termField, String.append_assoc, Text.after?_append]
  simp only [Option.getD_some, Text.before?_append]

/-- Only a name that ends in the raw suffix is not found back from its index name. -/
theorem baseField_valueField {name : String} (h : s.rawSuffix ≠ "" → ¬ ∃ stem, name = stem ++ s.rawSuffix) :
    s.baseField (s.valueField name) = name := by
  rw [baseField, valueField, Text.after?_append]
  by_cases he : s.rawSuffix = ""
  · have hb : Text.before? "" name = some name := Text.before?_eq_some_iff.mpr (by simp)
    simp [he, hb]
  · simp [Text.before?_eq_none_iff.mpr (h he)]

/-- A raw suffix of the name itself is taken off. -/
theorem baseField_valueField_ne {name : String} (hs : s.rawSuffix ≠ "") (h : ∃ stem, name = stem ++ s.rawSuffix) :
    s.baseField (s.valueField name) ≠ name := by
  obtain ⟨stem, rfl⟩ := h
  rw [baseField, valueField, Text.after?_append]
  simp only [Option.getD_some, Text.before?_append]
  intro he
  have hl := congrArg String.length he
  rw [String.length_append] at hl
  exact hs (String.length_eq_zero_iff.mp (by omega))

theorem termField_inj {a b : String} : s.termField a = s.termField b ↔ a = b := by
  constructor
  · intro h
    rw [← s.baseField_termField a, h, s.baseField_termField]
  · exact congrArg s.termField

theorem valueField_inj {a b : String} : s.valueField a = s.valueField b ↔ a = b := String.append_right_inj _

end Settings

/-! ## Criteria of a request -/

structure TermCriterion.NamedBy (view : FieldView) (t : TermCriterion) : Prop where
  queryField_eq : t.queryField = view.settings.termField t.field
  valueField_eq : t.valueField = view.settings.valueField t.field
  nestedPath_eq : t.nestedPath = view.nestedPath? t.field

structure RangeCriterion.NamedBy (view : FieldView) (r : RangeCriterion) : Prop where
  queryField_eq : r.queryField = view.settings.valueField r.field
  nestedPath_eq : r.nestedPath = view.nestedPath? r.field

namespace TermCriterion

variable {view : FieldView} {t : TermCriterion}

theorem NamedBy.addTerm (h : t.NamedBy view) (value : String) (negated : Bool) :
    (t.addTerm value negated).NamedBy view := by
  cases negated <;> exact ⟨h.queryField_eq, h.valueField_eq, h.nestedPath_eq⟩

theorem NamedBy.wish (h : t.NamedBy view) (wish : Bool) : { t with noValue := some wish }.NamedBy view :=
  ⟨h.queryField_eq, h.valueField_eq, h.nestedPath_eq⟩

theorem namedBy_gathered {field : String} {intents : List Intent} :
    (view.termSteps.gathered field intents).NamedBy view := by
  apply gathered_induction
  · exact ⟨rfl, rfl, rfl⟩
  · exact fun t value negated h => h.addTerm value negated
  · exact fun t wish h => h.wish wish

end TermCriterion

namespace RangeCriterion

variable {view : FieldView} {r : RangeCriterion}

theorem NamedBy.addBound (h : r.NamedBy view) (d : Bound.Direction) (literal : String) :
    (r.addBound d literal).NamedBy view := by
  rw [RangeCriterion.addBound]
  split
  · exact h
  · exact ⟨h.queryField_eq, h.nestedPath_eq⟩

theorem namedBy_gathered {field : String} {intents : List Intent} :
    (view.rangeSteps.gathered field intents).NamedBy view := by
  apply gathered_induction
  · exact ⟨rfl, rfl⟩
  · exact fun r d literal h => h.addBound d literal

end RangeCriterion

namespace Criteria

variable {view : FieldView} {request : Request}

theorem named_of_mem_fields : ∀ t ∈ (ofRequest view request).fields, t.NamedBy view := by
  intro t ht
  rcases mem_fields_ofRequest.mp ht with ht | ⟨-, rfl⟩
  · obtain ⟨field, -, rfl⟩ := collects_fields.mem_iff.mp ht
    exact TermCriterion.namedBy_gathered
  · exact ⟨rfl, rfl, rfl⟩

theorem named_of_mem_ranges : ∀ r ∈ (ofRequest view request).ranges, r.NamedBy view := by
  intro r hr
  obtain ⟨field, -, rfl⟩ := mem_ranges_ofRequest.mp hr
  exact RangeCriterion.namedBy_gathered

end Criteria

end FacetedSearch
