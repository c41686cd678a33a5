import Mathlib.Data.List.Basic
import FacetedSearch.Criteria.Intent

/-!
# How parameters are read

The readings of a parameter as a relation, one rule for each kind of intent, and the proof that the intent of a
parameter is the one reading it has.
-/

namespace FacetedSearch

/-! ## Beginnings and endings -/

namespace Text

theorem after?_eq_some_iff {start s t : String} : after? start s = some t ↔ s = start ++ t := by
  simp only [after?, Option.map_eq_some_iff, List.isPrefixOf?_eq_some_iff_append_eq]
  constructor
  · rintro ⟨cs, h, rfl⟩
    rw [← String.toList_inj, String.toList_append, String.toList_ofList, h]
  · rintro rfl
    exact ⟨t.toList, String.toList_append.symm, String.ofList_toList⟩

theorem before?_eq_some_iff {ending s t : String} : before? ending s = some t ↔ s = t ++ ending := by
  simp only [before?, Option.map_eq_some_iff, List.isSuffixOf?_eq_some_iff_append_eq]
  constructor
  · rintro ⟨cs, h, rfl⟩
    rw [← String.toList_inj, String.toList_append, String.toList_ofList, h]
  · rintro rfl
    exact ⟨t.toList, String.toList_append.symm, String.ofList_toList⟩

theorem after?_append (start s : String) : after? start (start ++ s) = some s := after?_eq_some_iff.mpr rfl

theorem before?_append (s ending : String) : before? ending (s ++ ending) = some s :=
  before?_eq_some_iff.mpr rfl

theorem before?_eq_none_iff {ending s : String} : before? ending s = none ↔ ¬ ∃ t, s = t ++ ending := by
  simp only [← before?_eq_some_iff, Option.eq_none_iff_forall_ne_some, not_exists, ne_eq]

end Text

/-! ## Readings -/

theorem splitNegation_append (name : String) : splitNegation (name ++ "!") = (name, true) := by
  rw [splitNegation, Text.before?_append]

namespace FieldView

variable {view : FieldView} {p : Parameter} {intent : Intent}

/-- What a parameter may be read as. -/
inductive Reads (view : FieldView) (p : Parameter) : Intent → Prop
  | reserved : view.settings.isReserved p.field = true → Reads view p .skip
  | baseType : view.settings.isReserved p.field = false → splitNegation p.field = ("type", false) →
      p.value = view.settings.baseType → Reads view p .skip
  | docType {negated : Bool} : view.settings.isReserved p.field = false → splitNegation p.field = ("type", negated) →
      ¬ (p.value = view.settings.baseType ∧ negated = false) → Reads view p (.docType p.value negated)
  | noValue {name : String} {negated : Bool} : view.settings.isReserved p.field = false →
      splitNegation p.field = (name, negated) → name ≠ "type" → p.value = view.settings.noValueLabel →
      Reads view p (.noValue name negated)
  | range {name field : String} {d : Bound.Direction} : view.settings.isReserved p.field = false →
      splitNegation p.field = (name, false) → name ≠ "type" → p.value ≠ view.settings.noValueLabel →
      view.range? name = some (field, d) → Reads view p (.range field d p.value)
  | term {name : String} {negated : Bool} : view.settings.isReserved p.field = false →
      splitNegation p.field = (name, negated) → name ≠ "type" → p.value ≠ view.settings.noValueLabel →
      (negated = false → view.range? name = none) → Reads view p (.term name p.value negated)

theorem reads_intent (view : FieldView) (p : Parameter) : view.Reads p (view.intent p) := by
  rw [FieldView.intent]
  cases hr : view.settings.isReserved p.field with
  | true => exact .reserved hr
  | false =>
      cases hs : splitNegation p.field with
      | mk name negated =>
          simp only [Bool.false_eq_true, if_false]
          split
          · rename_i ht
            subst ht
            split
            · rename_i hb
              exact .baseType hr (hb.2 ▸ hs) hb.1
            · rename_i hb
              exact .docType hr hs hb
          · rename_i ht
            split
            · rename_i hv
              exact .noValue hr hs ht hv
            · rename_i hv
              cases negated with
              | true => exact .term hr hs ht hv nofun
              | false =>
                  cases hrange : view.range? name with
                  | none => exact .term hr hs ht hv fun _ => hrange
                  | some range => exact .range hr hs ht hv hrange

theorem Reads.intent_eq (h : view.Reads p intent) : view.intent p = intent := by
  rw [FieldView.intent]
  cases h with
  | reserved hr => rw [if_pos hr]
  | baseType hr hs hb => simp [hr, hs, hb]
  | docType hr hs hb => simp [hr, hs, hb]
  | noValue hr hs ht hv => simp [hr, hs, ht, hv]
  | range hr hs ht hv hrange => simp [hr, hs, ht, hv, hrange]
  | @term name negated hr hs ht hv hrange =>
      cases negated with
      | true => simp [hr, hs, ht, hv]
      | false => simp [hr, hs, ht, hv, hrange rfl]

/-- A range bounds a field from below or from above, and the bound itself is in the range. -/
theorem Reads.direction_eq {field literal : String} {d : Bound.Direction} (h : view.Reads p (.range field d literal)) :
    d = .gte ∨ d = .lte := by
  cases h with
  | range _ _ _ _ hrange =>
      have hname := (Option.filter_eq_some_iff.mp hrange).1
      rw [rangeName?] at hname
      split at hname
      · cases hname
        exact .inl rfl
      · obtain ⟨_, _, he⟩ := Option.map_eq_some_iff.mp hname
        cases he
        exact .inr rfl

theorem reads_iff : view.Reads p intent ↔ view.intent p = intent :=
  ⟨Reads.intent_eq, fun h => h ▸ view.reads_intent p⟩

end FieldView

end FacetedSearch
