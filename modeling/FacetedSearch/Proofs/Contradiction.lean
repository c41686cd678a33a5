import FacetedSearch.Index.Catalog
import FacetedSearch.Proofs.Selection

/-!
# Contradictions

A request that asks for a value of a field and rules the same value out selects nothing: wanted and unwanted values
are kept apart, and every wanted one has to be missed by a document that is to have one of them.
-/

namespace FacetedSearch

theorem TermCriterion.not_admits_of_unwanted {t : TermCriterion} {rawSuffix : String} {scope : Scope}
    (hw : t.wanted ≠ []) (hn : t.noValue = none) (hu : ∀ v ∈ t.wanted, v ∈ t.unwanted) :
    ¬ t.Admits rawSuffix scope := by
  intro h
  rcases h.wanted.1 hw with hv | ⟨hs, -⟩ | ⟨hs, -⟩
  · exact h.noneUnwanted (hv.mono hu)
  · cases hn.symm.trans hs
  · cases hn.symm.trans hs

namespace FieldView

variable {view : FieldView} {request : Request} {types : List String} {principals : Principals} {rawSuffix : String}
  {document : Json} {field : String}

/-- Criteria on a field that ask for values and rule them all out leave nothing to select. -/
theorem not_selects_of_unwanted (hw : ∃ v, .term field v false ∈ view.intents request)
    (hn : ∀ negated, .noValue field negated ∉ view.intents request)
    (hu : ∀ v, .term field v false ∈ view.intents request → .term field v true ∈ view.intents request) :
    ¬ view.Selects types principals rawSuffix request document := by
  have hvalues : ∀ v negated, v ∈ (view.termSteps.gathered field (view.intents request)).values negated ↔
      .term field v negated ∈ view.intents request := fun v negated => TermCriterion.mem_values_gathered
  intro h
  obtain ⟨chosen, hc⟩ := selects_iff.mp h
  obtain ⟨v, hv⟩ := hw
  have hconcerns : view.termSteps.Concerns (view.intents request) field := ⟨_, hv, rfl⟩
  have hfield := Criteria.gathered_mem_fields hconcerns
  refine TermCriterion.not_admits_of_unwanted ?_ ?_ ?_ (hc.terms _ hfield)
  · exact List.ne_nil_of_mem ((hvalues v false).mpr hv)
  · rw [TermCriterion.noValue_gathered, List.getLast?_eq_none_iff, List.eq_nil_iff_forall_not_mem]
    exact fun wish hwish => hn _ (Intent.mem_wishes.mp hwish)
  · exact fun w hm => (hvalues w true).mpr (hu w ((hvalues w false).mp hm))

/-- Where a name and its negation are read as terms, asking for a value and ruling it out selects nothing, if the
field is asked about nothing else. -/
theorem not_selects_asserted_negated (view : FieldView) (types : List String) (principals : Principals)
    (rawSuffix : String) (request : Request) (document : Json) (field v : String)
    (hname : splitNegation field = (field, false)) (htype : field ≠ "type") (hrange : view.range? field = none)
    (hkept : view.settings.isReserved field = false) (hkeptNot : view.settings.isReserved (field ++ "!") = false)
    (hlabel : v ≠ view.settings.noValueLabel)
    (hasserted : ⟨field, v⟩ ∈ request) (hnegated : ⟨field ++ "!", v⟩ ∈ request)
    (honly : ∀ p ∈ request, (splitNegation p.field).1 = field → p.value = v) :
    ¬ view.Selects types principals rawSuffix request document := by
  have hwanted : view.intent ⟨field, v⟩ = .term field v false :=
    Reads.intent_eq (.term hkept hname htype hlabel fun _ => hrange)
  have hunwanted : view.intent ⟨field ++ "!", v⟩ = .term field v true :=
    Reads.intent_eq (.term hkeptNot (splitNegation_append field) htype hlabel nofun)
  -- whatever is read as a term or an absence on the field is one of its parameters, so its value is `v`
  have hvalue : ∀ w, .term field w false ∈ view.intents request → w = v := by
    intro w hw
    obtain ⟨p, hp, hi⟩ := List.mem_map.mp hw
    cases reads_iff.mpr hi with
    | term _ hs _ _ _ => exact honly p hp (congrArg Prod.fst hs)
  refine not_selects_of_unwanted ⟨v, List.mem_map.mpr ⟨_, hasserted, hwanted⟩⟩ ?_ ?_
  · intro negated hn
    obtain ⟨p, hp, hi⟩ := List.mem_map.mp hn
    cases reads_iff.mpr hi with
    | noValue _ hs _ hv => exact hlabel ((honly p hp (congrArg Prod.fst hs)).symm.trans hv)
  · intro w hw
    rw [hvalue w hw]
    exact List.mem_map.mpr ⟨_, hnegated, hunwanted⟩

theorem not_selects_asserted_negated_sex :
    ¬ Selects ⟨{}, ⟨fun _ _ => none⟩, []⟩ ["Item"] ["a"] ".raw" [⟨"sex!", "F"⟩, ⟨"age.from", "3"⟩, ⟨"sex", "F"⟩]
      (.obj [
        ("embedded", .obj [("@type", .str "Item"), ("sex", .arr [.str "F", .str "M"]),
          ("age", .obj [("from", .str "3")])]),
        ("principals_allowed", .obj [("view", .str "a")])]) :=
  not_selects_asserted_negated ⟨{}, ⟨fun _ _ => none⟩, []⟩ ["Item"] ["a"] ".raw" _ _ "sex" "F" (by decide) (by decide)
    (by decide) (by decide) (by decide) (by decide) (by decide) (by decide) (by decide)

/-- A negation may be kept from the filters as a parameter of its own, a name that ends in the mark is a negation
already, and of the wishes about absence the last one counts. -/
theorem selects_asserted_negated :
    let document (sex : String) : Json := .obj [
      ("embedded", .obj [("@type", .str "Cohort"), ("sex", .str sex)]),
      ("principals_allowed", .obj [("view", .str "system.Everyone")])]
    Selects ⟨{ reservedParameters := ["sex!"] }, Catalog.lookup {}, ["Cohort"]⟩ ["Cohort"] ["system.Everyone"] ".raw"
        [⟨"sex", "F"⟩, ⟨"sex!", "F"⟩] (document "F") ∧
      Selects ⟨{}, Catalog.lookup {}, ["Cohort"]⟩ ["Cohort"] ["system.Everyone"] ".raw"
        [⟨"sex!", "F"⟩, ⟨"sex!!", "F"⟩] (document "M") ∧
      Selects ⟨{}, Catalog.lookup {}, ["Cohort"]⟩ ["Cohort"] ["system.Everyone"] ".raw"
        [⟨"sex", "No value"⟩, ⟨"sex!", "No value"⟩] (document "F") := by
  unfold Selects
  decide +kernel

end FieldView

end FacetedSearch
