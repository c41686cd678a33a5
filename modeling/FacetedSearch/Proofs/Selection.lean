import FacetedSearch.Proofs.Naming
import FacetedSearch.Proofs.Narrowing

/-!
# What requests select

The order of parameters does not matter, several values of a field select what each of them selects, and an unwanted
value narrows the selection.
-/

namespace FacetedSearch

/-! ## Gathered criteria -/

namespace Intent

/-- Without wishes against each other, the last one does not depend on the order. -/
theorem getLast?_wishes_perm {field : String} {intents others : List Intent} (h : intents.Perm others)
    (hone : ¬ (.noValue field false ∈ intents ∧ .noValue field true ∈ intents)) :
    (intents.filterMap (wish? field)).getLast? = (others.filterMap (wish? field)).getLast? := by
  have hw := h.filterMap (wish? field)
  have hsame : ∀ a ∈ intents.filterMap (wish? field), ∀ b ∈ intents.filterMap (wish? field), a = b := by
    intro a ha b hb
    rw [mem_wishes] at ha hb
    cases a <;> cases b
    · rfl
    · exact absurd ⟨hb, ha⟩ hone
    · exact absurd ⟨ha, hb⟩ hone
    · rfl
  cases hl : (intents.filterMap (wish? field)).getLast? with
  | none =>
      rw [List.getLast?_eq_none_iff] at hl
      rw [hl, List.nil_perm] at hw
      rw [hw, List.getLast?_nil]
  | some a =>
      cases hl' : (others.filterMap (wish? field)).getLast? with
      | none =>
          rw [List.getLast?_eq_none_iff] at hl'
          rw [hl', List.perm_nil] at hw
          rw [hw] at hl
          cases hl
      | some b =>
          exact congrArg some (hsame a (List.mem_of_getLast? hl) b (hw.mem_iff.mpr (List.mem_of_getLast? hl')))

end Intent

namespace TermCriterion

variable {view : FieldView} {field v : String} {intents others : List Intent}

theorem wanted_gathered_eq_nil_iff :
    (view.termSteps.gathered field intents).wanted = [] ↔ ∀ v, .term field v false ∉ intents := by
  rw [List.eq_nil_iff_forall_not_mem]
  simp only [mem_wanted_gathered]

theorem gathered_narrows (hwanted : ∀ v, .term field v false ∈ intents → .term field v false ∈ others)
    (hsome : ∀ v, .term field v false ∈ others → ∃ w, .term field w false ∈ intents)
    (hunwanted : ∀ v, .term field v true ∈ others → .term field v true ∈ intents)
    (hwish : (intents.filterMap (Intent.wish? field)).getLast? = (others.filterMap (Intent.wish? field)).getLast?) :
    (view.termSteps.gathered field intents).Narrows (view.termSteps.gathered field others) := by
  have hs : (view.termSteps.gathered field intents).NamedBy view := namedBy_gathered
  have ht : (view.termSteps.gathered field others).NamedBy view := namedBy_gathered
  refine ⟨?_, ?_, ?_, ?_, ?_, ?_, ?_⟩
  · rw [hs.queryField_eq, ht.queryField_eq, field_gathered, field_gathered]
  · rw [hs.valueField_eq, ht.valueField_eq, field_gathered, field_gathered]
  · rw [hs.nestedPath_eq, ht.nestedPath_eq, field_gathered, field_gathered]
  · exact fun v hv => mem_wanted_gathered.mpr (hwanted v (mem_wanted_gathered.mp hv))
  · rw [wanted_gathered_eq_nil_iff, wanted_gathered_eq_nil_iff]
    constructor
    · intro hnone v hv
      obtain ⟨w, hw⟩ := hsome v hv
      exact hnone w hw
    · exact fun hnone v hv => hnone v (hwanted v hv)
  · exact fun v hv => mem_unwanted_gathered.mpr (hunwanted v (mem_unwanted_gathered.mp hv))
  · rw [noValue_gathered, noValue_gathered, hwish]

end TermCriterion

/-! ## Requests -/

namespace Criteria

variable {view : FieldView} {request other : Request} {rawSuffix : String} {document : Json}
  {chosen : String → Json}

theorem implies_ofRequest
    (htypes : ∀ type negated, .docType type negated ∈ view.intents request ↔
      .docType type negated ∈ view.intents other)
    (hstatus : (requested view request).needsStatusExclusion view = (requested view other).needsStatusExclusion view)
    (hterms : ∀ field, view.termSteps.Concerns (view.intents other) field →
      view.termSteps.Concerns (view.intents request) field ∧
        (view.termSteps.gathered field (view.intents request)).Implies
          (view.termSteps.gathered field (view.intents other)) rawSuffix
          (document.scopeAt chosen (view.termSteps.gathered field (view.intents other)).place))
    (hranges : ∀ field, view.rangeSteps.Concerns (view.intents other) field →
      view.rangeSteps.Concerns (view.intents request) field ∧
        view.rangeSteps.gathered field (view.intents request) = view.rangeSteps.gathered field (view.intents other)) :
    (ofRequest view request).Implies (ofRequest view other) rawSuffix document chosen := by
  have hown : ∀ t ∈ (requested view other).fields, ∃ s ∈ (requested view request).fields,
      s.Implies t rawSuffix (document.scopeAt chosen t.place) := by
    intro t ht
    obtain ⟨field, hc, rfl⟩ := collects_fields.mem_iff.mp ht
    obtain ⟨hc', hi⟩ := hterms field hc
    exact ⟨_, collects_fields.mem_iff.mpr ⟨field, hc', rfl⟩, hi⟩
  refine ⟨?_, ?_, ?_, ?_⟩
  · intro type
    rw [(types_ofRequest ..).1, (types_ofRequest ..).1, mem_types_requested.1, mem_types_requested.1, htypes]
  · intro type
    rw [(types_ofRequest ..).2, (types_ofRequest ..).2, mem_types_requested.2, mem_types_requested.2, htypes]
    exact id
  · intro t ht
    rw [mem_fields_ofRequest] at ht
    rcases ht with ht | ⟨hn, rfl⟩
    · obtain ⟨s, hs, hi⟩ := hown t ht
      exact ⟨s, mem_fields_ofRequest.mpr (.inl hs), hi⟩
    · exact ⟨_, mem_fields_ofRequest.mpr (.inr ⟨hstatus.trans hn, rfl⟩), .refl ..⟩
  · intro r hr
    obtain ⟨field, hc, rfl⟩ := mem_ranges_ofRequest.mp hr
    obtain ⟨hc', he⟩ := hranges field hc
    exact mem_ranges_ofRequest.mpr ⟨field, hc', he⟩

end Criteria

/-! ## Selections -/

namespace FieldView

variable {view : FieldView} {request other : Request} {types : List String} {principals : Principals}
  {rawSuffix : String} {document : Json}

/-- The document passes the filter of the request. -/
def Selects (view : FieldView) (types : List String) (principals : Principals) (rawSuffix : String)
    (request : Request) (document : Json) : Prop :=
  ((Criteria.ofRequest view request).filter view.settings types principals).accepts rawSuffix document = true

theorem selects_iff : view.Selects types principals rawSuffix request document ↔
    ∃ chosen, (Criteria.ofRequest view request).AdmitsWith view.settings rawSuffix types principals document chosen :=
  Criteria.accepts_filter_iff.trans ⟨fun h => h.exists_chosen, fun ⟨_, h⟩ => h.admits⟩

theorem Selects.of_implies (h : view.Selects types principals rawSuffix request document)
    (hi : ∀ chosen,
      (Criteria.ofRequest view request).Implies (Criteria.ofRequest view other) rawSuffix document chosen) :
    view.Selects types principals rawSuffix other document := by
  obtain ⟨chosen, hc⟩ := selects_iff.mp h
  exact selects_iff.mpr ⟨chosen, hc.of_implies (hi chosen)⟩

/-! ### Order -/

theorem implies_of_perm (h : (view.intents request).Perm (view.intents other))
    (hdates : ∀ field, view.rangeSteps.Concerns (view.intents request) field → view.isDate field = true)
    (hwishes : ∀ field, ((view.intents request).filterMap (Intent.wish? field)).getLast? =
      ((view.intents other).filterMap (Intent.wish? field)).getLast?) (chosen : String → Json) :
    (Criteria.ofRequest view request).Implies (Criteria.ofRequest view other) rawSuffix document chosen := by
  apply Criteria.implies_ofRequest
  · exact fun type negated => h.mem_iff
  · rw [Bool.eq_iff_iff, Criteria.needsStatusExclusion_requested, Criteria.needsStatusExclusion_requested]
    simp only [h.mem_iff]
  · intro field hc
    refine ⟨(Table.Steps.concerns_perm h).mpr hc, TermCriterion.Narrows.implies ?_ _ _⟩
    exact TermCriterion.gathered_narrows (fun v => h.mem_iff.mp) (fun v hv => ⟨v, h.mem_iff.mpr hv⟩)
      (fun v => h.mem_iff.mpr) (hwishes field)
  · intro field hc
    have hc' := (Table.Steps.concerns_perm h).mpr hc
    exact ⟨hc', RangeCriterion.gathered_perm (hdates field hc') h⟩

/-- The order of parameters does not matter, where no number is bounded and no field is to be both present and
absent. -/
theorem selects_perm (h : request.Perm other)
    (hnumeric : ∀ field d literal, .range field d literal ∈ view.intents request →
      view.lookup.isNumeric field view.types = false)
    (hwishes : ∀ field, ¬ (.noValue field false ∈ view.intents request ∧ .noValue field true ∈ view.intents request))
    (types : List String) (principals : Principals) (rawSuffix : String) (document : Json) :
    view.Selects types principals rawSuffix request document ↔
      view.Selects types principals rawSuffix other document := by
  have hi : (view.intents request).Perm (view.intents other) := h.map view.intent
  have hdates : ∀ field, view.rangeSteps.Concerns (view.intents request) field → view.isDate field = true := by
    rintro field ⟨intent, hm, hf⟩
    cases intent with
    | range name d literal =>
        cases hf
        obtain ⟨p, -, he⟩ := List.mem_map.mp hm
        have hr := isRangeable_of_intent he
        rwa [isRangeable, FieldLookup.isRangeable, hnumeric field d literal hm, Bool.or_false] at hr
    | _ => cases hf
  have hlast : ∀ field, ((view.intents request).filterMap (Intent.wish? field)).getLast? =
      ((view.intents other).filterMap (Intent.wish? field)).getLast? :=
    fun field => Intent.getLast?_wishes_perm hi (hwishes field)
  constructor
  · exact fun hs => hs.of_implies (implies_of_perm hi hdates hlast)
  · intro hs
    refine hs.of_implies (implies_of_perm hi.symm ?_ fun field => (hlast field).symm)
    exact fun field hc => hdates field ((Table.Steps.concerns_perm hi).mpr hc)

/-- Of two dates the earlier one bounds from below, wherever it comes. -/
theorem selects_perm_created :
    Selects ⟨{}, ⟨fun field _ => if field = "created" then some { fieldType := .date } else none⟩, ["Item"]⟩
        ["Item"] ["a"] ".raw"
        [⟨"sex", "F"⟩, ⟨"created.from", "2020-01-01"⟩, ⟨"sex", "No value"⟩, ⟨"created.from", "2019-05-01"⟩]
        (.obj [("embedded", .obj [("@type", .str "Item"), ("created", .str "2019-07-07")]),
          ("principals_allowed", .obj [("view", .str "a")])]) ∧
      Selects ⟨{}, ⟨fun field _ => if field = "created" then some { fieldType := .date } else none⟩, ["Item"]⟩
        ["Item"] ["a"] ".raw"
        [⟨"created.from", "2019-05-01"⟩, ⟨"sex", "No value"⟩, ⟨"created.from", "2020-01-01"⟩, ⟨"sex", "F"⟩]
        (.obj [("embedded", .obj [("@type", .str "Item"), ("created", .str "2019-07-07")]),
          ("principals_allowed", .obj [("view", .str "a")])]) := by
  have hintents : intents
      ⟨{}, ⟨fun field _ => if field = "created" then some { fieldType := .date } else none⟩, ["Item"]⟩
      [⟨"sex", "F"⟩, ⟨"created.from", "2020-01-01"⟩, ⟨"sex", "No value"⟩, ⟨"created.from", "2019-05-01"⟩] =
      [.term "sex" "F" false, .range "created" .gte "2020-01-01", .noValue "sex" false,
        .range "created" .gte "2019-05-01"] := by decide
  rw [and_iff_left_of_imp (selects_perm ?_ ?_ ?_ ["Item"] ["a"] ".raw" _).mp]
  · unfold Selects
    decide +kernel
  · decide
  · intro field d literal hm
    have hf : field = "created" := by
      simp only [hintents, List.mem_cons, reduceCtorEq, Intent.range.injEq, List.not_mem_nil, false_or, or_false] at hm
      exact hm.elim And.left And.left
    subst hf
    decide
  · intro field
    rw [hintents]
    simp

/-! ### Values -/

def FiltersOn (view : FieldView) (request : Request) (field : String) : Prop :=
  ∃ p ∈ request, (view.intent p).field? = some field

instance {field : String} : Decidable (view.FiltersOn request field) :=
  inferInstanceAs (Decidable (∃ p ∈ request, (view.intent p).field? = some field))

/-- Requests that differ in terms on one field compare as their criteria on it do. -/
theorem implies_append {field : String} {added others : Request} {chosen : String → Json}
    (hadded : ∀ intent ∈ view.intents added, intent.IsTermOn field)
    (hothers : ∀ intent ∈ view.intents others, intent.IsTermOn field)
    (hstatus : (Criteria.requested view (request ++ added)).needsStatusExclusion view =
      (Criteria.requested view (request ++ others)).needsStatusExclusion view)
    (hfield : view.termSteps.Concerns (view.intents (request ++ others)) field →
      view.termSteps.Concerns (view.intents (request ++ added)) field ∧
        (view.termSteps.gathered field (view.intents (request ++ added))).Implies
          (view.termSteps.gathered field (view.intents (request ++ others))) rawSuffix
          (document.scopeAt chosen (view.termSteps.gathered field (view.intents (request ++ others))).place)) :
    (Criteria.ofRequest view (request ++ added)).Implies (Criteria.ofRequest view (request ++ others)) rawSuffix
      document chosen := by
  have hterm : ∀ {extra : List Intent}, (∀ intent ∈ extra, intent.IsTermOn field) → ∀ {name}, name ≠ field →
      ∀ intent ∈ extra, view.termSteps.name? intent ≠ some name := by
    intro extra he name hn intent hm hs
    obtain ⟨_, _, rfl⟩ := he intent hm
    exact hn (Option.some.inj hs).symm
  have hrange : ∀ {extra : List Intent}, (∀ intent ∈ extra, intent.IsTermOn field) → ∀ name,
      ∀ intent ∈ extra, view.rangeSteps.name? intent ≠ some name := by
    intro extra he name intent hm hs
    obtain ⟨_, _, rfl⟩ := he intent hm
    cases hs
  have htype : ∀ {extra : List Intent}, (∀ intent ∈ extra, intent.IsTermOn field) → ∀ type negated,
      .docType type negated ∈ view.intents request ++ extra ↔ .docType type negated ∈ view.intents request := by
    intro extra he type negated
    rw [List.mem_append, or_iff_left]
    intro hm
    obtain ⟨_, _, hd⟩ := he _ hm
    cases hd
  apply Criteria.implies_ofRequest _ hstatus
  · intro name hc
    by_cases hn : name = field
    · exact hn ▸ hfield (hn ▸ hc)
    · rw [intents_append, Table.Steps.concerns_append_of_forall (hterm hothers hn)] at hc
      rw [intents_append, intents_append, Table.Steps.concerns_append_of_forall (hterm hadded hn),
        Table.Steps.gathered_append_of_forall (hterm hadded hn),
        Table.Steps.gathered_append_of_forall (hterm hothers hn)]
      exact ⟨hc, .refl ..⟩
  · intro name hc
    rw [intents_append, Table.Steps.concerns_append_of_forall (hrange hothers name)] at hc
    rw [intents_append, intents_append, Table.Steps.concerns_append_of_forall (hrange hadded name),
      Table.Steps.gathered_append_of_forall (hrange hadded name),
      Table.Steps.gathered_append_of_forall (hrange hothers name)]
    exact ⟨hc, rfl⟩
  · intro type negated
    rw [intents_append, intents_append, htype hadded, htype hothers]

theorem intents_values {field : String} {values : List String}
    (h : ∀ v ∈ values, view.intent ⟨field, v⟩ = .term field v false) :
    view.intents (values.map (Parameter.mk field)) = values.map fun v => .term field v false := by
  rw [intents, List.map_map]
  exact List.map_congr_left h

theorem forall_field?_values_iff {field name : String} {values : List String} (hne : values ≠ []) :
    (∀ intent ∈ values.map fun v => Intent.term field v false, intent.field? ≠ some name) ↔ field ≠ name := by
  obtain ⟨v, hv⟩ := List.exists_mem_of_ne_nil values hne
  simp only [List.forall_mem_map, Intent.field?, ne_eq, Option.some.injEq]
  exact ⟨fun h => h v hv, fun h _ _ => h⟩

/-- Fewer added values, but some, narrow the criterion. -/
theorem append_values_narrows {field : String} {intents : List Intent} {values others : List String}
    (hne : values ≠ []) (hsub : values ⊆ others) :
    (view.termSteps.gathered field (intents ++ values.map fun v => .term field v false)).Narrows
      (view.termSteps.gathered field (intents ++ others.map fun v => .term field v false)) := by
  have hwish : ∀ vs : List String, (vs.map fun v => Intent.term field v false).filterMap (Intent.wish? field) = [] := by
    intro vs
    simp [Intent.wish?]
  apply TermCriterion.gathered_narrows
  · intro v hv
    rcases List.mem_append.mp hv with hv | hv
    · exact List.mem_append_left _ hv
    · exact List.mem_append_right _ (List.map_subset _ hsub hv)
  · intro _ _
    obtain ⟨v, hv⟩ := List.exists_mem_of_ne_nil values hne
    exact ⟨v, List.mem_append_right _ (List.mem_map_of_mem hv)⟩
  · intro v hv
    simpa using hv
  · rw [List.filterMap_append, List.filterMap_append, hwish, hwish]

theorem implies_append_values {field : String} {values others : List String} {chosen : String → Json}
    (hvalues : ∀ v ∈ values, view.intent ⟨field, v⟩ = .term field v false) (hne : values ≠ [])
    (hothers : ∀ v ∈ others, view.intent ⟨field, v⟩ = .term field v false) (hne' : others ≠ [])
    (h : (view.termSteps.gathered field (view.intents request ++ values.map fun v => .term field v false)).Implies
      (view.termSteps.gathered field (view.intents request ++ others.map fun v => .term field v false)) rawSuffix
      (document.scopeAt chosen (view.termSteps.gathered field
        (view.intents request ++ others.map fun v => .term field v false)).place)) :
    (Criteria.ofRequest view (request ++ values.map (Parameter.mk field))).Implies
      (Criteria.ofRequest view (request ++ others.map (Parameter.mk field))) rawSuffix document chosen := by
  have hon : ∀ {vs : List String}, (∀ v ∈ vs, view.intent ⟨field, v⟩ = .term field v false) →
      ∀ intent ∈ view.intents (vs.map (Parameter.mk field)), intent.IsTermOn field := by
    intro vs hvs
    rw [intents_values hvs, List.forall_mem_map]
    exact fun v _ => ⟨v, false, rfl⟩
  apply implies_append (hon hvalues) (hon hothers)
  · rw [Bool.eq_iff_iff, Criteria.needsStatusExclusion_requested, Criteria.needsStatusExclusion_requested,
      intents_append, intents_append, intents_values hvalues, intents_values hothers]
    simp only [List.forall_mem_append, forall_field?_values_iff hne, forall_field?_values_iff hne']
  · intro _
    rw [intents_append, intents_append, intents_values hvalues, intents_values hothers]
    obtain ⟨v, hv⟩ := List.exists_mem_of_ne_nil values hne
    exact ⟨⟨_, List.mem_append_right _ (List.mem_map_of_mem hv), rfl⟩, h⟩

theorem append_value_narrows {field v : String} {intents : List Intent} {values : List String} (hv : v ∈ values) :
    (view.termSteps.gathered field (intents ++ [.term field v false])).Narrows
      (view.termSteps.gathered field (intents ++ values.map fun v => .term field v false)) :=
  append_values_narrows (List.cons_ne_nil v []) (by simpa using hv)

theorem mem_wanted_append_value {field v : String} {intents : List Intent} :
    v ∈ (view.termSteps.gathered field (intents ++ [.term field v false])).wanted :=
  TermCriterion.mem_wanted_gathered.mpr (List.mem_append_right _ (List.mem_singleton_self _))

theorem exists_value_admits {field : String} {intents : List Intent} {values : List String} {scope : Scope}
    (hne : values ≠ [])
    (h : (view.termSteps.gathered field (intents ++ values.map fun v => .term field v false)).Admits rawSuffix scope) :
    ∃ v ∈ values, (view.termSteps.gathered field (intents ++ [.term field v false])).Admits rawSuffix scope := by
  apply TermCriterion.exists_admits hne (fun v hv => append_value_narrows hv) _ _ h
  · intro w hw
    rcases List.mem_append.mp (TermCriterion.mem_wanted_gathered.mp hw) with hr | hm
    · obtain ⟨v, hv⟩ := List.exists_mem_of_ne_nil values hne
      exact ⟨v, hv, TermCriterion.mem_wanted_gathered.mpr (List.mem_append_left _ hr)⟩
    · obtain ⟨v, hv, he⟩ := List.mem_map.mp hm
      cases he
      exact ⟨w, hv, mem_wanted_append_value⟩
  · intro v hv u hu
    rw [TermCriterion.mem_unwanted_gathered] at hu ⊢
    simpa using hu

theorem mem_fields_append_values {field : String} {values : List String}
    (hvalues : ∀ v ∈ values, view.intent ⟨field, v⟩ = .term field v false) (hne : values ≠ []) :
    view.termSteps.gathered field (view.intents request ++ values.map fun v => .term field v false) ∈
      (Criteria.ofRequest view (request ++ values.map (Parameter.mk field))).fields := by
  rw [← intents_values hvalues, ← intents_append]
  apply Criteria.gathered_mem_fields
  rw [intents_append, intents_values hvalues]
  obtain ⟨v, hv⟩ := List.exists_mem_of_ne_nil values hne
  exact ⟨_, List.mem_append_right _ (List.mem_map_of_mem hv), rfl⟩

/-- Several values of a field select what each of them selects. -/
theorem selects_append_values_iff {field : String} {values : List String}
    (hvalues : ∀ v ∈ values, view.intent ⟨field, v⟩ = .term field v false) (hne : values ≠ []) :
    view.Selects types principals rawSuffix (request ++ values.map (Parameter.mk field)) document ↔
      ∃ v ∈ values, view.Selects types principals rawSuffix (request ++ [⟨field, v⟩]) document := by
  have hone : ∀ v ∈ values, ∀ w ∈ [v], view.intent ⟨field, w⟩ = .term field w false := by
    intro v hv w hw
    exact hvalues w (List.mem_singleton.mp hw ▸ hv)
  constructor
  · intro hs
    obtain ⟨chosen, hc⟩ := selects_iff.mp hs
    -- The value is the one that the document, or the instance chosen for the field, has.
    obtain ⟨v, hv, ha⟩ := exists_value_admits hne (hc.terms _ (mem_fields_append_values hvalues hne))
    refine ⟨v, hv, selects_iff.mpr ⟨chosen, hc.of_implies ?_⟩⟩
    have hn : (view.termSteps.gathered field (view.intents request ++ [.term field v false])).Narrows
        (view.termSteps.gathered field (view.intents request ++ values.map fun v => .term field v false)) :=
      append_value_narrows hv
    rw [← TermCriterion.place_congr hn.valueField_eq hn.nestedPath_eq] at ha
    exact implies_append_values hvalues hne (hone v hv) (List.cons_ne_nil v [])
      (hn.implied (List.ne_nil_of_mem mem_wanted_append_value) ha)
  · rintro ⟨v, hv, hs⟩
    exact hs.of_implies fun chosen => implies_append_values (hone v hv) (List.cons_ne_nil v []) hvalues hne
      ((append_value_narrows hv).implies _ _)

/-- An unwanted value narrows the selection, on the status only where the request filters on the status already. -/
theorem Selects.of_append_unwanted {p : Parameter} {field value : String} (hp : view.intent p = .term field value true)
    (hstatus : field = view.settings.statusField → view.FiltersOn request field)
    (h : view.Selects types principals rawSuffix (request ++ [p]) document) :
    view.Selects types principals rawSuffix request document := by
  have hone : view.intents [p] = [.term field value true] := congrArg (fun intent => [intent]) hp
  have hintents : view.intents (request ++ [p]) = view.intents request ++ [.term field value true] := by
    rw [intents_append, hone]
  have hadded : ∀ intent ∈ view.intents [p], intent.IsTermOn field := by
    rw [hone, List.forall_mem_singleton]
    exact ⟨value, true, rfl⟩
  rw [← List.append_nil request]
  refine h.of_implies fun chosen => implies_append hadded (List.forall_mem_nil _) ?_ ?_
  · rw [List.append_nil, Bool.eq_iff_iff, Criteria.needsStatusExclusion_requested,
      Criteria.needsStatusExclusion_requested, hintents, List.forall_mem_append]
    refine and_congr_right fun _ => and_iff_left_of_imp fun hn => ?_
    intro intent hi he
    rw [List.mem_singleton.mp hi] at he
    obtain ⟨q, hq, hf⟩ := hstatus (Option.some.inj he)
    exact hn _ (List.mem_map_of_mem hq) (hf.trans he)
  · rw [List.append_nil, hintents]
    intro hc
    refine ⟨Table.Steps.concerns_append.mpr (.inl hc), TermCriterion.Narrows.implies ?_ _ _⟩
    apply TermCriterion.gathered_narrows
    · intro v hv
      simpa using hv
    · exact fun v hv => ⟨v, List.mem_append_left _ hv⟩
    · exact fun v hv => List.mem_append_left _ hv
    · simp [Intent.wish?]

/-- Values of one field widen the selection and an unwanted value narrows it, on the document or on one instance and
beside any other parameters. -/
theorem selects_terms (view : FieldView) (request : Request) (types : List String) (principals : Principals)
    (rawSuffix : String) (document : Json) :
    (∀ field values, values ≠ [] → (∀ v ∈ values, view.intent ⟨field, v⟩ = .term field v false) →
      (view.Selects types principals rawSuffix (request ++ values.map (Parameter.mk field)) document ↔
        ∃ v ∈ values, view.Selects types principals rawSuffix (request ++ [⟨field, v⟩]) document)) ∧
    ∀ p field value, view.intent p = .term field value true →
      (field = view.settings.statusField → view.FiltersOn request field) →
      view.Selects types principals rawSuffix (request ++ [p]) document →
      view.Selects types principals rawSuffix request document :=
  ⟨fun _ _ hne hvalues => selects_append_values_iff hvalues hne,
    fun _ _ _ hp hstatus h => h.of_append_unwanted hp hstatus⟩

/-- Two sexes below one path, and a status ruled out beside another. -/
theorem selects_terms_kin :
    (∃ v ∈ ["F", "M"],
      Selects ⟨{}, ⟨fun _ _ => some { fieldType := .keyword, nestedPath := some "kin" }⟩, []⟩ ["Item"] ["a"] ".raw"
        [⟨"kin.role!", "child"⟩, ⟨"kin.sex", v⟩]
        (.obj [("embedded", .obj [("@type", .str "Item"), ("kin", .arr [.obj [("role", .str "aunt"), ("sex", .str "F")],
          .obj [("role", .str "child"), ("sex", .str "M")]])]), ("principals_allowed", .obj [("view", .str "a")])])) ∧
    Selects ⟨{}, ⟨fun _ _ => none⟩, []⟩ ["Item"] ["a"] ".raw" [⟨"status", "released"⟩]
      (.obj [("embedded", .obj [("@type", .str "Item"), ("status", .str "released")]),
        ("principals_allowed", .obj [("view", .str "a")])]) := by
  constructor
  · apply ((selects_terms ⟨{}, _, []⟩ [⟨"kin.role!", "child"⟩] ["Item"] ["a"] ".raw" _).1 "kin.sex" ["F", "M"]
      (by decide) (by decide)).mp
    unfold Selects
    decide +kernel
  · apply (selects_terms ⟨{}, _, []⟩ [⟨"status", "released"⟩] ["Item"] ["a"] ".raw" _).2 ⟨"status!", "archived"⟩
      "status" "archived" (by decide) (fun _ => ⟨_, List.mem_singleton_self _, by decide⟩)
    unfold Selects
    decide +kernel

end FieldView

end FacetedSearch
