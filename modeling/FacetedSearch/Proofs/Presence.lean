import FacetedSearch.Proofs.Absence
import FacetedSearch.Proofs.Ancestors

/-!
# Presence

A wish for a field, or for none, is decided by the values at the path of the field, whether its clause is flat or is
asked of the instances of a repeated sub-object above the field. Sub-objects do not count as values, so no document
has a field that is one.
-/

namespace FacetedSearch

/-! ## Paths in two parts -/

namespace Json

variable {document v o : Json} {front rest : List String}

theorem Reaches.append (h : document.Reaches front o) (hv : o.Reaches rest v) : document.Reaches (front ++ rest) v := by
  induction h with
  | item hi _ ih => exact .item hi (ih hv)
  | member hf _ ih => exact .member hf (ih hv)
  | object | bool | num | str => exact hv

/-- A path that goes on passes an object on its way. -/
theorem Reaches.exists_between (h : document.Reaches (front ++ rest) v) (hne : rest ≠ []) :
    ∃ o, document.Reaches front o ∧ o.isObject = true ∧ o.Reaches rest v := by
  generalize hp : front ++ rest = path at h
  induction h generalizing front with
  | item hi _ ih =>
      obtain ⟨o, ho, hobject, hv⟩ := ih hp
      exact ⟨o, .item hi ho, hobject, hv⟩
  | @member members name value path v hf hr ih =>
      cases front with
      | nil =>
          cases hp
          exact ⟨.obj members, .object, rfl, .member hf hr⟩
      | cons first front =>
          -- The same member begins what is left of the first part.
          rw [List.cons_append, List.cons.injEq] at hp
          obtain ⟨rfl, hp⟩ := hp
          obtain ⟨o, ho, hobject, hv⟩ := ih hp
          exact ⟨o, .member hf ho, hobject, hv⟩
  | object | bool | num | str => exact absurd (List.append_eq_nil_iff.mp hp).2 hne

/-- A value that is no sub-object is at the path. -/
def HoldsLeaf (document : Json) (path : String) : Prop :=
  ∃ v, document.Reaches (Text.segments path) v ∧ v.isObject = false

theorem hasField_scope_iff {path : String} : document.scope.HasField path ↔ document.HoldsLeaf path := by
  refine exists_congr fun v => and_congr_left fun _ => ?_
  exact ⟨fun h => by cases h with | root hr => exact hr, .root⟩

theorem hasLeaf_enter_iff {path rest : String} :
    (document.scope.enter path o).HasLeaf (path ++ "." ++ rest) v ↔
      o.Reaches (Text.segments rest) v ∧ v.isObject = false := by
  have hbelow : Text.below? path (path ++ "." ++ rest) = some rest := Text.after?_append _ _
  refine and_congr_left fun _ => ⟨fun h => ?_, .own hbelow⟩
  cases h with
  | own hb hv =>
      cases hbelow.symm.trans hb
      exact hv
  | outer hb _ => cases hbelow.symm.trans hb

/-- Looking at each instance of a sub-object finds what its path and the path below it lead to. -/
theorem hasLeaf_below_iff {path rest : String} : document.scope.HasLeaf (path ++ "." ++ rest) v ↔
    ∃ object, document.scope.HasInstance path object ∧
      (document.scope.enter path object).HasLeaf (path ++ "." ++ rest) v := by
  simp only [hasLeaf_enter_iff]
  constructor
  · rintro ⟨hsees, hleaf⟩
    cases hsees with
    | root hr =>
        rw [Text.segments_append] at hr
        obtain ⟨object, ho, hobject, hv⟩ := hr.exists_between (Text.segments_ne_nil rest)
        exact ⟨object, ⟨.root ho, hobject⟩, hv, hleaf⟩
  · rintro ⟨object, ⟨hsees, -⟩, hv, hleaf⟩
    cases hsees with
    | root hr => exact ⟨.root (Text.segments_append path rest ▸ hr.append hv), hleaf⟩

theorem exists_instance_hasField_iff {path rest : String} :
    (∃ object, document.scope.HasInstance path object ∧
      (document.scope.enter path object).HasField (path ++ "." ++ rest)) ↔
      document.HoldsLeaf (path ++ "." ++ rest) := by
  rw [← hasField_scope_iff]
  simp only [Scope.HasField, hasLeaf_below_iff, ← exists_and_left]
  exact exists_comm

end Json

/-! ## The place of a field -/

namespace TermCriterion

variable {t : TermCriterion} {view : FieldView} {field rawSuffix : String} {document : Json} {chosen : String → Json}

/-- Where a catalog describes the fields, a value in the place of a field is a value at its path. -/
theorem exists_place_hasValue_iff {catalog : Catalog} (hcatalog : view.lookup = catalog.lookup)
    (hraw : documentField rawSuffix (view.settings.valueField field) = view.settings.valueField field) :
    (∃ scope, document.IsPlace (fresh view field).place scope ∧ (fresh view field).HasValue rawSuffix scope) ↔
      document.HoldsLeaf (view.settings.valueField field) := by
  have hvalue : ∀ scope, (fresh view field).HasValue rawSuffix scope ↔
      scope.HasField (view.settings.valueField field) := fun scope => by
    rw [HasValue]
    exact iff_of_eq (congrArg _ hraw)
  simp only [hvalue]
  cases hplace : (fresh view field).place with
  | none => simp only [Json.isPlace_none_iff, exists_eq_left, Json.hasField_scope_iff]
  | some path =>
      obtain ⟨hpath, hne⟩ := place_fresh_eq_some_iff.mp hplace
      obtain ⟨q, hq, rfl⟩ := Option.map_eq_some_iff.mp hpath
      have hqf : q ≠ field := fun he => hne (congrArg _ he)
      obtain ⟨rest, rfl⟩ := Catalog.exists_rest_of_nestedPath? (hcatalog ▸ hq) hqf
      have hname : view.settings.valueField (q ++ "." ++ rest) = view.settings.valueField q ++ "." ++ rest := by
        simp only [Settings.valueField, String.append_assoc]
      rw [hname, ← Json.exists_instance_hasField_iff]
      simp only [Json.isPlace_some_iff]
      constructor
      · rintro ⟨_, ⟨object, hi, rfl⟩, hf⟩
        exact ⟨object, hi, hf⟩
      · rintro ⟨object, hi, hf⟩
        exact ⟨_, ⟨object, hi, rfl⟩, hf⟩

theorem gathered_presence : view.termSteps.gathered field [.noValue field true] =
    { fresh view field with noValue := some false } := by
  simp [Table.Steps.gathered, FieldView.termSteps, Intent.termField?, ask]

theorem admitsWith_iff_of_presence (hw : t.wanted = []) (hu : t.unwanted = []) (hn : t.noValue = some false) :
    t.AdmitsWith rawSuffix document chosen ↔ document.IsPlace t.place (document.scopeAt chosen t.place) ∧
      t.HasValue rawSuffix (document.scopeAt chosen t.place) := by
  constructor
  · exact fun h => ⟨h.isPlace (.inr (.inr hn)), h.admits.wanted.2 hw hn⟩
  · rintro ⟨hp, hv⟩
    refine ⟨fun _ => hp, ⟨⟨fun hne => absurd hw hne, fun _ _ => hv⟩, hu ▸ not_hasOneOf_nil⟩, fun hab => ?_⟩
    cases hn.symm.trans hab.2

end TermCriterion

theorem Json.exists_scopeAt_iff {document : Json} {place : Option String} {P : Scope → Prop} :
    (∃ chosen, document.IsPlace place (document.scopeAt chosen place) ∧ P (document.scopeAt chosen place)) ↔
      ∃ scope, document.IsPlace place scope ∧ P scope := by
  constructor
  · rintro ⟨chosen, hp, h⟩
    exact ⟨_, hp, h⟩
  · rintro ⟨scope, hp, h⟩
    cases hp with
    | whole => exact ⟨fun _ => document, .whole, h⟩
    | @inside path object hi => exact ⟨fun _ => object, .inside hi, h⟩

/-! ## Clauses beside the one on the field -/

namespace Criteria

variable {view : FieldView} {field : String}

theorem typesOr_beside_nil (types : List String) :
    ((ofRequest view []).withoutField field).typesOr types = types := by
  simp [typesOr, withoutField, (types_ofRequest view []).1, requested]

theorem typeNotTerms_beside_nil : ((ofRequest view []).withoutField field).typeNotTerms = [] :=
  (types_ofRequest view []).2

theorem ranges_beside_nil : ((ofRequest view []).withoutField field).ranges = [] := by
  simp [withoutField, ranges_ofRequest, requested]

theorem mem_fields_beside_nil {t : TermCriterion} : t ∈ ((ofRequest view []).withoutField field).fields ↔
    field ≠ view.settings.statusField ∧ view.settings.excludedStatuses ≠ [] ∧ t = statusExclusion view := by
  have hstatus : (statusExclusion view).field = view.settings.statusField := rfl
  have hneeds : (requested view []).needsStatusExclusion view = true ↔ view.settings.excludedStatuses ≠ [] := by
    simp [requested, needsStatusExclusion, field?, range?]
  rw [withoutField, List.mem_filter, mem_fields_ofRequest, hneeds]
  simp only [requested, List.foldl_nil, List.not_mem_nil, false_or, decide_eq_true_eq]
  constructor
  · rintro ⟨⟨hne, rfl⟩, hf⟩
    exact ⟨Ne.symm hf, hne, rfl⟩
  · rintro ⟨hf, hne, rfl⟩
    exact ⟨⟨hne, rfl⟩, Ne.symm hf⟩

theorem admits_statusExclusion_iff {scope : Scope} :
    (statusExclusion view).Admits view.settings.rawSuffix scope ↔
      ¬ scope.HasAnyOf (view.settings.valueField view.settings.statusField) view.settings.excludedStatuses := by
  have hquery : documentField view.settings.rawSuffix (statusExclusion view).queryField =
      view.settings.valueField view.settings.statusField := view.settings.documentField_termField _
  have hsame : ∀ s, s ∈ (statusExclusion view).unwanted ↔ s ∈ view.settings.excludedStatuses := by
    intro s
    rw [statusExclusion, TermCriterion.foldl_addOnce, List.mem_eraseDups]
  rw [TermCriterion.admits_iff, TermCriterion.HasOneOf, hquery]
  constructor
  · exact fun h hv => h.2 (hv.mono fun s hs => (hsame s).mpr hs)
  · intro h
    refine ⟨⟨fun hne => absurd rfl hne, fun _ hn => ?_⟩, fun hv => h (hv.mono fun s hs => (hsame s).mp hs)⟩
    cases hn

end Criteria

namespace FieldView

variable {view : FieldView} {field : String} {types : List String} {principals : Principals} {document : Json}

/-- The clauses on type, permission and status that stand beside those on a field; a wish on the status replaces the
one on the status. -/
structure MeetsClauses (view : FieldView) (types : List String) (principals : Principals) (field : String)
    (document : Json) : Prop where
  docType : document.scope.HasAnyOf (view.settings.valueField view.settings.typeField) types
  granted : document.Grants view.settings.rawSuffix view.settings.permissionField principals
  status : field ≠ view.settings.statusField →
    ¬ document.scope.HasAnyOf (view.settings.valueField view.settings.statusField) view.settings.excludedStatuses

theorem admitsBeside_nil_iff {chosen : String → Json}
    (hstatus : (TermCriterion.fresh view view.settings.statusField).place = none) :
    view.AdmitsBeside types principals view.settings.rawSuffix [] field document chosen ↔
      view.MeetsClauses types principals field document := by
  have hplace : (Criteria.statusExclusion view).place = none :=
    (TermCriterion.place_congr (s := Criteria.statusExclusion view) rfl rfl).trans hstatus
  rw [AdmitsBeside]
  constructor
  · intro h
    refine ⟨?_, h.granted, fun hf hv => ?_⟩
    · have hd := h.docType
      rwa [Criteria.typesOr_beside_nil, Settings.documentField_typeQueryField] at hd
    · have hne : view.settings.excludedStatuses ≠ [] := fun he => Scope.not_hasAnyOf_nil (he ▸ hv)
      have hadmits := h.terms _ (Criteria.mem_fields_beside_nil.mpr ⟨hf, hne, rfl⟩)
      rw [hplace] at hadmits
      exact Criteria.admits_statusExclusion_iff.mp hadmits hv
  · intro h
    refine ⟨?_, ?_, h.granted, ?_, ?_, ?_, ?_⟩
    · rw [Criteria.typesOr_beside_nil, Settings.documentField_typeQueryField]
      exact h.docType
    · rw [Criteria.typeNotTerms_beside_nil]
      exact Scope.not_hasAnyOf_nil
    · rintro path (⟨t, ht, hb, -⟩ | ⟨r, hr, -⟩)
      · obtain ⟨-, -, rfl⟩ := Criteria.mem_fields_beside_nil.mp ht
        cases hb.symm.trans (TermCriterion.place_eq_none_iff.mp hplace)
      · rw [Criteria.ranges_beside_nil] at hr
        cases hr
    · intro t ht
      obtain ⟨hf, -, rfl⟩ := Criteria.mem_fields_beside_nil.mp ht
      rw [hplace]
      exact Criteria.admits_statusExclusion_iff.mpr (h.status hf)
    · intro r hr
      rw [Criteria.ranges_beside_nil] at hr
      cases hr
    · intro t ht hw
      obtain ⟨-, -, rfl⟩ := Criteria.mem_fields_beside_nil.mp ht
      cases hw.2

theorem selects_wish_iff {p : Parameter} {negated : Bool} (hp : view.intent p = .noValue field negated)
    (hstatus : (TermCriterion.fresh view view.settings.statusField).place = none) :
    view.Selects types principals view.settings.rawSuffix [p] document ↔
      view.MeetsClauses types principals field document ∧
        ∃ chosen, (view.termSteps.gathered field [.noValue field negated]).AdmitsWith view.settings.rawSuffix document
          chosen := by
  have hintents : view.intents [p] = [.noValue field negated] := by rw [intents, List.map_singleton, hp]
  have hopen : ¬ view.FiltersOn [] field := by simp [FiltersOn]
  have happend : view.Selects types principals view.settings.rawSuffix ([] ++ [p]) document ↔ _ :=
    selects_append_iff hopen (by simp) (by simp [hintents, Intent.termField?])
  rw [hintents] at happend
  refine happend.trans (Iff.trans (exists_congr fun chosen => and_congr_left fun _ => ?_) exists_and_left)
  exact admitsBeside_nil_iff hstatus

section

variable {catalog : Catalog} (hcatalog : view.lookup = catalog.lookup)
  (hstatus : (TermCriterion.fresh view view.settings.statusField).place = none)
  (hraw : documentField view.settings.rawSuffix (view.settings.valueField field) = view.settings.valueField field)
include hcatalog hstatus hraw

theorem selects_absent_iff {p : Parameter} (hp : view.intent p = .noValue field false) :
    view.Selects types principals view.settings.rawSuffix [p] document ↔
      view.MeetsClauses types principals field document ∧
        ¬ document.HoldsLeaf (view.settings.valueField field) := by
  rw [selects_wish_iff hp hstatus, TermCriterion.gathered_absence,
    ← TermCriterion.exists_place_hasValue_iff hcatalog hraw]
  refine and_congr_right fun _ => ?_
  simp only [TermCriterion.admitsWith_iff_of_wantsAbsence (t := { TermCriterion.fresh view field with
    noValue := some true }) ⟨rfl, rfl⟩ rfl, not_exists, not_and]
  exact ⟨fun ⟨_, h⟩ => h, fun h => ⟨fun _ => document, h⟩⟩

theorem selects_present_iff {p : Parameter} (hp : view.intent p = .noValue field true) :
    view.Selects types principals view.settings.rawSuffix [p] document ↔
      view.MeetsClauses types principals field document ∧ document.HoldsLeaf (view.settings.valueField field) := by
  rw [selects_wish_iff hp hstatus, TermCriterion.gathered_presence,
    ← TermCriterion.exists_place_hasValue_iff hcatalog hraw]
  refine and_congr_right fun _ => ?_
  simp only [TermCriterion.admitsWith_iff_of_presence (t := { TermCriterion.fresh view field with
    noValue := some false }) rfl rfl rfl]
  exact Json.exists_scopeAt_iff

end

/-- Of the documents that meet the other clauses, a wish for a field selects those with a value that is no sub-object at
the path of the field, and a wish for none selects the others. The status must not be below a repeated sub-object. -/
theorem selects_presence (catalog : Catalog) (settings : Settings) (types docTypes : List String)
    (principals : Principals) (document : Json) (field : String) (hreserved : settings.isReserved field = false)
    (hnegated : settings.isReserved (field ++ "!") = false) (htype : field ≠ "type")
    (hmark : ¬ ∃ name, field = name ++ "!")
    (hraw : documentField settings.rawSuffix (settings.valueField field) = settings.valueField field)
    (hstatus : ∀ path, catalog.lookup.nestedPath? settings.statusField types = some path →
      path = settings.statusField) :
    let view : FieldView := ⟨settings, catalog.lookup, types⟩
    (view.Selects docTypes principals settings.rawSuffix [⟨field ++ "!", settings.noValueLabel⟩] document ↔
      view.MeetsClauses docTypes principals field document ∧ document.HoldsLeaf (settings.valueField field)) ∧
    (view.Selects docTypes principals settings.rawSuffix [⟨field, settings.noValueLabel⟩] document ↔
      view.MeetsClauses docTypes principals field document ∧ ¬ document.HoldsLeaf (settings.valueField field)) := by
  intro view
  have hplace : (TermCriterion.fresh view view.settings.statusField).place = none := by
    rw [Option.eq_none_iff_forall_ne_some]
    intro path hp
    obtain ⟨hpath, hne⟩ := TermCriterion.place_fresh_eq_some_iff.mp hp
    obtain ⟨q, hq, rfl⟩ := Option.map_eq_some_iff.mp hpath
    exact hne (congrArg _ (hstatus q hq))
  have hsplit : splitNegation field = (field, false) := by
    rw [splitNegation, Text.before?_eq_none_iff.mpr hmark]
  have hwith : view.intent ⟨field ++ "!", settings.noValueLabel⟩ = .noValue field true :=
    Reads.intent_eq (.noValue hnegated (splitNegation_append field) htype rfl)
  have hwithout : view.intent ⟨field, settings.noValueLabel⟩ = .noValue field false :=
    Reads.intent_eq (.noValue hreserved hsplit htype rfl)
  exact ⟨selects_present_iff rfl hplace hraw hwith, selects_absent_iff rfl hplace hraw hwithout⟩

/-- One instance has a proband and the other has none. -/
theorem selects_presence_proband :
    let families : FieldMapping := { fieldType := .nested, properties := some [("proband", { fieldType := .keyword })] }
    let catalog : Catalog := ⟨[("Cohort", { properties := [("families", families)] })]⟩
    let view : FieldView := ⟨{}, catalog.lookup, ["Cohort"]⟩
    let cohort : Json := .obj [
      ("embedded", .obj [("@type", .str "Cohort"), ("families", .arr [.obj [("proband", .str "A")], .obj []])]),
      ("principals_allowed", .obj [("view", .str "system.Everyone")])]
    view.MeetsClauses ["Cohort"] ["system.Everyone"] "families.proband" cohort ∧
      cohort.HoldsLeaf "embedded.families.proband" ∧
      ¬ view.Selects ["Cohort"] ["system.Everyone"] ".raw" [⟨"families.proband", "No value"⟩] cohort := by
  intro families catalog view cohort
  have hstatus : catalog.lookup.nestedPath? "status" ["Cohort"] = none := by decide
  have h := selects_presence catalog {} ["Cohort"] ["Cohort"] ["system.Everyone"] cohort "families.proband" (by decide)
    (by decide) (by decide) (Text.before?_eq_none_iff.mp (by decide)) (by decide)
    (fun path hp => by cases hstatus.symm.trans hp)
  have hselects : view.Selects ["Cohort"] ["system.Everyone"] ".raw" [⟨"families.proband" ++ "!", "No value"⟩]
      cohort := by
    unfold Selects
    decide +kernel
  obtain ⟨hmeets, hholds⟩ := h.1.mp hselects
  exact ⟨hmeets, hholds, fun hs => (h.2.mp hs).2 hholds⟩

/-- A cohort with a family, which is a sub-object, is selected by the wish for none and not by the wish for one. -/
theorem selects_without_families :
    let families : FieldMapping := { fieldType := .nested, properties := some [("proband", { fieldType := .keyword })] }
    let catalog : Catalog := ⟨[("Cohort", { properties := [("families", families)] })]⟩
    let view : FieldView := ⟨{}, catalog.lookup, ["Cohort"]⟩
    let cohort : Json := .obj [
      ("embedded", .obj [("@type", .str "Cohort"), ("families", .arr [.obj [("proband", .str "A")]])]),
      ("principals_allowed", .obj [("view", .str "system.Everyone")])]
    view.MeetsClauses ["Cohort"] ["system.Everyone"] "families" cohort ∧
      (∃ v, cohort.Reaches (Text.segments "embedded.families") v) ∧
      view.Selects ["Cohort"] ["system.Everyone"] ".raw" [⟨"families", "No value"⟩] cohort ∧
      ¬ view.Selects ["Cohort"] ["system.Everyone"] ".raw" [⟨"families!", "No value"⟩] cohort := by
  intro families catalog view cohort
  have hselects : view.Selects ["Cohort"] ["system.Everyone"] ".raw" [⟨"families", "No value"⟩] cohort := by
    unfold Selects
    decide +kernel
  have hsegments : Text.segments "embedded.families" = ["embedded", "families"] := by decide
  have hwish : view.intent ⟨"families", "No value"⟩ = .noValue "families" false := by decide
  have hmeets := ((selects_wish_iff hwish (by decide)).mp hselects).1
  refine ⟨hmeets, ⟨.obj [("proband", .str "A")], ?_⟩, hselects, ?_⟩
  · rw [hsegments]
    exact .member rfl (.member rfl (.item List.mem_cons_self .object))
  · unfold Selects
    decide +kernel

end FieldView

end FacetedSearch
