import FacetedSearch.Index.Catalog
import FacetedSearch.Proofs.LeaveOneOut
import FacetedSearch.Proofs.Selection

/-!
# A value or none

A wish for absence beside wanted values is one more of them: it is asked of the place that the values are asked of,
the whole document or one instance of a repeated sub-object. Alone it is asked of every instance. So the two together
select what either selects wherever there is one place, and below a repeated sub-object they are read on one instance.
-/

namespace FacetedSearch

theorem Json.isPlace_none_iff {document : Json} {scope : Scope} :
    document.IsPlace none scope ↔ scope = document.scope :=
  ⟨fun h => by cases h; rfl, fun h => h ▸ .whole⟩

theorem Json.isPlace_some_iff {document : Json} {path : String} {scope : Scope} :
    document.IsPlace (some path) scope ↔
      ∃ object, document.scope.HasInstance path object ∧ scope = document.scope.enter path object := by
  constructor
  · intro h
    cases h with
    | inside hi => exact ⟨_, hi, rfl⟩
  · rintro ⟨object, hi, rfl⟩
    exact .inside hi

theorem Json.isPlace_scopeAt_some_iff {document : Json} {path : String} {chosen : String → Json} :
    document.IsPlace (some path) (document.scopeAt chosen (some path)) ↔
      document.scope.HasInstance path (chosen path) := by
  rw [isPlace_some_iff]
  constructor
  · rintro ⟨object, hi, he⟩
    simp only [scopeAt, Scope.enter, Scope.mk.injEq, List.cons.injEq, Prod.mk.injEq, true_and, and_true] at he
    exact he ▸ hi
  · exact fun hi => ⟨_, hi, rfl⟩

theorem Json.scopeAt_congr {document : Json} {chosen other : String → Json} {place : Option String}
    (h : ∀ path, place = some path → other path = chosen path) :
    document.scopeAt other place = document.scopeAt chosen place := by
  cases place with
  | none => rfl
  | some path => rw [scopeAt, scopeAt, h path rfl]

/-! ## One criterion among others -/

/-- What the criterion asks of a document, with the instance chosen at each path. -/
structure TermCriterion.AdmitsWith (t : TermCriterion) (rawSuffix : String) (document : Json)
    (chosen : String → Json) : Prop where
  isPlace : t.AsksOfInstance → document.IsPlace t.place (document.scopeAt chosen t.place)
  admits : t.Admits rawSuffix (document.scopeAt chosen t.place)
  absence : t.WantsAbsence → ∀ scope, document.IsPlace t.place scope → ¬ t.HasValue rawSuffix scope

namespace Criteria

variable {c : Criteria} {settings : Settings} {rawSuffix : String} {types : List String} {principals : Principals}
  {document : Json} {chosen other : String → Json} {t : TermCriterion}

/-- Criteria ask what the criterion on one field asks and what the others ask. -/
theorem admitsWith_iff_withoutField (ht : t ∈ c.fields) (honly : ∀ s ∈ c.fields, s.field = t.field → s = t)
    (hranges : ∀ r ∈ c.ranges, r.field ≠ t.field) :
    c.AdmitsWith settings rawSuffix types principals document chosen ↔
      (c.withoutField t.field).AdmitsWith settings rawSuffix types principals document chosen ∧
        t.AdmitsWith rawSuffix document chosen := by
  have hfields : ∀ s, s ∈ c.fields ↔ s ∈ (c.withoutField t.field).fields ∨ s = t := by
    intro s
    rw [withoutField, List.mem_filter, decide_eq_true_eq]
    constructor
    · intro hs
      by_cases he : s.field = t.field
      · exact .inr (honly s hs he)
      · exact .inl ⟨hs, he⟩
    · rintro (hs | rfl)
      · exact hs.1
      · exact ht
  have hsame : ∀ r, r ∈ c.ranges ↔ r ∈ (c.withoutField t.field).ranges := by
    intro r
    rw [withoutField, List.mem_filter, decide_eq_true_eq]
    exact ⟨fun hr => ⟨hr, hranges r hr⟩, And.left⟩
  have hasks : ∀ path, (c.withoutField t.field).AsksAt path → c.AsksAt path := by
    rintro path (⟨s, hs, h⟩ | ⟨r, hr, h⟩)
    · exact .inl ⟨s, (hfields s).mpr (.inl hs), h⟩
    · exact .inr ⟨r, (hsame r).mpr hr, h⟩
  constructor
  · intro h
    refine ⟨⟨h.docType, h.notDocType, h.granted, fun path ha => h.instances path (hasks path ha), ?_, ?_, ?_⟩,
      ⟨?_, h.terms t ht, h.absences t ht⟩⟩
    · exact fun s hs => h.terms s ((hfields s).mpr (.inl hs))
    · exact fun r hr => h.ranges r ((hsame r).mpr hr)
    · exact fun s hs => h.absences s ((hfields s).mpr (.inl hs))
    · intro ha
      cases hp : t.place with
      | none => exact .whole
      | some path =>
          obtain ⟨hb, hpath⟩ := TermCriterion.place_eq_some_iff.mp hp
          exact .inside (h.instances path (.inl ⟨t, ht, hb, hpath, ha⟩))
  · rintro ⟨h, hown⟩
    refine ⟨h.docType, h.notDocType, h.granted, ?_, ?_, fun r hr => h.ranges r ((hsame r).mp hr), ?_⟩
    -- An instance is asked for by the others, or by the criterion itself, which then has one there.
    · rintro path (⟨s, hs, hb, hpath, ha⟩ | ⟨r, hr, hpath⟩)
      · rcases (hfields s).mp hs with hs | rfl
        · exact h.instances path (.inl ⟨s, hs, hb, hpath, ha⟩)
        · have hplace := hown.isPlace ha
          rw [TermCriterion.place_eq_some_iff.mpr ⟨hb, hpath⟩] at hplace
          exact Json.isPlace_scopeAt_some_iff.mp hplace
      · exact h.instances path (.inr ⟨r, (hsame r).mp hr, hpath⟩)
    · intro s hs
      rcases (hfields s).mp hs with hs | rfl
      · exact h.terms s hs
      · exact hown.admits
    · intro s hs
      rcases (hfields s).mp hs with hs | rfl
      · exact h.absences s hs
      · exact hown.absence

/-- Only the instances at paths where something is asked count. -/
theorem AdmitsWith.congr (h : c.AdmitsWith settings rawSuffix types principals document chosen)
    (he : ∀ path, c.AsksAt path → other path = chosen path) :
    c.AdmitsWith settings rawSuffix types principals document other := by
  refine ⟨h.docType, h.notDocType, h.granted, fun path ha => he path ha ▸ h.instances path ha, ?_, ?_, h.absences⟩
  · intro t ht
    by_cases ha : t.AsksOfInstance
    · rw [Json.scopeAt_congr fun path hp => ?_]
      · exact h.terms t ht
      · obtain ⟨hb, hpath⟩ := TermCriterion.place_eq_some_iff.mp hp
        exact he path (.inl ⟨t, ht, hb, hpath, ha⟩)
    · exact TermCriterion.admits_of_not_asks ha
  · intro r hr
    rw [Json.scopeAt_congr fun path hp => he path (.inr ⟨r, hr, hp⟩)]
    exact h.ranges r hr

/-- Where there is a place, the chosen instance may be taken for one. -/
theorem AdmitsWith.exists_place (h : c.AdmitsWith settings rawSuffix types principals document chosen)
    {place : Option String} {scope : Scope} (hp : document.IsPlace place scope) :
    ∃ other, c.AdmitsWith settings rawSuffix types principals document other ∧
      document.IsPlace place (document.scopeAt other place) := by
  cases hp with
  | whole => exact ⟨chosen, h, .whole⟩
  | @inside path object hi =>
      by_cases ha : c.AsksAt path
      · exact ⟨chosen, h, .inside (h.instances path ha)⟩
      -- Nothing is asked at the path, so the choice is free there.
      · refine ⟨fun name => if name = path then object else chosen name, h.congr fun name hn => ?_, ?_⟩
        · exact if_neg fun he : name = path => ha (he ▸ hn)
        · rw [Json.isPlace_scopeAt_some_iff, if_pos rfl]
          exact hi

/-! ## Further terms on a field -/

variable {view : FieldView} {request added : Request} {field : String}

theorem withoutField_add {intent : Intent} (h : intent.termField? = some field) (c : Criteria) :
    (c.add view intent).withoutField field = c.withoutField field := by
  have hchange : ∀ change : TermCriterion → TermCriterion, (∀ t, (change t).field = t.field) →
      (c.changeField view field change).withoutField field = c.withoutField field := by
    intro change hc
    have hfilter : (Table.update (·.field) field (.fresh view field) change c.fields).filter (·.field ≠ field) =
        c.fields.filter (·.field ≠ field) := Table.filter_update (hc (.fresh view field)) hc c.fields
    rw [changeField, withoutField, hfilter]
    rfl
  cases intent with
  | term name value negated =>
      cases h
      exact hchange _ fun t => by cases negated <;> rfl
  | noValue name negated =>
      cases h
      exact hchange _ fun _ => rfl
  | _ => cases h

theorem withoutField_requested_append (h : ∀ intent ∈ view.intents added, intent.termField? = some field) :
    (requested view (request ++ added)).withoutField field = (requested view request).withoutField field := by
  rw [requested_eq, requested_eq, FieldView.intents_append, List.foldl_append]
  generalize (view.intents request).foldl (add view) {} = c
  generalize view.intents added = intents at h ⊢
  induction intents generalizing c with
  | nil => rfl
  | cons intent rest ih =>
      rw [List.forall_mem_cons] at h
      rw [List.foldl_cons, ih _ h.2, withoutField_add h.1]

theorem withoutField_withStatusExclusion (c : Criteria) (field : String) :
    (c.withStatusExclusion view).withoutField field =
      if field = view.settings.statusField then c.withoutField field
      else (c.withoutField field).withStatusExclusion view := by
  have hstatus : (statusExclusion view).field = view.settings.statusField := rfl
  split
  · rename_i hf
    rw [withStatusExclusion]
    split
    · simp [withoutField, hstatus, hf]
    · rfl
  · rename_i hf
    have hterms : ∀ t : TermCriterion, (decide (t.field ≠ field) && t.field == view.settings.statusField) =
        (t.field == view.settings.statusField) := by
      intro t
      by_cases he : t.field = view.settings.statusField <;> simp [he, Ne.symm hf]
    have hranges : ∀ r : RangeCriterion, (decide (r.field ≠ field) && r.field == view.settings.statusField) =
        (r.field == view.settings.statusField) := by
      intro r
      by_cases he : r.field = view.settings.statusField <;> simp [he, Ne.symm hf]
    have hneeds : (c.withoutField field).needsStatusExclusion view = c.needsStatusExclusion view := by
      simp only [needsStatusExclusion, field?, range?, withoutField, List.find?_filter, Bool.decide_and,
        Bool.decide_eq_true, hterms, hranges]
    rw [withStatusExclusion, withStatusExclusion, hneeds]
    split
    · simp [withoutField, hstatus, Ne.symm hf]
    · rfl

theorem withoutField_ofRequest_append (h : ∀ intent ∈ view.intents added, intent.termField? = some field) :
    (ofRequest view (request ++ added)).withoutField field = (ofRequest view request).withoutField field := by
  rw [ofRequest, ofRequest, withoutField_withStatusExclusion, withoutField_withStatusExclusion,
    withoutField_requested_append h]

end Criteria

/-! ## Values and absence on one field -/

namespace TermCriterion

variable {t : TermCriterion} {rawSuffix : String} {document : Json} {chosen : String → Json}

theorem admitsWith_iff_of_wantsAbsence (h : t.WantsAbsence) (hu : t.unwanted = []) :
    t.AdmitsWith rawSuffix document chosen ↔
      ∀ scope, document.IsPlace t.place scope → ¬ t.HasValue rawSuffix scope := by
  have hasks : ¬ t.AsksOfInstance := by simp [AsksOfInstance, h.1, h.2, hu]
  exact ⟨fun ha => ha.absence h, fun ha => ⟨fun hi => absurd hi hasks, admits_of_not_asks hasks, fun _ => ha⟩⟩

variable {view : FieldView} {field v : String}

theorem gathered_absence : view.termSteps.gathered field [.noValue field false] =
    { fresh view field with noValue := some true } := by
  simp [Table.Steps.gathered, FieldView.termSteps, Intent.termField?, ask]

theorem place_fresh_eq_some_iff {path : String} :
    (fresh view field).place = some path ↔
      view.nestedPath? field = some path ∧ path ≠ view.settings.valueField field := by
  rw [place_eq_some_iff, isBelowPath, isPathIdentity, and_comm]
  refine and_congr_right fun (hp : view.nestedPath? field = some path) => ?_
  simp [fresh, hp]

end TermCriterion

namespace FieldView

variable {view : FieldView} {request added : Request} {field v : String} {types : List String}
  {principals : Principals} {rawSuffix : String} {document : Json}

/-- What is asked on a field that a request leaves open stands beside the rest of the request. -/
theorem selects_append_iff (hopen : ¬ view.FiltersOn request field) (hne : added ≠ [])
    (hadded : ∀ intent ∈ view.intents added, intent.termField? = some field) :
    view.Selects types principals rawSuffix (request ++ added) document ↔
      ∃ chosen, ((Criteria.ofRequest view request).withoutField field).AdmitsWith view.settings rawSuffix types
          principals document chosen ∧
        (view.termSteps.gathered field (view.intents added)).AdmitsWith rawSuffix document chosen := by
  have hrequest : ∀ intent ∈ view.intents request, intent.field? ≠ some field := by
    intro intent hi hf
    obtain ⟨p, hp, rfl⟩ := List.mem_map.mp hi
    exact hopen ⟨p, hp, hf⟩
  have hterms : ¬ view.termSteps.Concerns (view.intents request) field := by
    rintro ⟨intent, hi, hf⟩
    exact hrequest intent hi (Intent.field?_eq_some_iff.mpr (.inl hf))
  have hconcerns : view.termSteps.Concerns (view.intents (request ++ added)) field := by
    obtain ⟨p, hp⟩ := List.exists_mem_of_ne_nil added hne
    have hi : view.intent p ∈ view.intents added := List.mem_map_of_mem hp
    rw [intents_append]
    exact ⟨_, List.mem_append_right _ hi, hadded _ hi⟩
  -- The request is silent on the field, so what is gathered there is what was added.
  have hgathered : view.termSteps.gathered field (view.intents (request ++ added)) =
      view.termSteps.gathered field (view.intents added) := by
    rw [intents_append, Table.Steps.gathered_append_of_not_concerns hterms]
  have hfield : (view.termSteps.gathered field (view.intents added)).field = field := TermCriterion.field_gathered
  have hmem := Criteria.gathered_mem_fields hconcerns
  rw [hgathered] at hmem
  rw [selects_iff]
  refine exists_congr fun chosen => ?_
  rw [Criteria.admitsWith_iff_withoutField hmem, hfield, Criteria.withoutField_ofRequest_append hadded]
  · rw [hfield]
    rintro s hs rfl
    rw [← hgathered]
    exact Criteria.eq_gathered_of_mem_fields hs hconcerns
  · rw [hfield]
    intro r hr hf
    obtain ⟨name, ⟨intent, hi, hn⟩, rfl⟩ := Criteria.mem_ranges_ofRequest.mp hr
    have hname : name = field := (view.rangeSteps.key_gathered name _).symm.trans hf
    subst hname
    rw [intents_append] at hi
    rcases List.mem_append.mp hi with hi | hi
    · exact hrequest intent hi (Intent.field?_eq_some_iff.mpr (.inr hn))
    · have hterm := hadded intent hi
      cases intent with
      | range _ _ _ => cases hterm
      | _ => cases hn

/-! ## A value, or none -/

/-- The rest of the request, with the instance that meets it at each path. -/
def AdmitsBeside (view : FieldView) (types : List String) (principals : Principals) (rawSuffix : String)
    (request : Request) (field : String) (document : Json) (chosen : String → Json) : Prop :=
  ((Criteria.ofRequest view request).withoutField field).AdmitsWith view.settings rawSuffix types principals document
    chosen

section

variable (hvalue : view.intent ⟨field, v⟩ = .term field v false) (hopen : ¬ view.FiltersOn request field)
include hvalue hopen

end

end FieldView

end FacetedSearch
