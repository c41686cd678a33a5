import FacetedSearch.Proofs.Demands

/-!
# Comparing filters

A filter rejects what another rejects if each criterion of the other is implied by one of its own at the same place:
on the whole document, or on the instance chosen at the path.
-/

namespace FacetedSearch

/-! ## Places -/

/-- The whole document, or the instance chosen at a path. -/
def Json.scopeAt (document : Json) (chosen : String → Json) : Option String → Scope
  | none => document.scope
  | some path => document.scope.enter path (chosen path)

/-- The whole document, or any instance at a path. -/
inductive Json.IsPlace (document : Json) : Option String → Scope → Prop
  | whole : IsPlace document none document.scope
  | inside {path object} : document.scope.HasInstance path object →
      IsPlace document (some path) (document.scope.enter path object)

namespace TermCriterion

/-- The path of the instance that the criterion is about. -/
def place (t : TermCriterion) : Option String := if t.isBelowPath then t.nestedPath else none

variable {t : TermCriterion}

theorem place_congr {s : TermCriterion} (hv : s.valueField = t.valueField) (hp : s.nestedPath = t.nestedPath) :
    s.place = t.place := by
  have hb : s.isBelowPath = t.isBelowPath := by rw [isBelowPath, isBelowPath, isPathIdentity, isPathIdentity, hv, hp]
  rw [place, place, hb, hp]

theorem place_eq_none_iff : t.place = none ↔ t.isBelowPath = false := by
  rw [place]
  cases hb : t.isBelowPath with
  | true =>
      obtain ⟨path, hpath⟩ := exists_nestedPath hb
      simp [hpath]
  | false => simp

theorem place_eq_some_iff {path : String} :
    t.place = some path ↔ t.isBelowPath = true ∧ t.nestedPath = some path := by
  rw [place]
  split <;> simp_all

theorem admits_of_not_asks {rawSuffix : String} {scope : Scope} (h : ¬ t.AsksOfInstance) :
    t.Admits rawSuffix scope := by
  simp only [AsksOfInstance, not_or, ne_eq, Decidable.not_not] at h
  obtain ⟨hw, hu, hv⟩ := h
  refine ⟨⟨fun hne => absurd hw hne, fun _ hp => absurd hp hv⟩, ?_⟩
  rw [hu]
  exact not_hasOneOf_nil

end TermCriterion

namespace Criteria

/-- The demands of criteria, with the instance that meets those at each path. -/
structure AdmitsWith (c : Criteria) (settings : Settings) (rawSuffix : String) (types : List String)
    (principals : Principals) (document : Json) (chosen : String → Json) : Prop where
  docType : document.scope.HasAnyOf (documentField rawSuffix settings.typeQueryField) (c.typesOr types)
  notDocType : ¬ document.scope.HasAnyOf (documentField rawSuffix settings.typeQueryField) c.typeNotTerms
  granted : document.Grants rawSuffix settings.permissionField principals
  instances : ∀ path, c.AsksAt path → document.scope.HasInstance path (chosen path)
  terms : ∀ t ∈ c.fields, t.Admits rawSuffix (document.scopeAt chosen t.place)
  ranges : ∀ r ∈ c.ranges, r.Admits rawSuffix settings.zeroEpsilon (document.scopeAt chosen r.nestedPath)
  absences : ∀ t ∈ c.fields, t.WantsAbsence → ∀ scope, document.IsPlace t.place scope → ¬ t.HasValue rawSuffix scope

variable {c : Criteria} {settings : Settings} {rawSuffix : String} {types : List String} {principals : Principals}
  {document : Json}

theorem Admits.exists_chosen (h : c.Admits settings rawSuffix types principals document) :
    ∃ chosen, c.AdmitsWith settings rawSuffix types principals document chosen := by
  have hchoice : ∀ path, ∃ object, c.AsksAt path → document.scope.HasInstance path object ∧
      c.AdmitsAt settings rawSuffix path (document.scope.enter path object) := by
    intro path
    by_cases ha : c.AsksAt path
    · obtain ⟨object, ho⟩ := h.instances path ha
      exact ⟨object, fun _ => ho⟩
    · exact ⟨document, fun ha' => absurd ha' ha⟩
  obtain ⟨chosen, hc⟩ := Classical.skolem.mp hchoice
  refine ⟨chosen, h.docType, h.notDocType, h.granted, fun path ha => (hc path ha).1, ?_, ?_, ?_⟩
  · intro t ht
    cases hp : t.place with
    | none => exact (h.flatTerms t ht (TermCriterion.place_eq_none_iff.mp hp)).1
    | some path =>
        obtain ⟨hb, hpath⟩ := TermCriterion.place_eq_some_iff.mp hp
        by_cases ha : t.AsksOfInstance
        · exact (hc path (.inl ⟨t, ht, hb, hpath, ha⟩)).2.terms t ht hb hpath
        · exact TermCriterion.admits_of_not_asks ha
  · intro r hr
    cases hp : r.nestedPath with
    | none => exact h.flatRanges r hr hp
    | some path => exact (hc path (.inr ⟨r, hr, hp⟩)).2.ranges r hr hp
  · intro t ht hw scope hs
    cases hp : t.place with
    | none =>
        rw [hp] at hs
        cases hs with
        | whole => exact (h.flatTerms t ht (TermCriterion.place_eq_none_iff.mp hp)).2 hw
    | some path =>
        rw [hp] at hs
        obtain ⟨hb, hpath⟩ := TermCriterion.place_eq_some_iff.mp hp
        cases hs with
        | inside hi => exact h.absences t ht hb hw path hpath _ hi

theorem AdmitsWith.admits {chosen : String → Json}
    (h : c.AdmitsWith settings rawSuffix types principals document chosen) :
    c.Admits settings rawSuffix types principals document := by
  refine ⟨h.docType, h.notDocType, h.granted, ?_, ?_, ?_, ?_⟩
  · intro t ht hb
    have hp := TermCriterion.place_eq_none_iff.mpr hb
    have hterm := h.terms t ht
    have habsent := fun hw => h.absences t ht hw document.scope
    rw [hp] at hterm habsent
    exact ⟨hterm, fun hw => habsent hw .whole⟩
  · intro r hr hp
    have hrange := h.ranges r hr
    rwa [hp] at hrange
  · intro path ha
    refine ⟨chosen path, h.instances path ha, ?_, ?_⟩
    · intro t ht hb hpath
      have hterm := h.terms t ht
      rwa [TermCriterion.place_eq_some_iff.mpr ⟨hb, hpath⟩] at hterm
    · intro r hr hp
      have hrange := h.ranges r hr
      rwa [hp] at hrange
  · intro t ht hb hw path hpath object hi
    refine h.absences t ht hw _ ?_
    rw [TermCriterion.place_eq_some_iff.mpr ⟨hb, hpath⟩]
    exact .inside hi

end Criteria

/-! ## Implication -/

/-- In scope, the one criterion asks for all that the other asks for. -/
structure TermCriterion.Implies (s t : TermCriterion) (rawSuffix : String) (scope : Scope) : Prop where
  admits : s.Admits rawSuffix scope → t.Admits rawSuffix scope
  asks : t.AsksOfInstance → s.AsksOfInstance
  wantsAbsence : t.WantsAbsence → s.WantsAbsence
  valueField_eq : s.valueField = t.valueField
  nestedPath_eq : s.nestedPath = t.nestedPath

theorem TermCriterion.Implies.refl (t : TermCriterion) (rawSuffix : String) (scope : Scope) :
    t.Implies t rawSuffix scope :=
  ⟨id, id, id, rfl, rfl⟩

theorem TermCriterion.Implies.place_eq {s t : TermCriterion} {rawSuffix : String} {scope : Scope}
    (h : s.Implies t rawSuffix scope) : s.place = t.place :=
  place_congr h.valueField_eq h.nestedPath_eq

namespace TermCriterion

/-- Some of the wanted values, all of the unwanted ones and the same wish about presence. -/
structure Narrows (s t : TermCriterion) : Prop where
  queryField_eq : s.queryField = t.queryField
  valueField_eq : s.valueField = t.valueField
  nestedPath_eq : s.nestedPath = t.nestedPath
  wanted_subset : s.wanted ⊆ t.wanted
  wanted_eq_nil_iff : s.wanted = [] ↔ t.wanted = []
  subset_unwanted : t.unwanted ⊆ s.unwanted
  noValue_eq : s.noValue = t.noValue

theorem Narrows.hasValue_iff {s t : TermCriterion} (h : s.Narrows t) {rawSuffix : String} {scope : Scope} :
    s.HasValue rawSuffix scope ↔ t.HasValue rawSuffix scope := by
  rw [HasValue, HasValue, h.valueField_eq]

theorem Narrows.hasOneOf_iff {s t : TermCriterion} (h : s.Narrows t) {rawSuffix : String} {scope : Scope}
    {values : List String} : s.HasOneOf rawSuffix scope values ↔ t.HasOneOf rawSuffix scope values := by
  rw [HasOneOf, HasOneOf, h.queryField_eq]

theorem Narrows.implies {s t : TermCriterion} (h : s.Narrows t) (rawSuffix : String) (scope : Scope) :
    s.Implies t rawSuffix scope := by
  refine ⟨?_, ?_, ?_, h.valueField_eq, h.nestedPath_eq⟩
  · rintro ⟨⟨hsome, hnone⟩, hunwanted⟩
    rw [Ne, h.wanted_eq_nil_iff, h.noValue_eq, h.hasValue_iff, h.hasOneOf_iff] at hsome
    rw [h.wanted_eq_nil_iff, h.noValue_eq, h.hasValue_iff] at hnone
    rw [h.hasOneOf_iff] at hunwanted
    refine ⟨⟨fun hne => (hsome hne).imp_left fun hw => hw.mono h.wanted_subset, hnone⟩, ?_⟩
    exact fun hu => hunwanted (hu.mono h.subset_unwanted)
  · rintro (hw | hu | hv)
    · exact .inl (mt h.wanted_eq_nil_iff.mp hw)
    · exact .inr (.inl fun he => hu (List.subset_nil.mp (he ▸ h.subset_unwanted)))
    · exact .inr (.inr (h.noValue_eq.trans hv))
  · rintro ⟨hw, hv⟩
    exact ⟨h.wanted_eq_nil_iff.mpr hw, h.noValue_eq.trans hv⟩

theorem Narrows.implied {s t : TermCriterion} {rawSuffix : String} {scope : Scope} (h : s.Narrows t)
    (hne : s.wanted ≠ []) (ha : s.Admits rawSuffix scope) : t.Implies s rawSuffix scope := by
  refine ⟨fun _ => ha, fun _ => .inl (mt h.wanted_eq_nil_iff.mpr hne), ?_, h.valueField_eq.symm, h.nestedPath_eq.symm⟩
  exact fun hw => absurd hw.1 hne

/-- Of criteria that share out the wanted values of another, one admits what the other admits. -/
theorem exists_admits {t : TermCriterion} {part : String → TermCriterion} {values : List String} {rawSuffix : String}
    {scope : Scope} (hne : values ≠ []) (hnarrows : ∀ v ∈ values, (part v).Narrows t)
    (hwanted : ∀ w ∈ t.wanted, ∃ v ∈ values, w ∈ (part v).wanted)
    (hunwanted : ∀ v ∈ values, (part v).unwanted ⊆ t.unwanted) (h : t.Admits rawSuffix scope) :
    ∃ v ∈ values, (part v).Admits rawSuffix scope := by
  have hshare : ∃ v ∈ values,
      t.HasOneOf rawSuffix scope t.wanted → (part v).HasOneOf rawSuffix scope (part v).wanted := by
    by_cases ho : t.HasOneOf rawSuffix scope t.wanted
    · obtain ⟨leaf, w, hl, ht, hw⟩ := ho
      obtain ⟨v, hv, hw⟩ := hwanted w hw
      exact ⟨v, hv, fun _ => (hnarrows v hv).hasOneOf_iff.mpr ⟨leaf, w, hl, ht, hw⟩⟩
    · obtain ⟨v, hv⟩ := List.exists_mem_of_ne_nil values hne
      exact ⟨v, hv, fun ho' => absurd ho' ho⟩
  obtain ⟨v, hv, hone⟩ := hshare
  have hn := hnarrows v hv
  refine ⟨v, hv, ⟨?_, ?_⟩, fun hu => h.noneUnwanted ?_⟩
  · rw [Ne, hn.wanted_eq_nil_iff, hn.noValue_eq, hn.hasValue_iff]
    exact fun hw => (h.wanted.1 hw).imp_left hone
  · rw [hn.wanted_eq_nil_iff, hn.noValue_eq, hn.hasValue_iff]
    exact h.wanted.2
  · exact (hn.hasOneOf_iff.mp hu).mono (hunwanted v hv)

end TermCriterion

namespace Criteria

structure Implies (c d : Criteria) (rawSuffix : String) (document : Json) (chosen : String → Json) : Prop where
  typeTerms : ∀ type, type ∈ c.typeTerms ↔ type ∈ d.typeTerms
  typeNotTerms : ∀ type, type ∈ d.typeNotTerms → type ∈ c.typeNotTerms
  terms : ∀ t ∈ d.fields, ∃ s ∈ c.fields, s.Implies t rawSuffix (document.scopeAt chosen t.place)
  ranges : ∀ r ∈ d.ranges, r ∈ c.ranges

variable {c d : Criteria} {settings : Settings} {rawSuffix : String} {types : List String} {principals : Principals}
  {document : Json} {chosen : String → Json}

theorem Implies.asksAt (h : c.Implies d rawSuffix document chosen) {path : String} (ha : d.AsksAt path) :
    c.AsksAt path := by
  rcases ha with ⟨t, ht, hb, hpath, ha⟩ | ⟨r, hr, hpath⟩
  · obtain ⟨s, hs, hi⟩ := h.terms t ht
    have hp := hi.place_eq.trans (TermCriterion.place_eq_some_iff.mpr ⟨hb, hpath⟩)
    obtain ⟨hb', hpath'⟩ := TermCriterion.place_eq_some_iff.mp hp
    exact .inl ⟨s, hs, hb', hpath', hi.asks ha⟩
  · exact .inr ⟨r, h.ranges r hr, hpath⟩

theorem Implies.mem_typesOr (h : c.Implies d rawSuffix document chosen) {type : String}
    (hm : type ∈ c.typesOr types) : type ∈ d.typesOr types := by
  have he : c.typeTerms.isEmpty = d.typeTerms.isEmpty := by
    rw [Bool.eq_iff_iff, List.isEmpty_iff, List.isEmpty_iff, List.eq_nil_iff_forall_not_mem,
      List.eq_nil_iff_forall_not_mem]
    simp only [h.typeTerms]
  rw [typesOr] at hm ⊢
  rw [he] at hm
  split at hm
  · rename_i hd
    rwa [if_pos hd]
  · rename_i hd
    rw [if_neg hd]
    exact (h.typeTerms type).mp hm

theorem AdmitsWith.of_implies (hc : c.AdmitsWith settings rawSuffix types principals document chosen)
    (h : c.Implies d rawSuffix document chosen) :
    d.AdmitsWith settings rawSuffix types principals document chosen := by
  refine ⟨?_, ?_, hc.granted, fun path ha => hc.instances path (h.asksAt ha), ?_, ?_, ?_⟩
  · exact hc.docType.mono fun type hm => h.mem_typesOr hm
  · exact fun hd => hc.notDocType (hd.mono h.typeNotTerms)
  · intro t ht
    obtain ⟨s, hs, hi⟩ := h.terms t ht
    have hadmits := hc.terms s hs
    rw [hi.place_eq] at hadmits
    exact hi.admits hadmits
  · exact fun r hr => hc.ranges r (h.ranges r hr)
  · intro t ht hw scope hp hv
    obtain ⟨s, hs, hi⟩ := h.terms t ht
    refine hc.absences s hs (hi.wantsAbsence hw) scope (hi.place_eq ▸ hp) ?_
    rw [TermCriterion.HasValue, hi.valueField_eq]
    exact hv

end Criteria

end FacetedSearch
