import FacetedSearch.Proofs.Clauses
import FacetedSearch.Proofs.Naming
import FacetedSearch.Proofs.Stripping

/-!
# Leaving one field out of an assembled filter

Taking the clauses on a field out of an assembled filter comes to assembling the filter without the criteria on the
field. The wrappers may come in another order, so the two filters are compared clause by clause.
-/

namespace FacetedSearch

section

variable {α β : Type} {items : List α} {keep : α → Bool} {p : β → Bool}

theorem filter_flatMap_of_keep {f : α → List β} (h : ∀ x ∈ items, ∀ y ∈ f x, p y = keep x) :
    (items.flatMap f).filter p = (items.filter keep).flatMap f := by
  induction items with
  | nil => rfl
  | cons x rest ih =>
      have hr := ih fun y hy => h y (List.mem_cons_of_mem x hy)
      have hx := h x List.mem_cons_self
      rw [List.flatMap_cons, List.filter_append, hr, List.filter_cons]
      split
      · rename_i hk
        rw [List.flatMap_cons, List.filter_eq_self.mpr fun y hy => (hx y hy).trans hk]
      · rename_i hk
        rw [List.filter_eq_nil_iff.mpr fun y hy => by rwa [hx y hy], List.nil_append]

theorem filter_filterMap_of_keep {f : α → Option β} (h : ∀ x ∈ items, ∀ y, f x = some y → p y = keep x) :
    (items.filterMap f).filter p = (items.filter keep).filterMap f := by
  simp only [List.filterMap_eq_flatMap_toList]
  exact filter_flatMap_of_keep fun x hx y hy => h x hx y (Option.mem_toList.mp hy)

end

/-- Some field is in the query, and every field in it leads back to the name. -/
def Query.IsAbout (settings : Settings) (name : String) (q : Query) : Prop :=
  q.fields ≠ [] ∧ ∀ f ∈ q.fields, settings.baseField f = name

namespace Query

variable {settings : Settings} {name : String}

theorem isAbout_leaf {q : Query} {f : String} (hq : q.fields = [f]) (hf : settings.baseField f = name) :
    q.IsAbout settings name := by
  rw [IsAbout, hq]
  simpa using hf

theorem isAbout_bool {must mustNot should : List Query} (hne : must ++ mustNot ++ should ≠ [])
    (h : ∀ q ∈ must ++ mustNot ++ should, q.IsAbout settings name) :
    (Query.bool must mustNot should).IsAbout settings name := by
  have hf : (Query.bool must mustNot should).fields = (must ++ mustNot ++ should).flatMap fields := by
    simp only [fields, fieldsOf_eq_flatMap, List.flatMap_append]
  obtain ⟨q, hq⟩ := List.exists_mem_of_ne_nil _ hne
  rw [IsAbout, hf]
  constructor
  · intro hnil
    exact (h q hq).1 (List.flatMap_eq_nil_iff.mp hnil q hq)
  · intro f hm
    obtain ⟨p, hp, hfp⟩ := List.mem_flatMap.mp hm
    exact (h p hp).2 f hfp

theorem BuiltFrom.isAbout {leaf : Query → Prop} {q : Query} (h : q.BuiltFrom leaf)
    (hleaf : ∀ q, leaf q → q.IsAbout settings name) : q.IsAbout settings name := by
  induction h with
  | leaf hq => exact hleaf _ hq
  | missing hf => exact isAbout_bool (by simp) (by simpa using hleaf _ hf)
  | alternatives hne _ ih => exact isAbout_bool (by simpa using hne) (by simpa using ih)

end Query

/-- The query of a wrapper, unless nothing is left in it. -/
def Wrapper.query? (w : Wrapper) : Option Query :=
  if w.must = [] ∧ w.mustNot = [] then none else some w.toQuery

theorem Wrapper.query?_gathered_eq_some_iff {path : String} {conditions : List NestedCondition} {q : Query} :
    (gathered path conditions).query? = some q ↔
      (∃ c ∈ conditions, c.isAbsence = false ∧ c.path = path) ∧ (gathered path conditions).toQuery = q := by
  have he : (∃ c ∈ conditions, c.isAbsence = false ∧ c.path = path) ↔ gathered path conditions ≠ { path } := by
    rw [Ne, gathered_eq_empty_iff, Classical.not_not]
  rw [he, query?]
  simp [gathered]

namespace LeaveOneOut

variable {settings : Settings} {field name : String}

theorem isOnlyAbout_eq {q : Query} (h : q.IsAbout settings name) :
    isOnlyAbout settings field q = decide (name = field) := by
  rw [isOnlyAbout, Bool.eq_iff_iff]
  simp only [Bool.and_eq_true, Bool.not_eq_true', List.isEmpty_eq_false_iff, List.all_eq_true, beq_iff_eq,
    decide_eq_true_eq]
  constructor
  · rintro ⟨-, hf⟩
    obtain ⟨f, hm⟩ := List.exists_mem_of_ne_nil _ h.1
    exact (h.2 f hm).symm.trans (hf f hm)
  · rintro rfl
    exact h

theorem without_filterMap {α : Type} {items : List α} {clause : α → Option Query} {keep : α → Bool}
    (h : ∀ x ∈ items, ∀ q, clause x = some q → isOnlyAbout settings field q = !keep x) :
    without settings field (items.filterMap clause) = (items.filter keep).filterMap clause :=
  filter_filterMap_of_keep fun x hx q hq => by rw [h x hx q hq, Bool.not_not]

theorem strip_eq {q : Query} (h : q.IsAbout settings name) (hn : ∀ path inner, q ≠ .nested path inner)
    (hp : name = field → isProtected settings q = false) :
    strip settings field q = .ok (if name = field then none else some q) := by
  cases hq : isProtected settings q with
  | true =>
      rw [strip_of_isProtected hq, if_neg fun he => by simp [hp he] at hq]
  | false =>
      unfold strip
      rw [if_neg (by simp [hq])]
      cases q with
      | nested path inner => exact absurd rfl (hn path inner)
      | _ => simp [isOnlyAbout_eq h]

theorem strip_builtFrom {leaf : Query → Prop} {q : Query} (h : q.BuiltFrom leaf)
    (habout : ∀ q, leaf q → q.IsAbout settings name) (hnested : ∀ path inner, ¬ leaf (.nested path inner))
    (hopen : name = field → ∀ q, leaf q → isProtected settings q = false) :
    strip settings field q = .ok (if name = field then none else some q) := by
  apply strip_eq (h.isAbout habout) (h.ne_nested hnested)
  · intro he
    rcases h.leaf_or_bool with hl | ⟨_, _, _, rfl⟩
    · exact hopen he q hl
    · rfl

theorem strip_nested {path : String} {must mustNot : List Query} :
    strip settings field (.nested path (.bool must mustNot [])) =
      .ok (Wrapper.query? ⟨path, without settings field must, without settings field mustNot⟩) := by
  have hs : without settings field [] = [] := rfl
  rw [strip, if_neg (by simp [isProtected])]
  cases hm : without settings field must <;> cases hn : without settings field mustNot <;>
    simp [hs, Wrapper.query?, Wrapper.toQuery]

/-! ## Lists of clauses -/

/-- Stripping succeeds on the clauses, and those that stay are the rest. -/
structure Leaves (settings : Settings) (field : String) (clauses rest : List Query) : Prop where
  succeeds : ∀ q ∈ clauses, ∃ left, strip settings field q = .ok left
  mem_iff : ∀ q', q' ∈ rest ↔ ∃ q ∈ clauses, strip settings field q = .ok (some q')

theorem Leaves.append {a b a' b' : List Query} (ha : Leaves settings field a a') (hb : Leaves settings field b b') :
    Leaves settings field (a ++ b) (a' ++ b') where
  succeeds := List.forall_mem_append.mpr ⟨ha.succeeds, hb.succeeds⟩
  mem_iff q' := by simp only [List.mem_append, ha.mem_iff, hb.mem_iff, or_and_right, exists_or]

theorem leaves_of_isProtected {clauses : List Query} (h : ∀ q ∈ clauses, isProtected settings q = true) :
    Leaves settings field clauses clauses := by
  refine ⟨fun q hq => ⟨_, strip_of_isProtected (h q hq)⟩, fun q' => ?_⟩
  constructor
  · intro hq
    exact ⟨q', hq, strip_of_isProtected (h q' hq)⟩
  · rintro ⟨q, hq, hs⟩
    rw [strip_of_isProtected (h q hq), Except.ok.injEq, Option.some.injEq] at hs
    exact hs ▸ hq

theorem leaves_filterMap {α : Type} {items : List α} {clause : α → Option Query} {keep : α → Bool}
    (h : ∀ x ∈ items, ∀ q, clause x = some q → strip settings field q = .ok (if keep x then some q else none)) :
    Leaves settings field (items.filterMap clause) ((items.filter keep).filterMap clause) := by
  constructor
  · intro q hq
    obtain ⟨x, hx, hc⟩ := List.mem_filterMap.mp hq
    exact ⟨_, h x hx q hc⟩
  · intro q'
    simp only [List.mem_filterMap, List.mem_filter]
    constructor
    · rintro ⟨x, ⟨hx, hk⟩, hc⟩
      exact ⟨q', ⟨x, hx, hc⟩, by rw [h x hx q' hc, if_pos hk]⟩
    · rintro ⟨q, ⟨x, hx, hc⟩, hs⟩
      rw [h x hx q hc, Except.ok.injEq] at hs
      split at hs
      · rename_i hk
        exact ⟨x, ⟨hx, hk⟩, hc.trans hs⟩
      · cases hs

/-- A filter whose clauses leave the rest accepts what the rest accepts. -/
theorem filterFor_bool {must mustNot must' mustNot' : List Query} (hm : Leaves settings field must must')
    (hn : Leaves settings field mustNot mustNot') :
    ∃ own, filterFor settings (.bool must mustNot []) field = .ok own ∧ ∀ rawSuffix document,
      own.accepts rawSuffix document = (Query.bool must' mustNot' []).accepts rawSuffix document := by
  obtain ⟨kept, hk⟩ := exists_stripAll hm.succeeds
  obtain ⟨keptNot, hkn⟩ := exists_stripAll hn.succeeds
  refine ⟨.bool kept keptNot [], filterFor_eq_ok_iff.mpr ⟨_, _, _, _, _, rfl, hk, hkn, rfl⟩, fun _ _ => ?_⟩
  exact Query.holds_bool_congr (fun q => (mem_kept_iff hk).trans (hm.mem_iff q).symm)
    fun q => (mem_kept_iff hkn).trans (hn.mem_iff q).symm

end LeaveOneOut

/-! ## Leading back -/

/-- The index names of the criterion lead back to its field. -/
structure TermCriterion.LeadsBack (settings : Settings) (t : TermCriterion) : Prop where
  queryField_eq : t.queryField = settings.termField t.field
  baseField_valueField : settings.baseField t.valueField = t.field

theorem TermCriterion.LeadsBack.isAbout_leaf {settings : Settings} {t : TermCriterion} (h : t.LeadsBack settings)
    (q : Query) (hq : t.Leaf q) : q.IsAbout settings t.field := by
  have hf : settings.baseField t.queryField = t.field := by rw [h.queryField_eq, settings.baseField_termField]
  cases hq with
  | terms values => exact Query.isAbout_leaf rfl hf
  | matching value => exact Query.isAbout_leaf rfl hf
  | present => exact Query.isAbout_leaf rfl h.baseField_valueField

def RangeCriterion.LeadsBack (settings : Settings) (r : RangeCriterion) : Prop :=
  settings.baseField r.queryField = r.field

theorem RangeCriterion.LeadsBack.isAbout_leaf {settings : Settings} {r : RangeCriterion} (h : r.LeadsBack settings)
    (q : Query) (hq : r.Leaf q) : q.IsAbout settings r.field := by
  cases hq with
  | range => exact Query.isAbout_leaf rfl h
  | present => exact Query.isAbout_leaf rfl h

/-! ## Grouped conditions -/

/-- The condition is on another field. -/
def NestedCondition.isElsewhere (settings : Settings) (field : String) (c : NestedCondition) : Bool :=
  settings.baseField c.field ≠ field

/-- The condition is about the name that its field leads back to. -/
def NestedCondition.IsAbout (settings : Settings) (c : NestedCondition) : Prop :=
  c.BuiltFrom (·.IsAbout settings (settings.baseField c.field))

namespace LeaveOneOut

open NestedCondition

variable {settings : Settings} {field : String} {conditions : List NestedCondition}

theorem isOnlyAbout_eq_not_isElsewhere (field : String) {c : NestedCondition} {q : Query}
    (h : q.BuiltFrom (·.IsAbout settings (settings.baseField c.field))) :
    isOnlyAbout settings field q = !c.isElsewhere settings field := by
  rw [isOnlyAbout_eq (h.isAbout fun _ hq => hq), isElsewhere]
  simp

theorem strip_gathered (h : ∀ c ∈ conditions, c.IsAbout settings) (path : String) :
    strip settings field (Wrapper.gathered path conditions).toQuery =
      .ok (Wrapper.gathered path (conditions.filter (isElsewhere settings field))).query? := by
  have hmem : ∀ c ∈ onPath path conditions, c.IsAbout settings :=
    fun c hc => h c (List.mem_of_mem_filter hc)
  rw [Wrapper.toQuery, strip_nested]
  congr 2
  simp only [Wrapper.gathered, onPath_filter, Wrapper.mk.injEq, true_and]
  constructor
  · exact without_filterMap fun c hc q hq => isOnlyAbout_eq_not_isElsewhere field ((hmem c hc).mustClause hq)
  · exact without_filterMap fun c hc q hq => isOnlyAbout_eq_not_isElsewhere field ((hmem c hc).mustNotClause hq)

theorem leaves_group_must (h : ∀ c ∈ conditions, c.IsAbout settings) :
    Leaves settings field (group conditions).must
      (group (conditions.filter (isElsewhere settings field))).must := by
  have hall : ∀ c ∈ byRole conditions, c.IsAbout settings :=
    fun c hc => h c (mem_byRole.mp hc)
  have hstrip : ∀ w ∈ (group conditions).wrappers, strip settings field w.toQuery =
      .ok (Wrapper.gathered w.path (byRole (conditions.filter (isElsewhere settings field)))).query? := by
    intro w hw
    rw [(mem_wrappers_group.mp hw).1, byRole_filter]
    exact strip_gathered hall w.path
  constructor
  · intro q hq
    obtain ⟨w, hw, rfl⟩ := List.mem_map.mp hq
    exact ⟨_, hstrip w hw⟩
  · intro q'
    simp only [NestedClauses.must, List.mem_map, exists_exists_and_eq_and]
    -- Without its first condition a path may come later, so only membership can be compared.
    constructor
    · rintro ⟨w, hw, rfl⟩
      obtain ⟨he, c, hc, ha, hp⟩ := mem_wrappers_group.mp hw
      have hin : Wrapper.gathered w.path (byRole conditions) ∈ (group conditions).wrappers :=
        mem_wrappers_group.mpr ⟨rfl, c, List.mem_of_mem_filter hc, ha, hp⟩
      refine ⟨_, hin, ?_⟩
      rw [hstrip _ hin, Except.ok.injEq]
      exact Wrapper.query?_gathered_eq_some_iff.mpr ⟨⟨c, mem_byRole.mpr hc, ha, hp⟩, congrArg Wrapper.toQuery he.symm⟩
    · rintro ⟨w, hw, hs⟩
      rw [hstrip w hw, Except.ok.injEq, Wrapper.query?_gathered_eq_some_iff] at hs
      obtain ⟨hc, hq⟩ := hs
      simp only [mem_byRole] at hc
      have hin : Wrapper.gathered w.path (byRole (conditions.filter (isElsewhere settings field))) ∈
          (group (conditions.filter (isElsewhere settings field))).wrappers := mem_wrappers_group.mpr ⟨rfl, hc⟩
      exact ⟨_, hin, hq⟩

theorem strip_absence {c : NestedCondition} (h : c.IsAbout settings) {q : Query}
    (hq : c.absence? = some q) :
    strip settings field q = .ok (if c.isElsewhere settings field then some q else none) := by
  have ho := isOnlyAbout_eq_not_isElsewhere field h.query
  obtain ⟨-, rfl⟩ := absence?_eq_some_iff.mp hq
  rw [Query.allOf, strip_nested]
  cases he : c.isElsewhere settings field <;> simp [without, Wrapper.query?, Wrapper.toQuery, ho, he]

theorem leaves_group_mustNot (h : ∀ c ∈ conditions, c.IsAbout settings) :
    Leaves settings field (group conditions).mustNot
      (group (conditions.filter (isElsewhere settings field))).mustNot := by
  simp only [NestedClauses.mustNot, (group_gathers _).absences_eq, byRole_filter]
  exact leaves_filterMap fun c hc q hq => strip_absence (h c (mem_byRole.mp hc)) hq

end LeaveOneOut

/-! ## Criteria on the other fields -/

namespace Criteria

/-- The criteria without the ones on a field. -/
def withoutField (c : Criteria) (field : String) : Criteria :=
  { c with fields := c.fields.filter (·.field ≠ field), ranges := c.ranges.filter (·.field ≠ field) }

/-- The names of the filtered fields. -/
def names (c : Criteria) : List String := c.fields.map (·.field) ++ c.ranges.map (·.field)

structure LeadBack (settings : Settings) (c : Criteria) : Prop where
  fields : ∀ t ∈ c.fields, t.LeadsBack settings
  ranges : ∀ r ∈ c.ranges, r.LeadsBack settings

theorem leadBack_ofRequest {view : FieldView} {request : Request}
    (h : view.settings.rawSuffix ≠ "" →
      ∀ name ∈ (ofRequest view request).names, ¬ ∃ stem, name = stem ++ view.settings.rawSuffix) :
    (ofRequest view request).LeadBack view.settings := by
  constructor
  · intro t ht
    have hn := named_of_mem_fields t ht
    refine ⟨hn.queryField_eq, ?_⟩
    rw [hn.valueField_eq]
    exact view.settings.baseField_valueField fun hs =>
      h hs t.field (List.mem_append_left _ (List.mem_map_of_mem ht))
  · intro r hr
    rw [RangeCriterion.LeadsBack, (named_of_mem_ranges r hr).queryField_eq]
    exact view.settings.baseField_valueField fun hs =>
      h hs r.field (List.mem_append_right _ (List.mem_map_of_mem hr))

variable {settings : Settings} {c : Criteria} {field : String}

theorem LeadBack.isAbout_condition (h : c.LeadBack settings) {epsilon : Float} {d : NestedCondition}
    (hd : d ∈ c.nestedConditions epsilon) : d.IsAbout settings := by
  rcases mem_nestedConditions.mp hd with ⟨t, ht, -, hdt⟩ | ⟨r, hr, path, -, rfl⟩
  · have ha := (TermCriterion.builtFrom_condition hdt).mono (h.fields t ht).isAbout_leaf
    rwa [NestedCondition.IsAbout, ha.present.2 d.field (by simp [Query.fields])]
  · have hf : settings.baseField r.queryField = r.field := h.ranges r hr
    have ha := (r.builtFrom_toQuery epsilon).mono (h.ranges r hr).isAbout_leaf
    rw [NestedCondition.IsAbout, hf]
    exact ⟨ha, (h.ranges r hr).isAbout_leaf _ .present⟩

theorem LeadBack.nestedConditions_withoutField (h : c.LeadBack settings) (epsilon : Float) :
    (c.withoutField field).nestedConditions epsilon =
      (c.nestedConditions epsilon).filter (NestedCondition.isElsewhere settings field) := by
  have hterms : ∀ t ∈ c.fields.filter TermCriterion.isBelowPath, ∀ d ∈ t.nestedConditions,
      d.isElsewhere settings field = decide (t.field ≠ field) := by
    intro t ht d hd
    have hb := h.fields t (List.mem_of_mem_filter ht)
    have ha := (TermCriterion.builtFrom_condition hd).mono hb.isAbout_leaf
    rw [NestedCondition.isElsewhere, ha.present.2 d.field (by simp [Query.fields])]
  have hranges : ∀ r ∈ c.ranges, ∀ d, r.nestedCondition? epsilon = some d →
      d.isElsewhere settings field = decide (r.field ≠ field) := by
    intro r hr d hd
    obtain ⟨path, -, rfl⟩ := Option.map_eq_some_iff.mp hd
    have hf : settings.baseField r.queryField = r.field := h.ranges r hr
    rw [NestedCondition.isElsewhere, hf]
  rw [nestedConditions, nestedConditions, List.filter_append, filter_flatMap_of_keep hterms,
    filter_filterMap_of_keep hranges]
  simp only [withoutField, List.filter_filter, Bool.and_comm]

/-! ## The filter without the clauses on a field -/

open LeaveOneOut

theorem isProtected_terms_eq_false (ht : field ≠ settings.typeField)
    (hp : settings.termField field ≠ settings.permissionField) (values : List String) :
    isProtected settings (.terms (settings.termField field) values) = false := by
  simp [isProtected, hp, Settings.typeQueryField, settings.termField_inj, ht]

theorem LeadBack.strip_flat (h : c.LeadBack settings) (ht : field ≠ settings.typeField)
    (hp : settings.termField field ≠ settings.permissionField) {t : TermCriterion} (hm : t ∈ c.fields) {q : Query}
    (hq : t.flatClauses.must = some q ∨ t.flatClauses.mustNot = some q) :
    strip settings field q = .ok (if t.field = field then none else some q) := by
  have hb := h.fields t hm
  apply strip_builtFrom (TermCriterion.builtFrom_flat hq) hb.isAbout_leaf
  · intro path inner hl
    cases hl
  · rintro rfl q hl
    cases hl with
    | terms values =>
        rw [hb.queryField_eq]
        exact isProtected_terms_eq_false ht hp values
    | matching value => rfl
    | present => rfl

theorem LeadBack.leaves_flat (h : c.LeadBack settings) (ht : field ≠ settings.typeField)
    (hp : settings.termField field ≠ settings.permissionField) {clause : FlatClauses → Option Query}
    (hclause : ∀ f q, clause f = some q → f.must = some q ∨ f.mustNot = some q) :
    Leaves settings field (c.flatClauses.filterMap clause)
      ((c.withoutField field).flatClauses.filterMap clause) := by
  have hs : ∀ t ∈ c.fields.filter (!·.isBelowPath), ∀ q, clause t.flatClauses = some q →
      strip settings field q = .ok (if decide (t.field ≠ field) then some q else none) := by
    intro t hm q hq
    rw [h.strip_flat ht hp (List.mem_of_mem_filter hm) (hclause _ q hq)]
    by_cases he : t.field = field <;> simp [he]
  have hl : Leaves settings field ((c.fields.filter (!·.isBelowPath)).filterMap (clause ·.flatClauses)) _ :=
    leaves_filterMap hs
  have hfields : (c.fields.filter (!·.isBelowPath)).filter (fun t => decide (t.field ≠ field)) =
      (c.withoutField field).fields.filter (!·.isBelowPath) := by
    simp only [withoutField, List.filter_filter, Bool.and_comm]
  rw [hfields] at hl
  simp only [flatClauses, List.filterMap_map]
  exact hl

theorem LeadBack.leaves_ranges (h : c.LeadBack settings) (epsilon : Float) :
    Leaves settings field (c.ranges.filterMap (·.flatQuery? epsilon))
      ((c.withoutField field).ranges.filterMap (·.flatQuery? epsilon)) := by
  refine leaves_filterMap fun r hr q hq => ?_
  obtain ⟨-, rfl⟩ := RangeCriterion.flatQuery?_eq_some_iff.mp hq
  rw [strip_builtFrom (r.builtFrom_toQuery epsilon) (h.ranges r hr).isAbout_leaf]
  · by_cases he : r.field = field <;> simp [he]
  · intro path inner hl
    cases hl
  · intro _ q hl
    cases hl <;> rfl

theorem LeadBack.filterFor_filter (h : c.LeadBack settings) (ht : field ≠ settings.typeField)
    (hp : settings.termField field ≠ settings.permissionField) (types : List String) (principals : Principals) :
    ∃ own, filterFor settings (c.filter settings types principals) field = .ok own ∧
      ∀ rawSuffix document, own.accepts rawSuffix document =
        ((c.withoutField field).filter settings types principals).accepts rawSuffix document := by
  have hnested : ∀ d ∈ c.nestedConditions settings.zeroEpsilon, d.IsAbout settings :=
    fun d hd => h.isAbout_condition hd
  have htypes : ∀ q ∈ [Query.terms settings.typeQueryField (c.typesOr types),
      Query.terms settings.permissionField principals], isProtected settings q = true := by
    simp [isProtected]
  have hnotTypes : ∀ q ∈ (if c.typeNotTerms.isEmpty then [] else [Query.terms settings.typeQueryField c.typeNotTerms]),
      isProtected settings q = true := by
    split <;> simp [isProtected]
  have hm := (((leaves_of_isProtected htypes).append (h.leaves_flat ht hp fun _ _ => .inl)).append
    (h.leaves_ranges settings.zeroEpsilon)).append (leaves_group_must hnested)
  have hn := ((leaves_of_isProtected hnotTypes).append (h.leaves_flat ht hp fun _ _ => .inr)).append
    (leaves_group_mustNot hnested)
  rw [← h.nestedConditions_withoutField] at hm hn
  exact filterFor_bool hm hn

/-- Leaving a field out of the filter of a request is exact: what stays accepts the documents that the filter of the
criteria on the other fields accepts. -/
theorem filterFor_filter_ofRequest (view : FieldView) (request : Request) (types : List String)
    (principals : Principals) (field : String)
    (hsuffix : view.settings.rawSuffix ≠ "" →
      ∀ name ∈ (ofRequest view request).names, ¬ ∃ stem, name = stem ++ view.settings.rawSuffix)
    (htype : field ≠ view.settings.typeField)
    (hpermission : view.settings.termField field ≠ view.settings.permissionField) :
    ∃ own, filterFor view.settings ((ofRequest view request).filter view.settings types principals) field = .ok own ∧
      ∀ rawSuffix document, own.accepts rawSuffix document =
        (((ofRequest view request).withoutField field).filter view.settings types principals).accepts rawSuffix
          document :=
  (leadBack_ofRequest hsuffix).filterFor_filter htype hpermission types principals

/-- One of two fields of a repeated sub-object is left out, and the wrapper stays for the other. -/
theorem filterFor_filter_ofRequest_nested :
    ∃ own, filterFor {}
        ((ofRequest ⟨{}, ⟨fun _ _ => some { fieldType := .keyword, nestedPath := some "kin" }⟩, []⟩
          [⟨"kin.sex", "F"⟩, ⟨"kin.role!", "child"⟩]).filter {} [] ["a"]) "kin.sex" = .ok own ∧
      ∀ rawSuffix document, own.accepts rawSuffix document =
        (((ofRequest ⟨{}, ⟨fun _ _ => some { fieldType := .keyword, nestedPath := some "kin" }⟩, []⟩
          [⟨"kin.sex", "F"⟩, ⟨"kin.role!", "child"⟩]).withoutField "kin.sex").filter {} [] ["a"]).accepts rawSuffix
            document :=
  filterFor_filter_ofRequest ⟨{}, _, []⟩ _ [] ["a"] "kin.sex"
    (fun _ name hn => Text.before?_eq_none_iff.mp ((by decide +kernel : ∀ name ∈ _, Text.before? ".raw" name = none)
      name hn))
    (by decide) (by decide)

end Criteria

end FacetedSearch
