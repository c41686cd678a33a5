import FacetedSearch.Proofs.Placement

/-!
# Scoped leaves

Every leaf that a filtered field comes to lies in the nested query on the repeated sub-object above the field and is
named below its path, or lies in no nested query if there is no such sub-object. Nested queries never lie in one
another.
-/

namespace FacetedSearch

/-! ## Depth -/

theorem TermCriterion.Leaf.hasField {t : TermCriterion} {q : Query} (h : t.Leaf q) : q.HasField := by
  cases h with
  | terms values => exact ⟨_, rfl⟩
  | matching value => exact ⟨_, rfl⟩
  | present => exact ⟨_, rfl⟩

theorem RangeCriterion.Leaf.hasField {r : RangeCriterion} {q : Query} (h : r.Leaf q) : q.HasField := by
  cases h with
  | range => exact ⟨_, rfl⟩
  | present => exact ⟨_, rfl⟩

namespace Criteria

variable {c : Criteria} {epsilon : Float}

theorem builtFrom_hasField {d : NestedCondition} (hd : d ∈ c.nestedConditions epsilon) :
    d.BuiltFrom Query.HasField := by
  rcases mem_nestedConditions.mp hd with ⟨t, -, -, hdt⟩ | ⟨r, -, path, -, rfl⟩
  · exact (TermCriterion.builtFrom_condition hdt).mono fun _ hl => hl.hasField
  · exact ⟨(r.builtFrom_toQuery epsilon).mono fun _ hl => hl.hasField, ⟨_, rfl⟩⟩

theorem OuterClause.nestingDepth_le {q : Query} (hq : c.OuterClause epsilon q) : q.nestingDepth ≤ 1 := by
  have hflat : ∀ q : Query, q.BuiltFrom Query.HasField → q.nestingDepth ≤ 0 :=
    fun q hq => (hq.nestingDepth_eq fun _ hl => hl).le
  cases hq with
  | terms field values => exact Nat.zero_le 1
  | flat _ _ hf =>
      exact (hflat q ((TermCriterion.builtFrom_flat hf).mono fun _ hl => hl.hasField)).trans (Nat.zero_le 1)
  | range _ =>
      exact (hflat _ ((RangeCriterion.builtFrom_toQuery _ _).mono fun _ hl => hl.hasField)).trans (Nat.zero_le 1)
  | wrapper hw =>
      refine Nat.succ_le_succ (Query.nestingDepth_bool_le.mpr ⟨fun q hq => ?_, fun q hq => ?_, nofun⟩)
      · exact hflat q (NestedCondition.builtFrom_of_mem_wrappers (fun _ => builtFrom_hasField) hw (.inl hq))
      · exact hflat q (NestedCondition.builtFrom_of_mem_wrappers (fun _ => builtFrom_hasField) hw (.inr hq))
  | absence hd _ =>
      refine Nat.succ_le_succ (Query.nestingDepth_bool_le.mpr ⟨fun q hq => ?_, nofun, nofun⟩)
      exact hflat q (List.mem_singleton.mp hq ▸ (builtFrom_hasField hd).query)

/-- No filter holds a nested query within a nested query. -/
theorem nestingDepth_filter_le (c : Criteria) (settings : Settings) (types : List String) (principals : Principals) :
    (c.filter settings types principals).nestingDepth ≤ 1 := by
  obtain ⟨must, mustNot, he, hm, hn⟩ := c.exists_outerClauses settings types principals
  rw [he, Query.nestingDepth_bool_le]
  exact ⟨fun q hq => (hm q hq).nestingDepth_le, fun q hq => (hn q hq).nestingDepth_le, nofun⟩

end Criteria

/-! ## Clauses of fields -/

namespace TermCriterion

variable {t : TermCriterion}

theorem builtFrom_clauses {q : Query} (hq : q ∈ t.clauses) : q.BuiltFrom t.Leaf := by
  rw [clauses] at hq
  split at hq
  · obtain ⟨c, hc, rfl⟩ := List.mem_map.mp hq
    have hb := builtFrom_condition hc
    rw [NestedCondition.clause]
    cases c.role with
    | must => exact hb.query
    | mustNot => exact hb.query
    | should => exact hb.query.either (.missing hb.present)
  · rw [List.mem_append, Option.mem_toList, Option.mem_toList] at hq
    exact builtFrom_flat hq

end TermCriterion

/-- The clauses that the criteria come to, each with the field of its criterion. -/
def Criteria.fieldClauses (c : Criteria) (epsilon : Float) : List (String × Query) :=
  c.fields.flatMap (fun t => t.clauses.map fun q => (t.field, q)) ++ c.ranges.map fun r => (r.field, r.toQuery epsilon)

namespace FieldView

variable (view : FieldView)

/-- The path of the nested query that belongs around the leaves of a field: the repeated sub-object above it. -/
def pathsAround (field : String) : List String :=
  match view.lookup.nestedPath? field view.types with
  | some path => if path = field then [] else [view.settings.valueField path]
  | none => []

/-- The leaf is on the field, and stands where its engine looks for the field. -/
structure Scopes (field : String) (p : PlacedLeaf) : Prop where
  on_field : p.leaf.field? = some (view.settings.valueField field) ∨
    p.leaf.field? = some (view.settings.termField field)
  inside : ∀ path, view.lookup.nestedPath? field view.types = some path → path ≠ field →
    p.paths = [view.settings.valueField path] ∧
      ∃ name, p.leaf.field? = some (view.settings.valueField path ++ "." ++ name)
  outside : (∀ path, view.lookup.nestedPath? field view.types = some path → path = field) → p.paths = []

variable {view} {request : Request}

theorem pathsAround_of_eq_none {field : String} (h : view.lookup.nestedPath? field view.types = none) :
    view.pathsAround field = [] := by
  rw [pathsAround, h]

theorem pathsAround_of_eq_some {field path : String} (h : view.lookup.nestedPath? field view.types = some path) :
    view.pathsAround field = if path = field then [] else [view.settings.valueField path] := by
  rw [pathsAround, h]

theorem paths_eq {t : TermCriterion} (h : t.NamedBy view) : t.paths = view.pathsAround t.field := by
  rw [TermCriterion.paths, TermCriterion.isBelowPath, TermCriterion.isPathIdentity, h.nestedPath_eq, h.valueField_eq,
    nestedPath?]
  cases hn : view.lookup.nestedPath? t.field view.types with
  | none => simp [pathsAround_of_eq_none hn]
  | some path =>
      rw [pathsAround_of_eq_some hn]
      by_cases hp : path = t.field <;> simp [hp, Settings.valueField_inj]

theorem nestedPath_toList_eq {r : RangeCriterion} (h : r.NamedBy view)
    (hne : ∀ path, view.lookup.nestedPath? r.field view.types = some path → path ≠ r.field) :
    r.nestedPath.toList = view.pathsAround r.field := by
  rw [h.nestedPath_eq, nestedPath?]
  cases hn : view.lookup.nestedPath? r.field view.types with
  | none => rw [pathsAround_of_eq_none hn]; rfl
  | some path => rw [pathsAround_of_eq_some hn, if_neg (hne path hn)]; rfl

end FieldView

theorem RangeCriterion.isRangeable_field {view : FieldView} {request : Request} {r : RangeCriterion}
    (hr : r ∈ (Criteria.ofRequest view request).ranges) : view.isRangeable r.field = true := by
  obtain ⟨field, ⟨intent, hi, hn⟩, rfl⟩ := Criteria.mem_ranges_ofRequest.mp hr
  obtain ⟨p, -, rfl⟩ := List.mem_map.mp hi
  have hfield : (view.rangeSteps.gathered field (view.intents request)).field = field :=
    view.rangeSteps.key_gathered _ _
  rw [hfield]
  cases hp : view.intent p with
  | range name d literal =>
      rw [hp] at hn
      cases hn
      exact FieldView.isRangeable_of_intent hp
  | _ => simp [hp, FieldView.rangeSteps, Intent.rangeField?] at hn

/-! ## Filters of requests -/

namespace Criteria

variable {view : FieldView} {request : Request}

theorem flatMap_placed_fields : (ofRequest view request).fields.flatMap TermCriterion.placed =
    (ofRequest view request).fields.flatMap fun t =>
      t.clauses.flatMap fun q => q.leaves.map (PlacedLeaf.mk (view.pathsAround t.field)) := by
  refine List.flatMap_congr fun t ht => ?_
  rw [TermCriterion.placed, FieldView.paths_eq (named_of_mem_fields t ht)]
  exact List.flatMap_congr fun q hq => (TermCriterion.builtFrom_clauses hq).placed_eq (fun _ hl => hl.hasField) _

/-- A range on a repeated sub-object itself would lie within its nested query, but a catalog allows no such range. -/
theorem flatMap_placed_ranges {catalog : Catalog} (hcatalog : view.lookup = catalog.lookup) (epsilon : Float) :
    (ofRequest view request).ranges.flatMap (·.placed epsilon) = (ofRequest view request).ranges.flatMap fun r =>
      (r.toQuery epsilon).leaves.map (PlacedLeaf.mk (view.pathsAround r.field)) := by
  refine List.flatMap_congr fun r hr => ?_
  have hne : ∀ path, view.lookup.nestedPath? r.field view.types = some path → path ≠ r.field := by
    intro path hp
    have hrangeable := RangeCriterion.isRangeable_field hr
    rw [FieldView.isRangeable, hcatalog] at hrangeable
    exact Catalog.ne_of_isRangeable hrangeable (hcatalog ▸ hp)
  rw [RangeCriterion.placed, FieldView.nestedPath_toList_eq (named_of_mem_ranges r hr) hne]
  exact (r.builtFrom_toQuery epsilon).placed_eq (fun _ hl => hl.hasField) _

theorem flatMap_placed_baseClauses (c : Criteria) (settings : Settings) (types : List String)
    (principals : Principals) : (c.baseClauses settings types principals).flatMap (Query.placed []) =
      (c.baseClauses settings types principals).map (PlacedLeaf.mk []) := by
  rw [baseClauses]
  split <;> rfl

theorem flatMap_fieldClauses {β : Type} (c : Criteria) (epsilon : Float) (f : String → Query → List β) :
    (c.fieldClauses epsilon).flatMap (fun item => f item.1 item.2) =
      c.fields.flatMap (fun t => t.clauses.flatMap (f t.field)) ++
        c.ranges.flatMap fun r => f r.field (r.toQuery epsilon) := by
  rw [fieldClauses, List.flatMap_append, List.flatMap_assoc, List.flatMap_map]
  congr 1
  exact List.flatMap_congr fun t _ => List.flatMap_map _ _ _

theorem field?_of_mem_fieldClauses {epsilon : Float} {field : String} {clause leaf : Query}
    (hc : (field, clause) ∈ (ofRequest view request).fieldClauses epsilon) (hl : leaf ∈ clause.leaves) :
    leaf.field? = some (view.settings.valueField field) ∨ leaf.field? = some (view.settings.termField field) := by
  rw [fieldClauses, List.mem_append, List.mem_flatMap, List.mem_map] at hc
  rcases hc with ⟨t, ht, hq⟩ | ⟨r, hr, he⟩
  · obtain ⟨q, hq, he⟩ := List.mem_map.mp hq
    cases he
    have hn := named_of_mem_fields t ht
    rw [← hn.valueField_eq, ← hn.queryField_eq]
    cases (TermCriterion.builtFrom_clauses hq).leaf_of_mem_leaves (fun _ h => h.hasField) hl with
    | terms values => exact .inr rfl
    | matching value => exact .inr rfl
    | present => exact .inl rfl
  · cases he
    rw [← (named_of_mem_ranges r hr).queryField_eq]
    cases (r.builtFrom_toQuery epsilon).leaf_of_mem_leaves (fun _ h => h.hasField) hl with
    | range => exact .inl rfl
    | present => exact .inl rfl

end Criteria

/-- A leaf on a field below a repeated sub-object is named below the path of that. -/
theorem FieldView.scopes_pathsAround {view : FieldView} {catalog : Catalog} (hcatalog : view.lookup = catalog.lookup)
    {field : String} {leaf : Query} (hfield : leaf.field? = some (view.settings.valueField field) ∨
      leaf.field? = some (view.settings.termField field)) : view.Scopes field ⟨view.pathsAround field, leaf⟩ := by
  refine ⟨hfield, fun path hp hne => ⟨?_, ?_⟩, fun hself => ?_⟩
  · rw [pathsAround_of_eq_some hp, if_neg hne]
  · obtain ⟨rest, rfl⟩ := Catalog.exists_rest_of_nestedPath? (hcatalog ▸ hp) hne
    rcases hfield with hv | ht
    · exact ⟨rest, by rw [hv, Settings.valueField, Settings.valueField]; simp only [String.append_assoc]⟩
    · exact ⟨rest ++ view.settings.rawSuffix,
        by rw [ht, Settings.termField, Settings.valueField]; simp only [String.append_assoc]⟩
  · cases hp : view.lookup.nestedPath? field view.types with
    | none => exact pathsAround_of_eq_none hp
    | some path => exact (pathsAround_of_eq_some hp).trans (if_pos (hself path hp))

/-- In the filter of a request the leaves of a field all lie in the nested query on the repeated sub-object that the
catalog reports above the field, and are named below its path; without such a sub-object they lie in none. -/
theorem Catalog.filter_scopes (catalog : Catalog) (settings : Settings) (types : List String) (request : Request)
    (docTypes : List String) (principals : Principals) :
    let view : FieldView := ⟨settings, catalog.lookup, types⟩
    let criteria := Criteria.ofRequest view request
    let filter := criteria.filter settings docTypes principals
    filter.nestingDepth ≤ 1 ∧
    (filter.placed []).Perm
      ((criteria.baseClauses settings docTypes principals).map (PlacedLeaf.mk []) ++
        (criteria.fieldClauses settings.zeroEpsilon).flatMap fun item =>
          item.2.leaves.map (PlacedLeaf.mk (view.pathsAround item.1))) ∧
    ∀ field clause, (field, clause) ∈ criteria.fieldClauses settings.zeroEpsilon → ∀ leaf ∈ clause.leaves,
      view.Scopes field ⟨view.pathsAround field, leaf⟩ := by
  intro view criteria filter
  refine ⟨criteria.nestingDepth_filter_le settings docTypes principals, ?_, ?_⟩
  · have hperm := criteria.placed_filter_perm settings docTypes principals
    rw [Criteria.flatMap_placed_baseClauses, Criteria.flatMap_placed_fields,
      Criteria.flatMap_placed_ranges rfl] at hperm
    rw [Criteria.flatMap_fieldClauses criteria _ fun field q => q.leaves.map (PlacedLeaf.mk (view.pathsAround field))]
    exact hperm
  · intro field clause hc leaf hl
    exact FieldView.scopes_pathsAround rfl (Criteria.field?_of_mem_fieldClauses hc hl)

end FacetedSearch
