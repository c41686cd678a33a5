import Mathlib.Data.List.Flatten
import Mathlib.Algebra.Order.Group.Multiset
import Mathlib.Tactic.Abel
import FacetedSearch.Proofs.Ancestors
import FacetedSearch.Proofs.Demands
import FacetedSearch.Proofs.Naming

/-!
# Places of leaves

Every leaf that a criterion comes to lies in the one nested query of its field, or in none. Folding the conditions
into wrappers only moves leaves, so the leaves of a filter are counted once from its criteria.
-/

namespace FacetedSearch

/-! ## Leaves and the nested queries around them -/

structure PlacedLeaf where
  /-- The paths of the nested queries around the leaf, the outermost first. -/
  paths : List String
  leaf : Query

namespace Query

mutual

/-- The leaves of a query that stands inside nested queries on the given paths. -/
def placed (around : List String) : Query → List PlacedLeaf
  | bool must mustNot should => placedAll around must ++ placedAll around mustNot ++ placedAll around should
  | nested path inner => inner.placed (around ++ [path])
  | terms field values => [⟨around, terms field values⟩]
  | matching field value => [⟨around, matching field value⟩]
  | range field bounds => [⟨around, range field bounds⟩]
  | present field => [⟨around, present field⟩]

def placedAll (around : List String) : List Query → List PlacedLeaf
  | [] => []
  | query :: rest => query.placed around ++ placedAll around rest

end

mutual

/-- How many nested queries lie in one another. -/
def nestingDepth : Query → Nat
  | bool must mustNot should => max (nestingDepthOf must) (max (nestingDepthOf mustNot) (nestingDepthOf should))
  | nested _ inner => inner.nestingDepth + 1
  | terms .. | matching .. | range .. | present _ => 0

def nestingDepthOf : List Query → Nat
  | [] => 0
  | query :: rest => max query.nestingDepth (nestingDepthOf rest)

end

def leaves (q : Query) : List Query := (q.placed []).map PlacedLeaf.leaf

theorem placedAll_eq_flatMap (around : List String) (queries : List Query) :
    placedAll around queries = queries.flatMap (placed around) := by
  induction queries with
  | nil => rfl
  | cons q rest ih => rw [placedAll, ih, List.flatMap_cons]

theorem nestingDepthOf_le {queries : List Query} {n : Nat} :
    nestingDepthOf queries ≤ n ↔ ∀ q ∈ queries, q.nestingDepth ≤ n := by
  induction queries with
  | nil => simp [nestingDepthOf]
  | cons q rest ih => rw [nestingDepthOf, Nat.max_le, ih, List.forall_mem_cons]

theorem nestingDepth_bool_le {must mustNot should : List Query} {n : Nat} :
    (bool must mustNot should).nestingDepth ≤ n ↔ (∀ q ∈ must, q.nestingDepth ≤ n) ∧
      (∀ q ∈ mustNot, q.nestingDepth ≤ n) ∧ ∀ q ∈ should, q.nestingDepth ≤ n := by
  rw [nestingDepth, Nat.max_le, Nat.max_le, nestingDepthOf_le, nestingDepthOf_le, nestingDepthOf_le]

theorem placed_of_field? {q : Query} {field : String} (h : q.field? = some field) (around : List String) :
    q.placed around = [⟨around, q⟩] := by
  cases q <;> first | rfl | cases h

theorem nestingDepth_of_field? {q : Query} {field : String} (h : q.field? = some field) : q.nestingDepth = 0 := by
  cases q <;> first | rfl | cases h

theorem placed_alternatives (around : List String) (queries : List Query) :
    (bool [] [] queries).placed around = queries.flatMap (placed around) := placedAll_eq_flatMap around queries

theorem placed_nested_bool (around : List String) (path : String) (must mustNot : List Query) :
    (nested path (bool must mustNot [])).placed around =
      must.flatMap (placed (around ++ [path])) ++ mustNot.flatMap (placed (around ++ [path])) := by
  rw [placed, placed, placedAll_eq_flatMap, placedAll_eq_flatMap]
  exact List.append_nil _

/-- A leaf that is no boolean combination and no nested query. -/
def HasField (q : Query) : Prop := ∃ field, q.field? = some field

namespace BuiltFrom

variable {leaf : Query → Prop} {q : Query}

theorem nestingDepth_eq (h : q.BuiltFrom leaf) (hleaf : ∀ q, leaf q → q.HasField) : q.nestingDepth = 0 := by
  induction h with
  | leaf hq => exact nestingDepth_of_field? (hleaf _ hq).choose_spec
  | missing _ => rfl
  | alternatives _ _ ih =>
      rw [← Nat.le_zero, nestingDepth_bool_le]
      exact ⟨nofun, nofun, fun q hq => (ih q hq).le⟩

theorem placed_eq (h : q.BuiltFrom leaf) (hleaf : ∀ q, leaf q → q.HasField) (around : List String) :
    q.placed around = q.leaves.map (PlacedLeaf.mk around) := by
  induction h with
  | leaf hq =>
      obtain ⟨field, hf⟩ := hleaf _ hq
      rw [leaves, placed_of_field? hf, placed_of_field? hf]
      rfl
  | missing _ => rfl
  | alternatives _ _ ih =>
      rw [leaves, placed_alternatives, placed_alternatives, List.map_flatMap, List.map_flatMap]
      exact List.flatMap_congr ih

theorem leaf_of_mem_leaves (h : q.BuiltFrom leaf) (hleaf : ∀ q, leaf q → q.HasField) {l : Query}
    (hl : l ∈ q.leaves) : leaf l := by
  induction h with
  | leaf hq =>
      obtain ⟨field, hf⟩ := hleaf _ hq
      rw [leaves, placed_of_field? hf] at hl
      exact List.mem_singleton.mp hl ▸ hq
  | missing hf => exact List.mem_singleton.mp hl ▸ hf
  | alternatives _ _ ih =>
      rw [leaves, placed_alternatives, List.map_flatMap, List.mem_flatMap] at hl
      obtain ⟨q, hq, hl⟩ := hl
      exact ih q hq hl

end BuiltFrom

end Query

/-! ## Gathered conditions -/

/-- What changes an item by adding to its part of the whole adds the same to the whole, up to order. -/
theorem Table.flatMap_update_perm {α β : Type _} {key : α → String} {name : String} {fresh : α} {change : α → α}
    {part : α → List β} {added : List β} (hkey : key fresh = name) (hfresh : part fresh = [])
    (hchange : ∀ x, key x = name → (part (change x)).Perm (part x ++ added)) (items : List α) :
    ((update key name fresh change items).flatMap part).Perm (items.flatMap part ++ added) := by
  induction items with
  | nil => simpa [update, hfresh] using hchange fresh hkey
  | cons item rest ih =>
      rw [update]
      split
      · rename_i hk
        have hmove : (part item ++ added ++ rest.flatMap part).Perm (part item ++ rest.flatMap part ++ added) := by
          rw [List.append_assoc, List.append_assoc]
          exact List.perm_append_comm.append_left _
        exact ((hchange item hk).append_right _).trans hmove
      · rw [List.flatMap_cons, List.flatMap_cons, List.append_assoc]
        exact ih.append_left _

namespace NestedCondition

/-- The clause that a condition adds to a wrapper, or in a nested query of its own. -/
def clause (c : NestedCondition) : Query :=
  match c.role with
  | .must | .mustNot => c.query
  | .should => c.either

/-- The leaves of a condition, on the instances of its path. -/
def placed (c : NestedCondition) : List PlacedLeaf := c.clause.placed [c.path]

variable {c : NestedCondition}

theorem clause_of_isAbsence (h : c.isAbsence = true) : c.clause = c.query := by
  rw [isAbsence, Bool.and_eq_true, decide_eq_true_eq] at h
  rw [clause, h.1]

theorem clauses_of_not_isAbsence (h : c.isAbsence = false) :
    (c.mustClause? = some c.clause ∧ c.mustNotClause? = none) ∨
      (c.mustClause? = none ∧ c.mustNotClause? = some c.clause) := by
  cases hr : c.role with
  | must => exact .inl (by simp [mustClause?, mustNotClause?, clause, hr])
  | should => exact .inl (by simp [mustClause?, mustNotClause?, clause, hr])
  | mustNot =>
      have hp : c.query.isPresence = false := by simpa [isAbsence, hr] using h
      exact .inr (by simp [mustClause?, mustNotClause?, clause, hr, hp])

theorem byRole_perm (conditions : List NestedCondition) : (byRole conditions).Perm conditions := by
  induction conditions with
  | nil => exact .nil
  | cons c rest ih =>
      rw [byRole, List.append_assoc] at ih ⊢
      simp only [List.filter_cons]
      cases c.role with
      | must => exact ih.cons c
      | mustNot => exact List.perm_middle.trans (ih.cons c)
      | should =>
          rw [← List.append_assoc] at ih
          refine .trans ?_ (ih.cons c)
          rw [← List.append_assoc]
          exact List.perm_middle

end NestedCondition

namespace Wrapper

def placed (w : Wrapper) : List PlacedLeaf := w.toQuery.placed []

theorem placed_eq (w : Wrapper) :
    w.placed = w.must.flatMap (Query.placed [w.path]) ++ w.mustNot.flatMap (Query.placed [w.path]) :=
  Query.placed_nested_bool [] w.path w.must w.mustNot

theorem placed_join_perm {c : NestedCondition} (h : c.isAbsence = false) {w : Wrapper} (hw : w.path = c.path) :
    (c.join w).placed.Perm (w.placed ++ c.placed) := by
  have hc : [c.clause].flatMap (Query.placed [c.path]) = c.placed := List.flatMap_singleton _ _
  rw [placed_eq, placed_eq, NestedCondition.join]
  dsimp only
  rw [hw, List.flatMap_append, List.flatMap_append]
  rcases NestedCondition.clauses_of_not_isAbsence h with ⟨hm, hn⟩ | ⟨hm, hn⟩
  · rw [hm, hn, Option.toList_some, Option.toList_none, List.flatMap_nil, List.append_nil, hc, List.append_assoc,
      List.append_assoc]
    exact List.perm_append_comm.append_left _
  · rw [hm, hn, Option.toList_some, Option.toList_none, List.flatMap_nil, List.append_nil, hc, List.append_assoc]

end Wrapper

namespace NestedClauses

def placed (s : NestedClauses) : List PlacedLeaf :=
  s.wrappers.flatMap Wrapper.placed ++ s.absences.flatMap (Query.placed [])

/-- Folding a condition in adds its leaves, on the instances of its path, and moves none. -/
theorem placed_add_perm (s : NestedClauses) (c : NestedCondition) : (s.add c).placed.Perm (s.placed ++ c.placed) := by
  cases ha : c.isAbsence with
  | true =>
      have hown : [Query.nested c.path (.allOf [c.query])].flatMap (Query.placed []) = c.placed := by
        rw [NestedCondition.placed, NestedCondition.clause_of_isAbsence ha]
        simp [Query.allOf, Query.placed_nested_bool]
      rw [add_of_isAbsence ha, placed, placed]
      dsimp only
      rw [List.flatMap_append, hown, List.append_assoc]
  | false =>
      have hjoin : ∀ w : Wrapper, w.path = c.path → (c.join w).placed.Perm (w.placed ++ c.placed) :=
        fun _ => Wrapper.placed_join_perm ha
      have hwrappers : ((Table.update Wrapper.path c.path { path := c.path } c.join s.wrappers).flatMap
          Wrapper.placed).Perm (s.wrappers.flatMap Wrapper.placed ++ c.placed) := by
        refine Table.flatMap_update_perm ?_ ?_ hjoin s.wrappers <;> rfl
      rw [add_of_not_isAbsence ha, placed, placed, List.append_assoc]
      refine (hwrappers.append_right _).trans ?_
      rw [List.append_assoc]
      exact List.perm_append_comm.append_left _

theorem placed_foldl_perm (conditions : List NestedCondition) (s : NestedClauses) :
    (conditions.foldl add s).placed.Perm (s.placed ++ conditions.flatMap NestedCondition.placed) := by
  induction conditions generalizing s with
  | nil => simp
  | cons c rest ih =>
      rw [List.foldl_cons, List.flatMap_cons, ← List.append_assoc]
      exact (ih (s.add c)).trans ((placed_add_perm s c).append_right _)

end NestedClauses

theorem NestedClauses.placed_eq (s : NestedClauses) :
    s.placed = s.must.flatMap (Query.placed []) ++ s.mustNot.flatMap (Query.placed []) := by
  rw [placed, must, mustNot, List.flatMap_map]
  rfl

theorem NestedCondition.placed_group_perm (conditions : List NestedCondition) :
    (group conditions).placed.Perm (conditions.flatMap NestedCondition.placed) :=
  (NestedClauses.placed_foldl_perm (byRole conditions) {}).trans ((byRole_perm conditions).flatMap_right _)

/-! ## Criteria -/

namespace TermCriterion

/-- The clauses that the criterion comes to, as they are before they are gathered. -/
def clauses (t : TermCriterion) : List Query :=
  if t.isBelowPath then t.nestedConditions.map NestedCondition.clause
  else t.flatClauses.must.toList ++ t.flatClauses.mustNot.toList

/-- The nested query that the clauses of the criterion belong in, if any. -/
def paths (t : TermCriterion) : List String := if t.isBelowPath then t.nestedPath.toList else []

def placed (t : TermCriterion) : List PlacedLeaf := t.clauses.flatMap (Query.placed t.paths)

variable {t : TermCriterion}

theorem placed_of_isBelowPath (hb : t.isBelowPath = true) :
    t.nestedConditions.flatMap NestedCondition.placed = t.placed := by
  rw [placed, clauses, paths, if_pos hb, if_pos hb, List.flatMap_map]
  refine List.flatMap_congr fun c hc => ?_
  rw [nestedPath_of_mem hc, Option.toList_some]
  rfl

theorem placed_of_not_isBelowPath (hb : t.isBelowPath = false) :
    t.flatClauses.must.toList.flatMap (Query.placed []) ++ t.flatClauses.mustNot.toList.flatMap (Query.placed []) =
      t.placed := by
  rw [placed, clauses, paths, if_neg (Bool.eq_false_iff.mp hb), if_neg (Bool.eq_false_iff.mp hb), List.flatMap_append]

end TermCriterion

namespace RangeCriterion

def placed (r : RangeCriterion) (epsilon : Float) : List PlacedLeaf := (r.toQuery epsilon).placed r.nestedPath.toList

theorem placed_eq (r : RangeCriterion) (epsilon : Float) :
    (r.flatQuery? epsilon).toList.flatMap (Query.placed []) ++
      (r.nestedCondition? epsilon).toList.flatMap NestedCondition.placed = r.placed epsilon := by
  cases hpath : r.nestedPath with
  | none => simp [flatQuery?, nestedCondition?, placed, hpath]
  | some path => simp [flatQuery?, nestedCondition?, placed, hpath, NestedCondition.placed, NestedCondition.clause]

end RangeCriterion

namespace Criteria

variable (c : Criteria)

/-- The clauses that do not come from fields: types and permissions. -/
def baseClauses (settings : Settings) (types : List String) (principals : Principals) : List Query :=
  [.terms settings.typeQueryField (c.typesOr types), PermissionGuard.clause ⟨settings.permissionField⟩ principals] ++
    if c.typeNotTerms.isEmpty then [] else [.terms settings.typeQueryField c.typeNotTerms]

theorem placed_flatClauses_perm :
    ((c.flatClauses.filterMap FlatClauses.must).flatMap (Query.placed []) ++
      (c.flatClauses.filterMap FlatClauses.mustNot).flatMap (Query.placed [])).Perm
      ((c.fields.filter fun t => !t.isBelowPath).flatMap TermCriterion.placed) := by
  rw [flatClauses, List.filterMap_map, List.filterMap_map, List.filterMap_eq_flatMap_toList,
    List.filterMap_eq_flatMap_toList, List.flatMap_assoc, List.flatMap_assoc]
  refine (List.flatMap_append_perm _ _ _).trans (.of_eq (List.flatMap_congr fun t ht => ?_))
  have hb := (List.mem_filter.mp ht).2
  exact TermCriterion.placed_of_not_isBelowPath (by simpa using hb)

theorem placed_nestedConditions (epsilon : Float) :
    (c.nestedConditions epsilon).flatMap NestedCondition.placed =
      (c.fields.filter TermCriterion.isBelowPath).flatMap TermCriterion.placed ++
        (c.ranges.filterMap (·.nestedCondition? epsilon)).flatMap NestedCondition.placed := by
  rw [nestedConditions, List.flatMap_append, List.flatMap_assoc]
  congr 1
  exact List.flatMap_congr fun t ht => TermCriterion.placed_of_isBelowPath (List.mem_filter.mp ht).2

theorem placed_ranges_perm (epsilon : Float) :
    ((c.ranges.filterMap (·.flatQuery? epsilon)).flatMap (Query.placed []) ++
      (c.ranges.filterMap (·.nestedCondition? epsilon)).flatMap NestedCondition.placed).Perm
      (c.ranges.flatMap (·.placed epsilon)) := by
  rw [List.filterMap_eq_flatMap_toList, List.filterMap_eq_flatMap_toList, List.flatMap_assoc, List.flatMap_assoc]
  refine (List.flatMap_append_perm _ _ _).trans (.of_eq (List.flatMap_congr fun r _ => r.placed_eq epsilon))

theorem placed_bool_perm (must mustNot : List Query) : ((Query.bool must mustNot []).placed []).Perm
    (must.flatMap (Query.placed []) ++ mustNot.flatMap (Query.placed [])) := by
  rw [Query.placed, Query.placedAll_eq_flatMap, Query.placedAll_eq_flatMap, Query.placedAll, List.append_nil]

/-- The leaves of a filter are those of its criteria, each once and in the place of its criterion. -/
theorem placed_filter_perm (settings : Settings) (types : List String) (principals : Principals) :
    ((c.filter settings types principals).placed []).Perm
      ((c.baseClauses settings types principals).flatMap (Query.placed []) ++
        (c.fields.flatMap TermCriterion.placed ++ c.ranges.flatMap (·.placed settings.zeroEpsilon))) := by
  have hflat := c.placed_flatClauses_perm
  have hfields := (List.filter_append_perm TermCriterion.isBelowPath c.fields).flatMap_right TermCriterion.placed
  have hranges := c.placed_ranges_perm settings.zeroEpsilon
  have hgrouped := NestedCondition.placed_group_perm (c.nestedConditions settings.zeroEpsilon)
  rw [List.flatMap_append] at hfields
  rw [placed_nestedConditions, NestedClauses.placed_eq] at hgrouped
  refine (placed_bool_perm _ _).trans ?_
  rw [baseClauses]
  simp only [List.flatMap_append]
  -- Only the order is left to settle, so the parts are added up as multisets.
  simp only [← Multiset.coe_eq_coe, ← Multiset.coe_add] at hflat hfields hranges hgrouped ⊢
  rw [← hfields, ← hranges, ← hflat]
  have hmove : ∀ base types flat flatNot ranges wrappers absences below belowRanges : Multiset PlacedLeaf,
      wrappers + absences = below + belowRanges →
      base + flat + ranges + wrappers + (types + flatNot + absences) =
        base + types + (below + (flat + flatNot) + (ranges + belowRanges)) := by
    intro base types flat flatNot ranges wrappers absences below belowRanges h
    calc base + flat + ranges + wrappers + (types + flatNot + absences)
        = base + types + (flat + flatNot) + ranges + (wrappers + absences) := by abel
      _ = base + types + (below + (flat + flatNot) + (ranges + belowRanges)) := by rw [h]; abel
  exact hmove _ _ _ _ _ _ _ _ _ hgrouped

end Criteria

end FacetedSearch
