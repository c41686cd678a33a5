import FacetedSearch.Proofs.Grouping

/-!
# Wrappers

Every condition on a repeated sub-object goes to one place: into the wrapper of its path, in the order in which the
conditions came, or, if it rules a presence out, into a wrapper of its own.
-/

namespace FacetedSearch.NestedCondition

def inRole (role : ConditionRole) (conditions : List NestedCondition) : List NestedCondition :=
  conditions.filter (·.role = role)

/-- What holds on the shared instance: first what must hold, then each query that a missing field makes up for. -/
def demands (conditions : List NestedCondition) : List Query :=
  (inRole .must conditions).map query ++ (inRole .should conditions).map either

/-- What fails on the shared instance. -/
def exclusions (conditions : List NestedCondition) : List Query :=
  ((inRole .mustNot conditions).map query).filter fun q => !q.isPresence

/-- What a presence that is ruled out on every instance comes to. -/
def absence (c : NestedCondition) : Query := .nested c.path (.allOf [c.query])

theorem role_of_mem_inRole {role : ConditionRole} {conditions : List NestedCondition} {c : NestedCondition}
    (h : c ∈ inRole role conditions) : c.role = role :=
  of_decide_eq_true (List.mem_filter.mp h).2

variable (conditions : List NestedCondition)

theorem filterMap_byRole (f : NestedCondition → Option Query) : (byRole conditions).filterMap f =
    (inRole .must conditions).filterMap f ++ (inRole .mustNot conditions).filterMap f ++
      (inRole .should conditions).filterMap f := by
  rw [byRole, List.filterMap_append, List.filterMap_append]
  rfl

theorem filterMap_mustClause?_byRole : (byRole conditions).filterMap mustClause? = demands conditions := by
  have hmust : (inRole .must conditions).filterMap mustClause? = (inRole .must conditions).map query := by
    rw [← List.filterMap_eq_map]
    exact List.filterMap_congr fun c hc => by simp [mustClause?, role_of_mem_inRole hc]
  have hmustNot : (inRole .mustNot conditions).filterMap mustClause? = [] :=
    List.filterMap_eq_nil_iff.mpr fun c hc => by simp [mustClause?, role_of_mem_inRole hc]
  have hshould : (inRole .should conditions).filterMap mustClause? = (inRole .should conditions).map either := by
    rw [← List.filterMap_eq_map]
    exact List.filterMap_congr fun c hc => by simp [mustClause?, role_of_mem_inRole hc]
  rw [filterMap_byRole, hmust, hmustNot, hshould, List.append_nil, demands]

theorem filterMap_mustNotClause?_byRole : (byRole conditions).filterMap mustNotClause? = exclusions conditions := by
  have hmust : (inRole .must conditions).filterMap mustNotClause? = [] :=
    List.filterMap_eq_nil_iff.mpr fun c hc => by simp [mustNotClause?, role_of_mem_inRole hc]
  have hmustNot : (inRole .mustNot conditions).filterMap mustNotClause? = exclusions conditions := by
    rw [exclusions, ← List.filterMap_eq_filter, List.filterMap_map]
    exact List.filterMap_congr fun c hc => by simp [mustNotClause?, role_of_mem_inRole hc, Option.guard]
  have hshould : (inRole .should conditions).filterMap mustNotClause? = [] :=
    List.filterMap_eq_nil_iff.mpr fun c hc => by simp [mustNotClause?, role_of_mem_inRole hc]
  rw [filterMap_byRole, hmust, hmustNot, hshould, List.append_nil, List.nil_append]

theorem filterMap_absence?_byRole :
    (byRole conditions).filterMap absence? = (conditions.filter isAbsence).map absence := by
  have hother : ∀ role ≠ .mustNot, (inRole role conditions).filterMap absence? = [] := fun role hr =>
    List.filterMap_eq_nil_iff.mpr fun c hc => by simp [absence?, isAbsence, role_of_mem_inRole hc, hr]
  have hmustNot : (inRole .mustNot conditions).filterMap absence? = conditions.filterMap absence? := by
    rw [inRole, List.filterMap_filter]
    refine List.filterMap_congr fun c _ => ?_
    by_cases hr : c.role = .mustNot <;> simp [absence?, isAbsence, hr]
  rw [filterMap_byRole, hother .must (by decide), hother .should (by decide), hmustNot, List.append_nil,
    List.nil_append, ← List.filterMap_eq_map, List.filterMap_filter]
  rfl

theorem gathered_byRole (path : String) : Wrapper.gathered path (byRole conditions) =
    { path, must := demands (onPath path conditions), mustNot := exclusions (onPath path conditions) } := by
  have honPath : onPath path (byRole conditions) = byRole (onPath path conditions) :=
    (byRole_filter _ conditions).symm
  rw [Wrapper.gathered, honPath, filterMap_mustClause?_byRole, filterMap_mustNotClause?_byRole]

/-- There is one wrapper for each path with a condition that is no absence, and one clause for each absence. A wrapper
holds the conditions on its path and nothing else. -/
theorem group_places (conditions : List NestedCondition) :
    ∃ paths : List String, paths.Nodup ∧
      (∀ path, path ∈ paths ↔ ∃ c ∈ conditions, c.isAbsence = false ∧ c.path = path) ∧
      (group conditions).must = paths.map (fun path =>
        .nested path (.bool (demands (onPath path conditions)) (exclusions (onPath path conditions)) [])) ∧
      (group conditions).mustNot = (conditions.filter isAbsence).map absence := by
  have hg := group_gathers conditions
  refine ⟨(group conditions).wrappers.map Wrapper.path, hg.nodup, fun path => ?_, ?_, ?_⟩
  · rw [hg.mem_paths]
    simp only [mem_byRole]
  · rw [NestedClauses.must, List.map_map]
    refine List.map_congr_left fun w hw => ?_
    have heq := (hg.wrapper_eq w hw).trans (gathered_byRole conditions w.path)
    rw [heq, Wrapper.toQuery]
    rfl
  · rw [NestedClauses.mustNot, hg.absences_eq, filterMap_absence?_byRole]

end FacetedSearch.NestedCondition
