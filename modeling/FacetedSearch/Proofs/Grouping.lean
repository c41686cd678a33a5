import FacetedSearch.Filter.Grouping
import FacetedSearch.Proofs.Document
import FacetedSearch.Proofs.Tables

/-!
# Gathered conditions

The wrappers that conditions on repeated sub-objects are gathered into, said from the list of conditions alone, and
the proof that folding the conditions in one by one comes to them.
-/

namespace FacetedSearch

namespace NestedCondition

/-- Rules the field out on every instance; no wrapper takes it. -/
def isAbsence (c : NestedCondition) : Bool := c.role = .mustNot && c.query.isPresence

/-- The query holds, or the field has no value. -/
def either (c : NestedCondition) : Query := .bool [] [] [c.query, .missing c.field]

def mustClause? (c : NestedCondition) : Option Query :=
  match c.role with
  | .must => some c.query
  | .mustNot => none
  | .should => some c.either

def mustNotClause? (c : NestedCondition) : Option Query :=
  if c.role = .mustNot && !c.query.isPresence then some c.query else none

def absence? (c : NestedCondition) : Option Query :=
  if c.isAbsence then some (.nested c.path (.allOf [c.query])) else none

/-- The wrapper with the clauses of one more condition. -/
def join (c : NestedCondition) (w : Wrapper) : Wrapper :=
  { w with must := w.must ++ c.mustClause?.toList, mustNot := w.mustNot ++ c.mustNotClause?.toList }

def onPath (path : String) (conditions : List NestedCondition) : List NestedCondition :=
  conditions.filter (·.path = path)

theorem mem_byRole {c : NestedCondition} {conditions : List NestedCondition} :
    c ∈ byRole conditions ↔ c ∈ conditions := by
  simp only [byRole, List.mem_append, List.mem_filter, decide_eq_true_eq]
  cases h : c.role <;> simp

theorem absence?_eq_some_iff {c : NestedCondition} {q : Query} :
    c.absence? = some q ↔ c.isAbsence = true ∧ .nested c.path (.allOf [c.query]) = q := by
  rw [absence?]
  split <;> simp_all

theorem byRole_filter (p : NestedCondition → Bool) (conditions : List NestedCondition) :
    byRole (conditions.filter p) = (byRole conditions).filter p := by
  simp only [byRole, List.filter_append, List.filter_filter, Bool.and_comm]

theorem onPath_filter (p : NestedCondition → Bool) (path : String) (conditions : List NestedCondition) :
    onPath path (conditions.filter p) = (onPath path conditions).filter p := by
  simp only [onPath, List.filter_filter, Bool.and_comm]

end NestedCondition

open NestedCondition

/-- The wrapper that the conditions on a path come to. -/
def Wrapper.gathered (path : String) (conditions : List NestedCondition) : Wrapper where
  path
  must := (onPath path conditions).filterMap mustClause?
  mustNot := (onPath path conditions).filterMap mustNotClause?

theorem Wrapper.gathered_append_of_ne {path : String} {done : List NestedCondition} {c : NestedCondition}
    (h : c.path ≠ path) : gathered path (done ++ [c]) = gathered path done := by
  simp [gathered, onPath, h]

theorem Wrapper.gathered_append {done : List NestedCondition} {c : NestedCondition} :
    gathered c.path (done ++ [c]) = c.join (gathered c.path done) := by
  cases hm : c.mustClause? <;> cases hn : c.mustNotClause? <;> simp [gathered, onPath, join, hm, hn]

theorem NestedCondition.clauses_of_isAbsence {c : NestedCondition} (h : c.isAbsence = true) :
    c.mustClause? = none ∧ c.mustNotClause? = none := by
  rw [isAbsence, Bool.and_eq_true, decide_eq_true_eq] at h
  simp [mustClause?, mustNotClause?, h.1, h.2]

theorem NestedCondition.clause_of_not_isAbsence {c : NestedCondition} (h : c.isAbsence = false) :
    (∃ q, c.mustClause? = some q) ∨ ∃ q, c.mustNotClause? = some q := by
  cases hr : c.role with
  | must => exact .inl ⟨c.query, by simp [mustClause?, hr]⟩
  | should => exact .inl ⟨c.either, by simp [mustClause?, hr]⟩
  | mustNot =>
      have hp : c.query.isPresence = false := by simpa [isAbsence, hr] using h
      exact .inr ⟨c.query, by simp [mustNotClause?, hr, hp]⟩

/-- No condition that belongs in a wrapper is on the path. -/
theorem Wrapper.gathered_eq_empty_iff {path : String} {conditions : List NestedCondition} :
    gathered path conditions = { path } ↔ ¬ ∃ c ∈ conditions, c.isAbsence = false ∧ c.path = path := by
  constructor
  · rintro he ⟨c, hc, ha, rfl⟩
    simp only [gathered, Wrapper.mk.injEq, true_and, List.filterMap_eq_nil_iff] at he
    have hm : c ∈ onPath c.path conditions := by simp [onPath, hc]
    rcases clause_of_not_isAbsence ha with ⟨q, hq⟩ | ⟨q, hq⟩
    · simp [he.1 c hm] at hq
    · simp [he.2 c hm] at hq
  · intro hn
    have hall : ∀ c ∈ onPath path conditions, c.isAbsence = true := by
      intro c hc
      rw [onPath, List.mem_filter, decide_eq_true_eq] at hc
      cases ha : c.isAbsence with
      | true => rfl
      | false => exact absurd ⟨c, hc.1, ha, hc.2⟩ hn
    simp only [gathered, Wrapper.mk.injEq, true_and, List.filterMap_eq_nil_iff]
    exact ⟨fun c hc => (clauses_of_isAbsence (hall c hc)).1, fun c hc => (clauses_of_isAbsence (hall c hc)).2⟩

namespace NestedCondition

/-- How a condition changes the wrapper on its path. -/
def wrapping : Table.Steps NestedCondition Wrapper where
  key := Wrapper.path
  fresh path := { path }
  name? c := if c.isAbsence then none else some c.path
  change := join
  key_fresh _ := rfl
  key_change _ _ := rfl

variable {c : NestedCondition} {path : String} {conditions : List NestedCondition}

theorem name?_wrapping_eq_some_iff : wrapping.name? c = some path ↔ c.isAbsence = false ∧ c.path = path := by
  simp [wrapping]

theorem join_of_isAbsence (h : c.isAbsence = true) (w : Wrapper) : c.join w = w := by
  simp [join, clauses_of_isAbsence h]

theorem gathered_wrapping : wrapping.gathered path conditions = .gathered path conditions := by
  induction conditions using List.reverseRecOn with
  | nil => rfl
  | append_singleton done c ih =>
      rw [Table.Steps.gathered_concat, ih]
      by_cases hp : c.path = path
      · subst hp
        rw [Wrapper.gathered_append]
        split
        · rfl
        · rename_i hn
          have ha : c.isAbsence = true := by simpa [wrapping] using hn
          rw [join_of_isAbsence ha]
      · rw [Wrapper.gathered_append_of_ne hp, if_neg fun hn => hp (name?_wrapping_eq_some_iff.mp hn).2]

end NestedCondition

namespace NestedClauses

/-- The clauses are those of the conditions folded in so far. -/
structure Gathers (s : NestedClauses) (done : List NestedCondition) : Prop where
  wrapper_eq : ∀ w ∈ s.wrappers, w = .gathered w.path done
  nodup : (s.wrappers.map Wrapper.path).Nodup
  mem_paths : ∀ path, path ∈ s.wrappers.map Wrapper.path ↔ ∃ c ∈ done, c.isAbsence = false ∧ c.path = path
  absences_eq : s.absences = done.filterMap absence?

theorem add_of_isAbsence {s : NestedClauses} {c : NestedCondition} (h : c.isAbsence = true) :
    s.add c = { s with absences := s.absences ++ [.nested c.path (.allOf [c.query])] } := by
  rw [isAbsence, Bool.and_eq_true, decide_eq_true_eq] at h
  simp [add, h.1, h.2]

theorem add_of_not_isAbsence {s : NestedClauses} {c : NestedCondition} (h : c.isAbsence = false) :
    s.add c = s.changeWrapper c.path c.join := by
  have hj : c.join = fun w =>
      { w with must := w.must ++ c.mustClause?.toList, mustNot := w.mustNot ++ c.mustNotClause?.toList } := rfl
  cases hr : c.role with
  | must => simp [add, hr, hj, mustClause?, mustNotClause?]
  | should => simp [add, hr, hj, mustClause?, mustNotClause?, either]
  | mustNot =>
      have hp : c.query.isPresence = false := by simpa [isAbsence, hr] using h
      simp [add, hr, hj, mustClause?, mustNotClause?, hp]

theorem wrappers_add (s : NestedClauses) (c : NestedCondition) :
    (s.add c).wrappers = wrapping.apply s.wrappers c := by
  cases ha : c.isAbsence with
  | true => simp [add_of_isAbsence ha, Table.Steps.apply, wrapping, ha]
  | false => simp [add_of_not_isAbsence ha, changeWrapper, Table.Steps.apply, wrapping, ha]

theorem absences_add (s : NestedClauses) (c : NestedCondition) :
    (s.add c).absences = s.absences ++ c.absence?.toList := by
  cases ha : c.isAbsence with
  | true => simp [add_of_isAbsence ha, absence?, ha]
  | false => simp [add_of_not_isAbsence ha, changeWrapper, absence?, ha]

theorem wrappers_foldl (conditions : List NestedCondition) :
    (conditions.foldl add {}).wrappers = conditions.foldl wrapping.apply [] :=
  (List.foldl_hom wrappers fun s c => (wrappers_add s c).symm).symm

theorem absences_foldl (conditions : List NestedCondition) :
    (conditions.foldl add {}).absences = conditions.filterMap absence? := by
  induction conditions using List.reverseRecOn with
  | nil => rfl
  | append_singleton done c ih =>
      rw [List.foldl_concat, absences_add, ih, List.filterMap_append]
      cases hc : c.absence? <;> simp [hc]

end NestedClauses

theorem NestedCondition.group_gathers (conditions : List NestedCondition) :
    (group conditions).Gathers (byRole conditions) := by
  have hc := wrapping.collects (byRole conditions)
  rw [← NestedClauses.wrappers_foldl] at hc
  refine ⟨?_, hc.nodup, ?_, NestedClauses.absences_foldl _⟩
  · intro w hw
    exact (hc.item_eq w hw).trans gathered_wrapping
  · intro path
    refine (hc.mem_keys path).trans ?_
    simp only [Table.Steps.Concerns, name?_wrapping_eq_some_iff]

theorem NestedCondition.mem_wrappers_group {conditions : List NestedCondition} {w : Wrapper} :
    w ∈ (group conditions).wrappers ↔
      w = .gathered w.path (byRole conditions) ∧ ∃ c ∈ conditions, c.isAbsence = false ∧ c.path = w.path := by
  have hg := group_gathers conditions
  have hp := hg.mem_paths w.path
  simp only [mem_byRole] at hp
  rw [← hp]
  constructor
  · intro hw
    exact ⟨hg.wrapper_eq w hw, List.mem_map_of_mem hw⟩
  · rintro ⟨he, hm⟩
    obtain ⟨w', hw', hpath⟩ := List.mem_map.mp hm
    have := hg.wrapper_eq w' hw'
    rw [hpath, ← he] at this
    exact this ▸ hw'

end FacetedSearch
