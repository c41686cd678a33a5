import FacetedSearch.Filter.Permission
import FacetedSearch.Proofs.Document

/-!
# The permission check

Which filters pass the check, and what a document must hold to match a filter that passed.
-/

namespace FacetedSearch

/-- The document holds one of the principals in the field that the permission field stands for. -/
def Json.Grants (document : Json) (rawSuffix permissionField : String) (principals : Principals) : Prop :=
  document.scope.HasAnyOf (documentField rawSuffix permissionField) principals

namespace PermissionGuard

variable {g : PermissionGuard} {filter : Query} {principals : Principals}

/-- The values of a permission clause directly under the outer `must` of the filter. -/
def HasClause (g : PermissionGuard) (filter : Query) (values : List String) : Prop :=
  ∃ must mustNot should, filter = .bool must mustNot should ∧ .terms g.field values ∈ must

theorem clauseValues?_eq_some {q : Query} {values : List String} :
    g.clauseValues? q = some values ↔ q = .terms g.field values := by
  cases q with
  | terms field vs =>
      by_cases hf : field = g.field <;> simp [clauseValues?, hf]
  | _ => simp [clauseValues?]

theorem mem_clauses_iff {values : List String} : values ∈ g.clauses filter ↔ g.HasClause filter values := by
  simp only [clauses, List.mem_filterMap, clauseValues?_eq_some, exists_eq_right, HasClause]
  cases filter with
  | bool must mustNot should =>
      constructor
      · intro h
        exact ⟨must, mustNot, should, rfl, h⟩
      · rintro ⟨_, _, _, he, h⟩
        cases he
        exact h
  | _ => simp [Query.must]

/-- The first clause with other values decides, and its values are reported. -/
theorem verify_eq (g : PermissionGuard) (filter : Query) (principals : Principals) :
    (g.clauses filter = [] ∧ g.verify filter principals = .error .permissionMissing) ∨
    (g.clauses filter ≠ [] ∧ (∀ values ∈ g.clauses filter, Text.sameMembers values principals = true) ∧
      g.verify filter principals = .ok ()) ∨
    (∃ values ∈ g.clauses filter, Text.sameMembers values principals = false ∧
      g.verify filter principals =
        .error (.permissionMismatch (Text.sortedSet principals) (Text.sortedSet values))) := by
  unfold verify
  cases hc : g.clauses filter with
  | nil => exact .inl ⟨rfl, rfl⟩
  | cons first rest =>
      right
      dsimp only
      cases hf : (first :: rest).find? fun values => !Text.sameMembers values principals with
      | none =>
          left
          refine ⟨List.cons_ne_nil _ _, ?_, rfl⟩
          intro values hv
          simpa using List.find?_eq_none.mp hf values hv
      | some values =>
          right
          exact ⟨values, List.mem_of_find?_eq_some hf, by simpa using List.find?_some hf, rfl⟩

theorem verify_eq_ok_iff : g.verify filter principals = .ok () ↔
    (∃ values, g.HasClause filter values) ∧
      ∀ values, g.HasClause filter values → ∀ s, s ∈ values ↔ s ∈ principals := by
  simp only [← mem_clauses_iff, ← Text.sameMembers_iff]
  rcases verify_eq g filter principals with ⟨hc, hv⟩ | ⟨hc, hs, hv⟩ | ⟨values, hm, hs, hv⟩
  · simp [hv, hc]
  · simp only [hv, true_iff]
    exact ⟨List.exists_mem_of_ne_nil _ hc, hs⟩
  · simp only [hv, reduceCtorEq, false_iff]
    rintro ⟨_, h⟩
    simp [h values hm] at hs

theorem verify_eq_missing_iff : g.verify filter principals = .error .permissionMissing ↔
    ¬ ∃ values, g.HasClause filter values := by
  simp only [← mem_clauses_iff]
  rcases verify_eq g filter principals with ⟨hc, hv⟩ | ⟨hc, _, hv⟩ | ⟨values, hm, _, hv⟩
  · simp [hv, hc]
  · simp only [hv, reduceCtorEq, false_iff, Classical.not_not]
    exact List.exists_mem_of_ne_nil _ hc
  · simp only [hv, Except.error.injEq, reduceCtorEq, false_iff, Classical.not_not]
    exact ⟨values, hm⟩

theorem verify_eq_mismatch_iff :
    (∃ expected found, g.verify filter principals = .error (.permissionMismatch expected found)) ↔
      ∃ values, g.HasClause filter values ∧ ¬ ∀ s, s ∈ values ↔ s ∈ principals := by
  simp only [← mem_clauses_iff, ← Text.sameMembers_iff]
  rcases verify_eq g filter principals with ⟨hc, hv⟩ | ⟨_, hs, hv⟩ | ⟨values, hm, hs, hv⟩
  · simp [hv, hc]
  · simp only [hv, reduceCtorEq, exists_false, false_iff]
    rintro ⟨values, hm, hn⟩
    exact hn (hs values hm)
  · simp only [hv]
    exact ⟨fun _ => ⟨values, hm, by simp [hs]⟩, fun _ => ⟨_, _, rfl⟩⟩

/-- A clause for exactly the principals protects the filter, whatever else the filter asks. -/
theorem grants_of_hasClause {rawSuffix : String} {document : Json} {values : List String}
    (hc : g.HasClause filter values) (hv : ∀ s ∈ values, s ∈ principals)
    (ha : filter.accepts rawSuffix document = true) : document.Grants rawSuffix g.field principals := by
  obtain ⟨must, mustNot, should, rfl, hm⟩ := hc
  obtain ⟨v, s, hl, ht, hs⟩ := Query.holds_terms.mp ((Query.holds_bool.mp ha).1 _ hm)
  exact ⟨v, s, hl, ht, hv s hs⟩

theorem grants_of_verify {rawSuffix : String} {document : Json} (hv : g.verify filter principals = .ok ())
    (ha : filter.accepts rawSuffix document = true) : document.Grants rawSuffix g.field principals := by
  obtain ⟨⟨values, hc⟩, hs⟩ := verify_eq_ok_iff.mp hv
  exact grants_of_hasClause hc (fun s h => (hs values hc s).mp h) ha

/-- The check passes on the filters whose permission clauses all name the principals, tells a missing clause from
a wrong one, and a filter that passes accepts only documents that grant access. -/
theorem verify_decides (g : PermissionGuard) (filter : Query) (principals : Principals) :
    (g.verify filter principals = .ok () ↔
      (∃ values, g.HasClause filter values) ∧
        ∀ values, g.HasClause filter values → ∀ s, s ∈ values ↔ s ∈ principals) ∧
    (g.verify filter principals = .error .permissionMissing ↔ ¬ ∃ values, g.HasClause filter values) ∧
    ((∃ expected found, g.verify filter principals = .error (.permissionMismatch expected found)) ↔
      ∃ values, g.HasClause filter values ∧ ¬ ∀ s, s ∈ values ↔ s ∈ principals) ∧
    ∀ rawSuffix document, g.verify filter principals = .ok () → filter.accepts rawSuffix document = true →
      document.Grants rawSuffix g.field principals :=
  ⟨verify_eq_ok_iff, verify_eq_missing_iff, verify_eq_mismatch_iff, fun _ _ hv ha => grants_of_verify hv ha⟩

/-- Two clauses, one with its values in another order and one with a repeat. -/
theorem verify_decides_repeated :
    Json.Grants (.obj [("acl", .arr [.str "b", .null])]) ".raw" "acl" ["a", "b"] :=
  (verify_decides ⟨"acl"⟩ (.bool [.terms "acl" ["b", "a"], .terms "acl" ["a", "b", "a"]] [] []) ["a", "b"]).2.2.2
    ".raw" _ rfl (by decide +kernel)

end PermissionGuard

end FacetedSearch
