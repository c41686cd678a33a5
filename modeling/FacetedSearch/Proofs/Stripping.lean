import FacetedSearch.Facet.LeaveOneOut
import FacetedSearch.Proofs.Success

/-!
# Stripping clauses

What leaving a field out makes of a clause, of a list of clauses and of a whole filter.
-/

namespace FacetedSearch.LeaveOneOut

variable {settings : Settings} {field : String}

theorem strip_of_isProtected {q : Query} (h : isProtected settings q = true) :
    strip settings field q = .ok (some q) := by
  unfold strip
  rw [if_pos h]

/-- A clause that stays is unchanged, or a nested query without some of its inner clauses. -/
theorem eq_of_strip {q q' : Query} (h : strip settings field q = .ok (some q')) :
    q' = q ∨ ∃ path must mustNot should, q = .nested path (.bool must mustNot should) ∧
      q' = .nested path (.bool (without settings field must) (without settings field mustNot)
        (without settings field should)) := by
  unfold strip at h
  split at h
  · rw [Except.ok.injEq, Option.some.injEq] at h
    exact .inl h.symm
  · split at h
    · split at h
      · cases h
      · rw [Except.ok.injEq, Option.some.injEq] at h
        exact .inr ⟨_, _, _, _, rfl, h.symm⟩
    · cases h
    · split at h
      · cases h
      · rw [Except.ok.injEq, Option.some.injEq] at h
        exact .inl h.symm

theorem mem_of_mem_without {clauses : List Query} {q : Query} (h : q ∈ without settings field clauses) :
    q ∈ clauses := List.mem_of_mem_filter h

theorem stripAll_eq_ok_iff {clauses kept : List Query} : stripAll settings field clauses = .ok kept ↔
    ∃ left, List.Forall₂ (fun q o => strip settings field q = .ok o) clauses left ∧ left.filterMap id = kept := by
  simp only [stripAll, map_eq_ok_iff, mapM_eq_ok_iff]

theorem mem_kept_iff {clauses kept : List Query} (h : stripAll settings field clauses = .ok kept) {q' : Query} :
    q' ∈ kept ↔ ∃ q ∈ clauses, strip settings field q = .ok (some q') := by
  obtain ⟨left, hl, rfl⟩ := stripAll_eq_ok_iff.mp h
  clear h
  induction hl with
  | nil => simp
  | @cons _ o _ _ hq _ ih =>
      simp only [List.exists_mem_cons_iff, hq, ← ih]
      cases o <;> simp [eq_comm]

theorem exists_stripAll {clauses : List Query} (h : ∀ q ∈ clauses, ∃ left, strip settings field q = .ok left) :
    ∃ kept, stripAll settings field clauses = .ok kept := by
  obtain ⟨left, hl⟩ := exists_mapM_iff.mpr h
  exact ⟨_, map_eq_ok_iff.mpr ⟨left, hl, rfl⟩⟩

/-- Only the outer `must` and `mustNot` of a boolean query are looked at. -/
theorem filterFor_eq_ok_iff {filter own : Query} : filterFor settings filter field = .ok own ↔
    ∃ must mustNot should kept keptNot, filter = .bool must mustNot should ∧
      stripAll settings field must = .ok kept ∧ stripAll settings field mustNot = .ok keptNot ∧
      own = .bool kept keptNot should := by
  cases filter with
  | bool must mustNot should =>
      simp only [filterFor, bind_eq_ok_iff, pure_eq_ok_iff, Query.bool.injEq]
      constructor
      · rintro ⟨kept, hk, keptNot, hn, rfl⟩
        exact ⟨_, _, _, kept, keptNot, ⟨rfl, rfl, rfl⟩, hk, hn, rfl⟩
      · rintro ⟨_, _, _, kept, keptNot, ⟨rfl, rfl, rfl⟩, hk, hn, rfl⟩
        exact ⟨kept, hk, keptNot, hn, rfl⟩
  | _ => simp [filterFor]

end FacetedSearch.LeaveOneOut
