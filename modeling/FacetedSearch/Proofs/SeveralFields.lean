import FacetedSearch.Proofs.Stripping

/-!
# Leaving out several fields

Whether a filter can be stripped is decided by its form and not by the field, and what is left of it can be stripped
again. Every clause, also inside a nested query, goes or stays by itself. So a field that is left out twice is left out
once, and of two fields either may be left out first.
-/

namespace FacetedSearch.LeaveOneOut

variable {settings : Settings} {f g : String} {q : Query} {failure : Failure}

/-! ## Failures -/

theorem strip_eq_error (h : strip settings f q = .error failure) (g : String) :
    strip settings g q = .error failure := by
  cases q with
  | nested path inner =>
      cases inner with
      | bool must mustNot should =>
          rw [strip, if_neg (by simp [isProtected])] at h
          split at h <;> cases h
      | _ => exact h
  | _ =>
      unfold strip at h
      split at h <;> cases h

theorem exists_strip_of_exists (h : ∃ left, strip settings f q = .ok left) (g : String) :
    ∃ left, strip settings g q = .ok left := by
  cases hg : strip settings g q with
  | ok left => exact ⟨left, rfl⟩
  | error failure =>
      obtain ⟨left, hf⟩ := h
      cases hf.symm.trans (strip_eq_error hg f)

theorem stripAll_eq_error {clauses : List Query} (h : stripAll settings f clauses = .error failure) (g : String) :
    stripAll settings g clauses = .error failure := by
  rw [stripAll, map_eq_error_iff, mapM_eq_error_iff] at h ⊢
  obtain ⟨earlier, q, later, rfl, hearlier, hq⟩ := h
  exact ⟨earlier, q, later, rfl, fun y hy => exists_strip_of_exists (hearlier y hy) g, strip_eq_error hq g⟩

theorem exists_stripAll_of_exists {clauses : List Query} (h : ∃ kept, stripAll settings f clauses = .ok kept)
    (g : String) : ∃ kept, stripAll settings g clauses = .ok kept := by
  cases hg : stripAll settings g clauses with
  | ok kept => exact ⟨kept, rfl⟩
  | error failure =>
      obtain ⟨kept, hf⟩ := h
      cases hf.symm.trans (stripAll_eq_error hg f)

theorem filterFor_eq_error {filter : Query} (h : filterFor settings filter f = .error failure) (g : String) :
    filterFor settings filter g = .error failure := by
  cases filter with
  | bool must mustNot should =>
      simp only [filterFor, bind_eq_error_iff, pure_ne_error, and_false, exists_false, or_false] at h ⊢
      rcases h with hm | ⟨kept, hm, hn⟩
      · exact .inl (stripAll_eq_error hm g)
      · obtain ⟨kept', hm'⟩ := exists_stripAll_of_exists ⟨kept, hm⟩ g
        exact .inr ⟨kept', hm', stripAll_eq_error hn g⟩
  | _ => exact h

/-! ## What is left of a clause -/

/-- What is left of a clause that can be stripped. -/
def left? (settings : Settings) (field : String) (clause : Query) : Option Query :=
  (strip settings field clause).toOption.join

theorem strip_eq_ok (h : ∃ left, strip settings f q = .ok left) (g : String) :
    strip settings g q = .ok (left? settings g q) := by
  obtain ⟨left, hg⟩ := exists_strip_of_exists h g
  rw [left?, hg]
  rfl

/-- A nested query around the clauses, unless there are none. -/
def nested? (path : String) (must mustNot should : List Query) : Option Query :=
  if must = [] ∧ mustNot = [] ∧ should = [] then none else some (.nested path (.bool must mustNot should))

variable {path : String} {must mustNot should : List Query}

theorem left?_nested : left? settings f (.nested path (.bool must mustNot should)) =
    nested? path (without settings f must) (without settings f mustNot) (without settings f should) := by
  rw [left?, strip, if_neg (by simp [isProtected]), nested?]
  split
  · rename_i hm hn hs
    rw [if_pos ⟨hm, hn, hs⟩]
    rfl
  · rename_i hne
    rw [if_neg fun h => hne h.1 h.2.1 h.2.2]
    rfl

theorem nested?_bind_left? : (nested? path must mustNot should).bind (left? settings f) =
    nested? path (without settings f must) (without settings f mustNot) (without settings f should) := by
  rw [nested?]
  split
  · rename_i h
    obtain ⟨rfl, rfl, rfl⟩ := h
    rfl
  · rw [Option.bind_some, left?_nested]

theorem left?_eq (settings : Settings) (f : String)
    (h : ∀ path must mustNot should, q ≠ .nested path (.bool must mustNot should)) :
    left? settings f q = none ∨ left? settings f q = some q := by
  rw [left?]
  cases hs : strip settings f q with
  | error failure => exact .inl rfl
  | ok left =>
      cases left with
      | none => exact .inl rfl
      | some q' =>
          rcases eq_of_strip hs with rfl | ⟨path, must, mustNot, should, rfl, -⟩
          · exact .inr rfl
          · exact absurd rfl (h path must mustNot should)

theorem without_without (clauses : List Query) :
    without settings f (without settings f clauses) = without settings f clauses := by
  simp [without, List.filter_filter]

theorem without_comm (clauses : List Query) :
    without settings g (without settings f clauses) = without settings f (without settings g clauses) := by
  simp [without, List.filter_filter, Bool.and_comm]

theorem left?_bind_self (q : Query) : (left? settings f q).bind (left? settings f) = left? settings f q := by
  by_cases hq : ∃ path must mustNot should, q = .nested path (.bool must mustNot should)
  · obtain ⟨path, must, mustNot, should, rfl⟩ := hq
    simp only [left?_nested, nested?_bind_left?, without_without]
  · simp only [not_exists] at hq
    rcases left?_eq settings f hq with hf | hf <;> simp [hf]

theorem left?_bind_comm (f g : String) (q : Query) :
    (left? settings f q).bind (left? settings g) = (left? settings g q).bind (left? settings f) := by
  by_cases hq : ∃ path must mustNot should, q = .nested path (.bool must mustNot should)
  · obtain ⟨path, must, mustNot, should, rfl⟩ := hq
    simp only [left?_nested, nested?_bind_left?]
    rw [without_comm must, without_comm mustNot, without_comm should]
  · simp only [not_exists] at hq
    rcases left?_eq settings f hq with hf | hf <;> rcases left?_eq settings g hq with hg | hg <;> simp [hf, hg]

/-! ## What is left of a filter -/

theorem exists_strip_left {left : Query} (h : strip settings f q = .ok (some left)) (g : String) :
    ∃ left', strip settings g left = .ok left' := by
  rcases eq_of_strip h with rfl | ⟨path, must, mustNot, should, rfl, rfl⟩
  · exact exists_strip_of_exists ⟨_, h⟩ g
  · rw [strip, if_neg (by simp [isProtected])]
    split <;> exact ⟨_, rfl⟩

theorem stripAll_eq_ok {clauses kept : List Query} (h : stripAll settings f clauses = .ok kept) (g : String) :
    stripAll settings g clauses = .ok (clauses.filterMap (left? settings g)) := by
  obtain ⟨left, hl, -⟩ := stripAll_eq_ok_iff.mp h
  refine stripAll_eq_ok_iff.mpr ⟨clauses.map (left? settings g), ?_, by rw [List.filterMap_map]; rfl⟩
  clear h
  induction hl with
  | nil => exact .nil
  | cons hq _ ih => exact .cons (strip_eq_ok ⟨_, hq⟩ g) ih

theorem stripAll_filterMap_left? {clauses kept : List Query} (h : stripAll settings f clauses = .ok kept) (g : String) :
    stripAll settings g (clauses.filterMap (left? settings f)) =
      .ok (clauses.filterMap fun q => (left? settings f q).bind (left? settings g)) := by
  have hf := stripAll_eq_ok h f
  have hagain : ∃ again, stripAll settings g (clauses.filterMap (left? settings f)) = .ok again := by
    refine exists_stripAll fun q' hq' => ?_
    obtain ⟨q, -, hs⟩ := (mem_kept_iff hf).mp hq'
    exact exists_strip_left hs g
  obtain ⟨again, ha⟩ := hagain
  rw [stripAll_eq_ok ha g, List.filterMap_filterMap]

/-- The clauses of a filter from which two fields are left out one after the other. -/
theorem filterFor_filterFor {filter own : Query} (h : filterFor settings filter f = .ok own) (g : String) :
    ∃ must mustNot should, filter = .bool must mustNot should ∧
      own = .bool (must.filterMap (left? settings f)) (mustNot.filterMap (left? settings f)) should ∧
      filterFor settings own g = .ok (.bool
        (must.filterMap fun q => (left? settings f q).bind (left? settings g))
        (mustNot.filterMap fun q => (left? settings f q).bind (left? settings g)) should) := by
  obtain ⟨must, mustNot, should, kept, keptNot, rfl, hm, hn, rfl⟩ := filterFor_eq_ok_iff.mp h
  cases hm.symm.trans (stripAll_eq_ok hm f)
  cases hn.symm.trans (stripAll_eq_ok hn f)
  refine ⟨must, mustNot, should, rfl, rfl, ?_⟩
  exact filterFor_eq_ok_iff.mpr
    ⟨_, _, _, _, _, rfl, stripAll_filterMap_left? hm g, stripAll_filterMap_left? hn g, rfl⟩

theorem filterFor_twice {filter own : Query} (h : filterFor settings filter f = .ok own) :
    filterFor settings own f = .ok own := by
  obtain ⟨must, mustNot, should, -, rfl, hown⟩ := filterFor_filterFor h f
  simpa only [left?_bind_self] using hown

theorem filterFor_swap {filter own other : Query} (hf : filterFor settings filter f = .ok own)
    (hg : filterFor settings filter g = .ok other) : filterFor settings own g = filterFor settings other f := by
  obtain ⟨must, mustNot, should, rfl, rfl, hown⟩ := filterFor_filterFor hf g
  obtain ⟨_, _, _, he, rfl, hother⟩ := filterFor_filterFor hg f
  cases he
  rw [hown, hother]
  simp only [left?_bind_comm f g]

/-- Leaving a field out a second time changes nothing, and two fields are left out in either order with the same
outcome. Whether it fails, and how, does not depend on the field. -/
theorem filterFor_idempotent_comm (settings : Settings) (filter : Query) (f g : String) :
    (filterFor settings filter f >>= fun own => filterFor settings own f) = filterFor settings filter f ∧
    (filterFor settings filter f >>= fun own => filterFor settings own g) =
      (filterFor settings filter g >>= fun own => filterFor settings own f) ∧
    ∀ failure, filterFor settings filter f = .error failure ↔ filterFor settings filter g = .error failure := by
  refine ⟨?idempotent, ?comm, fun failure => ⟨fun h => filterFor_eq_error h g, fun h => filterFor_eq_error h f⟩⟩
  case idempotent =>
    cases hf : filterFor settings filter f with
    | error failure => rfl
    | ok own => exact filterFor_twice hf
  case comm =>
    cases hf : filterFor settings filter f with
    | error failure => rw [filterFor_eq_error hf g]; rfl
    | ok own =>
        cases hg : filterFor settings filter g with
        | error failure => cases hf.symm.trans (filterFor_eq_error hg f)
        | ok other => exact filterFor_swap hf hg

end FacetedSearch.LeaveOneOut
