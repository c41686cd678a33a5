import Mathlib.Data.List.Forall2

/-!
# Computations that succeed or fail

What the steps of a computation have given when the whole of it succeeds, and which step it is that fails when the
whole fails.
-/

namespace FacetedSearch

variable {ε α β : Type}

theorem bind_eq_ok_iff {x : Except ε α} {f : α → Except ε β} {b : β} :
    x >>= f = .ok b ↔ ∃ a, x = .ok a ∧ f a = .ok b := by
  cases x <;> simp [bind, Except.bind]

theorem map_eq_ok_iff {x : Except ε α} {f : α → β} {b : β} : x.map f = .ok b ↔ ∃ a, x = .ok a ∧ f a = b := by
  cases x <;> simp [Except.map]

theorem map_eq_error_iff {x : Except ε α} {f : α → β} {e : ε} : x.map f = .error e ↔ x = .error e := by
  cases x <;> simp [Except.map]

theorem bind_eq_error_iff {x : Except ε α} {f : α → Except ε β} {e : ε} :
    x >>= f = .error e ↔ x = .error e ∨ ∃ a, x = .ok a ∧ f a = .error e := by
  cases x <;> simp [bind, Except.bind]

theorem pure_ne_error {a : α} {e : ε} : (pure a : Except ε α) ≠ .error e := nofun

theorem pure_eq_ok_iff {a b : α} : (pure a : Except ε α) = .ok b ↔ a = b := by
  simp [pure, Except.pure]

theorem mapM_eq_ok_iff {f : α → Except ε β} {items : List α} {results : List β} :
    items.mapM f = .ok results ↔ List.Forall₂ (fun x y => f x = .ok y) items results := by
  induction items generalizing results with
  | nil =>
      rw [List.mapM_nil, pure_eq_ok_iff, List.forall₂_nil_left_iff]
      exact eq_comm
  | cons x rest ih =>
      rw [List.mapM_cons, bind_eq_ok_iff]
      simp only [bind_eq_ok_iff, pure_eq_ok_iff, ih]
      constructor
      · rintro ⟨y, hy, ys, hys, rfl⟩
        exact .cons hy hys
      · intro h
        cases h with
        | cons hy hys => exact ⟨_, hy, _, hys, rfl⟩

theorem mapM_eq_error_iff {f : α → Except ε β} {items : List α} {e : ε} :
    items.mapM f = .error e ↔ ∃ earlier x later, items = earlier ++ x :: later ∧
      (∀ y ∈ earlier, ∃ result, f y = .ok result) ∧ f x = .error e := by
  constructor
  · intro h
    induction items with
    | nil => exact absurd h pure_ne_error
    | cons x rest ih =>
        rw [List.mapM_cons, bind_eq_error_iff] at h
        rcases h with hx | ⟨y, hy, h⟩
        · exact ⟨[], x, rest, rfl, nofun, hx⟩
        · rcases bind_eq_error_iff.mp h with hrest | ⟨_, -, hp⟩
          · obtain ⟨earlier, z, later, rfl, he, hz⟩ := ih hrest
            exact ⟨x :: earlier, z, later, rfl, List.forall_mem_cons.mpr ⟨⟨y, hy⟩, he⟩, hz⟩
          · exact absurd hp pure_ne_error
  · rintro ⟨earlier, x, later, rfl, he, hx⟩
    induction earlier with
    | nil => rw [List.nil_append, List.mapM_cons, hx]; rfl
    | cons y earlier ih =>
        rw [List.forall_mem_cons] at he
        obtain ⟨⟨result, hy⟩, he⟩ := he
        rw [List.cons_append, List.mapM_cons, hy, ih he]
        rfl

/-- A fold fails at the first step that fails, after steps that led there. -/
theorem foldlM_eq_error_iff {f : β → α → Except ε β} {items : List α} {b : β} {e : ε} :
    items.foldlM f b = .error e ↔ ∃ earlier x later reached, items = earlier ++ x :: later ∧
      earlier.foldlM f b = .ok reached ∧ f reached x = .error e := by
  constructor
  · intro h
    induction items generalizing b with
    | nil => exact absurd h pure_ne_error
    | cons x rest ih =>
        rw [List.foldlM_cons, bind_eq_error_iff] at h
        rcases h with hx | ⟨next, hn, hrest⟩
        · exact ⟨[], x, rest, b, rfl, rfl, hx⟩
        · obtain ⟨earlier, y, later, reached, rfl, he, hy⟩ := ih hrest
          refine ⟨x :: earlier, y, later, reached, rfl, ?_, hy⟩
          rw [List.foldlM_cons, hn]
          exact he
  · rintro ⟨earlier, x, later, reached, rfl, he, hx⟩
    rw [List.foldlM_append, he]
    change (x :: later).foldlM f reached = .error e
    rw [List.foldlM_cons, hx]
    rfl

theorem exists_item_of_mem_results {R : α → β → Prop} {items : List α} {results : List β}
    (h : List.Forall₂ R items results) {y : β} (hy : y ∈ results) : ∃ x ∈ items, R x y := by
  induction h with
  | nil => cases hy
  | cons hr _ ih =>
      rcases List.mem_cons.mp hy with rfl | hy
      · exact ⟨_, List.mem_cons_self, hr⟩
      · obtain ⟨x, hx, hR⟩ := ih hy
        exact ⟨x, List.mem_cons_of_mem _ hx, hR⟩

theorem mem_results_iff {f : α → Except ε β} {items : List α} {results : List β}
    (h : List.Forall₂ (fun x y => f x = .ok y) items results) {y : β} : y ∈ results ↔ ∃ x ∈ items, f x = .ok y := by
  constructor
  · exact exists_item_of_mem_results h
  · rintro ⟨x, hx, hy⟩
    obtain ⟨z, hz, hxz⟩ := exists_item_of_mem_results h.flip hx
    cases hy.symm.trans hxz
    exact hz

theorem exists_mapM_iff {f : α → Except ε β} {items : List α} :
    (∃ results, items.mapM f = .ok results) ↔ ∀ x ∈ items, ∃ y, f x = .ok y := by
  constructor
  · rintro ⟨results, h⟩ x hx
    obtain ⟨y, -, hy⟩ := exists_item_of_mem_results (mapM_eq_ok_iff.mp h).flip hx
    exact ⟨y, hy⟩
  · intro h
    cases hm : items.mapM f with
    | ok results => exact ⟨results, rfl⟩
    | error e =>
        obtain ⟨earlier, x, later, rfl, -, hx⟩ := mapM_eq_error_iff.mp hm
        obtain ⟨y, hy⟩ := h x (by simp)
        cases hy.symm.trans hx

end FacetedSearch
