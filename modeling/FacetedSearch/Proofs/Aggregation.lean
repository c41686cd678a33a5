import Mathlib.Data.List.Induction
import FacetedSearch.Facet.Aggregation
import FacetedSearch.Proofs.Success

/-!
# Entries of aggregations

The aggregations of planned facets hold one entry for each facet, in the order of the facets. Where each facet by
itself has an entry, only a repeated name can fail them.
-/

namespace FacetedSearch.Aggregations

variable {settings : Settings} {filter : Query}

/-- The entry of a facet, restricted by what is left of the filter of the search without its field. -/
def IsEntry (settings : Settings) (filter : Query) (p : PlannedFacet) (entry : String × Json) : Prop :=
  ∃ own aggs, LeaveOneOut.filterFor settings filter p.facet.field = .ok own ∧ p.toJson settings = .ok aggs ∧
    entry = (p.aggregationName, .obj [("aggs", aggs), ("filter", own.toJson)])

theorem add_eq_ok_iff {a a' : Aggregations} {p : PlannedFacet} : a.add settings filter p = .ok a' ↔
    ¬ (p.aggregationName = allItems ∨ p.aggregationName ∈ a.names) ∧
      ∃ entry, IsEntry settings filter p entry ∧ a' = ⟨a.entries ++ [entry]⟩ := by
  rw [add]
  split
  · rename_i hn
    exact iff_of_false nofun fun h => h.1 hn
  · rename_i hn
    simp only [bind_eq_ok_iff, pure_eq_ok_iff, hn, not_false_eq_true, true_and, IsEntry]
    constructor
    · rintro ⟨own, ho, aggs, ha, rfl⟩
      exact ⟨_, ⟨own, aggs, ho, ha, rfl⟩, rfl⟩
    · rintro ⟨_, ⟨own, aggs, ho, ha, rfl⟩, rfl⟩
      exact ⟨own, ho, aggs, ha, rfl⟩

/-- Facets are added one after the other, behind the entries that are there. -/
theorem exists_entries_of_foldlM {planned : List PlannedFacet} {a a' : Aggregations}
    (h : planned.foldlM (add settings filter) a = .ok a') :
    ∃ entries, a'.entries = a.entries ++ entries ∧ List.Forall₂ (IsEntry settings filter) planned entries := by
  induction planned generalizing a with
  | nil =>
      rw [List.foldlM_nil, pure_eq_ok_iff] at h
      exact ⟨[], by rw [h, List.append_nil], .nil⟩
  | cons p rest ih =>
      rw [List.foldlM_cons, bind_eq_ok_iff] at h
      obtain ⟨next, hp, hr⟩ := h
      obtain ⟨-, entry, he, rfl⟩ := add_eq_ok_iff.mp hp
      obtain ⟨entries, heq, hall⟩ := ih hr
      exact ⟨entry :: entries, by rw [heq, List.append_assoc, List.singleton_append], .cons he hall⟩

theorem forall₂_entries_of_build {planned : List PlannedFacet} {a : Aggregations}
    (h : build settings planned filter = .ok a) :
    List.Forall₂ (IsEntry settings filter) planned a.entries := by
  obtain ⟨entries, he, hall⟩ := exists_entries_of_foldlM h
  rw [List.nil_append] at he
  exact he ▸ hall

/-- No two facets share a name. -/
theorem distinct_of_foldlM {planned : List PlannedFacet} {a a' : Aggregations} (ha : Table.Distinct a.entries)
    (h : planned.foldlM (add settings filter) a = .ok a') : Table.Distinct a'.entries := by
  induction planned generalizing a with
  | nil =>
      rw [List.foldlM_nil, pure_eq_ok_iff] at h
      exact h ▸ ha
  | cons p rest ih =>
      rw [List.foldlM_cons, bind_eq_ok_iff] at h
      obtain ⟨next, hp, hr⟩ := h
      obtain ⟨hn, entry, ⟨_, _, -, -, rfl⟩, rfl⟩ := add_eq_ok_iff.mp hp
      refine ih ?_ hr
      rw [Table.Distinct, Table.names, List.map_append]
      refine List.nodup_append.mpr ⟨ha, by simp, ?_⟩
      rintro name hm _ hs rfl
      have he : name = p.aggregationName := List.mem_singleton.mp hs
      exact hn (.inr (he ▸ hm))

theorem distinct_of_build {planned : List PlannedFacet} {a : Aggregations} (h : build settings planned filter = .ok a) :
    Table.Distinct a.entries :=
  distinct_of_foldlM (by simp [Table.Distinct, Table.names]) h

theorem names_of_build {planned : List PlannedFacet} {a : Aggregations} (h : build settings planned filter = .ok a) :
    a.names = planned.map (·.aggregationName) := by
  have hall := forall₂_entries_of_build h
  rw [names, Table.names]
  generalize a.entries = entries at hall
  clear h
  induction hall with
  | nil => rfl
  | cons he _ ih =>
      obtain ⟨_, _, -, -, rfl⟩ := he
      rw [List.map_cons, List.map_cons, ih]

/-! ## Repeated names -/

/-- The name stands in the list a second time, and no name did so before. -/
def FirstRepeat (names : List String) (name : String) : Prop :=
  ∃ earlier later, names = earlier ++ name :: later ∧ earlier.Nodup ∧ name ∈ earlier

theorem FirstRepeat.append {names : List String} {name : String} (h : FirstRepeat names name) (others : List String) :
    FirstRepeat (names ++ others) name := by
  obtain ⟨earlier, later, rfl, hd, hm⟩ := h
  exact ⟨earlier, later ++ others, by rw [List.append_assoc, List.cons_append], hd, hm⟩

theorem exists_firstRepeat_iff {names : List String} : (∃ name, FirstRepeat names name) ↔ ¬ names.Nodup := by
  constructor
  · rintro ⟨name, earlier, later, rfl, -, hm⟩ hd
    exact (List.nodup_append.mp hd).2.2 name hm name List.mem_cons_self rfl
  · intro h
    induction names using List.reverseRecOn with
    | nil => exact absurd List.nodup_nil h
    | append_singleton names name ih =>
        by_cases hd : names.Nodup
        · refine ⟨name, names, [], rfl, hd, ?_⟩
          rw [List.nodup_append] at h
          by_contra hm
          refine h ⟨hd, by simp, ?_⟩
          rintro other ho _ hs rfl
          exact hm (List.mem_singleton.mp hs ▸ ho)
        · obtain ⟨first, hf⟩ := ih hd
          exact ⟨first, hf.append [name]⟩

theorem aggregationName_ne_allItems (p : PlannedFacet) : p.aggregationName ≠ allItems := by
  intro h
  have hcolon : ':' ∈ p.aggregationName.toList := by
    simp [PlannedFacet.aggregationName, Facet.aggregationName]
  rw [h] at hcolon
  revert hcolon
  decide

theorem add_eq_error_iff {a : Aggregations} {p : PlannedFacet} {failure : Failure}
    (hp : ∃ entry, IsEntry settings filter p entry) : a.add settings filter p = .error failure ↔
      p.aggregationName ∈ a.names ∧ failure = .nameCollision p.aggregationName := by
  obtain ⟨entry, own, aggs, ho, ha, -⟩ := hp
  simp only [add, aggregationName_ne_allItems, false_or]
  split
  · rename_i hn
    simp [hn, throw, throwThe, MonadExceptOf.throw, bind, Except.bind, eq_comm]
  · rename_i hn
    simp [hn, ho, ha, bind, Except.bind, pure, Except.pure]

variable {planned : List PlannedFacet}

theorem firstRepeat_of_build {failure : Failure} (hall : ∀ p ∈ planned, ∃ entry, IsEntry settings filter p entry)
    (h : build settings planned filter = .error failure) :
    ∃ name, failure = .nameCollision name ∧ FirstRepeat (planned.map (·.aggregationName)) name := by
  obtain ⟨earlier, p, later, reached, rfl, he, hp⟩ := foldlM_eq_error_iff.mp h
  obtain ⟨hm, rfl⟩ := (add_eq_error_iff (hall p (by simp))).mp hp
  have hnames : reached.names = earlier.map (·.aggregationName) := names_of_build he
  have hdistinct : reached.names.Nodup := distinct_of_build he
  rw [hnames] at hm hdistinct
  exact ⟨_, rfl, _, _, by rw [List.map_append, List.map_cons], hdistinct, hm⟩

theorem exists_build_iff (hall : ∀ p ∈ planned, ∃ entry, IsEntry settings filter p entry) :
    (∃ a, build settings planned filter = .ok a) ↔ (planned.map (·.aggregationName)).Nodup := by
  constructor
  · rintro ⟨a, h⟩
    rw [← names_of_build h]
    exact distinct_of_build h
  · intro hd
    cases h : build settings planned filter with
    | ok a => exact ⟨a, rfl⟩
    | error failure =>
        obtain ⟨name, -, hf⟩ := firstRepeat_of_build hall h
        exact absurd hd (exists_firstRepeat_iff.mp ⟨name, hf⟩)

theorem build_eq_error_iff (hall : ∀ p ∈ planned, ∃ entry, IsEntry settings filter p entry) {failure : Failure} :
    build settings planned filter = .error failure ↔
      ∃ name, failure = .nameCollision name ∧ FirstRepeat (planned.map (·.aggregationName)) name := by
  refine ⟨firstRepeat_of_build hall, ?_⟩
  rintro ⟨name, rfl, earlier, later, he, hd, hm⟩
  obtain ⟨before, rest, rfl, rfl, hrest⟩ := List.map_eq_append_iff.mp he
  obtain ⟨p, after, rfl, rfl, rfl⟩ := List.map_eq_cons_iff.mp hrest
  rw [List.forall_mem_append, List.forall_mem_cons] at hall
  -- The facets before the repeat have distinct names, so they get their entries.
  obtain ⟨reached, hr⟩ := (exists_build_iff hall.1).mpr hd
  refine foldlM_eq_error_iff.mpr ⟨before, p, after, reached, rfl, hr, ?_⟩
  exact (add_eq_error_iff hall.2.1).mpr ⟨names_of_build hr ▸ hm, rfl⟩

end FacetedSearch.Aggregations
