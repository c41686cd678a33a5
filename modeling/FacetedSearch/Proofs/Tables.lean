import Mathlib.Data.List.Basic
import Mathlib.Data.List.Induction
import Mathlib.Data.List.Nodup
import FacetedSearch.Table

/-!
# Tables built step by step

Steps that each change the item of one key build a table in which every item is what the steps on its key make of a
fresh one.
-/

namespace FacetedSearch

/-! ## First occurrences -/

theorem eraseDups_concat (values : List String) (value : String) :
    (values ++ [value]).eraseDups =
      if value ∈ values then values.eraseDups else values.eraseDups ++ [value] := by
  have hone : [value].eraseDups = [value] := rfl
  rw [List.eraseDups_append]
  split
  · rename_i h
    simp [List.removeAll, h]
  · rename_i h
    simp [List.removeAll, h, hone]

theorem nodup_eraseDups (values : List String) : values.eraseDups.Nodup := by
  induction values using List.reverseRecOn with
  | nil => exact List.nodup_nil
  | append_singleton values value ih =>
      rw [eraseDups_concat]
      split
      · exact ih
      · rename_i h
        rw [← List.concat_eq_append]
        exact (List.nodup_concat _ _).mpr ⟨List.mem_eraseDups.not.mpr h, ih⟩

end FacetedSearch

namespace FacetedSearch.Table

variable {ι α : Type _}

/-- Updating one name leaves the items of the other names as they are. -/
theorem filter_update {key : α → String} {name : String} {fresh : α} {change : α → α} (hf : key (change fresh) = name)
    (hc : ∀ x, key (change x) = key x) (items : List α) :
    (update key name fresh change items).filter (key · ≠ name) = items.filter (key · ≠ name) := by
  induction items with
  | nil => simp [update, hf]
  | cons item rest ih =>
      by_cases hk : key item = name
      · simp [update, hk, hc]
      · simp only [update, hk, if_false, List.filter_cons, ih]

theorem find?_eq_none_iff {name : String} {table : List (String × α)} :
    find? name table = none ↔ name ∉ names table := by
  induction table with
  | nil => simp [find?, names]
  | cons entry rest ih =>
      rw [find?, names, List.map_cons, List.mem_cons, not_or, ← names, ← ih]
      by_cases hk : entry.1 = name
      · simp [hk]
      · simp [hk, Ne.symm hk]

theorem mem_of_find?_eq_some {name : String} {value : α} {table : List (String × α)}
    (h : find? name table = some value) : (name, value) ∈ table := by
  induction table with
  | nil => cases h
  | cons entry rest ih =>
      rw [find?] at h
      split at h
      · rename_i hk
        cases h
        exact hk ▸ List.mem_cons_self
      · exact List.mem_cons_of_mem _ (ih h)

theorem find?_eq_some_iff {name : String} {value : α} {table : List (String × α)} (h : Distinct table) :
    find? name table = some value ↔ (name, value) ∈ table :=
  ⟨mem_of_find?_eq_some, find?_eq_some_of_mem h⟩

theorem mem_of_mem_put {name : String} {value : α} {entry : String × α} {table : List (String × α)}
    (h : entry ∈ put name value table) : entry = (name, value) ∨ entry ∈ table := by
  induction table with
  | nil => exact .inl (List.mem_singleton.mp h)
  | cons other rest ih =>
      rw [put] at h
      split at h
      · rename_i hk
        exact (List.mem_cons.mp h).imp (fun he => hk ▸ he) (List.mem_cons_of_mem _)
      · rcases List.mem_cons.mp h with rfl | h
        · exact .inr List.mem_cons_self
        · exact (ih h).imp_right (List.mem_cons_of_mem _)

theorem mem_of_mem_ofList {entry : String × α} {entries : List (String × α)} (h : entry ∈ ofList entries) :
    entry ∈ entries := by
  induction entries using List.reverseRecOn with
  | nil => cases h
  | append_singleton entries last ih =>
      rw [ofList, List.foldl_concat] at h
      rcases mem_of_mem_put h with rfl | h
      · exact List.mem_append_right _ List.mem_cons_self
      · exact List.mem_append_left _ (ih h)

/-- How each step changes one item of a table. A step keeps the key of its item. -/
structure Steps (ι α : Type _) where
  key : α → String
  fresh : String → α
  /-- The key of the item that the step changes. -/
  name? : ι → Option String
  change : ι → α → α
  key_fresh : ∀ name, key (fresh name) = name
  key_change : ∀ step item, key (change step item) = key item

namespace Steps

variable (s : Steps ι α)

def apply (items : List α) (step : ι) : List α :=
  match s.name? step with
  | some name => update s.key name (s.fresh name) (s.change step) items
  | none => items

/-- What the steps on the name make of a fresh item. -/
def gathered (name : String) (steps : List ι) : α :=
  (steps.filter (s.name? · = some name)).foldl (fun item step => s.change step item) (s.fresh name)

def Concerns (steps : List ι) (name : String) : Prop := ∃ step ∈ steps, s.name? step = some name

structure Collects (steps : List ι) (items : List α) : Prop where
  item_eq : ∀ x ∈ items, x = s.gathered (s.key x) steps
  nodup : (items.map s.key).Nodup
  mem_keys : ∀ name, name ∈ items.map s.key ↔ s.Concerns steps name

variable {s} {steps : List ι} {step : ι} {items : List α} {name : String}

theorem gathered_concat : s.gathered name (steps ++ [step]) =
    if s.name? step = some name then s.change step (s.gathered name steps) else s.gathered name steps := by
  by_cases h : s.name? step = some name <;> simp [gathered, h]

theorem gathered_append_of_forall {others : List ι} (h : ∀ step ∈ others, s.name? step ≠ some name) :
    s.gathered name (steps ++ others) = s.gathered name steps := by
  have hnil : others.filter (s.name? · = some name) = [] := by simpa using h
  rw [gathered, List.filter_append, hnil, List.append_nil, gathered]

theorem gathered_append_of_not_concerns {others : List ι} (h : ¬ s.Concerns steps name) :
    s.gathered name (steps ++ others) = s.gathered name others := by
  have hnil : steps.filter (s.name? · = some name) = [] := by
    simpa [Concerns] using h
  rw [gathered, List.filter_append, hnil, List.nil_append, gathered]

theorem gathered_eq_fresh (h : ¬ s.Concerns steps name) : s.gathered name steps = s.fresh name := by
  rw [← List.append_nil steps, gathered_append_of_not_concerns h]
  rfl

/-- What a fresh item satisfies and every step preserves holds of a gathered item. -/
theorem gathered_induction (s : Steps ι α) {P : α → Prop} (start : P (s.fresh name))
    (next : ∀ step item, P item → P (s.change step item)) (steps : List ι) : P (s.gathered name steps) := by
  rw [gathered]
  generalize steps.filter (s.name? · = some name) = own
  induction own using List.reverseRecOn with
  | nil => exact start
  | append_singleton own step ih =>
      rw [List.foldl_concat]
      exact next step _ ih

theorem key_gathered (s : Steps ι α) (name : String) (steps : List ι) : s.key (s.gathered name steps) = name :=
  s.gathered_induction (s.key_fresh name) (fun step item h => (s.key_change step item).trans h) steps

theorem concerns_append {others : List ι} :
    s.Concerns (steps ++ others) name ↔ s.Concerns steps name ∨ s.Concerns others name := by
  simp only [Concerns, List.mem_append, or_and_right, exists_or]

theorem concerns_singleton : s.Concerns [step] name ↔ s.name? step = some name := by
  simp [Concerns]

theorem concerns_append_of_forall {others : List ι} (h : ∀ step ∈ others, s.name? step ≠ some name) :
    s.Concerns (steps ++ others) name ↔ s.Concerns steps name := by
  rw [concerns_append, or_iff_left]
  rintro ⟨step, hs, hn⟩
  exact h step hs hn

theorem concerns_perm {others : List ι} (h : steps.Perm others) : s.Concerns steps name ↔ s.Concerns others name := by
  simp only [Concerns, h.mem_iff]

theorem Collects.skip (h : s.Collects steps items) (hn : s.name? step = none) :
    s.Collects (steps ++ [step]) items := by
  refine ⟨?_, h.nodup, ?_⟩
  · intro x hx
    rw [gathered_append_of_forall (by simp [hn])]
    exact h.item_eq x hx
  · intro name
    rw [h.mem_keys, concerns_append_of_forall (by simp [hn])]

theorem Collects.update (h : s.Collects steps items) (hn : s.name? step = some name) :
    s.Collects (steps ++ [step]) (update s.key name (s.fresh name) (s.change step) items) := by
  have hfresh : s.key (s.change step (s.fresh name)) = name := by rw [s.key_change, s.key_fresh]
  refine ⟨?_, nodup_key_update hfresh (s.key_change step) h.nodup, ?_⟩
  · intro x hx
    rcases mem_update h.nodup hx with ⟨hm, hk⟩ | ⟨y, hy, rfl, rfl⟩ | ⟨hm, rfl⟩
    · rw [gathered_concat, if_neg (fun he => hk (Option.some.inj (he.symm.trans hn)))]
      exact h.item_eq x hm
    · rw [s.key_change, gathered_concat, if_pos hn, ← h.item_eq y hy]
    · rw [hfresh, gathered_concat, if_pos hn, gathered_eq_fresh (fun hc => hm ((h.mem_keys name).mpr hc))]
  · intro other
    rw [map_key_update hfresh (s.key_change step), concerns_append, concerns_singleton, hn, Option.some.injEq,
      ← h.mem_keys]
    split
    · rename_i hm
      exact ⟨.inl, fun ho => ho.elim id fun he => he ▸ hm⟩
    · rw [List.mem_append, List.mem_singleton, eq_comm]

theorem Collects.apply (h : s.Collects steps items) (step : ι) :
    s.Collects (steps ++ [step]) (s.apply items step) := by
  rw [Steps.apply]
  split
  · rename_i hn
    exact h.update hn
  · rename_i hn
    exact h.skip hn

theorem collects (s : Steps ι α) (steps : List ι) : s.Collects steps (steps.foldl s.apply []) := by
  induction steps using List.reverseRecOn with
  | nil => exact ⟨by simp, by simp, by simp [Concerns]⟩
  | append_singleton steps step ih =>
      rw [List.foldl_concat]
      exact ih.apply step

theorem Collects.mem_iff (h : s.Collects steps items) {x : α} :
    x ∈ items ↔ ∃ name, s.Concerns steps name ∧ s.gathered name steps = x := by
  constructor
  · intro hx
    exact ⟨s.key x, (h.mem_keys _).mp (List.mem_map_of_mem hx), (h.item_eq x hx).symm⟩
  · rintro ⟨name, hc, rfl⟩
    obtain ⟨y, hy, rfl⟩ := List.mem_map.mp ((h.mem_keys name).mpr hc)
    rwa [← h.item_eq y hy]

end Steps

end FacetedSearch.Table
