/-!
# Tables

Lists of named entries in the order in which the names first came. A name that is put again keeps its place and
gets the new value.
-/

namespace FacetedSearch.Table

variable {α β : Type _}

def find? (name : String) : List (String × α) → Option α
  | [] => none
  | (k, v) :: rest => if k = name then some v else find? name rest

/-- Replaces the entry called `name`, or adds one at the end. -/
def put (name : String) (value : α) : List (String × α) → List (String × α)
  | [] => [(name, value)]
  | (k, v) :: rest => if k = name then (k, value) :: rest else (k, v) :: put name value rest

/-- Puts the entries one after the other, so that the last value of a name wins. -/
def ofList (entries : List (String × α)) : List (String × α) :=
  entries.foldl (fun table entry => put entry.1 entry.2 table) []

/-- Changes the first item whose key is `name`; without one, a fresh item is changed and added at the end. -/
def update (key : α → String) (name : String) (fresh : α) (change : α → α) : List α → List α
  | [] => [change fresh]
  | item :: rest =>
    if key item = name then change item :: rest else item :: update key name fresh change rest

def names (table : List (String × α)) : List String := table.map Prod.fst

def Distinct (table : List (String × α)) : Prop := (names table).Nodup

theorem mem_names_put {name other : String} {value : α} {table : List (String × α)} :
    other ∈ names (put name value table) ↔ other = name ∨ other ∈ names table := by
  induction table with
  | nil => simp [put, names]
  | cons entry rest ih =>
    obtain ⟨k, v⟩ := entry
    by_cases hk : k = name
    · subst hk; simp [put, names]
    · simp only [names] at ih
      simp only [put, hk, if_false, names, List.map_cons, List.mem_cons, ih]
      grind

theorem Distinct.put {table : List (String × α)} (h : Distinct table) (name : String) (value : α) :
    Distinct (put name value table) := by
  induction table with
  | nil => simp [Table.put, Distinct, names]
  | cons entry rest ih =>
    obtain ⟨k, v⟩ := entry
    simp only [Distinct, names, List.map_cons, List.nodup_cons] at h
    by_cases hk : k = name
    · rw [Table.put, if_pos hk]
      exact List.nodup_cons.2 h
    · have hmem : k ∉ names (Table.put name value rest) := by
        rw [mem_names_put]
        rintro (rfl | hm)
        · exact hk rfl
        · exact h.1 hm
      rw [Table.put, if_neg hk]
      exact List.nodup_cons.2 ⟨hmem, ih h.2⟩

theorem find?_eq_some_of_mem {name : String} {value : α} {table : List (String × α)} (h : Distinct table)
    (hm : (name, value) ∈ table) : find? name table = some value := by
  induction table with
  | nil => cases hm
  | cons entry rest ih =>
    obtain ⟨k, v⟩ := entry
    simp only [Distinct, names, List.map_cons, List.nodup_cons] at h
    rcases List.mem_cons.mp hm with he | hm
    · cases he
      rw [find?, if_pos rfl]
    · have hk : k ≠ name := fun he => h.1 (he ▸ List.mem_map_of_mem hm)
      rw [find?, if_neg hk, ih h.2 hm]

theorem mem_update {key : α → String} {name : String} {fresh x : α} {change : α → α} {items : List α}
    (nodup : (items.map key).Nodup) (h : x ∈ update key name fresh change items) :
    (x ∈ items ∧ key x ≠ name) ∨ (∃ y ∈ items, key y = name ∧ x = change y) ∨
      (name ∉ items.map key ∧ x = change fresh) := by
  induction items with
  | nil => exact .inr (.inr ⟨List.not_mem_nil, List.mem_singleton.mp h⟩)
  | cons item rest ih =>
    rw [List.map_cons, List.nodup_cons] at nodup
    rw [update] at h
    split at h
    · rename_i hk
      rcases List.mem_cons.mp h with rfl | hx
      · exact .inr (.inl ⟨item, by simp, hk, rfl⟩)
      · refine .inl ⟨List.mem_cons_of_mem _ hx, fun he => nodup.1 ?_⟩
        rw [hk, ← he]
        exact List.mem_map_of_mem hx
    · rename_i hk
      rcases List.mem_cons.mp h with rfl | hx
      · exact .inl ⟨by simp, hk⟩
      · rcases ih nodup.2 hx with ⟨hm, hn⟩ | ⟨y, hy, hn, he⟩ | ⟨hn, he⟩
        · exact .inl ⟨List.mem_cons_of_mem _ hm, hn⟩
        · exact .inr (.inl ⟨y, List.mem_cons_of_mem _ hy, hn, he⟩)
        · exact .inr (.inr ⟨by simpa [Ne.symm hk] using hn, he⟩)

/-- Updating keeps the keys, and adds the name at the end unless it is there. -/
theorem map_key_update {key : α → String} {name : String} {fresh : α} {change : α → α} {items : List α}
    (hf : key (change fresh) = name) (hc : ∀ x, key (change x) = key x) :
    (update key name fresh change items).map key =
      if name ∈ items.map key then items.map key else items.map key ++ [name] := by
  induction items with
  | nil => simp [update, hf]
  | cons item rest ih =>
    by_cases hk : key item = name
    · simp [update, hk, hc]
    · by_cases hm : name ∈ rest.map key
      · simp only [update, hk, if_false, List.map_cons, ih, hm, if_true, List.mem_cons_of_mem]
      · have : ¬ name ∈ key item :: rest.map key := by simpa [Ne.symm hk] using hm
        simp only [update, hk, if_false, List.map_cons, ih, hm, this, List.cons_append]

theorem nodup_key_update {key : α → String} {name : String} {fresh : α} {change : α → α} {items : List α}
    (hf : key (change fresh) = name) (hc : ∀ x, key (change x) = key x) (nodup : (items.map key).Nodup) :
    ((update key name fresh change items).map key).Nodup := by
  rw [map_key_update hf hc]
  split
  · exact nodup
  · rename_i hn
    refine List.nodup_append.mpr ⟨nodup, by simp, ?_⟩
    intro a ha b hb
    rw [List.mem_singleton.mp hb]
    exact fun he => hn (he ▸ ha)

theorem distinct_ofList (entries : List (String × α)) : Distinct (ofList entries) := by
  have general : ∀ (es : List (String × α)) (table : List (String × α)), Distinct table →
      Distinct (es.foldl (fun table entry => put entry.1 entry.2 table) table) := by
    intro es
    induction es with
    | nil => intro table h; exact h
    | cons e es ih => intro table h; exact ih _ (h.put _ _)
  exact general entries [] (by simp [Distinct, names])

end FacetedSearch.Table
