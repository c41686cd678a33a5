import FacetedSearch.Query.Evaluation

/-!
# What a document holds

The values of a field as a relation on documents, beside the search that evaluation makes for them, and the
meaning of each kind of query as a proposition over that relation.
-/

namespace FacetedSearch

/-! ## Values on a path -/

/-- The value is found at the end of the path. Arrays are looked through and null is no value. -/
inductive Json.Reaches : Json → List String → Json → Prop
  | item {items item path v} : item ∈ items → Reaches item path v → Reaches (.arr items) path v
  | member {members name value path v} : Table.find? name members = some value → Reaches value path v →
      Reaches (.obj members) (name :: path) v
  | object {members} : Reaches (.obj members) [] (.obj members)
  | bool {b} : Reaches (.bool b) [] (.bool b)
  | num {n} : Reaches (.num n) [] (.num n)
  | str {s} : Reaches (.str s) [] (.str s)

namespace Json

mutual

theorem mem_valuesAt {v : Json} : (doc : Json) → (path : List String) →
    (v ∈ doc.valuesAt path ↔ doc.Reaches path v)
  | .arr items, path => by
      rw [valuesAt, mem_valuesAtItems items path]
      constructor
      · rintro ⟨item, hi, hr⟩
        exact .item hi hr
      · intro h
        cases h with
        | item hi hr => exact ⟨_, hi, hr⟩
  | .obj members, name :: path => by
      rw [valuesAt, mem_valuesAtMember members name path]
      constructor
      · rintro ⟨value, hf, hr⟩
        exact .member hf hr
      · intro h
        cases h with
        | member hf hr => exact ⟨_, hf, hr⟩
  | .obj members, [] => by
      rw [valuesAt, List.mem_singleton]
      exact ⟨fun h => h ▸ .object, fun h => by cases h; rfl⟩
  | .null, path => by
      rw [valuesAt]
      exact ⟨fun h => absurd h List.not_mem_nil, fun h => nomatch h⟩
  | .bool b, [] => by
      rw [valuesAt, List.mem_singleton]
      exact ⟨fun h => h ▸ .bool, fun h => by cases h; rfl⟩
  | .num n, [] => by
      rw [valuesAt, List.mem_singleton]
      exact ⟨fun h => h ▸ .num, fun h => by cases h; rfl⟩
  | .str s, [] => by
      rw [valuesAt, List.mem_singleton]
      exact ⟨fun h => h ▸ .str, fun h => by cases h; rfl⟩
  | .bool _, _ :: _ => by simp only [valuesAt]; exact ⟨fun h => absurd h List.not_mem_nil, fun h => nomatch h⟩
  | .num _, _ :: _ => by simp only [valuesAt]; exact ⟨fun h => absurd h List.not_mem_nil, fun h => nomatch h⟩
  | .str _, _ :: _ => by simp only [valuesAt]; exact ⟨fun h => absurd h List.not_mem_nil, fun h => nomatch h⟩

theorem mem_valuesAtItems {v : Json} : (items : List Json) → (path : List String) →
    (v ∈ valuesAtItems items path ↔ ∃ item ∈ items, item.Reaches path v)
  | [], path => by simp [valuesAtItems]
  | item :: rest, path => by
      rw [valuesAtItems, List.mem_append, mem_valuesAt item path, mem_valuesAtItems rest path]
      simp

theorem mem_valuesAtMember {v : Json} : (members : List (String × Json)) → (name : String) →
    (path : List String) →
    (v ∈ valuesAtMember members name path ↔
      ∃ value, Table.find? name members = some value ∧ value.Reaches path v)
  | [], name, path => by simp [valuesAtMember, Table.find?]
  | (key, value) :: rest, name, path => by
      rw [valuesAtMember, Table.find?]
      by_cases hk : key = name
      · simpa [hk] using mem_valuesAt value path
      · simpa [hk] using mem_valuesAtMember rest name path

end

end Json

/-! ## Fields in scope -/

/-- The value is found under the name: below the innermost instance that owns the name, else from the root. -/
inductive Scope.Sees (root : Json) : List (String × Json) → String → Json → Prop
  | root {name v} : root.Reaches (Text.segments name) v → Sees root [] name v
  | own {path object outer name rest v} : Text.below? path name = some rest →
      object.Reaches (Text.segments rest) v → Sees root ((path, object) :: outer) name v
  | outer {path object outer name v} : Text.below? path name = none → Sees root outer name v →
      Sees root ((path, object) :: outer) name v

/-- The whole document in scope, and no instance. -/
def Json.scope (document : Json) : Scope := { root := document }

namespace Scope

theorem mem_found_iff {scope : Scope} {name : String} {v : Json} :
    v ∈ scope.found name ↔ Sees scope.root scope.instances name v := by
  obtain ⟨root, instances⟩ := scope
  simp only [found]
  induction instances with
  | nil =>
      rw [anchorIn, Json.mem_valuesAt]
      exact ⟨.root, fun h => by cases h with | root hr => exact hr⟩
  | cons entry outer ih =>
      obtain ⟨path, object⟩ := entry
      rw [anchorIn]
      cases hb : Text.below? path name with
      | some rest =>
          rw [Json.mem_valuesAt]
          constructor
          · exact .own hb
          · intro h
            cases h with
            | own hb' hr =>
                rw [hb, Option.some.injEq] at hb'
                exact hb' ▸ hr
            | outer hb' _ => simp [hb] at hb'
      | none =>
          rw [ih]
          constructor
          · exact .outer hb
          · intro h
            cases h with
            | own hb' _ => simp [hb] at hb'
            | outer _ hs => exact hs

/-- The field, by its name in documents, has the leaf value. -/
def HasLeaf (scope : Scope) (name : String) (v : Json) : Prop :=
  Sees scope.root scope.instances name v ∧ v.isObject = false

def HasField (scope : Scope) (name : String) : Prop := ∃ v, scope.HasLeaf name v

/-- The field has a value whose text is among the given ones. -/
def HasAnyOf (scope : Scope) (name : String) (values : List String) : Prop :=
  ∃ v s, scope.HasLeaf name v ∧ Query.scalarText? v = some s ∧ s ∈ values

/-- The field has a value within the bounds. -/
def HasWithin (scope : Scope) (name : String) (bounds : Bounds) : Prop :=
  ∃ v b, scope.HasLeaf name v ∧ Bound.Value.ofLeaf? v = some b ∧ bounds.contains b = true

/-- An instance of the repeated sub-object. -/
def HasInstance (scope : Scope) (path : String) (object : Json) : Prop :=
  Sees scope.root scope.instances path object ∧ object.isObject = true

/-- In a whole document the path of the name leads from the root. -/
theorem hasLeaf_document_iff {document : Json} {name : String} {path : List String} (hname : Text.segments name = path)
    {v : Json} : document.scope.HasLeaf name v ↔ v ∈ document.valuesAt path ∧ v.isObject = false := by
  rw [HasLeaf, ← mem_found_iff, ← hname]
  exact Iff.rfl

theorem not_hasAnyOf_nil {scope : Scope} {name : String} : ¬ scope.HasAnyOf name [] := by
  rintro ⟨_, _, _, _, hs⟩
  exact List.not_mem_nil hs

theorem HasAnyOf.mono {scope : Scope} {name : String} {values others : List String} (h : scope.HasAnyOf name values)
    (hs : ∀ s ∈ values, s ∈ others) : scope.HasAnyOf name others := by
  obtain ⟨v, s, hv, ht, hm⟩ := h
  exact ⟨v, s, hv, ht, hs s hm⟩

end Scope

/-- The document field that a query field stands for: the keyword sub-field stands for the field itself. -/
def documentField (rawSuffix field : String) : String := (Text.before? rawSuffix field).getD field

theorem Scope.mem_leaves_iff {rawSuffix : String} {scope : Scope} {field : String} {v : Json} :
    v ∈ scope.leaves rawSuffix field ↔ scope.HasLeaf (documentField rawSuffix field) v := by
  rw [leaves, List.mem_filter, mem_found_iff, HasLeaf, documentField, Bool.not_eq_true']

/-! ## The meaning of queries -/

namespace Query

variable {rawSuffix : String} {scope : Scope}

theorem holds_bool {must mustNot should : List Query} :
    holds rawSuffix (.bool must mustNot should) scope = true ↔
      (∀ q ∈ must, holds rawSuffix q scope = true) ∧ (∀ q ∈ mustNot, ¬ holds rawSuffix q scope = true) ∧
        (should ≠ [] → must = [] → ∃ q ∈ should, holds rawSuffix q scope = true) := by
  rw [holds, allHold_eq_all, anyHolds_eq_any, anyHolds_eq_any]
  cases must <;> cases should <;> simp

theorem holds_terms {field : String} {values : List String} :
    holds rawSuffix (.terms field values) scope = true ↔
      scope.HasAnyOf (documentField rawSuffix field) values := by
  simp only [holds, List.any_eq_true, Scope.mem_leaves_iff, Option.any_eq_true, Scope.HasAnyOf,
    List.contains_iff_mem]
  constructor
  · rintro ⟨v, hv, s, ht, hs⟩
    exact ⟨v, s, hv, ht, hs⟩
  · rintro ⟨v, s, hv, ht, hs⟩
    exact ⟨v, hv, s, ht, hs⟩

theorem holds_matching {field value : String} :
    holds rawSuffix (.matching field value) scope = true ↔
      scope.HasAnyOf (documentField rawSuffix field) [value] := by
  simp only [holds, List.any_eq_true, Scope.mem_leaves_iff, beq_iff_eq, Scope.HasAnyOf, List.mem_singleton]
  constructor
  · rintro ⟨v, hv, ht⟩
    exact ⟨v, value, hv, ht, rfl⟩
  · rintro ⟨v, _, hv, ht, rfl⟩
    exact ⟨v, hv, ht⟩

theorem holds_range {field : String} {bounds : Bounds} :
    holds rawSuffix (.range field bounds) scope = true ↔
      scope.HasWithin (documentField rawSuffix field) bounds := by
  simp only [holds, List.any_eq_true, Scope.mem_leaves_iff, Option.any_eq_true, Scope.HasWithin]
  constructor
  · rintro ⟨v, hv, b, ht, hb⟩
    exact ⟨v, b, hv, ht, hb⟩
  · rintro ⟨v, b, hv, ht, hb⟩
    exact ⟨v, hv, b, ht, hb⟩

theorem holds_present {field : String} :
    holds rawSuffix (.present field) scope = true ↔ scope.HasField (documentField rawSuffix field) := by
  simp only [holds, Bool.not_eq_true', List.isEmpty_eq_false_iff_exists_mem, Scope.mem_leaves_iff,
    Scope.HasField]

theorem holds_nested {path : String} {inner : Query} :
    holds rawSuffix (.nested path inner) scope = true ↔
      ∃ object, scope.HasInstance path object ∧ holds rawSuffix inner (scope.enter path object) = true := by
  simp only [holds, List.any_eq_true, Scope.objects, List.mem_filter, Scope.mem_found_iff,
    Scope.HasInstance]

theorem holds_missing {field : String} :
    holds rawSuffix (.missing field) scope = true ↔ ¬ scope.HasField (documentField rawSuffix field) := by
  rw [missing, noneOf, holds_bool, ← holds_present]
  simp

theorem holds_alternatives {queries : List Query} (hne : queries ≠ []) :
    holds rawSuffix (.bool [] [] queries) scope = true ↔ ∃ q ∈ queries, holds rawSuffix q scope = true := by
  simp [holds_bool, hne]

theorem holds_anyOf {queries : List Query} (hne : queries ≠ []) :
    holds rawSuffix (anyOf queries) scope = true ↔ ∃ q ∈ queries, holds rawSuffix q scope = true := by
  match queries with
  | [query] => simp [anyOf]
  | q :: r :: rest => exact holds_alternatives (by simp)

/-- Only the sets of clauses count. -/
theorem holds_bool_congr {must must' mustNot mustNot' : List Query} (hm : ∀ q, q ∈ must ↔ q ∈ must')
    (hn : ∀ q, q ∈ mustNot ↔ q ∈ mustNot') :
    holds rawSuffix (.bool must mustNot []) scope = holds rawSuffix (.bool must' mustNot' []) scope := by
  rw [Bool.eq_iff_iff, holds_bool, holds_bool]
  simp [hm, hn]

end Query

end FacetedSearch
