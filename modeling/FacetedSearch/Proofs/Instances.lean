import FacetedSearch.Proofs.Presence

/-!
# One instance and the whole document

Conditions on fields below a repeated sub-object may be asked of one instance, in a nested query, or of the whole
document. What one instance satisfies the document satisfies condition by condition. Where the document has no other
instance the two come to the same.
-/

namespace FacetedSearch

theorem Scope.hasInstance_iff_eq {scope : Scope} {path : String} {object : Json} (h : scope.objects path = [object])
    (other : Json) : scope.HasInstance path other ↔ other = object := by
  rw [HasInstance, ← mem_found_iff, ← List.mem_filter, ← List.mem_singleton, ← h, objects]

namespace Query

variable {rawSuffix path field : String} {scope : Scope} {document : Json} {q : Query}

/-- Whether a value satisfies a leaf. -/
def isMetBy : Query → Json → Bool
  | terms _ values, v => (scalarText? v).any (values.contains ·)
  | matching _ value, v => scalarText? v == some value
  | range _ bounds, v => (Bound.Value.ofLeaf? v).any bounds.contains
  | present _, _ => true
  | bool .., _ => false
  | nested .., _ => false

theorem holds_leaf (hq : q.field? = some field) : q.holds rawSuffix scope = true ↔
    ∃ v, scope.HasLeaf (documentField rawSuffix field) v ∧ q.isMetBy v = true := by
  cases q with
  | bool must mustNot should => cases hq
  | nested path inner => cases hq
  | present f =>
      cases hq
      simp only [holds_present, isMetBy, and_true]
      exact Iff.rfl
  | _ =>
      cases hq
      simp only [holds, List.any_eq_true, Scope.mem_leaves_iff, isMetBy]

/-- A leaf on a field below the path. -/
def IsLeafBelow (rawSuffix path : String) (q : Query) : Prop :=
  ∃ field rest, q.field? = some field ∧ documentField rawSuffix field = path ++ "." ++ rest

theorem accepts_leaf_below_iff (h : q.IsLeafBelow rawSuffix path) : q.accepts rawSuffix document = true ↔
    ∃ object, document.scope.HasInstance path object ∧
      q.holds rawSuffix (document.scope.enter path object) = true := by
  obtain ⟨field, rest, hq, hfield⟩ := h
  have hflat : q.accepts rawSuffix document = true ↔
      ∃ v, document.scope.HasLeaf (path ++ "." ++ rest) v ∧ q.isMetBy v = true := hfield ▸ holds_leaf hq
  simp only [hflat, holds_leaf hq, hfield, Json.hasLeaf_below_iff]
  constructor
  · rintro ⟨v, ⟨object, ho, hv⟩, hmet⟩
    exact ⟨object, ho, v, hv, hmet⟩
  · rintro ⟨object, ho, v, hv, hmet⟩
    exact ⟨v, ⟨object, ho, hv⟩, hmet⟩

theorem accepts_nested_allOf_iff {leaves : List Query} :
    (Query.nested path (.allOf leaves)).accepts rawSuffix document = true ↔
      ∃ object, document.scope.HasInstance path object ∧
        ∀ q ∈ leaves, q.holds rawSuffix (document.scope.enter path object) = true := by
  change holds rawSuffix _ document.scope = true ↔ _
  rw [holds_nested]
  refine exists_congr fun object => and_congr_right fun _ => ?_
  rw [allOf, holds_bool]
  simp

/-- Leaves below a path that one instance there satisfies are accepted one by one; if the document has exactly one
instance, leaves that are accepted one by one are also satisfied by it. -/
theorem nested_refines_flat {leaves : List Query} (h : ∀ q ∈ leaves, q.IsLeafBelow rawSuffix path) (document : Json) :
    ((Query.nested path (.allOf leaves)).accepts rawSuffix document = true →
      ∀ q ∈ leaves, q.accepts rawSuffix document = true) ∧
    ((∃ object, ∀ other, document.scope.HasInstance path other ↔ other = object) →
      (∀ q ∈ leaves, q.accepts rawSuffix document = true) →
        (Query.nested path (.allOf leaves)).accepts rawSuffix document = true) := by
  simp only [accepts_nested_allOf_iff]
  constructor
  · rintro ⟨object, ho, hall⟩ q hq
    exact (accepts_leaf_below_iff (h q hq)).mpr ⟨object, ho, hall q hq⟩
  · rintro ⟨object, honly⟩ hall
    refine ⟨object, (honly object).mpr rfl, fun q hq => ?_⟩
    obtain ⟨other, hother, hholds⟩ := (accepts_leaf_below_iff (h q hq)).mp (hall q hq)
    exact (honly other).mp hother ▸ hholds

/-- The only member of a family, after a null, is asked for a sex and for a role. -/
theorem nested_refines_flat_kin :
    let asked : List Query := [.matching "kin.sex.raw" "F", .terms "kin.role.raw" ["proband", "child"]]
    let family : Json := .single "kin" (.arr [.null, .obj [("sex", .str "F"), ("role", .str "child")]])
    (∀ q ∈ asked, q.IsLeafBelow ".raw" "kin") ∧
      (∃ object, ∀ other, family.scope.HasInstance "kin" other ↔ other = object) ∧
      (∀ q ∈ asked, q.accepts ".raw" family = true) ∧
      (Query.nested "kin" (.allOf asked)).accepts ".raw" family = true := by
  intro asked family
  have hbelow : ∀ q ∈ asked, q.IsLeafBelow ".raw" "kin" :=
    List.forall_mem_cons.mpr ⟨⟨_, "sex", rfl, by decide⟩,
      List.forall_mem_singleton.mpr ⟨_, "role", rfl, by decide⟩⟩
  have honly : ∃ object, ∀ other, family.scope.HasInstance "kin" other ↔ other = object :=
    ⟨_, Scope.hasInstance_iff_eq rfl⟩
  have hflat : ∀ q ∈ asked, q.accepts ".raw" family = true := by decide +kernel
  exact ⟨hbelow, honly, hflat, (nested_refines_flat hbelow family).2 honly hflat⟩

/-- Two members may share what no one of them has. -/
example :
    let family : Json := .single "kin" (.arr [.obj [("sex", .str "F")], .obj [("role", .str "child")]])
    (Query.matching "kin.sex" "F").accepts ".raw" family = true ∧
      (Query.matching "kin.role" "child").accepts ".raw" family = true ∧
      (Query.nested "kin" (.allOf [.matching "kin.sex" "F", .matching "kin.role" "child"])).accepts ".raw" family =
        false := by
  decide +kernel

end Query

end FacetedSearch
