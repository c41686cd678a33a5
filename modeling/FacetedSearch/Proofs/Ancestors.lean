import Mathlib.Data.List.Infix
import Mathlib.Data.List.Induction
import FacetedSearch.Index.Catalog
import FacetedSearch.Proofs.Pieces

/-!
# Repeated ancestors

A path that leads to a field leads through a field at each of its ancestors, and is reported with the deepest repeated
sub-object among them, itself included. The repeated sub-object that a catalog reports for a field is the field itself,
when that is one, and otherwise lies above the field.
-/

namespace FacetedSearch

/-! ## Dotted paths -/

/-- The segments of `above` are the first segments of the path, or all of them. -/
def Text.IsAncestor (above path : String) : Prop := segments above <+: segments path

namespace Properties

theorem dotted_segments (path : String) : dotted (Text.segments path) = path := Text.intercalate_pieces rfl

theorem dotted_append {front rest : List String} (hf : front ≠ []) (hr : rest ≠ []) :
    dotted (front ++ rest) = dotted front ++ "." ++ dotted rest :=
  String.intercalate_append_of_ne_nil hf hr

theorem segments_dotted {segs : List String} (hne : segs ≠ []) (h : ∀ s ∈ segs, '.' ∉ s.toList) :
    Text.segments (dotted segs) = segs :=
  Text.pieces_intercalate rfl hne h

theorem segments_dotted_front {front : List String} {path : String} (h : front <+: Text.segments path)
    (hne : front ≠ []) : Text.segments (dotted front) = front :=
  segments_dotted hne fun _ hs => Text.not_mem_of_mem_pieces (h.mem hs)

/-! ## Walks -/

variable {properties : Properties} {walked front rest segs : List String} {segment : String}
  {nestedPath : Option String} {found : ResolvedField}

theorem resolveFrom_singleton : resolveFrom properties walked nestedPath [segment] =
    (Table.find? segment properties).map fun field =>
      ⟨field, if field.fieldType.isNested then some (dotted (walked ++ [segment])) else nestedPath⟩ := by
  rw [resolveFrom]
  cases Table.find? segment properties <;> rfl

/-- A walk in two parts goes on below the field at the end of the first. -/
theorem resolveFrom_append (hf : front ≠ []) (hr : rest ≠ []) :
    resolveFrom properties walked nestedPath (front ++ rest) =
      (resolveFrom properties walked nestedPath front).bind fun found =>
        resolveFrom (found.mapping.properties.getD []) (walked ++ front) found.nestedPath rest := by
  induction front generalizing properties walked nestedPath with
  | nil => exact absurd rfl hf
  | cons segment front ih =>
      cases front with
      | nil =>
          obtain ⟨next, rest, rfl⟩ := List.exists_cons_of_ne_nil hr
          rw [resolveFrom_singleton, List.singleton_append, resolveFrom]
          cases Table.find? segment properties <;> rfl
      | cons next front =>
          rw [List.cons_append, List.cons_append, resolveFrom, resolveFrom]
          cases Table.find? segment properties with
          | none => rfl
          | some field =>
              dsimp only
              rw [← List.cons_append, ih (List.cons_ne_nil _ _), List.append_assoc, List.singleton_append]

theorem isSome_resolveFrom_front (h : (resolveFrom properties walked nestedPath segs).isSome = true)
    (hf : front <+: segs) (hne : front ≠ []) : (resolveFrom properties walked nestedPath front).isSome = true := by
  obtain ⟨rest, rfl⟩ := hf
  by_cases hr : rest = []
  · rwa [hr, List.append_nil] at h
  · rw [resolveFrom_append hne hr] at h
    exact Option.isSome_of_isSome_bind h

/-- The walk from the root along the segments ends at a repeated sub-object. -/
def IsRepeated (properties : Properties) (segs : List String) : Prop :=
  ∃ found, resolveFrom properties [] none segs = some found ∧ found.mapping.fieldType.isNested = true

theorem IsRepeated.ne_nil (h : IsRepeated properties segs) : segs ≠ [] := by
  rintro rfl
  obtain ⟨found, hfound, -⟩ := h
  cases hfound

theorem isRepeated_iff (h : resolveFrom properties [] none segs = some found) :
    IsRepeated properties segs ↔ found.mapping.fieldType.isNested = true := by
  simp [IsRepeated, h]

/-- The outcome is the path of the last repeated sub-object on the walk from the root, if it passes one. -/
def LastRepeated (properties : Properties) (segs : List String) : Option String → Prop
  | none => ∀ front, front <+: segs → ¬ IsRepeated properties front
  | some path => ∃ last, dotted last = path ∧ last <+: segs ∧ IsRepeated properties last ∧
      ∀ front, front <+: segs → IsRepeated properties front → front <+: last

theorem lastRepeated_nil : LastRepeated properties [] none := by
  intro front hf hr
  exact hr.ne_nil (List.prefix_nil.mp hf)

/-- A step to a repeated sub-object makes it the last one; any other step leaves the last one as it is. -/
theorem LastRepeated.concat (h : LastRepeated properties segs nestedPath)
    (hfound : resolveFrom properties [] none (segs ++ [segment]) = some found)
    (hpath : found.nestedPath =
      if found.mapping.fieldType.isNested then some (dotted (segs ++ [segment])) else nestedPath) :
    LastRepeated properties (segs ++ [segment]) found.nestedPath := by
  cases hn : found.mapping.fieldType.isNested with
  | true =>
      rw [hpath, if_pos hn]
      exact ⟨_, rfl, List.prefix_rfl, (isRepeated_iff hfound).mpr hn, fun front hf _ => hf⟩
  | false =>
      rw [hpath, hn, if_neg Bool.false_ne_true]
      have hbefore : ∀ front, front <+: segs ++ [segment] → IsRepeated properties front → front <+: segs := by
        intro front hf hr
        refine (List.prefix_concat_iff.mp hf).resolve_left ?_
        rintro rfl
        simp [(isRepeated_iff hfound).mp hr] at hn
      cases nestedPath with
      | none => exact fun front hf hr => h front (hbefore front hf hr) hr
      | some path =>
          obtain ⟨last, hd, hfront, hr, hlast⟩ := h
          exact ⟨last, hd, hfront.trans (List.prefix_append _ _), hr,
            fun front hf hr => hlast front (hbefore front hf hr) hr⟩

theorem lastRepeated_resolveFrom (h : resolveFrom properties [] none segs = some found) :
    LastRepeated properties segs found.nestedPath := by
  induction segs using List.reverseRecOn generalizing found with
  | nil => cases h
  | append_singleton segs segment ih =>
      by_cases hsegs : segs = []
      · subst hsegs
        obtain ⟨field, -, rfl⟩ := Option.map_eq_some_iff.mp (resolveFrom_singleton.symm.trans h)
        exact lastRepeated_nil.concat h rfl
      · have hparts := h
        rw [resolveFrom_append hsegs (List.cons_ne_nil _ _), Option.bind_eq_some_iff] at hparts
        obtain ⟨above, habove, hstep⟩ := hparts
        obtain ⟨field, -, rfl⟩ := Option.map_eq_some_iff.mp (resolveFrom_singleton.symm.trans hstep)
        exact (ih habove).concat h rfl

end Properties

/-! ## Paths -/

namespace IndexMapping

variable {m : IndexMapping} {path : String} {found : ResolvedField}

/-- The path leads to a repeated sub-object. -/
def IsRepeated (m : IndexMapping) (path : String) : Prop :=
  ∃ found, m.resolve? path = some found ∧ found.mapping.fieldType.isNested = true

/-- The outcome is the deepest repeated sub-object among the ancestors of the path, if there is one. -/
def DeepestRepeated (m : IndexMapping) (path : String) : Option String → Prop
  | none => ∀ above, Text.IsAncestor above path → ¬ m.IsRepeated above
  | some deepest => Text.IsAncestor deepest path ∧ m.IsRepeated deepest ∧
      ∀ above, Text.IsAncestor above path → m.IsRepeated above → Text.IsAncestor above deepest

theorem deepestRepeated_of_lastRepeated {outcome : Option String}
    (h : m.properties.LastRepeated (Text.segments path) outcome) : m.DeepestRepeated path outcome := by
  cases outcome with
  | none => exact fun above ha => h (Text.segments above) ha
  | some deepest =>
      obtain ⟨last, rfl, hfront, hr, hlast⟩ := h
      have hsegments := Properties.segments_dotted_front hfront hr.ne_nil
      simp only [DeepestRepeated, Text.IsAncestor, IsRepeated, resolve?, hsegments]
      exact ⟨hfront, hr, fun above => hlast (Text.segments above)⟩

/-- A path that leads to a field does so at each of its ancestors, and the field is found with the deepest repeated
sub-object among them. -/
theorem resolves_with_ancestors (h : m.resolve? path = some found) :
    (∀ above, Text.IsAncestor above path → (m.resolve? above).isSome = true) ∧
      m.DeepestRepeated path found.nestedPath := by
  refine ⟨fun above ha => ?_, deepestRepeated_of_lastRepeated (Properties.lastRepeated_resolveFrom h)⟩
  exact Properties.isSome_resolveFrom_front (Option.isSome_of_mem h) ha (Text.segments_ne_nil above)

/-- The name of a phenotype lies below two repeated sub-objects and an object that is not repeated. -/
theorem resolves_with_ancestors_phenotype :
    let phenotype : FieldMapping := { fieldType := .object, properties := some [("name", { fieldType := .keyword })] }
    let members : FieldMapping := { fieldType := .nested, properties := some [("phenotype", phenotype)] }
    let families : FieldMapping := { fieldType := .nested, properties := some [("members", members)] }
    let cohort : IndexMapping := { properties := [("families", families)] }
    let path := "families.members.phenotype.name"
    cohort.resolve? path = some ⟨{ fieldType := .keyword }, some "families.members"⟩ ∧
      (∀ above, Text.IsAncestor above path → (cohort.resolve? above).isSome = true) ∧
      cohort.DeepestRepeated path (some "families.members") := by
  intro phenotype members families cohort path
  have hsegments : Text.segments path = ["families", "members", "phenotype", "name"] := by decide +kernel
  have hfound : cohort.resolve? path = some ⟨{ fieldType := .keyword }, some "families.members"⟩ := by
    rw [resolve?, hsegments]
    rfl
  exact ⟨hfound, resolves_with_ancestors hfound⟩

end IndexMapping

/-! ## Catalogs -/

namespace Catalog

variable {c : Catalog} {field q : String} {types : List String}

/-- The repeated sub-object reported for a field: the field itself just in case it is of that type, else one above. -/
theorem ancestor_of_describe {info : FieldInfo} (h : c.describe field types = some info)
    (hq : info.nestedPath = some q) :
    (q = field ∧ info.fieldType.isNested = true) ∨
      (∃ rest, field = q ++ "." ++ rest) ∧ info.fieldType.isNested = false := by
  obtain ⟨mapping, -, hm⟩ := List.exists_of_findSome?_eq_some h
  obtain ⟨found, hfound, rfl⟩ := Option.map_eq_some_iff.mp hm
  obtain ⟨last, rfl, ⟨rest, hs⟩, hr, hlast⟩ : Properties.LastRepeated mapping.properties (Text.segments field) (some q) :=
    hq ▸ Properties.lastRepeated_resolveFrom hfound
  have hfield : field = Properties.dotted (last ++ rest) := by rw [hs, Properties.dotted_segments]
  by_cases hrest : rest = []
  · subst hrest
    rw [List.append_nil] at hfield hs
    exact .inl ⟨hfield.symm, (Properties.isRepeated_iff hfound).mp (hs ▸ hr)⟩
  · refine .inr ⟨⟨_, hfield.trans (Properties.dotted_append hr.ne_nil hrest)⟩, Bool.eq_false_iff.mpr fun hn => ?_⟩
    -- A repeated field would itself be the last of its walk.
    have hlength := (hlast _ List.prefix_rfl ((Properties.isRepeated_iff hfound).mpr hn)).length_le
    rw [← hs, List.length_append] at hlength
    exact hrest (List.eq_nil_of_length_eq_zero (by omega))

theorem exists_rest_of_nestedPath? (h : c.lookup.nestedPath? field types = some q) (hne : q ≠ field) :
    ∃ rest, field = q ++ "." ++ rest := by
  obtain ⟨info, hd, hq⟩ := Option.bind_eq_some_iff.mp h
  rcases ancestor_of_describe hd hq with ⟨he, -⟩ | ⟨hrest, -⟩
  · exact absurd he hne
  · exact hrest

theorem ne_append_dot (q rest : String) : q ≠ q ++ "." ++ rest := by
  intro he
  have hlength := congrArg String.length he
  rw [String.length_append, String.length_append] at hlength
  have hdot : ".".length = 1 := rfl
  omega

/-- A field that takes ranges is no repeated sub-object. -/
theorem ne_of_isRangeable (hr : c.lookup.isRangeable field types = true)
    (h : c.lookup.nestedPath? field types = some q) : q ≠ field := by
  obtain ⟨info, hd, hq⟩ := Option.bind_eq_some_iff.mp h
  rcases ancestor_of_describe hd hq with ⟨-, hn⟩ | ⟨⟨rest, rfl⟩, -⟩
  · have hd' : c.lookup.describe field types = some info := hd
    simp only [FieldLookup.isRangeable, FieldLookup.isDate, FieldLookup.isNumeric, hd', Option.any_some] at hr
    cases hf : info.fieldType <;> simp [hf, FieldType.isNested, FieldType.isDate, FieldType.isNumeric] at hr hn
  · exact ne_append_dot q rest

end Catalog

end FacetedSearch
