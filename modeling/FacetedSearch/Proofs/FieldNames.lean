import FacetedSearch.Proofs.Ancestors
import FacetedSearch.Proofs.Tables

/-!
# Names of fields

The names listed for a mapping are those that lead to a field, provided that each level is a table and its names can
stand in a dotted path. A mapping that is read, or read and added to, is made of tables.
-/

namespace FacetedSearch

/-! ## Levels -/

namespace Properties

/-- The condition holds of the properties and of the sub-fields on every level below. -/
inductive OnEveryLevel (P : Properties → Prop) : Properties → Prop
  | intro {properties : Properties} : P properties →
      (∀ entry ∈ properties, OnEveryLevel P (entry.2.properties.getD [])) → OnEveryLevel P properties

namespace OnEveryLevel

variable {P : Properties → Prop} {properties : Properties} {entry : String × FieldMapping}

theorem here (h : OnEveryLevel P properties) : P properties := by
  cases h with
  | intro here _ => exact here

theorem descend (h : OnEveryLevel P properties) (hm : entry ∈ properties) :
    OnEveryLevel P (entry.2.properties.getD []) := by
  cases h with
  | intro _ descend => exact descend entry hm

theorem nil (hp : P []) : OnEveryLevel P [] := .intro hp nofun

theorem tail (h : OnEveryLevel P (entry :: properties)) (hp : P properties) : OnEveryLevel P properties :=
  .intro hp fun _ hm => h.descend (List.mem_cons_of_mem _ hm)

end OnEveryLevel

/-- The names can stand between the dots of a path. -/
def HasPlainNames (properties : Properties) : Prop := ∀ name ∈ Table.names properties, name ≠ "" ∧ '.' ∉ name.toList

end Properties

/-! ## Paths -/

mutual

/-- The paths of the fields below a field, as segments. -/
def FieldMapping.paths (field : FieldMapping) : List (List String) :=
  match field with
  | ⟨_, _, none⟩ => []
  | ⟨_, _, some properties⟩ => Properties.paths properties

def Properties.paths (properties : List (String × FieldMapping)) : List (List String) :=
  match properties with
  | [] => []
  | (name, field) :: rest => [name] :: ((FieldMapping.paths field).map (name :: ·) ++ Properties.paths rest)

end

theorem FieldMapping.paths_eq (field : FieldMapping) : field.paths = Properties.paths (field.properties.getD []) := by
  obtain ⟨_, _, _ | properties⟩ := field <;> rfl

namespace Properties

variable {properties : Properties} {walked segs : List String} {nestedPath : Option String} {name : String}

theorem nil_not_mem_paths : [] ∉ paths properties := by
  induction properties with
  | nil => simp [paths]
  | cons entry rest ih => simp [paths, ih]

theorem cons_mem_paths_iff : name :: segs ∈ paths properties ↔
    ∃ field, (name, field) ∈ properties ∧ (segs = [] ∨ segs ∈ field.paths) := by
  induction properties with
  | nil => simp [paths]
  | cons entry rest ih =>
      obtain ⟨key, field⟩ := entry
      rw [paths, List.mem_cons, List.mem_append, ih]
      by_cases hk : name = key
      · subst hk
        simp [or_and_right, exists_or, or_assoc]
      · simp [hk, Ne.symm hk]

theorem mem_names_of_cons_mem_paths (h : name :: segs ∈ paths properties) : name ∈ Table.names properties := by
  obtain ⟨field, hm, -⟩ := cons_mem_paths_iff.mp h
  exact List.mem_map_of_mem hm

/-- The paths are those on which a walk finds a field. -/
theorem isSome_resolveFrom_iff (h : properties.OnEveryLevel Table.Distinct) :
    (resolveFrom properties walked nestedPath segs).isSome = true ↔ segs ∈ paths properties := by
  induction segs generalizing properties walked nestedPath with
  | nil => simp [resolveFrom, nil_not_mem_paths]
  | cons segment segs ih =>
      simp only [cons_mem_paths_iff, ← Table.find?_eq_some_iff h.here, FieldMapping.paths_eq]
      rw [resolveFrom.eq_def]
      cases hf : Table.find? segment properties with
      | none => simp [hf]
      | some field =>
          have hbelow := h.descend (Table.mem_of_find?_eq_some hf)
          cases segs with
          | nil => simp [hf]
          | cons next segs => simp [hf, ih hbelow]

theorem dot_not_mem_of_mem_paths (h : properties.OnEveryLevel HasPlainNames) (hs : segs ∈ paths properties) :
    ∀ s ∈ segs, '.' ∉ s.toList := by
  induction segs generalizing properties with
  | nil => simp
  | cons segment segs ih =>
      obtain ⟨field, hm, hbelow⟩ := cons_mem_paths_iff.mp hs
      refine List.forall_mem_cons.mpr ⟨(h.here segment (List.mem_map_of_mem hm)).2, ?_⟩
      rcases hbelow with rfl | hbelow
      · simp
      · exact ih (h.descend hm) (FieldMapping.paths_eq field ▸ hbelow)

theorem segments_dotted_of_mem_paths (h : properties.OnEveryLevel HasPlainNames) (hs : segs ∈ paths properties) :
    Text.segments (dotted segs) = segs :=
  segments_dotted (ne_of_mem_of_not_mem hs nil_not_mem_paths) (dot_not_mem_of_mem_paths h hs)

end Properties

mutual

theorem FieldMapping.nodup_paths : (field : FieldMapping) →
    Properties.OnEveryLevel Table.Distinct (field.properties.getD []) → field.paths.Nodup
  | ⟨_, _, none⟩, _ => List.nodup_nil
  | ⟨_, _, some properties⟩, h => Properties.nodup_paths properties h

theorem Properties.nodup_paths : (properties : List (String × FieldMapping)) →
    Properties.OnEveryLevel Table.Distinct properties → (Properties.paths properties).Nodup
  | [], _ => List.nodup_nil
  | (name, field) :: rest, h => by
      obtain ⟨hname, hrest⟩ := List.nodup_cons.mp h.here
      have hfield := FieldMapping.nodup_paths field (h.descend List.mem_cons_self)
      have hbelow : (field.paths.map (name :: ·)).Nodup := hfield.map fun _ _ he => (List.cons.inj he).2
      have hnil : [] ∉ field.paths := FieldMapping.paths_eq field ▸ Properties.nil_not_mem_paths
      -- The paths of the other fields begin with other names.
      have hother : ∀ segs, name :: segs ∉ Properties.paths rest := fun segs hs =>
        hname (Properties.mem_names_of_cons_mem_paths hs)
      rw [Properties.paths, List.nodup_cons, List.nodup_append']
      refine ⟨by simp [hnil, hother], hbelow, Properties.nodup_paths rest (h.tail hrest), ?_⟩
      intro segs hs
      obtain ⟨below, -, rfl⟩ := List.mem_map.mp hs
      exact hother below

end

/-! ## Full names -/

theorem Properties.dotted_concat {walked : List String} {name : String} (hw : dotted walked = "" → walked = []) :
    dotted (walked ++ [name]) =
      if (dotted walked).isEmpty then name else dotted walked ++ "." ++ name := by
  -- An empty text stands for the top level, so none of the segments behind may be lost in it.
  by_cases h : walked = []
  · subst h
    rfl
  · have hd : dotted walked ≠ "" := fun he => h (hw he)
    rw [dotted_append h (List.cons_ne_nil _ _), if_neg (by simpa using hd)]
    rfl

mutual

theorem FieldMapping.namesBelow_eq {walked : List String} (hw : Properties.dotted walked = "" → walked = []) :
    (field : FieldMapping) → Properties.OnEveryLevel Properties.HasPlainNames (field.properties.getD []) →
      field.namesBelow (Properties.dotted walked) = field.paths.map fun segs => Properties.dotted (walked ++ segs)
  | ⟨_, _, none⟩, _ => rfl
  | ⟨_, _, some properties⟩, h => Properties.namesBelow_eq hw properties h

/-- The full names are the paths with their dots. -/
theorem Properties.namesBelow_eq {walked : List String} (hw : Properties.dotted walked = "" → walked = []) :
    (properties : List (String × FieldMapping)) → Properties.OnEveryLevel Properties.HasPlainNames properties →
      Properties.namesBelow (Properties.dotted walked) properties =
        (Properties.paths properties).map fun segs => Properties.dotted (walked ++ segs)
  | [], _ => rfl
  | (name, field) :: rest, h => by
      have hname : name ≠ "" := (h.here name List.mem_cons_self).1
      have hne : Properties.dotted (walked ++ [name]) ≠ "" := by
        rw [Properties.dotted_concat hw]
        split
        · exact hname
        · simp
      have hbelow := FieldMapping.namesBelow_eq (fun he => absurd he hne) field (h.descend List.mem_cons_self)
      have hrest := Properties.namesBelow_eq hw rest (h.tail fun s hs => h.here s (List.mem_cons_of_mem _ hs))
      rw [Properties.namesBelow, ← Properties.dotted_concat hw, hbelow, hrest, Properties.paths]
      simp

end

/-! ## Mappings that are read -/

theorem Properties.onEveryLevel_ofList {entries : Properties}
    (h : ∀ entry ∈ entries, OnEveryLevel Table.Distinct (entry.2.properties.getD [])) :
    OnEveryLevel Table.Distinct (Table.ofList entries) :=
  .intro (Table.distinct_ofList entries) fun entry hm => h entry (Table.mem_of_mem_ofList hm)

namespace FieldMapping

theorem properties_of_assemble {v : Json} {read : Option (Option (Option Properties))} {field : FieldMapping}
    {properties : Properties} (h : assemble v read = some field) (hp : field.properties = some properties) :
    read = some (some (some properties)) := by
  simp only [assemble, Option.bind_eq_bind, Option.bind_eq_some_iff, Option.pure_def, Option.some.injEq] at h
  obtain ⟨_, -, _, -, _, -, table, ht, rfl⟩ := h
  cases hp
  cases read with
  | none => cases ht
  | some table => exact congrArg some ht

open Properties (OnEveryLevel)

mutual

theorem distinct_of_ofJson? {field : FieldMapping} : (v : Json) → ofJson? v = some field →
    OnEveryLevel Table.Distinct (field.properties.getD [])
  | .obj members, h => by
      cases hp : field.properties with
      | none => exact .nil List.nodup_nil
      | some properties =>
          exact distinct_of_tablesOfMembers members (Table.mem_of_find?_eq_some (properties_of_assemble h hp))
  | .arr items, h => by
      cases hp : field.properties with
      | none => exact .nil List.nodup_nil
      | some properties =>
          exact distinct_of_tablesOfItems items (List.mem_of_getElem? (properties_of_assemble h hp))
  | .null, h | .bool _, h | .num _, h | .str _, h => nomatch h

theorem distinct_of_table? {properties : Properties} : (v : Json) → table? v = some (some properties) →
    OnEveryLevel Table.Distinct properties
  | .obj members, h => by
      obtain ⟨entries, he, hp⟩ := Option.map_eq_some_iff.mp h
      cases hp
      exact Properties.onEveryLevel_ofList (distinct_of_mappings? members he)
  | .null, h | .bool _, h | .num _, h | .str _, h | .arr _, h => nomatch h

theorem distinct_of_tablesOfMembers {key : String} {properties : Properties} : (members : List (String × Json)) →
    (key, some (some properties)) ∈ tablesOfMembers members → OnEveryLevel Table.Distinct properties
  | [], h => nomatch h
  | (_, value) :: rest, h => by
      rcases List.mem_cons.mp h with he | h
      · exact distinct_of_table? value (Prod.mk.inj he).2.symm
      · exact distinct_of_tablesOfMembers rest h

theorem distinct_of_tablesOfItems {properties : Properties} : (items : List Json) →
    some (some properties) ∈ tablesOfItems items → OnEveryLevel Table.Distinct properties
  | [], h => nomatch h
  | item :: rest, h => by
      rcases List.mem_cons.mp h with he | h
      · exact distinct_of_table? item he.symm
      · exact distinct_of_tablesOfItems rest h

theorem distinct_of_mappings? {entries : Properties} : (members : List (String × Json)) →
    mappings? members = some entries →
      ∀ entry ∈ entries, OnEveryLevel Table.Distinct (entry.2.properties.getD [])
  | [], h => by
      cases h
      nofun
  | (key, value) :: rest, h => by
      rw [mappings?] at h
      split at h
      · rename_i own fields hown hfields
        cases h
        exact List.forall_mem_cons.mpr ⟨distinct_of_ofJson? value hown, distinct_of_mappings? rest hfields⟩
      · cases h

end

end FieldMapping

namespace IndexMapping

variable {m : IndexMapping}

theorem distinct_of_properties? {properties : Properties} : (v : Json) → properties? v = some properties →
    properties.OnEveryLevel Table.Distinct
  | .obj members, h => by
      obtain ⟨entries, he, rfl⟩ := Option.map_eq_some_iff.mp h
      exact Properties.onEveryLevel_ofList (FieldMapping.distinct_of_mappings? members he)
  | .null, h | .bool _, h | .num _, h | .str _, h | .arr _, h => nomatch h

/-- A mapping that is read has no two fields of one name on a level. -/
theorem distinct_of_ofJson? {v : Json} (h : ofJson? v = some m) : m.properties.OnEveryLevel Table.Distinct := by
  simp only [ofJson?, Option.bind_eq_bind, Option.bind_eq_some_iff, Option.pure_def, Option.some.injEq] at h
  obtain ⟨r, -, properties, hp, _, -, rfl⟩ := h
  rw [Json.Record.field] at hp
  split at hp
  · exact distinct_of_properties? _ hp
  · cases hp
    exact .nil List.nodup_nil

theorem distinct_withField {name : String} {field : FieldMapping} (h : m.properties.OnEveryLevel Table.Distinct)
    (hf : Properties.OnEveryLevel Table.Distinct (field.properties.getD [])) :
    (m.withField name field).properties.OnEveryLevel Table.Distinct := by
  refine .intro (h.here.put name field) fun entry hm => ?_
  rcases Table.mem_of_mem_put hm with rfl | hm
  · exact hf
  · exact h.descend hm

/-! ## Listing -/

/-- The names listed are those that lead to a field, in order and without repeats. That each level is a table is seen to
by reading a mapping and by adding a field. -/
theorem fieldNames_listed (distinct : m.properties.OnEveryLevel Table.Distinct)
    (plain : m.properties.OnEveryLevel Properties.HasPlainNames) :
    (∀ path, m.hasField path = true ↔ path ∈ m.fieldNames) ∧
      m.fieldNames.Pairwise (· ≤ ·) ∧ m.fieldNames.Nodup := by
  have hnames : Properties.namesBelow "" m.properties = (Properties.paths m.properties).map Properties.dotted :=
    Properties.namesBelow_eq (fun _ => rfl) m.properties plain
  refine ⟨fun path => ?_, Text.pairwise_sorted _, ?_⟩
  · rw [hasField, resolve?, Properties.isSome_resolveFrom_iff distinct, fieldNames, Text.mem_sorted, hnames,
      List.mem_map]
    constructor
    · exact fun h => ⟨_, h, Properties.dotted_segments path⟩
    · rintro ⟨segs, hs, rfl⟩
      rwa [Properties.segments_dotted_of_mem_paths plain hs]
  · rw [fieldNames, Text.nodup_sorted, hnames]
    refine (Properties.nodup_paths m.properties distinct).map_on fun front hf rest hr he => ?_
    rw [← Properties.segments_dotted_of_mem_paths plain hf, he, Properties.segments_dotted_of_mem_paths plain hr]

/-- A cohort's families are read, and its status is added. -/
theorem fieldNames_listed_cohort :
    let proband : FieldMapping := { fieldType := .object, properties := some [("display_title", {}), ("age", {})] }
    let families : FieldMapping := { fieldType := .nested, properties := some [("proband", proband)] }
    let read : IndexMapping := { properties := [("families", families)] }
    let cohort := read.withField "status" { fieldType := .keyword }
    IndexMapping.ofJson? read.toJson = some read ∧
      cohort.properties.OnEveryLevel Table.Distinct ∧ cohort.properties.OnEveryLevel Properties.HasPlainNames ∧
      (∀ path, cohort.hasField path = true ↔ path ∈ cohort.fieldNames) ∧
      cohort.fieldNames.Pairwise (· ≤ ·) ∧ cohort.fieldNames.Nodup := by
  intro proband families read cohort
  have hread : IndexMapping.ofJson? read.toJson = some read := by rfl
  have hdistinct : cohort.properties.OnEveryLevel Table.Distinct :=
    distinct_withField (distinct_of_ofJson? hread) (.nil List.nodup_nil)
  have hleaf : Properties.OnEveryLevel Properties.HasPlainNames [] := .nil nofun
  have hproband : Properties.OnEveryLevel Properties.HasPlainNames (proband.properties.getD []) :=
    .intro (by unfold Properties.HasPlainNames; decide)
      (List.forall_mem_cons.mpr ⟨hleaf, List.forall_mem_singleton.mpr hleaf⟩)
  have hfamilies : Properties.OnEveryLevel Properties.HasPlainNames (families.properties.getD []) :=
    .intro (by unfold Properties.HasPlainNames; decide) (List.forall_mem_singleton.mpr hproband)
  have hplain : cohort.properties.OnEveryLevel Properties.HasPlainNames :=
    .intro (by unfold Properties.HasPlainNames; decide)
      (List.forall_mem_cons.mpr ⟨hfamilies, List.forall_mem_singleton.mpr hleaf⟩)
  exact ⟨hread, hdistinct, hplain, fieldNames_listed hdistinct hplain⟩

/-- A name with a dot of its own is listed, but no path leads to its field. -/
example :
    let cohort : IndexMapping := { properties := [("a.b", {})] }
    cohort.fieldNames = ["a.b"] ∧ cohort.hasField "a.b" = false := by
  decide +kernel

end IndexMapping

end FacetedSearch
