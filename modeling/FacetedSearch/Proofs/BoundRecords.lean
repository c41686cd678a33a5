import FacetedSearch.Proofs.Collection
import FacetedSearch.Proofs.WireForm

/-!
# Records of bounds

An object is read as a record of bounds, or as what a range query says about its field. A record names each bound once,
and says a number, a text or null. Whatever is read as a record is read as a range with the same bounds, but for the
nulls: they leave a bound of the record unset, and the range takes them as a text.
-/

namespace FacetedSearch

open FacetedSearch.Bound

theorem Table.find?_filter {α : Type _} {keep : String → Bool} {name : String} (h : keep name = true)
    (table : List (String × α)) : find? name (table.filter fun entry => keep entry.1) = find? name table := by
  induction table with
  | nil => rfl
  | cons entry rest ih =>
      obtain ⟨k, v⟩ := entry
      by_cases hk : k = name
      · simp [find?, hk, h]
      · cases hkeep : keep k <;> simp [hkeep, find?, hk, ih]

/-- Dropping the unknown members of an object changes none of its known fields. -/
theorem Json.Record.field_filter {α : Type _} {names : List String} {name : String} (h : name ∈ names)
    (members : List (String × Json)) (read : Json → Option α) (default : α) :
    field ⟨members.filter fun member => names.contains member.1⟩ name read default =
      field ⟨members⟩ name read default := by
  rw [field, field, Table.find?_filter (List.contains_iff_mem.mpr h)]

/-! ## Reading a record -/

/-- What a record says in one direction, and the bound that is read there. -/
inductive Bound.Recorded : Option Json → Option Value → Prop
  | absent : Recorded none none
  | null : Recorded (some .null) none
  | value {v : Json} {x : Value} : Value.ofJson? v = some x → Recorded (some v) (some x)

theorem Bound.nullable?_eq_some_iff {v : Json} {bound : Option Value} :
    Json.nullable? Value.ofJson? v = some bound ↔ Recorded (some v) bound := by
  cases v with
  | null =>
      constructor
      · intro h
        exact Option.some.inj h ▸ .null
      · rintro (_ | _ | h)
        · rfl
        · cases h
  | _ =>
      simp only [Json.nullable?, Option.map_eq_some_iff]
      constructor
      · rintro ⟨x, h, rfl⟩
        exact .value h
      · rintro (_ | _ | h)
        exact ⟨_, h, rfl⟩

theorem Bound.field_eq_some_iff {members : List (String × Json)} {name : String} {bound : Option Value} :
    (⟨members⟩ : Json.Record).field name (Json.nullable? Value.ofJson?) none = some bound ↔
      Recorded (Table.find? name members) bound := by
  rw [Json.Record.field]
  cases Table.find? name members with
  | none =>
      constructor
      · rintro ⟨⟩
        exact .absent
      · rintro ⟨⟩
        rfl
  | some v => exact nullable?_eq_some_iff

namespace Bounds

variable {members : List (String × Json)} {bounds : Bounds}

theorem sequence_eq_some_iff {bound : Direction → Option (Option Value)} :
    (do return ({ gte := ← bound .gte, gt := ← bound .gt, lte := ← bound .lte, lt := ← bound .lt } : Bounds)) =
      some bounds ↔ ∀ d, bound d = some (bounds.get d) := by
  simp only [Option.bind_eq_bind, Option.bind_eq_some_iff, Option.pure_def, Option.some.injEq]
  constructor
  · rintro ⟨gte, hgte, gt, hgt, lte, hlte, lt, hlt, rfl⟩ d
    cases d <;> assumption
  · exact fun h => ⟨_, h .gte, _, h .gt, _, h .lte, _, h .lt, rfl⟩

/-- The members of an object that a record of bounds knows. -/
def known (members : List (String × Json)) : List (String × Json) :=
  members.filter fun member => ["gte", "gt", "lte", "lt"].contains member.1

theorem field_known_eq_some_iff {d : Direction} {bound : Option Value} :
    (⟨known members⟩ : Json.Record).field d.name (Json.nullable? Value.ofJson?) none = some bound ↔
      Recorded (Table.find? d.name members) bound := by
  rw [known, Json.Record.field_filter (by cases d <;> decide), field_eq_some_iff]

/-- An object is a record of bounds if it names each of them once, and says a number, a text or null there. -/
theorem ofJson?_obj_eq_some_iff : ofJson? (.obj members) = some bounds ↔
    (Table.names (known members)).Nodup ∧ ∀ d, Recorded (Table.find? d.name members) (bounds.get d) := by
  have hread : ofJson? (.obj members) = (Json.record? ["gte", "gt", "lte", "lt"] (.obj members)).bind fun r => do
      let bound (d : Direction) := r.field d.name (Json.nullable? Value.ofJson?) none
      return { gte := ← bound .gte, gt := ← bound .gt, lte := ← bound .lte, lt := ← bound .lt } := rfl
  simp only [hread, Json.record?, Option.bind_eq_some_iff, ← field_known_eq_some_iff]
  constructor
  · rintro ⟨r, hr, hbounds⟩
    split at hr
    · rename_i hnodup
      cases hr
      exact ⟨hnodup, sequence_eq_some_iff.mp hbounds⟩
    · cases hr
  · rintro ⟨hnodup, hbounds⟩
    exact ⟨_, if_pos hnodup, sequence_eq_some_iff.mpr hbounds⟩

end Bounds

/-! ## Reading a range -/

namespace Query

variable {members : List (String × Json)} {bounds : Bounds}

theorem boundOfJson_eq {v : Json} {x : Value} (h : Value.ofJson? v = some x) : boundOfJson v = x := by
  cases v with
  | num n => exact Option.some.inj h
  | str s => exact Option.some.inj h
  | _ => cases h

theorem get_boundsOfMembers_of_recorded {d : Direction} {bound : Option Value}
    (h : Recorded (Table.find? d.name members) bound) :
    (Table.find? d.name members = some .null → bound = none ∧ (boundsOfMembers members).get d = some (.text "null")) ∧
      (Table.find? d.name members ≠ some .null → (boundsOfMembers members).get d = bound) := by
  rw [get_boundsOfMembers]
  generalize Table.find? d.name members = said at h
  cases h with
  | absent => exact ⟨nofun, fun _ => rfl⟩
  | null => exact ⟨fun _ => ⟨rfl, rfl⟩, fun hne => absurd rfl hne⟩
  | value h =>
      refine ⟨?_, fun _ => congrArg some (boundOfJson_eq h)⟩
      rintro ⟨⟩
      cases h

/-- Whatever is read as a record of bounds is read as a range on any field. Where the record says null, its bound is
unset and that of the range is a text; the other bounds are the same. -/
theorem ofJson_range_of_bounds (h : Bounds.ofJson? (.obj members) = some bounds) (field : String) :
    ∃ read, ofJson (.single "range" (.single field (.obj members))) = .ok (.range field read) ∧
      (∀ d : Direction,
        (Table.find? d.name members = some .null → bounds.get d = none ∧ read.get d = some (.text "null")) ∧
        (Table.find? d.name members ≠ some .null → read.get d = bounds.get d)) ∧
      (read = bounds ↔ ∀ d : Direction, Table.find? d.name members ≠ some .null) := by
  have hagree := fun d => get_boundsOfMembers_of_recorded ((Bounds.ofJson?_obj_eq_some_iff.mp h).2 d)
  refine ⟨boundsOfMembers members, rfl, hagree, fun heq d hnull => ?_, fun hne => ?_⟩
  · obtain ⟨hnone, htext⟩ := (hagree d).1 hnull
    rw [heq, hnone] at htext
    cases htext
  · exact Bounds.ext_get fun d => (hagree d).2 (hne d)

/-- An integer beyond the signed ones, a null and an unknown member. -/
theorem ofJson_range_of_bounds_age :
    let members : List (String × Json) :=
      [("boost", .bool true), ("lt", .num (.int 0x8000000000000000 (by decide))), ("lte", .null)]
    Bounds.ofJson? (.obj members) = some { lt := some (.double (nearestFloat 0x8000000000000000)) } ∧
      ∃ read, ofJson (.single "range" (.single "embedded.age" (.obj members))) = .ok (.range "embedded.age" read) ∧
        read.lt = some (.double (nearestFloat 0x8000000000000000)) ∧ read.lte = some (.text "null") := by
  intro members
  have h : Bounds.ofJson? (.obj members) = some { lt := some (.double (nearestFloat 0x8000000000000000)) } := rfl
  obtain ⟨read, hread, hagree, -⟩ := ofJson_range_of_bounds h "embedded.age"
  exact ⟨h, read, hread, (hagree .lt).2 nofun, ((hagree .lte).1 rfl).2⟩

/-- A null bound is unset in the record and a text in the range. -/
theorem not_ofJson_range_of_bounds :
    let spec : Json := .obj [("gte", .num (.int 5 (by decide))), ("lt", .null)]
    Bounds.ofJson? spec = some { gte := some (.long 5) } ∧
      ofJson (.single "range" (.single "embedded.age" spec)) =
        .ok (.range "embedded.age" { gte := some (.long 5), lt := some (.text "null") }) :=
  ⟨rfl, rfl⟩

end Query

end FacetedSearch
