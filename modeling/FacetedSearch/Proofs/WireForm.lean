import FacetedSearch.Query.Wire

/-!
# Reading back written queries

A query whose bounds are finite is read back from its wire form. Infinities and NaN have no JSON form and would come
back as texts.
-/

namespace FacetedSearch

def Bound.Value.IsFinite : Bound.Value → Prop
  | .double x => x.isFinite = true
  | .long _ => True
  | .text _ => True

/-- Every bound that is set has a JSON form. -/
def Bounds.AreFinite (b : Bounds) : Prop := ∀ d v, b.get d = some v → v.IsFinite

inductive Query.IsFinite : Query → Prop
  | bool {must mustNot should} : (∀ q ∈ must, IsFinite q) → (∀ q ∈ mustNot, IsFinite q) →
      (∀ q ∈ should, IsFinite q) → IsFinite (.bool must mustNot should)
  | terms {field values} : IsFinite (.terms field values)
  | matching {field value} : IsFinite (.matching field value)
  | range {field bounds} : bounds.AreFinite → IsFinite (.range field bounds)
  | present {field} : IsFinite (.present field)
  | nested {path inner} : IsFinite inner → IsFinite (.nested path inner)

/-! ## Bounds -/

theorem Bound.Direction.name_inj {d e : Bound.Direction} : d.name = e.name ↔ d = e := by
  cases d <;> cases e <;> decide

namespace Bounds

open FacetedSearch.Bound

theorem areFinite_empty : ({} : Bounds).AreFinite := by
  intro d v h
  cases d <;> cases h

theorem AreFinite.set {b : Bounds} (h : b.AreFinite) (d : Direction) {v : Value} (hv : v.IsFinite) :
    (b.set d v).AreFinite := by
  intro e w hw
  rw [get_set] at hw
  split at hw
  · exact Option.some.inj hw ▸ hv
  · exact h e w hw

theorem find?_entry_append (b : Bounds) (d e : Direction) (rest : List (String × Json)) :
    Table.find? d.name (b.entry e ++ rest) =
      if e = d then ((b.get d).map Value.toJson).or (Table.find? d.name rest) else Table.find? d.name rest := by
  rw [entry]
  by_cases he : e = d
  · subst he
    cases b.get e <;> simp [Table.find?]
  · have hn : ¬ e.name = d.name := fun h => he (Direction.name_inj.mp h)
    cases b.get e <;> simp [Table.find?, he, hn]

theorem find?_entries (b : Bounds) (d : Direction) :
    Table.find? d.name (b.entry .gte ++ b.entry .gt ++ b.entry .lte ++ b.entry .lt) = (b.get d).map Value.toJson := by
  rw [← List.append_nil (_ ++ b.entry .lt)]
  simp only [List.append_assoc, find?_entry_append]
  cases d <;> simp [Table.find?]

end Bounds

namespace Query

open FacetedSearch.Bound

theorem boundOfJson_toJson {v : Value} (h : v.IsFinite) : boundOfJson v.toJson = v := by
  cases v with
  | long n =>
      change Value.ofNumber (.ofInt64 n) = _
      rw [Value.ofNumber, Number.toInt64?_ofInt64]
  | double x =>
      have hx : x.isFinite = true := h
      rw [Value.toJson, Json.ofFloat, dif_pos hx]
      rfl
  | text s => rfl

theorem get_boundsOfMembers (members : List (String × Json)) (d : Direction) :
    (boundsOfMembers members).get d = (Table.find? d.name members).map boundOfJson := by
  cases d <;> rfl

theorem boundsOfMembers_toJson {b : Bounds} (h : b.AreFinite) :
    boundsOfMembers (b.entry .gte ++ b.entry .gt ++ b.entry .lte ++ b.entry .lt) = b := by
  have hread : ∀ d, ((b.get d).map Value.toJson).map boundOfJson = b.get d := by
    intro d
    cases hd : b.get d with
    | none => rfl
    | some v => exact congrArg some (boundOfJson_toJson (h d v hd))
  simp only [boundsOfMembers, Bounds.find?_entries, hread]
  rfl

/-! ## Trees -/

theorem ofItems_toJsons {qs : List Query} (h : ∀ q ∈ qs, ofJson q.toJson = .ok q) :
    ofItems (toJsons qs) = .ok qs := by
  induction qs with
  | nil => rfl
  | cons q qs ih =>
      rw [List.forall_mem_cons] at h
      rw [toJsons, ofItems, h.1, ih h.2]
      rfl

/-- Reading a list of clauses, also one that is left out. -/
theorem clausesOf_clauseEntry {rest : List (String × Json)} {c : Clauses} (hr : clausesOf rest = .ok c)
    {qs : List Query} (h : ∀ q ∈ qs, ofJson q.toJson = .ok q) :
    (c.must = [] → clausesOf (clauseEntry "must" (toJsons qs) ++ rest) = .ok { c with must := qs }) ∧
    (c.mustNot = [] → clausesOf (clauseEntry "must_not" (toJsons qs) ++ rest) = .ok { c with mustNot := qs }) ∧
    (c.should = [] → clausesOf (clauseEntry "should" (toJsons qs) ++ rest) = .ok { c with should := qs }) := by
  have hi := ofItems_toJsons h
  cases qs with
  | nil =>
      obtain ⟨must, mustNot, should⟩ := c
      refine ⟨?_, ?_, ?_⟩ <;> rintro rfl <;> exact hr
  | cons q qs =>
      have he : (toJsons (q :: qs)).isEmpty = false := rfl
      simp [clauseEntry, he, clausesOf, clauseList, hi, hr, bind, Except.bind, pure, Except.pure]

theorem mapM_scalar (values : List String) : (values.map Json.str).mapM scalar = .ok values := by
  induction values with
  | nil => rfl
  | cons v vs ih =>
      rw [List.map_cons, List.mapM_cons, ih]
      rfl

theorem ofJson_toJson {q : Query} (h : q.IsFinite) : ofJson q.toJson = .ok q := by
  induction h with
  | @bool must mustNot should _ _ _ ihm ihn ihs =>
      -- Read from the last list to the first: each list finds its own place still empty.
      have hr : clausesOf [] = .ok {} := rfl
      have hs := (clausesOf_clauseEntry hr ihs).2.2 rfl
      have hn := (clausesOf_clauseEntry hs ihn).2.1 rfl
      have hm := (clausesOf_clauseEntry hn ihm).1 rfl
      rw [List.append_nil, ← List.append_assoc] at hm
      rw [toJson, Json.single, ofJson, ofMembers, hm]
      rfl
  | @terms field values =>
      change (do return Query.terms field (← (values.map Json.str).mapM scalar)) = _
      rw [mapM_scalar]
      rfl
  | matching => rfl
  | @range field bounds hb =>
      change Except.ok (Query.range field (boundsOfMembers _)) = _
      rw [boundsOfMembers_toJson hb]
  | present => rfl
  | @nested path inner _ ih =>
      change Query.nested path <$> ofJson inner.toJson = _
      rw [ih]
      rfl

end Query

end FacetedSearch
