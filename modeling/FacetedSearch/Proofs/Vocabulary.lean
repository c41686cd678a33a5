import FacetedSearch.Proofs.Success
import FacetedSearch.Query.Wire

/-!
# The vocabulary of query bodies

Which JSON values are read as queries, as a grammar. Query objects, boolean clauses and the fields of leaves are closed:
a name outside the vocabulary is an unsupported shape. The inner objects of `match`, `range`, `exists` and `nested`, and
the objects around the filter of a document, are open: further names, and bounds that are neither numbers nor texts, are
accepted there.
-/

namespace FacetedSearch

open Failure (unsupportedShape)

/-! ## The grammar -/

namespace Json

def IsScalar : Json → Prop
  | .str _ | .num _ | .bool _ => True
  | _ => False

def IsBound : Json → Prop
  | .num _ | .str _ => True
  | _ => False

/-- The queries that a boolean clause is made of: those of an array, or one without the array. -/
def clauses : Json → List Json
  | .arr items => items
  | v => [v]

def NamesOnly (names : List String) (members : List (String × Json)) : Prop := ∀ m ∈ members, m.1 ∈ names

/-- The value is a query body. In a closed one no object has a name that the vocabulary does not give it, and bounds are
numbers or texts. -/
inductive IsQuery (closed : Bool) : Json → Prop
  | wrapped {v : Json} : IsQuery closed v → IsQuery closed (single "query" v)
  | bool {members : List (String × Json)} : NamesOnly ["must", "must_not", "should"] members →
      (∀ m ∈ members, ∀ v ∈ m.2.clauses, IsQuery closed v) → IsQuery closed (single "bool" (.obj members))
  | terms {field : String} {items : List Json} : (∀ item ∈ items, item.IsScalar) →
      IsQuery closed (single "terms" (single field (.arr items)))
  | matching {field : String} {v : Json} : v.IsScalar → IsQuery closed (single "match" (single field v))
  | matchingSpec {field : String} {v : Json} {members : List (String × Json)} :
      Table.find? "query" members = some v → v.IsScalar → (closed = true → NamesOnly ["query"] members) →
        IsQuery closed (single "match" (single field (.obj members)))
  | range {field : String} {members : List (String × Json)} :
      (closed = true → NamesOnly ["gte", "gt", "lte", "lt"] members ∧ ∀ m ∈ members, m.2.IsBound) →
        IsQuery closed (single "range" (single field (.obj members)))
  | present {field : String} {members : List (String × Json)} : Table.find? "field" members = some (.str field) →
      (closed = true → NamesOnly ["field"] members) → IsQuery closed (single "exists" (.obj members))
  | nested {path : String} {v : Json} {members : List (String × Json)} :
      Table.find? "path" members = some (.str path) → Table.find? "query" members = some v → IsQuery closed v →
        (closed = true → NamesOnly ["path", "query"] members) → IsQuery closed (single "nested" (.obj members))

/-- The value is a query body inside the objects of a document. -/
inductive IsDocument (closed : Bool) : Json → Prop
  | intro {document query bool : List (String × Json)} {v : Json} : Table.find? "query" document = some (.obj query) →
      Table.find? "bool" query = some (.obj bool) → Table.find? "filter" bool = some v → IsQuery closed v →
        (closed = true → NamesOnly ["query"] document ∧ NamesOnly ["bool"] query ∧ NamesOnly ["filter"] bool) →
          IsDocument closed (.obj document)

theorem IsQuery.opened {closed : Bool} {v : Json} (h : v.IsQuery closed) : v.IsQuery false := by
  induction h with
  | wrapped _ ih => exact .wrapped ih
  | bool hnames _ ih => exact .bool hnames ih
  | terms h => exact .terms h
  | matching h => exact .matching h
  | matchingSpec hq h _ => exact .matchingSpec hq h nofun
  | range _ => exact .range nofun
  | present hf _ => exact .present hf nofun
  | nested hp hq _ _ ih => exact .nested hp hq ih nofun

theorem IsDocument.opened {closed : Bool} {v : Json} (h : v.IsDocument closed) : v.IsDocument false := by
  obtain ⟨hquery, hbool, hfilter, h, -⟩ := h
  exact .intro hquery hbool hfilter h.opened nofun

end Json

namespace Query

/-! ## What is read is in the grammar -/

theorem isScalar_of_scalar {v : Json} {s : String} (h : scalar v = .ok s) : v.IsScalar := by
  cases v with
  | str | num | bool => trivial
  | _ => cases h

theorem eq_single_of_singleField {kind field : String} {v w : Json} (h : singleField kind v = .ok (field, w)) :
    v = .single field w := by
  unfold singleField at h
  split at h
  · cases h
    rfl
  · cases h
  · cases h

theorem isQuery_of_termsOfJson {v : Json} {q : Query} (h : termsOfJson v = .ok q) :
    (Json.single "terms" v).IsQuery false := by
  simp only [termsOfJson, bind_eq_ok_iff] at h
  obtain ⟨⟨field, w⟩, hs, h⟩ := h
  cases eq_single_of_singleField hs
  cases w with
  | arr items =>
      obtain ⟨values, hvalues, -⟩ := bind_eq_ok_iff.mp h
      refine .terms fun item hi => ?_
      obtain ⟨s, hscalar⟩ := exists_mapM_iff.mp ⟨values, hvalues⟩ item hi
      exact isScalar_of_scalar hscalar
  | _ => cases h

theorem isQuery_of_matchingOfJson {v : Json} {q : Query} (h : matchingOfJson v = .ok q) :
    (Json.single "match" v).IsQuery false := by
  simp only [matchingOfJson, bind_eq_ok_iff] at h
  obtain ⟨⟨field, w⟩, hs, h⟩ := h
  cases eq_single_of_singleField hs
  dsimp only at h
  split at h
  · split at h
    · rename_i hq
      obtain ⟨s, hscalar, -⟩ := bind_eq_ok_iff.mp h
      exact .matchingSpec hq (isScalar_of_scalar hscalar) nofun
    · cases h
  · obtain ⟨s, hscalar, -⟩ := bind_eq_ok_iff.mp h
    exact .matching (isScalar_of_scalar hscalar)

theorem isQuery_of_rangeOfJson {v : Json} {q : Query} (h : rangeOfJson v = .ok q) :
    (Json.single "range" v).IsQuery false := by
  simp only [rangeOfJson, bind_eq_ok_iff] at h
  obtain ⟨⟨field, w⟩, hs, h⟩ := h
  cases eq_single_of_singleField hs
  cases w with
  | obj members => exact .range nofun
  | _ => cases h

/-- A text at a name, of an object. -/
theorem exists_of_text {v : Json} {name s : String} (h : (v.get? name).bind Json.str? = some s) :
    ∃ members, v = .obj members ∧ Table.find? name members = some (.str s) := by
  obtain ⟨w, hw, hs⟩ := Option.bind_eq_some_iff.mp h
  cases v with
  | obj members =>
      cases w with
      | str t =>
          cases hs
          exact ⟨members, rfl, hw⟩
      | _ => cases hs
  | _ => cases hw

theorem isQuery_of_presentOfJson {v : Json} {q : Query} (h : presentOfJson v = .ok q) :
    (Json.single "exists" v).IsQuery false := by
  rw [presentOfJson] at h
  split at h
  · rename_i hf
    obtain ⟨members, rfl, hfield⟩ := exists_of_text hf
    exact .present hfield nofun
  · cases h

mutual

theorem isQuery_of_ofJson : (v : Json) → ∀ {q : Query}, ofJson v = .ok q → v.IsQuery false
  | .obj members, _, h => isQuery_of_ofMembers members (by rwa [ofJson] at h)
  | .null, _, h | .bool _, _, h | .num _, _, h | .str _, _, h | .arr _, _, h => by simp [ofJson] at h

theorem isQuery_of_ofMembers : (members : List (String × Json)) → ∀ {q : Query},
    ofMembers members = .ok q → (Json.obj members).IsQuery false
  | [], _, h | _ :: _ :: _, _, h => by simp [ofMembers] at h
  | [(key, body)], q, h => by
      unfold ofMembers at h
      split at h
      · exact .wrapped (isQuery_of_ofJson body h)
      · split at h
        · rename_i members
          obtain ⟨c, hc, -⟩ := map_eq_ok_iff.mp h
          obtain ⟨hnames, hclauses⟩ := isQuery_of_clausesOf members hc
          exact .bool hnames hclauses
        · cases h
      · exact isQuery_of_termsOfJson h
      · exact isQuery_of_matchingOfJson h
      · exact isQuery_of_rangeOfJson h
      · exact isQuery_of_presentOfJson h
      · split at h
        · cases h
        · rename_i hp
          obtain ⟨members, rfl, hpath⟩ := exists_of_text hp
          dsimp only at h
          split at h
          · rename_i inner hi
            obtain ⟨p, rfl, -⟩ := map_eq_ok_iff.mp h
            obtain ⟨v, hv, hquery⟩ := isQuery_of_innerOf members hi
            exact .nested hpath hv hquery nofun
          · cases h
      · cases h

theorem isQuery_of_clausesOf : (members : List (String × Json)) → ∀ {c : Clauses}, clausesOf members = .ok c →
    Json.NamesOnly ["must", "must_not", "should"] members ∧ ∀ m ∈ members, ∀ v ∈ m.2.clauses, v.IsQuery false
  | [], _, _ => ⟨by simp [Json.NamesOnly], by simp⟩
  | (key, value) :: rest, c, h => by
      unfold clausesOf at h
      split at h
      case h_4 => cases h
      all_goals
        simp only [bind_eq_ok_iff] at h
        obtain ⟨qs, hqs, others, ho, -⟩ := h
        obtain ⟨hnames, hclauses⟩ := isQuery_of_clausesOf rest ho
        exact ⟨List.forall_mem_cons.mpr ⟨by simp, hnames⟩,
          List.forall_mem_cons.mpr ⟨isQuery_of_clauseList value hqs, hclauses⟩⟩

theorem isQuery_of_clauseList : (v : Json) → ∀ {qs : List Query}, clauseList v = .ok qs →
    ∀ u ∈ v.clauses, u.IsQuery false
  | .arr items, _, h => isQuery_of_ofItems items (by rwa [clauseList] at h)
  | .obj members, qs, h => by
      simp only [clauseList, bind_eq_ok_iff] at h
      obtain ⟨q, hq, -⟩ := h
      exact List.forall_mem_singleton.mpr (isQuery_of_ofMembers members hq)
  | .null, _, h | .bool _, _, h | .num _, _, h | .str _, _, h => by simp [clauseList] at h

theorem isQuery_of_ofItems : (items : List Json) → ∀ {qs : List Query}, ofItems items = .ok qs →
    ∀ u ∈ items, u.IsQuery false
  | [], _, _ => by simp
  | item :: rest, qs, h => by
      simp only [ofItems, bind_eq_ok_iff] at h
      obtain ⟨q, hq, qs, hqs, -⟩ := h
      exact List.forall_mem_cons.mpr ⟨isQuery_of_ofJson item hq, isQuery_of_ofItems rest hqs⟩

theorem isQuery_of_innerOf : (members : List (String × Json)) → ∀ {q : Query}, innerOf members = some (.ok q) →
    ∃ v, Table.find? "query" members = some v ∧ v.IsQuery false
  | [], _, h => by simp [innerOf] at h
  | (key, value) :: rest, q, h => by
      rw [innerOf] at h
      rw [Table.find?]
      split at h
      · rename_i hkey
        exact ⟨value, if_pos hkey, isQuery_of_ofJson value (Option.some.inj h)⟩
      · rename_i hkey
        rw [if_neg hkey]
        exact isQuery_of_innerOf rest h

end

/-! ## What is in the grammar is read -/

theorem exists_scalar {v : Json} (h : v.IsScalar) : ∃ s, scalar v = .ok s := by
  cases v with
  | str s => exact ⟨s, rfl⟩
  | num n => exact ⟨_, rfl⟩
  | bool b => exact ⟨_, rfl⟩
  | _ => exact h.elim

theorem exists_ofItems {items : List Json} (h : ∀ v ∈ items, ∃ q, ofJson v = .ok q) : ∃ qs, ofItems items = .ok qs := by
  induction items with
  | nil => exact ⟨[], by rw [ofItems]⟩
  | cons item rest ih =>
      obtain ⟨⟨q, hq⟩, hrest⟩ := List.forall_mem_cons.mp h
      obtain ⟨qs, hqs⟩ := ih hrest
      exact ⟨q :: qs, by rw [ofItems, hq, hqs]; rfl⟩

theorem exists_clauseList {v : Json} (h : ∀ u ∈ v.clauses, ∃ q, ofJson u = .ok q) :
    ∃ qs, clauseList v = .ok qs := by
  cases v with
  | arr items =>
      rw [clauseList]
      exact exists_ofItems h
  | obj members =>
      obtain ⟨q, hq⟩ := h _ (List.mem_singleton_self _)
      rw [ofJson] at hq
      exact ⟨[q], by rw [clauseList, hq]; rfl⟩
  | _ =>
      obtain ⟨q, hq⟩ := h _ (List.mem_singleton_self _)
      simp [ofJson] at hq

theorem exists_clausesOf {members : List (String × Json)}
    (hnames : Json.NamesOnly ["must", "must_not", "should"] members)
    (h : ∀ m ∈ members, ∀ v ∈ m.2.clauses, ∃ q, ofJson v = .ok q) : ∃ c, clausesOf members = .ok c := by
  induction members with
  | nil => exact ⟨{}, by rw [clausesOf]⟩
  | cons m rest ih =>
      obtain ⟨key, value⟩ := m
      obtain ⟨hkey, hnames⟩ := List.forall_mem_cons.mp hnames
      obtain ⟨hvalue, hrest⟩ := List.forall_mem_cons.mp h
      obtain ⟨qs, hqs⟩ := exists_clauseList hvalue
      obtain ⟨c, hc⟩ := ih hnames hrest
      simp only [List.mem_cons, List.not_mem_nil, or_false] at hkey
      rcases hkey with rfl | rfl | rfl <;> exact ⟨_, by rw [clausesOf, hqs, hc]; rfl⟩

theorem innerOf_eq_map (members : List (String × Json)) :
    innerOf members = (Table.find? "query" members).map ofJson := by
  induction members with
  | nil => rw [innerOf]; rfl
  | cons m rest ih =>
      obtain ⟨key, value⟩ := m
      rw [innerOf, Table.find?]
      split
      · rfl
      · exact ih

theorem exists_termsOfJson {field : String} {items : List Json} (h : ∀ item ∈ items, item.IsScalar) :
    ∃ q, termsOfJson (.single field (.arr items)) = .ok q := by
  obtain ⟨values, hvalues⟩ := exists_mapM_iff.mpr fun item hi => exists_scalar (h item hi)
  have hread : termsOfJson (.single field (.arr items)) = do return .terms field (← items.mapM scalar) := rfl
  exact ⟨.terms field values, by rw [hread, hvalues]; rfl⟩

theorem exists_matchingOfJson {field : String} {v : Json} (h : v.IsScalar) :
    ∃ q, matchingOfJson (.single field v) = .ok q := by
  cases v with
  | str | num | bool => exact ⟨_, rfl⟩
  | _ => exact h.elim

theorem exists_matchingOfJson_spec {field : String} {v : Json} {members : List (String × Json)}
    (hq : Table.find? "query" members = some v) (h : v.IsScalar) :
    ∃ q, matchingOfJson (.single field (.obj members)) = .ok q := by
  obtain ⟨s, hs⟩ := exists_scalar h
  refine ⟨.matching field s, bind_eq_ok_iff.mpr ⟨(field, .obj members), rfl, ?_⟩⟩
  dsimp only
  rw [hq]
  exact bind_eq_ok_iff.mpr ⟨s, hs, rfl⟩

theorem exists_ofJson {closed : Bool} {v : Json} (h : v.IsQuery closed) : ∃ q, ofJson v = .ok q := by
  induction h with
  | wrapped _ ih =>
      rw [Json.single, ofJson, ofMembers]
      exact ih
  | bool hnames _ ih =>
      obtain ⟨c, hc⟩ := exists_clausesOf hnames ih
      rw [Json.single, ofJson, ofMembers]
      exact ⟨c.toQuery, map_eq_ok_iff.mpr ⟨c, hc, rfl⟩⟩
  | terms h =>
      rw [Json.single, ofJson, ofMembers]
      exact exists_termsOfJson h
  | matching h =>
      rw [Json.single, ofJson, ofMembers]
      exact exists_matchingOfJson h
  | matchingSpec hq h _ =>
      rw [Json.single, ofJson, ofMembers]
      exact exists_matchingOfJson_spec hq h
  | range _ =>
      rw [Json.single, ofJson, ofMembers]
      exact ⟨_, rfl⟩
  | @present field members hf _ =>
      rw [Json.single, ofJson, ofMembers, presentOfJson, Json.get?, hf]
      exact ⟨.present field, rfl⟩
  | @nested path v members hp hq _ _ ih =>
      obtain ⟨q, hread⟩ := ih
      have hinner : innerOf members = some (.ok q) := by rw [innerOf_eq_map, hq, Option.map_some, hread]
      rw [Json.single, ofJson, ofMembers, Json.get?, hp]
      dsimp only [Option.bind_some, Json.str?]
      rw [hinner]
      exact ⟨.nested path q, rfl⟩

/-! ## What is not read is an unsupported shape -/

/-- The computation fails with an unsupported shape, if it fails. -/
def OnlyUnsupported {α : Type} (x : Except Failure α) : Prop :=
  ∀ e, x = .error e → ∃ detail, e = unsupportedShape detail

namespace OnlyUnsupported

variable {α β : Type}

theorem ok (a : α) : OnlyUnsupported (.ok a) := nofun

theorem error (detail : String) : OnlyUnsupported (.error (unsupportedShape detail) : Except Failure α) := by
  rintro e ⟨⟩
  exact ⟨detail, rfl⟩

theorem bind {x : Except Failure α} {f : α → Except Failure β} (hx : OnlyUnsupported x)
    (hf : ∀ a, OnlyUnsupported (f a)) : OnlyUnsupported (x >>= f) := by
  intro e h
  rcases bind_eq_error_iff.mp h with h | ⟨a, -, h⟩
  · exact hx e h
  · exact hf a e h

theorem map {x : Except Failure α} (hx : OnlyUnsupported x) (f : α → β) : OnlyUnsupported (x.map f) := by
  cases x with
  | ok a => exact ok (f a)
  | error e =>
      obtain ⟨detail, rfl⟩ := hx e rfl
      exact error detail

theorem mapM {f : α → Except Failure β} (hf : ∀ a, OnlyUnsupported (f a)) (items : List α) :
    OnlyUnsupported (items.mapM f) := by
  intro e h
  obtain ⟨-, x, -, -, -, hx⟩ := mapM_eq_error_iff.mp h
  exact hf x e hx

end OnlyUnsupported

theorem onlyUnsupported_scalar (v : Json) : OnlyUnsupported (scalar v) := by
  rw [scalar]
  split
  · exact .ok _
  · exact .error _

theorem onlyUnsupported_singleField (kind : String) (v : Json) : OnlyUnsupported (singleField kind v) := by
  unfold singleField
  split
  · exact .ok _
  · exact .error _
  · exact .error _

theorem onlyUnsupported_termsOfJson (v : Json) : OnlyUnsupported (termsOfJson v) := by
  refine .bind (onlyUnsupported_singleField _ v) fun (field, v) => ?_
  dsimp only
  split
  · exact .bind (.mapM onlyUnsupported_scalar _) fun _ => .ok _
  · exact .error _

theorem onlyUnsupported_matchingOfJson (v : Json) : OnlyUnsupported (matchingOfJson v) := by
  refine .bind (onlyUnsupported_singleField _ v) fun (field, v) => ?_
  dsimp only
  split
  · split
    · exact .bind (onlyUnsupported_scalar _) fun _ => .ok _
    · exact .error _
  · exact .bind (onlyUnsupported_scalar _) fun _ => .ok _

theorem onlyUnsupported_rangeOfJson (v : Json) : OnlyUnsupported (rangeOfJson v) := by
  refine .bind (onlyUnsupported_singleField _ v) fun (field, v) => ?_
  dsimp only
  split
  · exact .ok _
  · exact .error _

theorem onlyUnsupported_presentOfJson (v : Json) : OnlyUnsupported (presentOfJson v) := by
  rw [presentOfJson]
  split
  · exact .ok _
  · exact .error _

mutual

theorem onlyUnsupported_ofJson : (v : Json) → OnlyUnsupported (ofJson v)
  | .obj members => by
      rw [ofJson]
      exact onlyUnsupported_ofMembers members
  | .null | .bool _ | .num _ | .str _ | .arr _ => by
      rw [ofJson]
      · exact .error _
      · nofun

theorem onlyUnsupported_ofMembers : (members : List (String × Json)) → OnlyUnsupported (ofMembers members)
  | [] => by
      unfold ofMembers
      exact .error _
  | _ :: _ :: _ => by
      unfold ofMembers
      exact .error _
  | [(key, body)] => by
      unfold ofMembers
      split
      · exact onlyUnsupported_ofJson body
      · split
        · exact (onlyUnsupported_clausesOf _).map _
        · exact .error _
      · exact onlyUnsupported_termsOfJson body
      · exact onlyUnsupported_matchingOfJson body
      · exact onlyUnsupported_rangeOfJson body
      · exact onlyUnsupported_presentOfJson body
      · split
        · exact .error _
        · split
          · split
            · rename_i members _ _ inner hi
              exact (onlyUnsupported_innerOf members inner hi).map _
            · exact .error _
          · exact .error _
      · exact .error _

theorem onlyUnsupported_clausesOf : (members : List (String × Json)) → OnlyUnsupported (clausesOf members)
  | [] => by
      rw [clausesOf]
      exact .ok _
  | (key, value) :: rest => by
      unfold clausesOf
      split
      case h_4 => exact .error _
      all_goals
        exact .bind (onlyUnsupported_clauseList value) fun _ => .bind (onlyUnsupported_clausesOf rest) fun _ => .ok _

theorem onlyUnsupported_clauseList : (v : Json) → OnlyUnsupported (clauseList v)
  | .arr items => by
      rw [clauseList]
      exact onlyUnsupported_ofItems items
  | .obj members => by
      rw [clauseList]
      exact .bind (onlyUnsupported_ofMembers members) fun _ => .ok _
  | .null | .bool _ | .num _ | .str _ => by
      unfold clauseList
      exact .error _

theorem onlyUnsupported_ofItems : (items : List Json) → OnlyUnsupported (ofItems items)
  | [] => by
      rw [ofItems]
      exact .ok _
  | item :: rest => by
      rw [ofItems]
      exact .bind (onlyUnsupported_ofJson item) fun _ => .bind (onlyUnsupported_ofItems rest) fun _ => .ok _

theorem onlyUnsupported_innerOf : (members : List (String × Json)) → ∀ inner, innerOf members = some inner →
    OnlyUnsupported inner
  | [], _, h => by simp [innerOf] at h
  | (key, value) :: rest, inner, h => by
      rw [innerOf] at h
      split at h
      · exact Option.some.inj h ▸ onlyUnsupported_ofJson value
      · exact onlyUnsupported_innerOf rest inner h

end

/-! ## Documents -/

theorem eq_some_filter_iff {v w : Json} :
    ((v.get? "query").bind (·.get? "bool")).bind (·.get? "filter") = some w ↔ ∃ document query bool, v = .obj document ∧
      Table.find? "query" document = some (.obj query) ∧ Table.find? "bool" query = some (.obj bool) ∧
        Table.find? "filter" bool = some w := by
  have hget : ∀ {u t : Json} {name : String}, u.get? name = some t ↔
      ∃ members, u = .obj members ∧ Table.find? name members = some t := by
    intro u t name
    cases u <;> simp [Json.get?]
  simp only [Option.bind_eq_some_iff, hget]
  constructor
  · rintro ⟨_, ⟨_, ⟨document, rfl, hquery⟩, query, rfl, hbool⟩, bool, rfl, hfilter⟩
    exact ⟨document, query, bool, rfl, hquery, hbool, hfilter⟩
  · rintro ⟨document, query, bool, rfl, hquery, hbool, hfilter⟩
    exact ⟨_, ⟨_, ⟨document, rfl, hquery⟩, query, rfl, hbool⟩, bool, rfl, hfilter⟩

theorem isDocument_of_ofDocument {v : Json} {q : Query} (h : ofDocument v = .ok q) : v.IsDocument false := by
  rw [ofDocument] at h
  split at h
  · rename_i filter hf
    obtain ⟨document, query, bool, rfl, hquery, hbool, hfilter⟩ := eq_some_filter_iff.mp hf
    exact .intro hquery hbool hfilter (isQuery_of_ofJson filter h) nofun
  · cases h

theorem exists_ofDocument {closed : Bool} {v : Json} (h : v.IsDocument closed) : ∃ q, ofDocument v = .ok q := by
  obtain ⟨hquery, hbool, hfilter, h, -⟩ := h
  rw [ofDocument, eq_some_filter_iff.mpr ⟨_, _, _, rfl, hquery, hbool, hfilter⟩]
  exact exists_ofJson h

theorem onlyUnsupported_ofDocument (v : Json) : OnlyUnsupported (ofDocument v) := by
  rw [ofDocument]
  split
  · exact onlyUnsupported_ofJson _
  · exact .error _

/-- What is not accepted fails with an unsupported shape. -/
theorem OnlyUnsupported.exists_iff {α : Type} {x : Except Failure α} {P : Prop} (hx : OnlyUnsupported x)
    (h : (∃ a, x = .ok a) ↔ P) : (∃ detail, x = .error (unsupportedShape detail)) ↔ ¬ P := by
  rw [← h]
  cases x with
  | ok a => simp
  | error e =>
      obtain ⟨detail, rfl⟩ := hx e rfl
      simp

/-- A value is read as a query if it is in the open grammar, and is an unsupported shape if it is not, and so for
documents. A closed body is in the open grammar too, so what is read is closed unless it has a further name, or a bound
of another kind, in an open object. -/
theorem reading_within_vocabulary (v : Json) :
    ((∃ q, ofJson v = .ok q) ↔ v.IsQuery false) ∧
    ((∃ detail, ofJson v = .error (unsupportedShape detail)) ↔ ¬ v.IsQuery false) ∧
    ((∃ q, ofDocument v = .ok q) ↔ v.IsDocument false) ∧
    ((∃ detail, ofDocument v = .error (unsupportedShape detail)) ↔ ¬ v.IsDocument false) ∧
    (v.IsQuery true → v.IsQuery false) ∧ (v.IsDocument true → v.IsDocument false) := by
  have hquery : (∃ q, ofJson v = .ok q) ↔ v.IsQuery false := ⟨fun ⟨_, h⟩ => isQuery_of_ofJson v h, exists_ofJson⟩
  have hdocument : (∃ q, ofDocument v = .ok q) ↔ v.IsDocument false :=
    ⟨fun ⟨_, h⟩ => isDocument_of_ofDocument h, exists_ofDocument⟩
  exact ⟨hquery, (onlyUnsupported_ofJson v).exists_iff hquery, hdocument,
    (onlyUnsupported_ofDocument v).exists_iff hdocument, .opened, .opened⟩

theorem reading_within_vocabulary_age :
    ∃ q, ofJson (.single "range" (.single "embedded.age" (.single "gte" (.str "5")))) = .ok q := by
  have hclosed : (Json.single "range" (.single "embedded.age" (.single "gte" (.str "5")))).IsQuery true :=
    .range fun _ => ⟨by simp [Json.NamesOnly], by simp [Json.IsBound]⟩
  obtain ⟨hquery, -, -, -, hopened, -⟩ := reading_within_vocabulary
    (.single "range" (.single "embedded.age" (.single "gte" (.str "5"))))
  exact hquery.mpr (hopened hclosed)

/-- A bound under a name outside the vocabulary is dropped, which leaves a range without bounds. -/
theorem not_reading_within_vocabulary :
    let body : Json := .single "range" (.single "embedded.age" (.single "from" (Json.ofInt64 5)))
    ofJson body = .ok (.range "embedded.age" {}) ∧ ¬ body.IsQuery true := by
  refine ⟨rfl, fun h => ?_⟩
  generalize hbody : Json.single "range" (.single "embedded.age" (.single "from" (Json.ofInt64 5))) = v at h
  cases h with
  | range h =>
      simp only [Json.single, Json.obj.injEq, List.cons.injEq, Prod.mk.injEq, and_true, true_and] at hbody
      obtain ⟨-, rfl⟩ := hbody
      exact absurd (h rfl).1 (by simp [Json.NamesOnly])
  | _ => simp [Json.single] at hbody

end Query

end FacetedSearch
