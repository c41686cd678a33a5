import FacetedSearch.Proofs.FiniteBounds
import FacetedSearch.Proofs.Numbers

/-!
# Writing and reading queries

Reading a body gives a query with finite bounds, and exactly these queries are read back from their wire form.
-/

namespace FacetedSearch.Query

open FacetedSearch.Bound

/-! ## Leaves -/

theorem isFinite_boundOfJson (v : Json) : (boundOfJson v).IsFinite := by
  cases v with
  | num n =>
      change (Value.ofNumber n).IsFinite
      rw [Value.ofNumber]
      split
      · trivial
      · exact n.isFinite_toFloat
  | _ => trivial

theorem areFinite_boundsOfMembers (members : List (String × Json)) : (boundsOfMembers members).AreFinite := by
  intro d v hv
  rw [get_boundsOfMembers, Option.map_eq_some_iff] at hv
  obtain ⟨w, -, rfl⟩ := hv
  exact isFinite_boundOfJson w

theorem isFinite_of_termsOfJson {v : Json} {q : Query} (h : termsOfJson v = .ok q) : q.IsFinite := by
  simp only [termsOfJson, bind_eq_ok_iff] at h
  obtain ⟨⟨field, w⟩, -, h⟩ := h
  cases w with
  | arr items =>
      simp only [bind_eq_ok_iff, pure_eq_ok_iff] at h
      obtain ⟨values, -, rfl⟩ := h
      exact .terms
  | _ => cases h

theorem isFinite_of_matchingOfJson {v : Json} {q : Query} (h : matchingOfJson v = .ok q) : q.IsFinite := by
  simp only [matchingOfJson, bind_eq_ok_iff] at h
  obtain ⟨⟨field, w⟩, -, h⟩ := h
  dsimp only at h
  split at h
  · split at h
    · simp only [bind_eq_ok_iff, pure_eq_ok_iff] at h
      obtain ⟨value, -, rfl⟩ := h
      exact .matching
    · cases h
  · simp only [bind_eq_ok_iff, pure_eq_ok_iff] at h
    obtain ⟨value, -, rfl⟩ := h
    exact .matching

theorem isFinite_of_rangeOfJson {v : Json} {q : Query} (h : rangeOfJson v = .ok q) : q.IsFinite := by
  simp only [rangeOfJson, bind_eq_ok_iff] at h
  obtain ⟨⟨field, w⟩, -, h⟩ := h
  cases w with
  | obj members =>
      rw [pure_eq_ok_iff] at h
      exact h ▸ .range (areFinite_boundsOfMembers members)
  | _ => cases h

theorem isFinite_of_presentOfJson {v : Json} {q : Query} (h : presentOfJson v = .ok q) : q.IsFinite := by
  rw [presentOfJson] at h
  split at h
  · exact Except.ok.inj h ▸ .present
  · cases h

/-! ## Trees -/

structure Clauses.AreFinite (c : Clauses) : Prop where
  must : ∀ q ∈ c.must, q.IsFinite
  mustNot : ∀ q ∈ c.mustNot, q.IsFinite
  should : ∀ q ∈ c.should, q.IsFinite

mutual

theorem isFinite_of_ofJson : (v : Json) → ∀ {q : Query}, ofJson v = .ok q → q.IsFinite
  | .obj members, _, h => isFinite_of_ofMembers members (by rwa [ofJson] at h)
  | .null, _, h | .bool _, _, h | .num _, _, h | .str _, _, h | .arr _, _, h => by simp [ofJson] at h

theorem isFinite_of_ofMembers : (members : List (String × Json)) → ∀ {q : Query},
    ofMembers members = .ok q → q.IsFinite
  | [], _, h | _ :: _ :: _, _, h => by simp [ofMembers] at h
  | [(key, body)], q, h => by
      unfold ofMembers at h
      split at h
      · exact isFinite_of_ofJson body h
      · split at h
        · rename_i members
          obtain ⟨c, hc, rfl⟩ := map_eq_ok_iff.mp h
          have hf := areFinite_of_clausesOf members hc
          exact .bool hf.must hf.mustNot hf.should
        · cases h
      · exact isFinite_of_termsOfJson h
      · exact isFinite_of_matchingOfJson h
      · exact isFinite_of_rangeOfJson h
      · exact isFinite_of_presentOfJson h
      · split at h
        · cases h
        · split at h
          · split at h
            · rename_i members _ _ inner hi
              obtain ⟨p, rfl, rfl⟩ := map_eq_ok_iff.mp h
              exact .nested (isFinite_of_innerOf members hi)
            · cases h
          · cases h
      · cases h

theorem areFinite_of_clausesOf : (members : List (String × Json)) → ∀ {c : Clauses},
    clausesOf members = .ok c → c.AreFinite
  | [], c, h => by
      rw [clausesOf, Except.ok.injEq] at h
      exact h ▸ ⟨by simp, by simp, by simp⟩
  | (key, value) :: rest, c, h => by
      unfold clausesOf at h
      split at h
      · simp only [bind_eq_ok_iff, pure_eq_ok_iff] at h
        obtain ⟨qs, hqs, others, ho, rfl⟩ := h
        have hf := areFinite_of_clausesOf rest ho
        exact ⟨isFinite_of_clauseList value hqs, hf.mustNot, hf.should⟩
      · simp only [bind_eq_ok_iff, pure_eq_ok_iff] at h
        obtain ⟨qs, hqs, others, ho, rfl⟩ := h
        have hf := areFinite_of_clausesOf rest ho
        exact ⟨hf.must, isFinite_of_clauseList value hqs, hf.should⟩
      · simp only [bind_eq_ok_iff, pure_eq_ok_iff] at h
        obtain ⟨qs, hqs, others, ho, rfl⟩ := h
        have hf := areFinite_of_clausesOf rest ho
        exact ⟨hf.must, hf.mustNot, isFinite_of_clauseList value hqs⟩
      · cases h

theorem isFinite_of_clauseList : (v : Json) → ∀ {qs : List Query}, clauseList v = .ok qs → ∀ q ∈ qs, q.IsFinite
  | .arr items, _, h => isFinite_of_ofItems items (by rwa [clauseList] at h)
  | .obj members, qs, h => by
      simp only [clauseList, bind_eq_ok_iff, pure_eq_ok_iff] at h
      obtain ⟨q, hq, rfl⟩ := h
      simpa using isFinite_of_ofMembers members hq
  | .null, _, h | .bool _, _, h | .num _, _, h | .str _, _, h => by simp [clauseList] at h

theorem isFinite_of_ofItems : (items : List Json) → ∀ {qs : List Query}, ofItems items = .ok qs → ∀ q ∈ qs, q.IsFinite
  | [], qs, h => by
      rw [ofItems, Except.ok.injEq] at h
      simp [← h]
  | item :: rest, qs, h => by
      simp only [ofItems, bind_eq_ok_iff, pure_eq_ok_iff] at h
      obtain ⟨q, hq, qs, hqs, rfl⟩ := h
      exact List.forall_mem_cons.mpr ⟨isFinite_of_ofJson item hq, isFinite_of_ofItems rest hqs⟩

theorem isFinite_of_innerOf : (members : List (String × Json)) → ∀ {q : Query},
    innerOf members = some (.ok q) → q.IsFinite
  | [], _, h => by simp [innerOf] at h
  | (key, value) :: rest, q, h => by
      rw [innerOf] at h
      split at h
      · exact isFinite_of_ofJson value (Option.some.inj h)
      · exact isFinite_of_innerOf rest h

end

theorem ofDocument_document (q : Query) : ofDocument (document q) = ofJson q.toJson := rfl

/-- The queries with finite bounds are the ones that are read back from their wire form, alone or as documents.
Whatever is read has finite bounds, and so has the filter of a request. -/
theorem reading_inverts_writing :
    (∀ q : Query, (ofJson q.toJson = .ok q ↔ q.IsFinite) ∧ (ofDocument (document q) = .ok q ↔ q.IsFinite)) ∧
    (∀ v q, ofJson v = .ok q → q.IsFinite ∧ ofJson q.toJson = .ok q) ∧
    ∀ (view : FieldView) (request : Request) (settings : Settings) (types : List String) (principals : Principals),
      ((Criteria.ofRequest view request).filter settings types principals).IsFinite ∧
        ofJson ((Criteria.ofRequest view request).filter settings types principals).toJson =
          .ok ((Criteria.ofRequest view request).filter settings types principals) := by
  have hiff : ∀ q : Query, ofJson q.toJson = .ok q ↔ q.IsFinite :=
    fun q => ⟨isFinite_of_ofJson q.toJson, ofJson_toJson⟩
  refine ⟨fun q => ⟨hiff q, ?_⟩, ?_, ?_⟩
  · rw [ofDocument_document]
    exact hiff q
  · intro v q h
    have hf := isFinite_of_ofJson v h
    exact ⟨hf, ofJson_toJson hf⟩
  · intro view request settings types principals
    have hr : ∀ r ∈ (Criteria.ofRequest view request).ranges, r.bounds.AreFinite := Criteria.areFinite_of_mem_ranges
    have hf : ((Criteria.ofRequest view request).filter settings types principals).IsFinite :=
      Criteria.isFinite_filter hr types principals
    exact ⟨hf, ofJson_toJson hf⟩

/-- An integer beyond the signed ones is read as a finite bound, which is written as another number. -/
theorem reading_inverts_writing_age :
    ofJson (.obj [("range", .obj [("age",
      .obj [("lt", .num (.int 0x8000000000000000 (by decide))), ("gt", .str "5")])])]) =
      .ok (.range "age" { lt := some (.double (nearestFloat 0x8000000000000000)), gt := some (.text "5") }) ∧
    ofJson (toJson (.range "age" { lt := some (.double (nearestFloat 0x8000000000000000)), gt := some (.text "5") })) =
      .ok (.range "age" { lt := some (.double (nearestFloat 0x8000000000000000)), gt := some (.text "5") }) := by
  have h : ofJson (.obj [("range", .obj [("age",
      .obj [("lt", .num (.int 0x8000000000000000 (by decide))), ("gt", .str "5")])])]) =
      .ok (.range "age" { lt := some (.double (nearestFloat 0x8000000000000000)), gt := some (.text "5") }) := rfl
  exact ⟨h, (reading_inverts_writing.2.1 _ _ h).2⟩

end FacetedSearch.Query
