import FacetedSearch.Proofs.Clauses
import FacetedSearch.Proofs.Naming
import FacetedSearch.Proofs.Stripping
import FacetedSearch.Proofs.WireForm

/-!
# Filters with finite bounds

Only finite literals become numeric bounds, so the filter of a request has a wire form, and so has what is left of
it without a field.
-/

namespace FacetedSearch

open FacetedSearch.Bound

/-! ## Bounds of a request -/

theorem Bound.Value.isFinite_ofLiteral (literal : String) (numeric : Bool) :
    (Value.ofLiteral literal numeric).IsFinite := by
  unfold ofLiteral
  split
  · split
    · trivial
    · split
      · split
        · assumption
        · trivial
      · trivial
  · trivial

theorem RangeCriterion.isFinite_boundValue (r : RangeCriterion) (d : Direction) (literal : String) :
    (r.boundValue d literal).IsFinite := by
  rw [boundValue]
  split
  · trivial
  · exact Value.isFinite_ofLiteral literal true

theorem Criteria.areFinite_of_mem_ranges {view : FieldView} {request : Request} :
    ∀ r ∈ (ofRequest view request).ranges, r.bounds.AreFinite := by
  intro r hr
  obtain ⟨field, -, rfl⟩ := mem_ranges_ofRequest.mp hr
  apply RangeCriterion.gathered_induction (P := fun r => r.bounds.AreFinite)
  · exact Bounds.areFinite_empty
  · intro r d literal h
    rw [RangeCriterion.addBound]
    split
    · exact h
    · exact h.set d (r.isFinite_boundValue d literal)

/-! ## Assembled filters -/

theorem Query.BuiltFrom.isFinite {leaf : Query → Prop} {q : Query} (h : q.BuiltFrom leaf)
    (hleaf : ∀ q, leaf q → q.IsFinite) : q.IsFinite := by
  induction h with
  | leaf hq => exact hleaf _ hq
  | missing hf => exact .bool (by simp) (by simpa using hleaf _ hf) (by simp)
  | alternatives _ _ ih => exact .bool (by simp) (by simp) ih

theorem TermCriterion.isFinite_leaf {t : TermCriterion} (q : Query) (hq : t.Leaf q) : q.IsFinite := by
  cases hq with
  | terms values => exact .terms
  | matching value => exact .matching
  | present => exact .present

theorem RangeCriterion.isFinite_leaf {r : RangeCriterion} (h : r.bounds.AreFinite) (q : Query) (hq : r.Leaf q) :
    q.IsFinite := by
  cases hq with
  | range => exact .range h
  | present => exact .present

theorem Criteria.builtFrom_of_mem_nestedConditions {c : Criteria} (h : ∀ r ∈ c.ranges, r.bounds.AreFinite)
    {epsilon : Float} {d : NestedCondition} (hd : d ∈ c.nestedConditions epsilon) : d.BuiltFrom Query.IsFinite := by
  rcases mem_nestedConditions.mp hd with ⟨t, -, -, hdt⟩ | ⟨r, hr, path, -, rfl⟩
  · exact (TermCriterion.builtFrom_condition hdt).mono TermCriterion.isFinite_leaf
  · exact ⟨(r.builtFrom_toQuery epsilon).mono (RangeCriterion.isFinite_leaf (h r hr)), .present⟩

theorem Criteria.OuterClause.isFinite {c : Criteria} (h : ∀ r ∈ c.ranges, r.bounds.AreFinite) {epsilon : Float}
    {q : Query} (hq : c.OuterClause epsilon q) : q.IsFinite := by
  have hnested : ∀ d ∈ c.nestedConditions epsilon, d.BuiltFrom Query.IsFinite :=
    fun d hd => builtFrom_of_mem_nestedConditions h hd
  cases hq with
  | terms field values => exact .terms
  | flat _ _ hf => exact (TermCriterion.builtFrom_flat hf).isFinite TermCriterion.isFinite_leaf
  | range hr => exact (RangeCriterion.builtFrom_toQuery _ _).isFinite (RangeCriterion.isFinite_leaf (h _ hr))
  | wrapper hw =>
      refine .nested (.bool ?_ ?_ (by simp))
      · intro q hq
        exact (NestedCondition.builtFrom_of_mem_wrappers hnested hw (.inl hq)).isFinite fun _ hl => hl
      · intro q hq
        exact (NestedCondition.builtFrom_of_mem_wrappers hnested hw (.inr hq)).isFinite fun _ hl => hl
  | absence hd _ =>
      have hf := (hnested _ hd).query.isFinite fun _ hl => hl
      exact .nested (.bool (by simpa using hf) (by simp) (by simp))

theorem Criteria.isFinite_filter {c : Criteria} {settings : Settings} (h : ∀ r ∈ c.ranges, r.bounds.AreFinite)
    (types : List String) (principals : Principals) : (c.filter settings types principals).IsFinite := by
  obtain ⟨must, mustNot, he, hm, hn⟩ := c.exists_outerClauses settings types principals
  rw [he]
  exact .bool (fun q hq => (hm q hq).isFinite h) (fun q hq => (hn q hq).isFinite h) (by simp)

/-! ## Without a field -/

namespace LeaveOneOut

variable {settings : Settings} {field : String}

theorem isFinite_of_strip {q q' : Query} (h : q.IsFinite) (hs : strip settings field q = .ok (some q')) :
    q'.IsFinite := by
  rcases eq_of_strip hs with rfl | ⟨path, must, mustNot, should, rfl, rfl⟩
  · exact h
  · cases h with
    | nested hi =>
        cases hi with
        | bool hm hn hs =>
            refine .nested (.bool ?_ ?_ ?_)
            · exact fun q hq => hm q (mem_of_mem_without hq)
            · exact fun q hq => hn q (mem_of_mem_without hq)
            · exact fun q hq => hs q (mem_of_mem_without hq)

theorem isFinite_of_filterFor {filter own : Query} (h : filter.IsFinite)
    (ho : filterFor settings filter field = .ok own) : own.IsFinite := by
  obtain ⟨must, mustNot, should, kept, keptNot, rfl, hk, hkn, rfl⟩ := filterFor_eq_ok_iff.mp ho
  cases h with
  | bool hm hn hs =>
      refine .bool ?_ ?_ hs
      · intro q' hq
        obtain ⟨q, hq, hst⟩ := (mem_kept_iff hk).mp hq
        exact isFinite_of_strip (hm q hq) hst
      · intro q' hq
        obtain ⟨q, hq, hst⟩ := (mem_kept_iff hkn).mp hq
        exact isFinite_of_strip (hn q hq) hst

end LeaveOneOut

end FacetedSearch
