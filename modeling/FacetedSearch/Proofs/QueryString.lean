import Mathlib.Data.List.Forall2
import FacetedSearch.Criteria.Collection
import FacetedSearch.Proofs.Intents
import FacetedSearch.Proofs.Octets
import FacetedSearch.Proofs.Pieces
import FacetedSearch.Proofs.Success

/-!
# Links

Reading a query string inverts writing it, so the link beside an applied filter leads to the request without the
one parameter that the filter comes from.
-/

namespace FacetedSearch

open Text

/-! ## Parts of texts -/

namespace Text

variable {c d : Char} {s : String}

theorem cutAt?_eq_some {a b : String} (hs : s.toList = a.toList ++ c :: b.toList) (ha : c ∉ a.toList) :
    cutAt? c s = some (a, b) := by
  have hkept : ∀ x ∈ a.toList, (x != c) = true := fun _ hx => bne_iff_ne.mpr (ne_of_mem_of_not_mem hx ha)
  have hrest : (c :: b.toList).dropWhile (· != c) = c :: b.toList := by simp
  have hfirst : (c :: b.toList).takeWhile (· != c) = [] := by simp
  rw [cutAt?, hs, List.dropWhile_append_of_pos hkept, List.takeWhile_append_of_pos hkept, hrest, hfirst]
  simp only [List.append_nil, String.ofList_toList]

theorem exchange_of_not_mem (h : c ∉ s.toList) : exchange c d s = s := by
  have hmap : s.toList.map (fun x => if x = c then d else x) = s.toList := by
    refine (List.map_congr_left fun x hx => ?_).trans (List.map_id _)
    exact if_neg (ne_of_mem_of_not_mem hx h)
  rw [exchange, hmap, String.ofList_toList]

end Text

/-! ## Marks -/

theorem plainMarks_cons {c : Char} (hc : c ≠ '%') (rest : List Char) :
    plainMarks (c :: rest) = c :: plainMarks rest := by
  rw [plainMarks]
  exact fun _ he => absurd he hc

theorem plainMarks_escape {b : UInt8} (hb : b ≠ 33) (rest : List Char) :
    plainMarks ('%' :: Percent.hexDigit (b.toNat / 16) :: Percent.hexDigit (b.toNat % 16) :: rest) =
      '%' :: Percent.hexDigit (b.toNat / 16) :: Percent.hexDigit (b.toNat % 16) :: plainMarks rest := by
  have hlt : b.toNat < 256 := b.toNat_lt
  rw [plainMarks, plainMarks_cons (Percent.hexDigit_ne_percent (by omega)), plainMarks_cons (Percent.hexDigit_ne_percent (by omega))]
  intro _ _ he
  obtain ⟨hhi, he⟩ := List.cons.inj he
  exact hb (Percent.eq_mark_of_hexDigit hhi (List.cons.inj he).1)

/-- Putting the marks back changes the escape of the mark alone. -/
theorem plainMarks_encodeOctet (b : UInt8) (rest : List Char) :
    plainMarks (Percent.encodeOctet b ++ rest) =
      (if b = 33 then ['!'] else Percent.encodeOctet b) ++ plainMarks rest := by
  by_cases hb : b = 33
  · subst hb
    rfl
  rw [if_neg hb, Percent.encodeOctet]
  split
  · rename_i hplain
    obtain ⟨hascii, hpercent, -⟩ := Percent.IsPlain.toNat_bounds (.inl hplain)
    refine plainMarks_cons (fun he => hpercent ?_) rest
    rw [← Percent.toNat_ascii hascii, he]
    rfl
  · exact plainMarks_escape hb rest

/-- To escape all octets and put the marks back is to write the marks as they are and escape the other octets. -/
theorem encodeField_eq (field : String) : encodeField field =
    String.ofList ((Utf8.encode field.toList).flatMap fun b => if b = 33 then ['!'] else Percent.encodeOctet b) := by
  rw [encodeField, Percent.encode]
  congr 1
  induction Utf8.encode field.toList with
  | nil => rfl
  | cons b bs ih => rw [List.flatMap_cons, plainMarks_encodeOctet, ih, List.flatMap_cons]

/-! ## Components -/

/-- Whether a text is a text with its octets escaped, up to those that stand for themselves. -/
def Escapes (component s : String) : Prop :=
  ∃ spelling : UInt8 → List Char, (∀ b, Percent.Spells b (spelling b)) ∧
    component.toList = (Utf8.encode s.toList).flatMap spelling

variable {component s : String}

theorem escapes_encodeField (field : String) : Escapes (encodeField field) field := by
  refine ⟨fun b => if b = 33 then ['!'] else Percent.encodeOctet b, fun b => ?_, ?_⟩
  · dsimp only
    split
    · rename_i hb
      subst hb
      exact .plain (.inr rfl)
    · exact Percent.spells_encodeOctet b
  · rw [encodeField_eq, String.toList_ofList]

theorem escapes_encodeValue (value : String) : Escapes (encodeValue value) value :=
  ⟨Percent.encodeOctet, Percent.spells_encodeOctet, String.toList_ofList⟩

theorem Escapes.toNat_bounds (h : Escapes component s) {c : Char} (hc : c ∈ component.toList) :
    c.toNat ≠ 38 ∧ c.toNat ≠ 43 ∧ c.toNat ≠ 61 ∧ c.toNat ≠ 63 := by
  obtain ⟨spelling, hspells, heq⟩ := h
  exact Percent.toNat_bounds_of_mem_flatMap hspells (heq ▸ hc)

theorem Escapes.decodeComponent_eq (h : Escapes component s) : decodeComponent component = .ok s := by
  have hplus : '+' ∉ component.toList := fun hc => (h.toNat_bounds hc).2.1 rfl
  obtain ⟨spelling, hspells, heq⟩ := h
  rw [decodeComponent, exchange_of_not_mem hplus, heq, Percent.decode_flatMap hspells]
  dsimp only
  rw [String.ofList_toList]

/-! ## Parameters -/

namespace Parameter

variable (p : Parameter)

theorem toList_encode :
    p.encode.toList = (encodeField p.field).toList ++ '=' :: (encodeValue p.value).toList := by
  rw [encode, String.toList_append, String.toList_append, List.append_assoc]
  rfl

theorem encode_isEmpty : p.encode.isEmpty = false := by
  rw [String.isEmpty_eq_false_iff, Ne, ← String.toList_inj, toList_encode]
  simp

theorem toNat_bounds_of_mem_encode {c : Char} (hc : c ∈ p.encode.toList) : c.toNat ≠ 38 ∧ c.toNat ≠ 63 := by
  rw [toList_encode, List.mem_append, List.mem_cons] at hc
  rcases hc with hc | rfl | hc
  · have hb := (escapes_encodeField p.field).toNat_bounds hc
    exact ⟨hb.1, hb.2.2.2⟩
  · decide
  · have hb := (escapes_encodeValue p.value).toNat_bounds hc
    exact ⟨hb.1, hb.2.2.2⟩

/-- A pair is cut at the sign between field and value: the ones inside of either are escaped. -/
theorem ofPair_encode : ofPair p.encode = .ok p := by
  have hfield := escapes_encodeField p.field
  have hcut := cutAt?_eq_some p.toList_encode fun hc => (hfield.toNat_bounds hc).2.2.1 rfl
  rw [ofPair, hcut, Option.getD_some]
  dsimp only
  rw [hfield.decodeComponent_eq, (escapes_encodeValue p.value).decodeComponent_eq]
  rfl

end Parameter

/-! ## Query strings -/

namespace Request

/-- The request without the parameter at `index`. -/
def without (r : Request) (index : Nat) : Request := r.take index ++ r.drop (index + 1)

theorem eraseIdx_eq_without (r : Request) (index : Nat) : r.eraseIdx index = r.without index :=
  List.eraseIdx_eq_take_drop_succ r index

theorem mapM_ofPair_encode (r : Request) : (r.map Parameter.encode).mapM Parameter.ofPair = .ok r := by
  rw [mapM_eq_ok_iff, List.forall₂_map_left_iff, List.forall₂_same]
  exact fun p _ => p.ofPair_encode

/-- The pairs of a query string that are not empty are the encoded parameters. The empty request is a case of its
own: its query string has one piece, which is empty. -/
theorem filter_pieces_encode (r : Request) :
    (pieces '&' r.encode).filter (fun pair => !pair.isEmpty) = r.map Parameter.encode := by
  cases r with
  | nil => rfl
  | cons p r =>
      have hfree : ∀ s ∈ (p :: r).map Parameter.encode, '&' ∉ s.toList :=
        List.forall_mem_map.mpr fun q _ hc => (q.toNat_bounds_of_mem_encode hc).1 rfl
      rw [encode, pieces_intercalate rfl (by simp) hfree, List.filter_eq_self, List.forall_mem_map]
      intro q _
      rw [q.encode_isEmpty]
      rfl

theorem exists_encode_cons (p : Parameter) (r : Request) : ∃ rest, encode (p :: r) = p.encode ++ rest := by
  cases r with
  | nil => exact ⟨"", by rw [encode, List.map_singleton, String.intercalate_singleton, String.append_empty]⟩
  | cons q r =>
      refine ⟨"&" ++ encode (q :: r), ?_⟩
      rw [encode, List.map_cons, List.map_cons, String.intercalate_cons_cons, String.append_assoc, encode,
        List.map_cons]

/-- No query string that is written begins with the mark that is taken off before reading. -/
theorem after?_encode (r : Request) : after? "?" r.encode = none := by
  rw [Option.eq_none_iff_forall_ne_some]
  intro t h
  rw [after?_eq_some_iff, ← String.toList_inj] at h
  cases r with
  | nil => simp [encode] at h
  | cons p r =>
      obtain ⟨rest, hrest⟩ := exists_encode_cons p r
      rw [hrest, String.toList_append, String.toList_append] at h
      cases hp : p.encode.toList with
      | nil => simp [p.toList_encode] at hp
      | cons c cs =>
          rw [hp] at h
          have hc : c = '?' := (List.cons.inj h).1
          exact (p.toNat_bounds_of_mem_encode (hp ▸ List.mem_cons_self)).2 (hc ▸ rfl)

theorem ofQueryString_encode (r : Request) : ofQueryString r.encode = .ok r := by
  rw [ofQueryString, r.after?_encode, Option.getD_none, r.filter_pieces_encode, r.mapM_ofPair_encode]

example : encode [⟨"a=b!", "50% & é?"⟩, ⟨"", ""⟩] = "a%3Db!=50%25%20%26%20%C3%A9%3F&=" := by decide +kernel

theorem ofQueryString_marked (r : Request) : ofQueryString ("?" ++ r.encode) = .ok r := by
  rw [ofQueryString, after?_append, Option.getD_some, r.filter_pieces_encode, r.mapM_ofPair_encode]

theorem ofQueryString_encodeWithout (r : Request) (index : Nat) :
    ofQueryString ("?" ++ r.encodeWithout index) = .ok (r.without index) := by
  rw [encodeWithout, eraseIdx_eq_without, ofQueryString_marked]

end Request

/-! ## Applied filters -/

/-- The filter stands for the parameter at `index` and links to the request without that parameter. -/
structure AppliedFilter.StandsFor (a : AppliedFilter) (request : Request) (index : Nat) : Prop where
  parameter : request[index]? = some ⟨a.field, a.term⟩
  link : Request.ofQueryString a.remove = .ok (request.without index)

namespace FieldView

/-- One filter for each parameter that is not skipped, in their order. -/
def Lists (view : FieldView) (request : Request) (applied : List AppliedFilter) : Prop :=
  ∃ places : List Nat, places.Pairwise (· < ·) ∧
    (∀ index, index ∈ places ↔ ∃ p, request[index]? = some p ∧ view.intent p ≠ .skip) ∧
    List.Forall₂ (fun a index => a.StandsFor request index) applied places

variable {view : FieldView} {request : Request}

theorem standsFor_of {index : Nat} {p : Parameter} (h : request[index]? = some p) :
    (AppliedFilter.of request index p).StandsFor request index :=
  ⟨h, request.ofQueryString_encodeWithout index⟩

/-- The places of the parameters that are not skipped. -/
def places (view : FieldView) (request : Request) : List Nat :=
  (request.zipIdx.filter fun item => view.intent item.1 ≠ .skip).map Prod.snd

theorem pairwise_places (view : FieldView) (request : Request) : (view.places request).Pairwise (· < ·) := by
  refine List.Pairwise.sublist (List.filter_sublist.map Prod.snd) ?_
  rw [List.zipIdx_map_snd]
  exact List.pairwise_lt_range'

theorem mem_places {index : Nat} :
    index ∈ view.places request ↔ ∃ p, request[index]? = some p ∧ view.intent p ≠ .skip := by
  simp only [places, List.mem_map, List.mem_filter, decide_eq_true_eq, Prod.exists, List.mk_mem_zipIdx_iff_getElem?]
  exact ⟨fun ⟨p, _, h, he⟩ => ⟨p, he ▸ h⟩, fun ⟨p, h⟩ => ⟨p, index, h, rfl⟩⟩

theorem forall₂_standsFor {items : List (Parameter × Nat)} (h : ∀ item ∈ items, request[item.2]? = some item.1) :
    List.Forall₂ (fun (a : AppliedFilter) index => a.StandsFor request index)
      (items.filterMap fun (p, index) =>
        if view.intent p = .skip then none else some (AppliedFilter.of request index p))
      ((items.filter fun item => view.intent item.1 ≠ .skip).map Prod.snd) := by
  induction items with
  | nil => exact .nil
  | cons item items ih =>
      rw [List.forall_mem_cons] at h
      by_cases hskip : view.intent item.1 = .skip
      · rw [List.filterMap_cons, List.filter_cons]
        simp only [hskip, if_true, ne_eq, not_true, decide_false, Bool.false_eq_true, if_false]
        exact ih h.2
      · rw [List.filterMap_cons, List.filter_cons]
        simp only [hskip, if_false, ne_eq, not_false_eq_true, decide_true, if_true, List.map_cons]
        exact .cons (standsFor_of h.1) (ih h.2)

theorem lists_appliedFilters (view : FieldView) (request : Request) :
    view.Lists request (view.appliedFilters request) :=
  ⟨view.places request, view.pairwise_places request, fun _ => mem_places,
    forall₂_standsFor fun _ hitem => List.mk_mem_zipIdx_iff_getElem?.mp hitem⟩

end FieldView

/-- Requests are read back from what is written of them, also from the links, which leave out one parameter; and
the filters applied by a request are its parameters that are not skipped, each with the link without it. -/
theorem Request.links_read_back :
    (∀ r : Request, ofQueryString r.encode = .ok r) ∧
      (∀ (r : Request) (index : Nat), ofQueryString ("?" ++ r.encodeWithout index) = .ok (r.without index)) ∧
      ∀ (view : FieldView) (r : Request), view.Lists r (view.appliedFilters r) :=
  ⟨ofQueryString_encode, ofQueryString_encodeWithout, FieldView.lists_appliedFilters⟩

end FacetedSearch
