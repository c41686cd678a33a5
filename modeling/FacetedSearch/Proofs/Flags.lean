import FacetedSearch.Proofs.QueryString
import FacetedSearch.Search.Compound

/-!
# Global flags

Behind the query string of a block, the flags are read as they are read alone, but for a mark at their beginning: it
is taken off a query string that stands alone, and stays where another one precedes.
-/

namespace FacetedSearch

open Text

/-! ## Texts behind a mark -/

namespace Text

theorem toList_marked (s : String) : ("?" ++ s).toList = '?' :: s.toList := String.toList_append

theorem ofList_marked (cs : List Char) : String.ofList ('?' :: cs) = "?" ++ String.ofList cs := by
  rw [← String.toList_inj, toList_marked, String.toList_ofList, String.toList_ofList]

/-- The mark belongs to the first piece. -/
theorem exists_pieces_marked (s : String) : ∃ first rest, pieces '&' s = first :: rest ∧
    pieces '&' ("?" ++ s) = ("?" ++ first) :: rest := by
  obtain ⟨first, rest, h⟩ := List.exists_cons_of_ne_nil (List.splitOn_ne_nil '&' s.toList)
  refine ⟨String.ofList first, rest.map String.ofList, by rw [pieces, h, List.map_cons], ?_⟩
  rw [pieces, toList_marked, List.splitOn_cons_eq_if_modifyHead, if_neg (by decide), h, List.modifyHead_cons,
    List.map_cons, ofList_marked]

theorem after?_mark_eq_none_iff {s : String} : after? "?" s = none ↔ s.toList.head? ≠ some '?' := by
  have hmark : "?".toList = ['?'] := rfl
  rw [after?, hmark]
  cases s.toList with
  | nil => simp [List.isPrefixOf?]
  | cons c cs =>
      by_cases hc : c = '?'
      · simp [List.isPrefixOf?, hc]
      · simp [List.isPrefixOf?, hc, Ne.symm hc]

theorem after?_mark_append {s : String} (hs : s ≠ "") (h : after? "?" s = none) (t : String) :
    after? "?" (s ++ t) = none := by
  have hne : s.toList ≠ [] := fun hnil => hs (String.toList_eq_nil_iff.mp hnil)
  rw [after?_mark_eq_none_iff] at h ⊢
  rwa [String.toList_append, List.head?_append_of_ne_nil _ hne]

theorem exchange_marked (s : String) : exchange '+' ' ' ("?" ++ s) = "?" ++ exchange '+' ' ' s := by
  rw [exchange, toList_marked, List.map_cons, if_neg (by decide), ofList_marked, exchange]

theorem cutAt?_marked (s : String) : cutAt? '=' ("?" ++ s) = (cutAt? '=' s).map fun cut => ("?" ++ cut.1, cut.2) := by
  have hdrop : ('?' :: s.toList).dropWhile (· != '=') = s.toList.dropWhile (· != '=') :=
    List.dropWhile_cons_of_pos (by decide)
  have htake : ('?' :: s.toList).takeWhile (· != '=') = '?' :: s.toList.takeWhile (· != '=') :=
    List.takeWhile_cons_of_pos (by decide)
  rw [cutAt?, toList_marked, hdrop, htake, cutAt?]
  cases s.toList.dropWhile (· != '=') with
  | nil => rfl
  | cons c rest => rw [ofList_marked]; rfl

end Text

theorem decodeComponent_marked {component s : String} (h : decodeComponent component = .ok s) :
    decodeComponent ("?" ++ component) = .ok ("?" ++ s) := by
  rw [decodeComponent] at h
  split at h
  · rename_i cs hcs
    cases h
    rw [decodeComponent, exchange_marked, toList_marked, Percent.decode_cons (by decide) (by decide) hcs]
    dsimp only
    rw [ofList_marked]
  · cases h

/-! ## Flags behind a mark -/

/-- The same parameter with the mark in its name. -/
def Parameter.marked (p : Parameter) : Parameter := ⟨"?" ++ p.field, p.value⟩

theorem Parameter.ofPair_marked {pair : String} {p : Parameter} (h : ofPair pair = .ok p) :
    ofPair ("?" ++ pair) = .ok p.marked := by
  have hcut : (cutAt? '=' ("?" ++ pair)).getD ("?" ++ pair, "") =
      ("?" ++ ((cutAt? '=' pair).getD (pair, "")).1, ((cutAt? '=' pair).getD (pair, "")).2) := by
    rw [cutAt?_marked]
    cases cutAt? '=' pair <;> rfl
  rw [ofPair] at h
  simp only [bind_eq_ok_iff, pure_eq_ok_iff] at h
  obtain ⟨field, hfield, value, hvalue, rfl⟩ := h
  rw [ofPair, hcut]
  dsimp only
  rw [decodeComponent_marked hfield, hvalue]
  rfl

namespace Request

/-- The parameters of a query string whose mark, if it had one, is taken off. -/
def ofPairs (body : String) : Except Failure Request :=
  ((pieces '&' body).filter fun pair => !pair.isEmpty).mapM Parameter.ofPair

/-- Parameters whose query string is read with its mark: the mark goes into the first name, or makes a parameter of its
own where the first pair is empty. -/
inductive Marks : Request → Request → Prop
  | first {p : Parameter} {r : Request} : Marks (p :: r) (p.marked :: r)
  | alone {r : Request} : Marks r (⟨"?", ""⟩ :: r)

theorem Marks.ne {r marked : Request} (h : Marks r marked) : marked ≠ r := by
  intro he
  cases h with
  | @first p r =>
      have hfield : "?" ++ p.field = p.field := congrArg Parameter.field (List.cons.inj he).1
      have hl := congrArg String.length hfield
      rw [String.length_append] at hl
      simp at hl
  | alone =>
      have hl := congrArg List.length he
      simp at hl

theorem ofPairs_append {a b : String} {r s : Request} (hr : ofPairs a = .ok r) (hs : ofPairs b = .ok s) :
    ofPairs (a ++ "&" ++ b) = .ok (r ++ s) := by
  rw [ofPairs] at hr hs
  rw [ofPairs, pieces_append rfl, List.filter_append, List.mapM_append, hr, hs]
  rfl

theorem exists_marks {body : String} {r : Request} (h : ofPairs body = .ok r) :
    ∃ marked, ofPairs ("?" ++ body) = .ok marked ∧ Marks r marked := by
  obtain ⟨first, rest, hpieces, hmarked⟩ := exists_pieces_marked body
  have hkept : (!("?" ++ first).isEmpty) = true := by simp [← String.toList_inj]
  rw [ofPairs, hpieces] at h
  rw [ofPairs, hmarked, List.filter_cons_of_pos (p := fun pair : String => !pair.isEmpty) hkept, List.mapM_cons]
  by_cases hempty : first = ""
  · subst hempty
    have halone : Parameter.ofPair ("?" ++ "") = .ok ⟨"?", ""⟩ := Parameter.ofPair_marked (p := ⟨"", ""⟩) rfl
    rw [List.filter_cons_of_neg (by simp)] at h
    rw [halone, h]
    exact ⟨_, rfl, .alone⟩
  · rw [List.filter_cons_of_pos (by simpa using hempty), List.mapM_cons] at h
    simp only [bind_eq_ok_iff, pure_eq_ok_iff] at h
    obtain ⟨p, hp, others, hothers, rfl⟩ := h
    rw [Parameter.ofPair_marked hp, hothers]
    exact ⟨_, rfl, .first⟩

/-- What a query string asks for when its mark stays. -/
theorem exists_added {f : String} {flagged : Request} (h : ofQueryString f = .ok flagged) :
    ∃ added, ofPairs f = .ok added ∧ (added = flagged ∨ Marks flagged added) ∧
      (added = flagged ↔ ¬ ∃ rest, f = "?" ++ rest) := by
  cases hmark : after? "?" f with
  | none =>
      have hpairs : ofPairs f = .ok flagged := by rwa [ofQueryString, hmark] at h
      have hunmarked : ¬ ∃ rest, f = "?" ++ rest := by
        rintro ⟨rest, hrest⟩
        simp [after?_eq_some_iff.mpr hrest] at hmark
      exact ⟨flagged, hpairs, .inl rfl, iff_of_true rfl hunmarked⟩
  | some rest =>
      have hpairs : ofPairs rest = .ok flagged := by rwa [ofQueryString, hmark] at h
      obtain ⟨added, hadded, hmarks⟩ := exists_marks hpairs
      obtain rfl := after?_eq_some_iff.mp hmark
      exact ⟨added, hadded, .inr hmarks, iff_of_false hmarks.ne fun hn => hn ⟨rest, rfl⟩⟩

theorem ofQueryString_append {q f : String} {own added : Request} (hq : q ≠ "") (ho : ofQueryString q = .ok own)
    (ha : ofPairs f = .ok added) : ofQueryString (q ++ "&" ++ f) = .ok (own ++ added) := by
  have hbody : (after? "?" (q ++ "&" ++ f)).getD (q ++ "&" ++ f) = (after? "?" q).getD q ++ "&" ++ f := by
    cases hmark : after? "?" q with
    | some t =>
        obtain rfl := after?_eq_some_iff.mp hmark
        rw [String.append_assoc, String.append_assoc, after?_append, Option.getD_some, Option.getD_some,
          String.append_assoc]
    | none =>
        rw [Option.getD_none, String.append_assoc, after?_mark_append hq hmark, Option.getD_none]
  rw [ofQueryString, hbody]
  exact ofPairs_append ho ha

end Request

namespace CompoundSearch

open Request

variable {s : CompoundSearch} {b : FilterBlock}

/-- The flags of a search, whether they apply to a block or not. -/
def flags (s : CompoundSearch) : String := s.globalFlags.getD ""

theorem blockQuery_eq (hb : b.flagsApplied = true) : s.blockQuery b =
    if s.flags = "" then b.query else if b.query = "" then s.flags else b.query ++ "&" ++ s.flags := by
  by_cases hflags : s.globalFlags.getD "" = "" <;> by_cases hquery : b.query = "" <;>
    simp [blockQuery, flags, hb, hflags, hquery]

/-- A block with flags asks for what it asks for alone and for the flags after it. Only the mark of marked flags goes
into the name of the first flag, where the block has a query string of its own. -/
theorem blockQuery_appends_flags (hb : b.flagsApplied = true) {own flagged : Request}
    (ho : ofQueryString b.query = .ok own) (hf : ofQueryString s.flags = .ok flagged) :
    ∃ added, ofQueryString (s.blockQuery b) = .ok (own ++ added) ∧ (added = flagged ∨ Marks flagged added) ∧
      (added = flagged ↔ b.query = "" ∨ ¬ ∃ rest, s.flags = "?" ++ rest) := by
  have hempty : ofQueryString "" = .ok [] := rfl
  obtain ⟨added, hadded, hmarks, hsame⟩ := exists_added hf
  rw [blockQuery_eq hb]
  by_cases hquery : b.query = ""
  · have hown : own = [] := by
      rw [hquery, hempty, Except.ok.injEq] at ho
      exact ho.symm
    refine ⟨flagged, ?_, .inl rfl, iff_of_true rfl (.inl hquery)⟩
    rw [hown, List.nil_append, if_pos hquery, ← hf]
    split
    · rename_i hflags
      rw [hquery, hflags]
    · rfl
  · refine ⟨added, ?_, hmarks, by rw [hsame, or_iff_right hquery]⟩
    rw [if_neg hquery]
    split
    · rename_i hflags
      have hnone : added = [] := by
        rw [hflags, ofPairs] at hadded
        exact (Except.ok.inj hadded).symm
      rw [hnone, List.append_nil, ho]
    · exact ofQueryString_append hquery ho hadded

/-- Flags in the form of a link, whose mark stays, and whose first pair is empty. -/
theorem blockQuery_appends_flags_link :
    let s : CompoundSearch := { globalFlags := some "?&status=released" }
    let b : FilterBlock := { query := "?sex=F" }
    ∃ added, ofQueryString (s.blockQuery b) = .ok ([⟨"sex", "F"⟩] ++ added) ∧ Marks [⟨"status", "released"⟩] added := by
  intro s b
  have hown : ofQueryString b.query = .ok [⟨"sex", "F"⟩] := by decide +kernel
  have hflagged : ofQueryString s.flags = .ok [⟨"status", "released"⟩] := by decide +kernel
  obtain ⟨added, hadded, hmarks, hsame⟩ := blockQuery_appends_flags rfl hown hflagged
  have hne : added ≠ [⟨"status", "released"⟩] := fun he =>
    (hsame.mp he).elim (by decide) fun hn => hn ⟨"&status=released", by decide⟩
  exact ⟨added, hadded, hmarks.resolve_left hne⟩

/-- The mark of flags that can be read alone becomes a part of a name. -/
theorem not_blockQuery_appends_flags :
    let s : CompoundSearch := { globalFlags := some "?lab=x" }
    let b : FilterBlock := { query := "sex=F" }
    ∃ own flagged, ofQueryString b.query = .ok own ∧ ofQueryString s.flags = .ok flagged ∧
      ofQueryString (s.blockQuery b) ≠ .ok (own ++ flagged) :=
  ⟨[⟨"sex", "F"⟩], [⟨"lab", "x"⟩], by decide +kernel, by decide +kernel, by decide +kernel⟩

end CompoundSearch

end FacetedSearch
