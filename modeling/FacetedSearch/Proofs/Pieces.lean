import Mathlib.Data.List.Basic
import FacetedSearch.Text.Affix

/-!
# Pieces of a text

Cutting a text at a separator and joining the pieces invert one another, as no piece holds the separator.
-/

namespace FacetedSearch.Text

variable {c : Char} {s separator : String}

theorem not_mem_of_mem_splitOn {cs part : List Char} (h : part ∈ cs.splitOn c) : c ∉ part := by
  induction cs generalizing part with
  | nil =>
      rw [List.splitOn_nil, List.mem_singleton] at h
      simp [h]
  | cons x cs ih =>
      obtain ⟨first, rest, hcs⟩ := List.exists_cons_of_ne_nil (List.splitOn_ne_nil c cs)
      rw [List.splitOn_cons_eq_if_modifyHead, hcs] at h
      rw [hcs] at ih
      split at h
      · rcases List.mem_cons.mp h with rfl | h
        · exact List.not_mem_nil
        · exact ih h
      · rename_i hx
        -- The character joins the first piece of what follows it.
        rcases List.mem_cons.mp h with rfl | h
        · have hc : c ≠ x := fun he => hx (by simp [he])
          exact List.not_mem_cons_of_ne_of_not_mem hc (ih List.mem_cons_self)
        · exact ih (List.mem_cons_of_mem _ h)

theorem not_mem_of_mem_pieces {piece : String} (h : piece ∈ pieces c s) : c ∉ piece.toList := by
  obtain ⟨part, hpart, rfl⟩ := List.mem_map.mp h
  rw [String.toList_ofList]
  exact not_mem_of_mem_splitOn hpart

theorem pieces_append (hc : separator.toList = [c]) (front rest : String) :
    pieces c (front ++ separator ++ rest) = pieces c front ++ pieces c rest := by
  have hlist : (front ++ separator ++ rest).toList = front.toList ++ c :: rest.toList := by
    simp only [String.toList_append, hc, List.append_assoc, List.singleton_append]
  rw [pieces, hlist, List.splitOn_append_cons_self, List.map_append, pieces, pieces]

theorem pieces_intercalate {ss : List String} (hc : separator.toList = [c]) (hne : ss ≠ [])
    (h : ∀ s ∈ ss, c ∉ s.toList) : pieces c (separator.intercalate ss) = ss := by
  have hparts : ∀ cs ∈ ss.map String.toList, c ∉ cs := List.forall_mem_map.mpr h
  rw [pieces, String.toList_intercalate, hc, List.splitOn_intercalate c hparts (by simpa using hne), List.map_map]
  exact List.map_id'' (fun s => String.ofList_toList) ss

theorem intercalate_pieces (hc : separator.toList = [c]) : separator.intercalate (pieces c s) = s := by
  have hparts : (s.toList.splitOn c).map (String.toList ∘ String.ofList) = s.toList.splitOn c :=
    List.map_id'' (fun cs => String.toList_ofList) _
  rw [← String.toList_inj, String.toList_intercalate, hc, pieces, List.map_map, hparts]
  exact List.intercalate_splitOn c

/-! ## Segments -/

theorem segments_append (front rest : String) :
    segments (front ++ "." ++ rest) = segments front ++ segments rest :=
  pieces_append rfl front rest

theorem segments_ne_nil (path : String) : segments path ≠ [] := by
  rw [segments, pieces]
  simp

end FacetedSearch.Text
