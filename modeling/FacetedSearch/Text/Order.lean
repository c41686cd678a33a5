/-!
# Order of texts

Texts are ordered by code point, which is also the order of their UTF-8 octets.
-/

namespace FacetedSearch.Text

/-- The texts in order, repeats kept. -/
def sorted (ss : List String) : List String := ss.mergeSort fun a b => decide (a ≤ b)

/-- The texts without repeats; of equal ones the last place is kept. -/
def withoutRepeats (ss : List String) : List String :=
  ss.foldr (fun s kept => if s ∈ kept then kept else s :: kept) []

def sortedSet (ss : List String) : List String := sorted (withoutRepeats ss)

/-- Whether two lists hold the same texts; order and repeats do not matter. -/
def sameMembers (ss ts : List String) : Bool := ss.all (ts.contains ·) && ts.all (ss.contains ·)

theorem mem_sorted {s : String} {ss : List String} : s ∈ sorted ss ↔ s ∈ ss := List.mem_mergeSort

theorem nodup_sorted {ss : List String} : (sorted ss).Nodup ↔ ss.Nodup := (List.mergeSort_perm _ _).nodup_iff

theorem pairwise_sorted (ss : List String) : (sorted ss).Pairwise (· ≤ ·) := by
  have htrans : ∀ a b c : String, decide (a ≤ b) = true → decide (b ≤ c) = true → decide (a ≤ c) = true := by
    simpa using fun a b c => String.le_trans
  have htotal : ∀ a b : String, (decide (a ≤ b) || decide (b ≤ a)) = true := by
    simpa using String.le_total
  exact (List.pairwise_mergeSort htrans htotal ss).imp of_decide_eq_true

theorem sameMembers_iff {ss ts : List String} : sameMembers ss ts = true ↔ ∀ s, s ∈ ss ↔ s ∈ ts := by
  simp only [sameMembers, Bool.and_eq_true, List.all_eq_true, List.contains_iff_mem]
  exact ⟨fun h s => ⟨h.1 s, h.2 s⟩, fun h => ⟨fun s => (h s).1, fun s => (h s).2⟩⟩

end FacetedSearch.Text
