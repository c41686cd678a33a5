import FacetedSearch.Proofs.Outcomes

/-!
# What compound searches mean

A compound search means what its blocks mean: it fails as the first block does that fails by itself, and otherwise
accepts what some block, or what every block, accepts by itself. Compiling a query string with its facets comes to
the same filter and to the same failures.
-/

namespace FacetedSearch

namespace Compiler

variable {c : Compiler} {types : List String} {principals : Principals} {query : String} {filter : Query}
  {failure : Failure}

/-- The query string is a request, and the guard lets its assembled filter through. -/
def Passes (c : Compiler) (types : List String) (principals : Principals) (query : String) (filter : Query) : Prop :=
  ∃ request, Request.ofQueryString query = .ok request ∧ filter = c.assembled request types principals ∧
    c.guard.verify filter principals = .ok ()

/-- The query string is no request, or the guard refuses its assembled filter. -/
def Refuses (c : Compiler) (types : List String) (principals : Principals) (query : String) (failure : Failure) :
    Prop :=
  Request.ofQueryString query = .error failure ∨
    ∃ request, Request.ofQueryString query = .ok request ∧
      c.guard.verify (c.assembled request types principals) principals = .error failure

theorem compileBlock_eq_ok_iff :
    c.compileBlock types principals query = .ok filter ↔ c.Passes types principals query filter := by
  simp only [compileBlock, bind_eq_ok_iff, pure_eq_ok_iff, Passes]
  refine exists_congr fun request => and_congr_right fun _ => ?_
  constructor
  · rintro ⟨⟨criteria, checked⟩, hf, rfl⟩
    obtain ⟨rfl, rfl, hv⟩ := compileFilter_eq_ok_iff.mp hf
    exact ⟨rfl, hv⟩
  · rintro ⟨rfl, hv⟩
    exact ⟨_, compileFilter_eq_ok_iff.mpr ⟨rfl, rfl, hv⟩, rfl⟩

theorem compileBlock_eq_error_iff :
    c.compileBlock types principals query = .error failure ↔ c.Refuses types principals query failure := by
  simp only [compileBlock, bind_eq_error_iff, compileFilter_eq_error_iff, pure_ne_error, and_false, exists_false,
    or_false, Refuses]
  exact Iff.rfl

/-- With its facets a query string is refused for the same reasons, or for names that repeat. -/
theorem compileQueryString_eq_error_iff {declared : List Facet} :
    c.compileQueryString query types principals declared = .error failure ↔
      c.Refuses types principals query failure ∨ ∃ request name, Request.ofQueryString query = .ok request ∧
        failure = .nameCollision name ∧ ¬ c.MisnamesPrincipals request types principals ∧
        Aggregations.FirstRepeat (c.facetNames request types declared) name := by
  simp only [compileQueryString, bind_eq_error_iff, compile_eq_error_iff, Refuses]
  constructor
  · rintro (hq | ⟨request, hr, hv | ⟨hm, name, he, hf⟩⟩)
    · exact .inl (.inl hq)
    · exact .inl (.inr ⟨request, hr, hv⟩)
    · exact .inr ⟨request, name, hr, he, hm, hf⟩
  · rintro ((hq | ⟨request, hr, hv⟩) | ⟨request, name, hr, he, hm, hf⟩)
    · exact .inl hq
    · exact .inr ⟨request, hr, .inl hv⟩
    · exact .inr ⟨request, hr, .inr ⟨hm, name, he, hf⟩⟩

theorem passes_of_compileQueryString {declared : List Facet} {search : CompiledSearch}
    (h : c.compileQueryString query types principals declared = .ok search) :
    c.Passes types principals query search.filter := by
  obtain ⟨request, hr, hs⟩ := bind_eq_ok_iff.mp h
  obtain ⟨criteria, hf, -⟩ := compile_eq_ok_iff.mp hs
  obtain ⟨rfl, he, hv⟩ := compileFilter_eq_ok_iff.mp hf
  exact ⟨request, hr, he, hv⟩

variable {s : CompoundSearch}

theorem compileCompound_of_nil (h : s.blocks = []) :
    c.compileCompound s types principals = c.compileBlock types principals (s.globalFlags.getD "") := by
  rw [compileCompound, h]

theorem compileCompound_of_ne_nil (h : s.blocks ≠ []) : c.compileCompound s types principals =
    s.blocks.mapM (fun b => c.compileBlock types principals (s.blockQuery b)) >>= fun filters =>
      pure (s.combination.join filters) := by
  rw [compileCompound]
  split
  · rename_i hnil
    exact absurd hnil h
  · rfl

theorem compileCompound_eq_error_iff (h : s.blocks ≠ []) :
    c.compileCompound s types principals = .error failure ↔ ∃ earlier b later, s.blocks = earlier ++ b :: later ∧
      (∀ d ∈ earlier, ∃ own, c.Passes types principals (s.blockQuery d) own) ∧
      c.Refuses types principals (s.blockQuery b) failure := by
  rw [compileCompound_of_ne_nil h]
  simp only [bind_eq_error_iff, pure_ne_error, and_false, exists_false, or_false, mapM_eq_error_iff,
    compileBlock_eq_ok_iff, compileBlock_eq_error_iff]

theorem exists_compileCompound_iff (h : s.blocks ≠ []) :
    (∃ filter, c.compileCompound s types principals = .ok filter) ↔
      ∀ b ∈ s.blocks, ∃ own, c.Passes types principals (s.blockQuery b) own := by
  rw [compileCompound_of_ne_nil h]
  simp only [← compileBlock_eq_ok_iff, ← exists_mapM_iff, bind_eq_ok_iff, pure_eq_ok_iff]
  constructor
  · rintro ⟨_, filters, hm, -⟩
    exact ⟨filters, hm⟩
  · rintro ⟨filters, hm⟩
    exact ⟨_, filters, hm, rfl⟩

theorem accepts_compileCompound_iff (h : s.blocks ≠ []) (hc : c.compileCompound s types principals = .ok filter)
    {rawSuffix : String} {document : Json} : filter.accepts rawSuffix document = true ↔
      if s.intersect then
        ∀ b ∈ s.blocks, ∃ own, c.Passes types principals (s.blockQuery b) own ∧ own.accepts rawSuffix document = true
      else
        ∃ b ∈ s.blocks, ∃ own, c.Passes types principals (s.blockQuery b) own ∧
          own.accepts rawSuffix document = true := by
  simp only [compileCompound_of_ne_nil h, bind_eq_ok_iff, pure_eq_ok_iff, mapM_eq_ok_iff] at hc
  obtain ⟨filters, hall, rfl⟩ := hc
  have hne : filters ≠ [] := by
    rintro rfl
    exact h (List.forall₂_nil_right_iff.mp hall)
  have hmem : ∀ own, own ∈ filters ↔ ∃ b ∈ s.blocks, c.Passes types principals (s.blockQuery b) own := by
    intro own
    simp only [mem_results_iff hall, compileBlock_eq_ok_iff]
  rw [Combination.accepts_join_iff hne, CompoundSearch.combination]
  cases s.intersect with
  | true =>
      simp only [if_true]
      constructor
      · intro ha b hb
        obtain ⟨own, hm, ho⟩ := exists_item_of_mem_results hall.flip hb
        exact ⟨own, compileBlock_eq_ok_iff.mp ho, ha own hm⟩
      · intro ha own hm
        obtain ⟨b, hb, ho⟩ := (hmem own).mp hm
        obtain ⟨other, hp, hacc⟩ := ha b hb
        cases (compileBlock_eq_ok_iff.mpr ho).symm.trans (compileBlock_eq_ok_iff.mpr hp)
        exact hacc
  | false =>
      simp only [Bool.false_eq_true, if_false, hmem]
      constructor
      · rintro ⟨own, ⟨b, hb, ho⟩, ha⟩
        exact ⟨b, hb, own, ho, ha⟩
      · rintro ⟨b, hb, own, ho, ha⟩
        exact ⟨own, ⟨b, hb, ho⟩, ha⟩

/-- A compound search fails as its first block does that fails by itself, and otherwise accepts what some block, or
every block, accepts by itself; without blocks the flags are searched alone. What a query string comes to by itself
is what compiling it with its facets comes to, where their names do not collide. -/
theorem compileCompound_means (c : Compiler) (types : List String) (principals : Principals) :
    (∀ s : CompoundSearch, s.blocks ≠ [] →
      (∀ failure, c.compileCompound s types principals = .error failure ↔
        ∃ earlier b later, s.blocks = earlier ++ b :: later ∧
          (∀ d ∈ earlier, ∃ own, c.Passes types principals (s.blockQuery d) own) ∧
          c.Refuses types principals (s.blockQuery b) failure) ∧
      ((∃ filter, c.compileCompound s types principals = .ok filter) ↔
        ∀ b ∈ s.blocks, ∃ own, c.Passes types principals (s.blockQuery b) own) ∧
      ∀ filter, c.compileCompound s types principals = .ok filter → ∀ rawSuffix document,
        (filter.accepts rawSuffix document = true ↔
          if s.intersect then
            ∀ b ∈ s.blocks, ∃ own, c.Passes types principals (s.blockQuery b) own ∧
              own.accepts rawSuffix document = true
          else
            ∃ b ∈ s.blocks, ∃ own, c.Passes types principals (s.blockQuery b) own ∧
              own.accepts rawSuffix document = true)) ∧
    (∀ s : CompoundSearch, s.blocks = [] →
      (∀ failure, c.compileCompound s types principals = .error failure ↔
        c.Refuses types principals (s.globalFlags.getD "") failure) ∧
      ∀ filter, c.compileCompound s types principals = .ok filter ↔
        c.Passes types principals (s.globalFlags.getD "") filter) ∧
    ∀ query declared,
      (∀ search, c.compileQueryString query types principals declared = .ok search →
        c.Passes types principals query search.filter) ∧
      (∀ failure, c.Refuses types principals query failure →
        c.compileQueryString query types principals declared = .error failure) ∧
      ∀ failure, c.compileQueryString query types principals declared = .error failure →
        c.Refuses types principals query failure ∨ ∃ name, failure = .nameCollision name := by
  refine ⟨?_, ?_, ?_⟩
  · intro s h
    exact ⟨fun failure => compileCompound_eq_error_iff h, exists_compileCompound_iff h,
      fun filter hc rawSuffix document => accepts_compileCompound_iff h hc⟩
  · intro s h
    rw [compileCompound_of_nil h]
    exact ⟨fun failure => compileBlock_eq_error_iff, fun filter => compileBlock_eq_ok_iff⟩
  · intro query declared
    refine ⟨fun search => passes_of_compileQueryString, fun failure h => compileQueryString_eq_error_iff.mpr (.inl h),
      fun failure h => ?_⟩
    rcases compileQueryString_eq_error_iff.mp h with hr | ⟨request, name, -, rfl, -⟩
    · exact .inl hr
    · exact .inr ⟨name, rfl⟩

/-- Either sex, with an age for both; and a block that asks for another principal before one that is no request. -/
theorem compileCompound_means_sex :
    let c : Compiler := ⟨{ permissionField := "embedded.acl.raw" }, ⟨fun _ _ => none⟩⟩
    (∃ filter, c.compileCompound ⟨[⟨"sex=F", true⟩, ⟨"sex=M", true⟩], false, some "age=3"⟩ ["Item"] ["a"] = .ok filter ∧
      filter.accepts ".raw" (.obj [("embedded", .obj [("@type", .str "Item"), ("acl", .str "a"), ("sex", .str "M"),
        ("age", .str "3")])]) = true) ∧
    c.compileCompound ⟨[⟨"sex=F", true⟩, ⟨"acl=b", true⟩, ⟨"%FF", true⟩], true, none⟩ ["Item"] ["a"] =
      .error (.permissionMismatch ["a"] ["b"]) := by
  intro c
  obtain ⟨hblocks, -, -⟩ := compileCompound_means c ["Item"] ["a"]
  have hpasses : ∀ query request, Request.ofQueryString query = .ok request →
      c.guard.verify (c.assembled request ["Item"] ["a"]) ["a"] = .ok () →
      c.Passes ["Item"] ["a"] query (c.assembled request ["Item"] ["a"]) :=
    fun _ request hr hv => ⟨request, hr, rfl, hv⟩
  constructor
  · obtain ⟨-, hok, haccepts⟩ := hblocks ⟨[⟨"sex=F", true⟩, ⟨"sex=M", true⟩], false, some "age=3"⟩ (by simp)
    have hf := hpasses "sex=F&age=3" [⟨"sex", "F"⟩, ⟨"age", "3"⟩] (by decide +kernel) (by decide +kernel)
    have hm := hpasses "sex=M&age=3" [⟨"sex", "M"⟩, ⟨"age", "3"⟩] (by decide +kernel) (by decide +kernel)
    obtain ⟨filter, h⟩ := hok.mpr (by simpa [CompoundSearch.blockQuery] using ⟨⟨_, hf⟩, ⟨_, hm⟩⟩)
    exact ⟨filter, h, (haccepts filter h _ _).mpr ⟨⟨"sex=M", true⟩, by simp, _, hm, by decide +kernel⟩⟩
  · obtain ⟨herror, -, -⟩ := hblocks ⟨[⟨"sex=F", true⟩, ⟨"acl=b", true⟩, ⟨"%FF", true⟩], true, none⟩ (by simp)
    have hf := hpasses "sex=F" [⟨"sex", "F"⟩] (by decide +kernel) (by decide +kernel)
    refine (herror _).mpr ⟨[⟨"sex=F", true⟩], ⟨"acl=b", true⟩, [⟨"%FF", true⟩], rfl, ?_, ?_⟩
    · simpa [CompoundSearch.blockQuery] using ⟨_, hf⟩
    · exact .inr ⟨[⟨"acl", "b"⟩], by decide +kernel, by decide +kernel⟩

end Compiler

end FacetedSearch
