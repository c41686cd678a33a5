import FacetedSearch.Proofs.Collection
import FacetedSearch.Proofs.Demands
import FacetedSearch.Proofs.Timestamps

/-!
# Ranges of dates

Dates are compared as texts. For days and times of fixed width this is the order of the instants they name, but for
two things: of one instant the text with fewer fields comes first, and a bound with a `T` comes after every time of its
day, since documents are compared with a blank.
-/

namespace FacetedSearch

open FacetedSearch.Bound

namespace Timestamp

/-! ## Instants -/

def Clock.seconds (c : Clock) : Nat := (c.hour * 60 + c.minute) * 60 + c.second.getD 0

theorem Clock.seconds_lt (c : Clock) : c.seconds < 86400 := by
  have := c.hour_lt
  have := c.minute_lt
  rw [seconds]
  cases hs : c.second with
  | none => dsimp only [Option.getD]; omega
  | some s =>
      have := c.second_lt s hs
      dsimp only [Option.getD]
      omega

/-- How many fields of the time are written. -/
def Clock.fields (c : Clock) : Nat := if c.second.isSome then 3 else 2

/-- Times are ordered as the instants they name are, and of one instant the time with fewer fields comes first. -/
theorem Clock.rank_le_iff {c k : Clock} :
    c.rank ≤ k.rank ↔ c.seconds < k.seconds ∨ c.seconds = k.seconds ∧ c.fields ≤ k.fields := by
  obtain ⟨hour, minute, second, hh, hm, hs⟩ := c
  obtain ⟨hour', minute', second', hh', hm', hs'⟩ := k
  cases second with
  | none =>
      cases second' with
      | none =>
          simp [rank, seconds, fields]
          omega
      | some s' =>
          have := hs' s' rfl
          simp [rank, seconds, fields]
          omega
  | some s =>
      have := hs s rfl
      cases second' with
      | none =>
          simp [rank, seconds, fields]
          omega
      | some s' =>
          have := hs' s' rfl
          simp [rank, seconds, fields]
          omega

theorem Clock.fields_pos (c : Clock) : 0 < c.fields := by
  rw [fields]
  split <;> decide

/-- A time to the minute names the start of a minute. -/
theorem Clock.before_last_minute (c : Clock) : c.fields = 3 ∨ c.fields = 2 ∧ c.seconds ≤ 86340 := by
  obtain ⟨hour, minute, second, hh, hm, _⟩ := c
  cases second with
  | none =>
      refine .inr ⟨rfl, ?_⟩
      simp only [seconds, Option.getD_none]
      omega
  | some s => exact .inl rfl

/-- The last minute of the day comes after every time but its own seconds. -/
theorem Clock.rank_le_last_minute_iff {c : Clock} :
    c.rank ≤ (fillClock .lte).rank ↔ ¬ (c.fields = 3 ∧ 86340 ≤ c.seconds) := by
  rw [rank_le_iff, show (fillClock .lte).seconds = 86340 from rfl, show (fillClock .lte).fields = 2 from rfl]
  have := c.before_last_minute
  omega

namespace Stamp

/-- The instant that the stamp names, in seconds; a whole day names its first one. -/
def instant (s : Stamp) : Nat :=
  s.day.number * 86400 +
    match s.time with
    | some (_, clock) => clock.seconds
    | none => 0

/-- The last instant that the stamp stands for. -/
def lastInstant (s : Stamp) : Nat :=
  match s.time with
  | some _ => s.instant
  | none => s.instant + 86399

/-- How many fields of a time are written. -/
def fields (s : Stamp) : Nat :=
  match s.time with
  | some (_, clock) => clock.fields
  | none => 0

/-- A bound with a letter comes after every time of its day. -/
def FollowsTimesOf (bound document : Stamp) : Prop :=
  bound.day = document.day ∧ ∃ clock, bound.time = some (.letter, clock)

/-- The document is not before the bound; of one instant the text with fewer fields comes first. -/
def AdmitsFrom (bound document : Stamp) : Prop :=
  ¬ bound.FollowsTimesOf document ∧
    (bound.instant < document.instant ∨ bound.instant = document.instant ∧ bound.fields ≤ document.fields)

/-- The document is not after the bound. A whole day ends after every text that names its last instant. -/
def AdmitsTo (bound document : Stamp) : Prop :=
  bound.FollowsTimesOf document ∨ document.instant < bound.lastInstant ∨
    document.instant = bound.lastInstant ∧ (bound.time = none ∨ document.fields ≤ bound.fields)

/-- The first minute, with which a whole day is completed, comes after the text of the day itself. -/
def MissesFirst (bound document : Stamp) : Prop :=
  bound.day = document.day ∧ bound.time = none ∧ document.time = none

/-- The last minute, with which a whole day is completed, comes before the texts of its own seconds. -/
def MissesLast (bound document : Stamp) : Prop :=
  bound.day = document.day ∧ bound.time = none ∧ document.fields = 3 ∧ bound.instant + 86340 ≤ document.instant

theorem instant_lt (s : Stamp) : s.instant < (s.day.number + 1) * 86400 := by
  rw [instant]
  split
  · rename_i clock _
    have := clock.seconds_lt
    omega
  · omega

theorem le_instant (s : Stamp) : s.day.number * 86400 ≤ s.instant := Nat.le_add_right _ _

theorem lastInstant_lt (s : Stamp) : s.lastInstant < (s.day.number + 1) * 86400 := by
  have := s.instant_lt
  rw [lastInstant]
  split
  · exact this
  · rename_i h
    rw [instant, h]
    dsimp only
    omega

theorem instant_le_lastInstant (s : Stamp) : s.instant ≤ s.lastInstant := by
  rw [lastInstant]
  split <;> omega

@[simp] theorem day_completed (s : Stamp) (d : Direction) : (s.completed d).day = s.day := by
  rw [completed]
  split <;> rfl

variable {s t : Stamp}

theorem instant_lt_of_number_lt (h : s.day.number < t.day.number) : s.lastInstant < t.instant := by
  have hs := s.lastInstant_lt
  have ht := t.le_instant
  omega

variable {bound document : Stamp}

@[simp] theorem not_followsTimesOf_day {day : Day} : ¬ FollowsTimesOf ⟨day, none⟩ document := by
  rintro ⟨_, _, h⟩
  cases h

@[simp] theorem not_followsTimesOf_blank {day : Day} {clock : Clock} :
    ¬ FollowsTimesOf ⟨day, some (.blank, clock)⟩ document := by
  rintro ⟨_, _, h⟩
  cases h

/-- On different days the fields do not matter. -/
theorem admitsFrom_iff_of_ne (h : bound.day ≠ document.day) :
    bound.AdmitsFrom document ↔ bound.day.number < document.day.number := by
  rw [AdmitsFrom, FollowsTimesOf, and_iff_right fun hf => h hf.1]
  rcases Nat.lt_trichotomy bound.day.number document.day.number with hlt | heq | hgt
  · have := instant_lt_of_number_lt hlt
    have := bound.instant_le_lastInstant
    exact iff_of_true (.inl (by omega)) hlt
  · exact absurd (Day.number_injective heq) h
  · have := instant_lt_of_number_lt hgt
    have := document.instant_le_lastInstant
    exact iff_of_false (by omega) (by omega)

theorem admitsTo_iff_of_ne (h : bound.day ≠ document.day) :
    bound.AdmitsTo document ↔ document.day.number < bound.day.number := by
  rw [AdmitsTo, FollowsTimesOf, or_iff_right fun hf => h hf.1]
  rcases Nat.lt_trichotomy document.day.number bound.day.number with hlt | heq | hgt
  · have := instant_lt_of_number_lt hlt
    have := document.instant_le_lastInstant
    have := bound.instant_le_lastInstant
    exact iff_of_true (.inl (by omega)) hlt
  · exact absurd (Day.number_injective heq).symm h
  · have hlater := instant_lt_of_number_lt hgt
    exact iff_of_false (fun hle => hle.elim hlater.asymm fun he => hlater.ne' he.1) hgt.asymm

theorem rank_spaced_le (s : Stamp) : s.spaced.rank ≤ 24 * 60 * 61 := by
  obtain ⟨day, time⟩ := s
  cases time with
  | none => exact Nat.zero_le _
  | some time => exact time.2.rank_lt

section SameDay

variable {day : Day} {time time' : Option (Separator × Clock)}

theorem completed_rank_le_iff : (completed ⟨day, time⟩ .gte).rank ≤ (spaced ⟨day, time'⟩).rank ↔
    AdmitsFrom ⟨day, time⟩ ⟨day, time'⟩ ∧ ¬ MissesFirst ⟨day, time⟩ ⟨day, time'⟩ := by
  rw [AdmitsFrom]
  match time with
  | none =>
      cases time' with
      | none => exact iff_of_false (Nat.not_succ_le_zero _) fun h => h.2 ⟨rfl, rfl, rfl⟩
      | some time' =>
          refine iff_of_true (Nat.succ_le_succ (Nat.zero_le _)) ⟨⟨not_followsTimesOf_day, ?_⟩, nofun⟩
          simp only [instant, fields]
          omega
  | some (.blank, clock) =>
      have hmeets : ¬ MissesFirst ⟨day, some (.blank, clock)⟩ ⟨day, time'⟩ := nofun
      rw [and_iff_left hmeets, and_iff_right not_followsTimesOf_blank]
      cases time' with
      | none =>
          have := clock.fields_pos
          refine iff_of_false (Nat.not_succ_le_zero _) ?_
          simp only [instant, fields]
          omega
      | some time' =>
          change clock.rank + 1 ≤ time'.2.rank + 1 ↔ _
          rw [Nat.add_le_add_iff_right, Clock.rank_le_iff]
          simp only [instant, fields]
          omega
  | some (.letter, clock) =>
      have := rank_spaced_le ⟨day, time'⟩
      refine iff_of_false ?_ fun h => h.1.1 ⟨rfl, clock, rfl⟩
      change ¬ clock.rank + 1 + 24 * 60 * 61 ≤ _
      omega

theorem rank_le_completed_iff : (spaced ⟨day, time'⟩).rank ≤ (completed ⟨day, time⟩ .lte).rank ↔
    AdmitsTo ⟨day, time⟩ ⟨day, time'⟩ ∧ ¬ MissesLast ⟨day, time⟩ ⟨day, time'⟩ := by
  rw [AdmitsTo]
  match time with
  | none =>
      cases time' with
      | none =>
          refine iff_of_true (Nat.zero_le _) ⟨.inr (.inl ?_), nofun⟩
          simp only [instant, lastInstant]
          omega
      | some time' =>
          have hseconds := time'.2.seconds_lt
          have hle : instant ⟨day, some time'⟩ ≤ lastInstant ⟨day, none⟩ := by
            simp only [instant, lastInstant]
            omega
          have hadmits : AdmitsTo ⟨day, none⟩ ⟨day, some time'⟩ :=
            .inr ((Nat.lt_or_eq_of_le hle).imp_right fun he => ⟨he, .inl rfl⟩)
          change time'.2.rank + 1 ≤ (fillClock .lte).rank + 1 ↔ AdmitsTo _ _ ∧ _
          rw [Nat.add_le_add_iff_right, Clock.rank_le_last_minute_iff, and_iff_right hadmits]
          simp [MissesLast, instant, fields]
  | some (.blank, clock) =>
      have hmeets : ¬ MissesLast ⟨day, some (.blank, clock)⟩ ⟨day, time'⟩ := nofun
      rw [and_iff_left hmeets, or_iff_right not_followsTimesOf_blank]
      simp only [reduceCtorEq, false_or]
      cases time' with
      | none =>
          refine iff_of_true (Nat.zero_le _) ?_
          simp only [instant, lastInstant, fields]
          omega
      | some time' =>
          change time'.2.rank + 1 ≤ clock.rank + 1 ↔ _
          rw [Nat.add_le_add_iff_right, Clock.rank_le_iff]
          simp only [instant, lastInstant, fields]
          omega
  | some (.letter, clock) =>
      have := rank_spaced_le ⟨day, time'⟩
      refine iff_of_true ?_ ⟨.inl ⟨rfl, clock, rfl⟩, nofun⟩
      change _ ≤ clock.rank + 1 + 24 * 60 * 61
      omega

end SameDay

/-- A completed lower bound is no greater, as a text, than the documents it admits and does not miss. -/
theorem completed_le_iff : (bound.completed .gte).text ≤ document.spaced.text ↔
    bound.AdmitsFrom document ∧ ¬ bound.MissesFirst document := by
  rw [text_le_iff, day_completed, show document.spaced.day = document.day from rfl]
  by_cases hday : bound.day = document.day
  · rw [hday, or_iff_right (lt_irrefl _), and_iff_right rfl]
    obtain ⟨day, time⟩ := bound
    obtain ⟨_, time'⟩ := document
    cases hday
    exact completed_rank_le_iff
  · rw [and_iff_left fun h => hday h.1, admitsFrom_iff_of_ne hday, or_iff_left fun h => hday h.1]

/-- A completed upper bound is no less, as a text, than the documents it admits and does not miss. -/
theorem le_completed_iff : document.spaced.text ≤ (bound.completed .lte).text ↔
    bound.AdmitsTo document ∧ ¬ bound.MissesLast document := by
  rw [text_le_iff, day_completed, show document.spaced.day = document.day from rfl]
  by_cases hday : bound.day = document.day
  · rw [hday, or_iff_right (lt_irrefl _), and_iff_right rfl]
    obtain ⟨day, time⟩ := bound
    obtain ⟨_, time'⟩ := document
    cases hday
    exact rank_le_completed_iff
  · rw [and_iff_left fun h => hday h.1, admitsTo_iff_of_ne hday, or_iff_left fun h => hday h.1.symm]

/-- Where a bound admits, one admits that does not miss, if each bound that misses has such a one beside it. -/
theorem exists_admitting {bounds : List Stamp} {admits misses : Stamp → Prop}
    (h : bounds = [] ∨ ∃ bound ∈ bounds, admits bound)
    (hother : ∀ bound ∈ bounds, misses bound → ∃ other ∈ bounds, admits other ∧ ¬ misses other) :
    bounds = [] ∨ ∃ bound ∈ bounds, admits bound ∧ ¬ misses bound := by
  refine h.imp_right ?_
  rintro ⟨bound, hb, ha⟩
  by_cases hm : misses bound
  · exact hother bound hb hm
  · exact ⟨bound, hb, ha, hm⟩

end Stamp

end Timestamp

/-! ## Ranges -/

namespace RangeCriterion

variable {view : FieldView} {request : Request} {r : RangeCriterion}

/-- A direction of a date that is bounded with stamps is bounded with the widest of them, completed. -/
theorem widest_stamps (hr : r ∈ (Criteria.ofRequest view request).ranges) (hd : view.isDate r.field = true)
    {d : Direction} {stamps : List Timestamp.Stamp} (h : view.literals request r.field d = stamps.map (·.text)) :
    Widest d .text (stamps.map fun s => (s.completed d).text) (r.bounds.get d) := by
  have hvalues : (view.literals request r.field d).map ((fresh view r.field).boundValue d) =
      (stamps.map fun s => (s.completed d).text).map .text := by
    rw [h, List.map_map, List.map_map]
    refine List.map_congr_left fun s _ => ?_
    have hdate : (fresh view r.field).isDate = true := hd
    simp [boundValue, hdate, Timestamp.Stamp.completeDay_text]
  rw [get_ofRequest hr, hvalues]
  exact widest_foldl (isWider_total d) (fun _ _ _ => isWider_trans) _

/-- A text satisfies a direction that is bounded with stamps if it satisfies one of them, completed. -/
theorem admits_iff_of_stamps (hr : r ∈ (Criteria.ofRequest view request).ranges) (hd : view.isDate r.field = true)
    {d : Direction} {stamps : List Timestamp.Stamp} (h : view.literals request r.field d = stamps.map (·.text))
    {x : String} : r.bounds.admits d (.text x) = true ↔
      stamps = [] ∨ ∃ s ∈ stamps, d.admits ((Value.text x).compare (.text (s.completed d).text)) = true := by
  rw [admits_iff_of_widest (widest_stamps hr hd h)]
  simp only [List.map_eq_nil_iff, List.mem_map, exists_exists_and_eq_and]

open Timestamp in
/-- A range on a date that is asked for with days and times of fixed width admits a document with one such value when
that is not before all of the lower bounds and not after all of the upper ones. Left open are just the documents on the
day of a whole-day bound that its first or last minute misses, where no other bound of the direction admits them and
none of the other direction keeps them out: a whole day that is bounded from below by itself, and the seconds of the
last minute. -/
theorem range_of_stamps (hr : r ∈ (Criteria.ofRequest view request).ranges) (hd : view.isDate r.field = true)
    {lowers uppers : List Stamp} (hl : view.literals request r.field .gte = lowers.map (·.text))
    (hu : view.literals request r.field .lte = uppers.map (·.text)) {rawSuffix : String} {epsilon : Float}
    {scope : Scope} {document : Stamp}
    (hdocument : ∀ v, scope.HasLeaf (documentField rawSuffix r.queryField) v ↔ v = .str document.text)
    (hfirst : (uppers = [] ∨ ∃ bound ∈ uppers, bound.AdmitsTo document) → ∀ bound ∈ lowers,
      bound.MissesFirst document → ∃ other ∈ lowers, other.AdmitsFrom document ∧ ¬ other.MissesFirst document)
    (hlast : (lowers = [] ∨ ∃ bound ∈ lowers, bound.AdmitsFrom document) → ∀ bound ∈ uppers,
      bound.MissesLast document → ∃ other ∈ uppers, other.AdmitsTo document ∧ ¬ other.MissesLast document) :
    (r.toQuery epsilon).holds rawSuffix scope = true ↔
      (lowers = [] ∨ ∃ bound ∈ lowers, bound.AdmitsFrom document) ∧
        (uppers = [] ∨ ∃ bound ∈ uppers, bound.AdmitsTo document) := by
  have hdate : r.isDate = true := (congrArg RangeCriterion.isDate (unbounded_ofRequest hr)).trans hd
  have hmissing : r.includesMissing epsilon = false := by simp [includesMissing, includesZero, hdate]
  have hlower : r.bounds.admits .gte (.text document.spaced.text) = true ↔
      lowers = [] ∨ ∃ bound ∈ lowers, bound.AdmitsFrom document ∧ ¬ bound.MissesFirst document := by
    simp only [admits_iff_of_stamps hr hd hl, admits_text_iff, Stamp.completed_le_iff]
  have hupper : r.bounds.admits .lte (.text document.spaced.text) = true ↔
      uppers = [] ∨ ∃ bound ∈ uppers, bound.AdmitsTo document ∧ ¬ bound.MissesLast document := by
    simp only [admits_iff_of_stamps hr hd hu, admits_text_iff, Stamp.le_completed_iff]
  have hcontains : (r.toQuery epsilon).holds rawSuffix scope = true ↔
      r.bounds.contains (.text document.spaced.text) = true := by
    rw [toQuery, hmissing]
    change (Query.range r.queryField r.bounds).holds rawSuffix scope = true ↔ _
    rw [Query.holds_range, Scope.HasWithin]
    simp only [hdocument, exists_and_left, exists_eq_left, Value.ofLeaf?, Option.some.injEq,
      Stamp.exchangeFirst_text, exists_eq_left']
  rw [hcontains, Bounds.contains_iff_admits (exclusive_ofRequest hr), hlower, hupper]
  constructor
  · refine And.imp (Or.imp_right ?_) (Or.imp_right ?_)
    · exact Exists.imp fun _ => And.imp_right And.left
    · exact Exists.imp fun _ => And.imp_right And.left
  · rintro ⟨hfrom, hto⟩
    exact ⟨Stamp.exists_admitting hfrom (hfirst hto), Stamp.exists_admitting hto (hlast hfrom)⟩

/-- The day itself is missed by the one lower bound and admitted by the other. -/
theorem range_of_stamps_new_year :
    let view : FieldView := ⟨{}, ⟨fun _ _ => some { fieldType := .date }⟩, []⟩
    let request : Request := [⟨"date_created.from", "2020-01-01"⟩, ⟨"date_created.from", "2019-12-31"⟩,
      ⟨"date_created.to", "2020-01-01"⟩]
    let document : Json := .obj [("embedded", .obj [("date_created", .str "2020-01-01")])]
    ∃ r ∈ (Criteria.ofRequest view request).ranges,
      ∀ epsilon, (r.toQuery epsilon).holds ".raw" document.scope = true := by
  intro view request document
  let newYear : Timestamp.Day := ⟨2020, 1, 1, by decide, by decide, by decide⟩
  let eve : Timestamp.Day := ⟨2019, 12, 31, by decide, by decide, by decide⟩
  have hne : eve ≠ newYear := fun h => absurd (congrArg Timestamp.Day.day h) (by decide)
  have hr : view.rangeSteps.gathered "date_created" (view.intents request) ∈
      (Criteria.ofRequest view request).ranges := by decide +kernel
  have hfield : documentField ".raw" (view.rangeSteps.gathered "date_created" (view.intents request)).queryField =
      "embedded.date_created" := by decide +kernel
  have hsegments : Text.segments "embedded.date_created" = ["embedded", "date_created"] := by decide +kernel
  have htext : Timestamp.Stamp.text ⟨newYear, none⟩ = "2020-01-01" := by decide +kernel
  have hleaf : ∀ v, document.scope.HasLeaf "embedded.date_created" v ↔ v = .str "2020-01-01" := fun v => by
    rw [Scope.hasLeaf_document_iff hsegments]
    simp +contextual [document, Json.valuesAt, Json.valuesAtMember, Json.isObject]
  rw [← hfield, ← htext] at hleaf
  have hlowers : view.literals request "date_created" .gte =
      [⟨newYear, none⟩, ⟨eve, none⟩].map Timestamp.Stamp.text := by decide +kernel
  have huppers : view.literals request "date_created" .lte = [⟨newYear, none⟩].map Timestamp.Stamp.text := by
    decide +kernel
  have hmem : (⟨eve, none⟩ : Timestamp.Stamp) ∈ [⟨newYear, none⟩, ⟨eve, none⟩] :=
    List.mem_cons_of_mem _ (List.mem_singleton_self _)
  have hfrom : Timestamp.Stamp.AdmitsFrom ⟨eve, none⟩ ⟨newYear, none⟩ :=
    (Timestamp.Stamp.admitsFrom_iff_of_ne hne).mpr (Timestamp.Day.number_lt_of_year_lt (by decide))
  have hto : Timestamp.Stamp.AdmitsTo ⟨newYear, none⟩ ⟨newYear, none⟩ := by
    refine .inr (.inl ?_)
    simp only [Timestamp.Stamp.lastInstant, Timestamp.Stamp.instant]
    omega
  refine ⟨_, hr, fun epsilon =>
    (range_of_stamps hr (by decide +kernel) hlowers huppers hleaf ?_ ?_).mpr ⟨?_, ?_⟩⟩
  · exact fun _ _ _ _ => ⟨_, hmem, hfrom, fun hmiss => hne hmiss.1⟩
  · rintro _ bound hbound ⟨-, -, hfields, -⟩
    cases hfields
  · exact .inr ⟨_, hmem, hfrom⟩
  · exact .inr ⟨_, List.mem_singleton_self _, hto⟩

/-- A bound with a letter keeps out the later times of its day. -/
theorem not_range_of_stamps :
    let view : FieldView := ⟨{}, ⟨fun _ _ => some { fieldType := .date }⟩, []⟩
    let newYear : Timestamp.Day := ⟨2020, 1, 1, by decide, by decide, by decide⟩
    let bound : Timestamp.Stamp := ⟨newYear, some (.letter, ⟨10, 0, none, by decide, by decide, by simp⟩)⟩
    let stamp : Timestamp.Stamp := ⟨newYear, some (.letter, ⟨12, 0, none, by decide, by decide, by simp⟩)⟩
    let request : Request := [⟨"date_created.from", bound.text⟩]
    let document : Json := .obj [("embedded", .obj [("date_created", .str stamp.text)])]
    bound.instant ≤ stamp.instant ∧
      ∃ r ∈ (Criteria.ofRequest view request).ranges,
        (r.toQuery view.settings.zeroEpsilon).holds ".raw" document.scope = false := by
  intro view newYear bound stamp request document
  have hr : view.rangeSteps.gathered "date_created" (view.intents request) ∈
      (Criteria.ofRequest view request).ranges := by decide +kernel
  exact ⟨Nat.add_le_add_left (by decide) _, _, hr, by decide +kernel⟩

end RangeCriterion

end FacetedSearch
