import Mathlib.Data.List.Basic
import Mathlib.Data.List.TakeWhile
import Mathlib.Data.Nat.Digits.Defs
import FacetedSearch.Bound.Day
import FacetedSearch.Text.Affix

/-!
# Timestamps

Days and times of the calendar as texts of fixed width: which texts are whole days, how they are completed, and that
their order as texts is the order of the days and, on one day, of the times.
-/

namespace FacetedSearch.Timestamp

open FacetedSearch.Bound

/-! ## Digits -/

/-- The last decimal digits of a number, as many as the width. -/
def digits : Nat → Nat → List Char
  | 0, _ => []
  | width + 1, n => digits width (n / 10) ++ [Nat.digitChar (n % 10)]

theorem isDigit_digitChar : ∀ n < 10, (Nat.digitChar n).isDigit = true := by decide

theorem digitChar_lt_iff : ∀ m < 10, ∀ n < 10, (Nat.digitChar m < Nat.digitChar n ↔ m < n) := by decide

theorem digitChar_eq_iff : ∀ m < 10, ∀ n < 10, (Nat.digitChar m = Nat.digitChar n ↔ m = n) := by decide

theorem length_digits (width n : Nat) : (digits width n).length = width := by
  induction width generalizing n with
  | zero => rfl
  | succ width ih => simp [digits, ih]

theorem isDigit_of_mem_digits {width n : Nat} {c : Char} (h : c ∈ digits width n) : c.isDigit = true := by
  induction width generalizing n with
  | zero => cases h
  | succ width ih =>
      rcases List.mem_append.mp h with h | h
      · exact ih h
      · exact List.mem_singleton.mp h ▸ isDigit_digitChar _ (Nat.mod_lt _ (by decide))

theorem natOfDigits_digits {width n : Nat} (h : n < 10 ^ width) : Decimal.natOfDigits (digits width n) = n := by
  induction width generalizing n with
  | zero => exact (Nat.lt_one_iff.mp h).symm
  | succ width ih =>
      have hd : (Nat.digitChar (n % 10)).toNat - 48 = n % 10 := by
        rw [Nat.toNat_digitChar_of_lt_ten (Nat.mod_lt _ (by decide)), Nat.add_sub_cancel_left]
      have hn : n / 10 < 10 ^ width := by rw [Nat.pow_succ] at h; omega
      have ih := ih hn
      rw [Decimal.natOfDigits] at ih ⊢
      rw [digits, List.foldl_concat, ih, hd]
      omega

theorem cons_lt_cons_same {c : Char} {cs ds : List Char} : c :: cs < c :: ds ↔ cs < ds := by
  rw [List.cons_lt_cons_iff, or_iff_right (Char.lt_irrefl c), and_iff_right rfl]

/-- Numbers of the same width are ordered as their texts are. -/
theorem digits_append_lt_iff {width m n : Nat} (hm : m < 10 ^ width) (hn : n < 10 ^ width) {cs ds : List Char} :
    digits width m ++ cs < digits width n ++ ds ↔ m < n ∨ m = n ∧ cs < ds := by
  induction width generalizing m n cs ds with
  | zero =>
      obtain rfl : m = 0 := Nat.lt_one_iff.mp hm
      obtain rfl : n = 0 := Nat.lt_one_iff.mp hn
      simp [digits]
  | succ width ih =>
      rw [Nat.pow_succ] at hm hn
      have hlast : ∀ k : Nat, k % 10 < 10 := fun k => Nat.mod_lt k (by decide)
      simp only [digits, List.append_assoc, List.singleton_append]
      rw [ih (by omega) (by omega), List.cons_lt_cons_iff, digitChar_lt_iff _ (hlast m) _ (hlast n),
        digitChar_eq_iff _ (hlast m) _ (hlast n)]
      constructor
      · rintro (h | ⟨h, h' | ⟨h', hlt⟩⟩)
        · left; omega
        · left; omega
        · right; exact ⟨by omega, hlt⟩
      · rintro (h | ⟨rfl, hlt⟩)
        · rcases Nat.lt_or_ge (m / 10) (n / 10) with hlt | hge
          · exact .inl hlt
          · exact .inr ⟨by omega, .inl (by omega)⟩
        · exact .inr ⟨rfl, .inr ⟨rfl, hlt⟩⟩

/-! ## Days and times -/

/-- A day of the calendar in a year of four digits. -/
structure Day where
  year : Nat
  month : Nat
  day : Nat
  year_lt : year < 10000
  day_pos : 1 ≤ day
  day_le : day ≤ daysInMonth year month

/-- A time of day to the minute or to the second. -/
structure Clock where
  hour : Nat
  minute : Nat
  second : Option Nat
  hour_lt : hour < 24
  minute_lt : minute < 60
  second_lt : ∀ s ∈ second, s < 60

/-- What stands between a day and a time. -/
inductive Separator where
  | blank
  | letter
deriving DecidableEq

def Separator.char : Separator → Char
  | blank => ' '
  | letter => 'T'

/-- A whole day, or a time of it. -/
structure Stamp where
  day : Day
  time : Option (Separator × Clock) := none

def Day.chars (d : Day) : List Char := digits 4 d.year ++ '-' :: (digits 2 d.month ++ '-' :: digits 2 d.day)

def Clock.chars (c : Clock) : List Char :=
  digits 2 c.hour ++ ':' :: (digits 2 c.minute ++
    match c.second with
    | some s => ':' :: digits 2 s
    | none => [])

def Stamp.chars (s : Stamp) : List Char :=
  s.day.chars ++
    match s.time with
    | some (separator, clock) => separator.char :: clock.chars
    | none => []

def Stamp.text (s : Stamp) : String := String.ofList s.chars

theorem month_le_of_pos {year : Int} {month : Nat} (h : 1 ≤ daysInMonth year month) : 1 ≤ month ∧ month ≤ 12 := by
  unfold daysInMonth at h
  split at h <;> simp at h ⊢

theorem daysInMonth_le (year : Int) (month : Nat) : daysInMonth year month ≤ 31 := by
  unfold daysInMonth
  split <;> first | decide | (split <;> decide)

namespace Day

variable (d : Day)

theorem month_bounds : 1 ≤ d.month ∧ d.month ≤ 12 := month_le_of_pos (d.day_pos.trans d.day_le)

theorem day_bound : d.day ≤ 31 := d.day_le.trans (daysInMonth_le _ _)

end Day

/-! ## Whole days as dates -/

theorem not_isBlank_of_isDigit {c : Char} (h : c.isDigit = true) : Text.isBlank c = false := by
  have hd : 48 ≤ c.toNat ∧ c.toNat ≤ 57 := by
    simp only [Char.isDigit, Bool.and_eq_true, decide_eq_true_eq, ge_iff_le, UInt32.le_iff_toNat_le] at h
    exact h
  simp only [Text.isBlank, Bool.or_eq_false_iff, Bool.and_eq_false_iff, decide_eq_false_iff_not, beq_eq_false_iff_ne]
  omega

/-- A number of fixed width starts with a digit. -/
theorem exists_digits_eq_cons (width n : Nat) : ∃ c cs, digits (width + 1) n = c :: cs ∧ c.isDigit = true := by
  cases h : digits (width + 1) n with
  | nil => simpa [h] using length_digits (width + 1) n
  | cons c cs => exact ⟨c, cs, rfl, isDigit_of_mem_digits (h ▸ List.mem_cons_self)⟩

theorem dropWhile_isBlank_digits (width n : Nat) (rest : List Char) :
    (digits (width + 1) n ++ rest).dropWhile Text.isBlank = digits (width + 1) n ++ rest := by
  obtain ⟨c, cs, he, hc⟩ := exists_digits_eq_cons width n
  rw [he, List.cons_append, List.dropWhile_cons_of_neg (by simp [not_isBlank_of_isDigit hc])]

theorem takeNumber?_digits {width n : Nat} (hn : n < 10 ^ (width + 1)) (rest : List Char) :
    takeNumber? (width + 1) (digits (width + 1) n ++ rest) = some (n, rest) := by
  have htake : ((digits (width + 1) n ++ rest).take (width + 1)).takeWhile Char.isDigit = digits (width + 1) n := by
    rw [List.take_left' (length_digits _ _)]
    exact List.takeWhile_eq_self_iff.mpr fun c hc => isDigit_of_mem_digits hc
  have hne : (digits (width + 1) n).isEmpty = false := by
    obtain ⟨c, cs, he, -⟩ := exists_digits_eq_cons width n
    rw [he]
    rfl
  rw [takeNumber?, dropWhile_isBlank_digits, htake, hne, List.drop_left, natOfDigits_digits hn]
  rfl

theorem takeYear?_digits {n : Nat} (hn : n < 10 ^ 4) (rest : List Char) :
    takeYear? (digits 4 n ++ rest) = some ((n : Int), rest) := by
  obtain ⟨c, cs, he, hc⟩ := exists_digits_eq_cons 3 n
  rw [takeYear?, dropWhile_isBlank_digits]
  split
  · rename_i h
    rw [he] at h
    cases h
    cases hc
  · rename_i h
    rw [he] at h
    cases h
    cases hc
  · rw [takeNumber?_digits hn]
    rfl

theorem isCalendarDate_day (d : Day) : isCalendarDate d.year d.month d.day = true := by
  have := d.year_lt
  simp only [isCalendarDate, Bool.and_eq_true, decide_eq_true_eq]
  exact ⟨⟨⟨by omega, by omega⟩, d.day_pos⟩, d.day_le⟩

/-- A day is a date, and with anything after it it is none. -/
theorem isDate_chars (d : Day) (rest : List Char) : isDate (String.ofList (d.chars ++ rest)) = rest.isEmpty := by
  have hmonth_lt : d.month < 10 ^ 2 := by have := d.month_bounds; omega
  have hday_lt : d.day < 10 ^ 2 := by have := d.day_bound; omega
  have hyear : takeYear? (d.chars ++ rest) =
      some ((d.year : Int), '-' :: (digits 2 d.month ++ '-' :: (digits 2 d.day ++ rest))) := by
    simpa [Day.chars] using takeYear?_digits d.year_lt _
  have hmonth := takeNumber?_digits hmonth_lt ('-' :: (digits 2 d.day ++ rest))
  have hday := takeNumber?_digits hday_lt rest
  simp only [isDate, String.toList_ofList, hyear, takeDash?, Option.bind_eq_bind, Option.bind_some, hmonth, hday]
  cases rest with
  | nil => simp [isCalendarDate_day]
  | cons => rfl

/-- The minute that completes a whole day as a bound in the direction. -/
def fillClock : Direction → Clock
  | .gt | .lte => ⟨23, 59, none, by decide, by decide, nofun⟩
  | .gte | .lt => ⟨0, 0, none, by decide, by decide, nofun⟩

namespace Stamp

variable (s : Stamp)

/-- The stamp as a bound in the direction. -/
def completed (d : Direction) : Stamp :=
  match s.time with
  | some _ => s
  | none => { s with time := some (.blank, fillClock d) }

theorem completeDay_text (d : Direction) : completeDay s.text d = (s.completed d).text := by
  obtain ⟨day, time⟩ := s
  rw [completeDay, text, chars, isDate_chars]
  cases time with
  | some time => rfl
  | none =>
      have hfill : " " ++ d.timeOfDay = String.ofList (' ' :: (fillClock d).chars) := by cases d <;> rfl
      change String.ofList (day.chars ++ []) ++ " " ++ d.timeOfDay =
        String.ofList (day.chars ++ ' ' :: (fillClock d).chars)
      rw [List.append_nil, String.append_assoc, hfill, String.ofList_append]

/-- The stamp as documents are compared. -/
def spaced : Stamp := { s with time := s.time.map fun (_, clock) => (.blank, clock) }

end Stamp

theorem ne_letter_of_isDigit {c : Char} (h : c.isDigit = true) : (c != 'T') = true := by
  rw [bne_iff_ne]
  rintro rfl
  cases h

theorem ne_letter_of_mem_day {d : Day} {c : Char} (h : c ∈ d.chars) : (c != 'T') = true := by
  simp only [Day.chars, List.mem_append, List.mem_cons] at h
  rcases h with h | rfl | h | rfl | h
  · exact ne_letter_of_isDigit (isDigit_of_mem_digits h)
  · rfl
  · exact ne_letter_of_isDigit (isDigit_of_mem_digits h)
  · rfl
  · exact ne_letter_of_isDigit (isDigit_of_mem_digits h)

theorem ne_letter_of_mem_clock {k : Clock} {c : Char} (h : c ∈ k.chars) : (c != 'T') = true := by
  obtain ⟨hour, minute, second, _, _, _⟩ := k
  cases second with
  | none =>
      simp only [Clock.chars, List.mem_append, List.mem_cons, List.not_mem_nil, or_false] at h
      rcases h with h | rfl | h
      · exact ne_letter_of_isDigit (isDigit_of_mem_digits h)
      · rfl
      · exact ne_letter_of_isDigit (isDigit_of_mem_digits h)
  | some second =>
      simp only [Clock.chars, List.mem_append, List.mem_cons] at h
      rcases h with h | rfl | h | rfl | h
      · exact ne_letter_of_isDigit (isDigit_of_mem_digits h)
      · rfl
      · exact ne_letter_of_isDigit (isDigit_of_mem_digits h)
      · rfl
      · exact ne_letter_of_isDigit (isDigit_of_mem_digits h)

theorem exchangeFirst_of_absent {c d : Char} {cs : List Char} (h : ∀ x ∈ cs, (x != c) = true) :
    Text.exchangeFirst c d (String.ofList cs) = String.ofList cs := by
  have hnone : cs.dropWhile (· != c) = [] := List.dropWhile_eq_nil_iff.mpr h
  simp [Text.exchangeFirst, Text.cutAt?, hnone]

theorem exchangeFirst_of_first {c d : Char} {cs ds : List Char} (h : ∀ x ∈ cs, (x != c) = true) :
    Text.exchangeFirst c d (String.ofList (cs ++ c :: ds)) = String.ofList (cs ++ d :: ds) := by
  have hdrop : (cs ++ c :: ds).dropWhile (· != c) = c :: ds := by
    rw [List.dropWhile_append_of_pos h]
    simp
  have htake : (cs ++ c :: ds).takeWhile (· != c) = cs := by
    rw [List.takeWhile_append_of_pos h]
    simp
  rw [Text.exchangeFirst, Text.cutAt?, String.toList_ofList, hdrop, htake]
  simp only [← String.ofList_append, List.append_assoc, List.singleton_append]

theorem Stamp.exchangeFirst_text (s : Stamp) : Text.exchangeFirst 'T' ' ' s.text = s.spaced.text := by
  obtain ⟨day, time⟩ := s
  match time with
  | none =>
      refine exchangeFirst_of_absent fun c hc => ?_
      rw [chars, List.append_nil] at hc
      exact ne_letter_of_mem_day hc
  | some (.blank, clock) =>
      refine exchangeFirst_of_absent fun c hc => ?_
      rcases List.mem_append.mp hc with hc | hc
      · exact ne_letter_of_mem_day hc
      · rcases List.mem_cons.mp hc with rfl | hc
        · rfl
        · exact ne_letter_of_mem_clock hc
  | some (.letter, clock) => exact exchangeFirst_of_first fun c hc => ne_letter_of_mem_day hc

/-! ## Order -/

/-- The days of the months before. -/
def monthStart (year : Nat) : Nat → Nat
  | 0 => 0
  | month + 1 => monthStart year month + daysInMonth year month

/-- The days of the years before. -/
def yearStart : Nat → Nat
  | 0 => 0
  | year + 1 => yearStart year + monthStart year 13

/-- The days from the beginning of the year zero, the day itself counted. -/
def Day.number (d : Day) : Nat := yearStart d.year + monthStart d.year d.month + d.day

theorem monthStart_mono (year : Nat) : Monotone (monthStart year) :=
  monotone_nat_of_le_succ fun _ => Nat.le_add_right _ _

theorem yearStart_mono : Monotone yearStart := monotone_nat_of_le_succ fun _ => Nat.le_add_right _ _

namespace Day

variable {d e : Day}

theorem number_le (d : Day) : d.number ≤ yearStart d.year + monthStart d.year (d.month + 1) := by
  have := d.day_le
  rw [number, monthStart]
  omega

theorem number_lt_of_year_lt (h : d.year < e.year) : d.number < e.number := by
  have hmonth : monthStart d.year (d.month + 1) ≤ monthStart d.year 13 :=
    monthStart_mono _ (by have := d.month_bounds; omega)
  have hyear : yearStart (d.year + 1) ≤ yearStart e.year := yearStart_mono h
  have hlast := d.number_le
  have := e.day_pos
  rw [yearStart] at hyear
  rw [number.eq_1 e]
  omega

theorem number_lt_of_month_lt (hy : d.year = e.year) (h : d.month < e.month) : d.number < e.number := by
  have hmonth : monthStart d.year (d.month + 1) ≤ monthStart d.year e.month := monthStart_mono _ h
  have hlast := d.number_le
  have := e.day_pos
  rw [number.eq_1 e, ← hy]
  omega

theorem number_lt_of_day_lt (hy : d.year = e.year) (hm : d.month = e.month) (h : d.day < e.day) :
    d.number < e.number := by
  rw [number, number, hy, hm]
  omega

theorem number_injective (h : d.number = e.number) : d = e := by
  rcases Nat.lt_trichotomy d.year e.year with hy | hy | hy
  · exact absurd h (number_lt_of_year_lt hy).ne
  · rcases Nat.lt_trichotomy d.month e.month with hm | hm | hm
    · exact absurd h (number_lt_of_month_lt hy hm).ne
    · rcases Nat.lt_trichotomy d.day e.day with hd | hd | hd
      · exact absurd h (number_lt_of_day_lt hy hm hd).ne
      · cases d
        cases e
        cases hy
        cases hm
        cases hd
        rfl
      · exact absurd h (number_lt_of_day_lt hy.symm hm.symm hd).ne'
    · exact absurd h (number_lt_of_month_lt hy.symm hm).ne'
  · exact absurd h (number_lt_of_year_lt hy).ne'

/-- The texts of days are ordered as the days are. -/
theorem chars_append_lt_iff {cs ds : List Char} :
    d.chars ++ cs < e.chars ++ ds ↔ d.number < e.number ∨ d = e ∧ cs < ds := by
  have hd := d.month_bounds
  have he := e.month_bounds
  have hd' := d.day_bound
  have he' := e.day_bound
  simp only [chars, List.append_assoc, List.cons_append]
  rw [digits_append_lt_iff d.year_lt e.year_lt, cons_lt_cons_same, digits_append_lt_iff (by omega) (by omega),
    cons_lt_cons_same, digits_append_lt_iff (by omega) (by omega)]
  constructor
  · rintro (h | ⟨hy, h | ⟨hm, h | ⟨hday, hlt⟩⟩⟩)
    · exact .inl (number_lt_of_year_lt h)
    · exact .inl (number_lt_of_month_lt hy h)
    · exact .inl (number_lt_of_day_lt hy hm h)
    · exact .inr ⟨number_injective (by rw [number, number, hy, hm, hday]), hlt⟩
  · rintro (h | ⟨rfl, hlt⟩)
    · rcases Nat.lt_trichotomy d.year e.year with hy | hy | hy
      · exact .inl hy
      · refine .inr ⟨hy, ?_⟩
        rcases Nat.lt_trichotomy d.month e.month with hm | hm | hm
        · exact .inl hm
        · refine .inr ⟨hm, .inl (not_le.mp fun hday => ?_)⟩
          rw [number, number, hy, hm] at h
          omega
        · exact absurd h (number_lt_of_month_lt hy.symm hm).asymm
      · exact absurd h (number_lt_of_year_lt hy).asymm
    · exact .inr ⟨rfl, .inr ⟨rfl, .inr ⟨rfl, hlt⟩⟩⟩

end Day

/-- The place of a time among the times of a day, of which one to the minute comes before those to the second. -/
def Clock.rank (c : Clock) : Nat :=
  (c.hour * 60 + c.minute) * 61 +
    match c.second with
    | some s => s + 1
    | none => 0

theorem Clock.rank_lt (c : Clock) : c.rank < 24 * 60 * 61 := by
  have := c.hour_lt
  have := c.minute_lt
  rw [rank]
  split
  · rename_i s hs
    have := c.second_lt s hs
    omega
  · omega

/-- The texts of times are ordered as the times are; a text comes before those that go on after it. -/
theorem Clock.chars_lt_iff {c k : Clock} : c.chars < k.chars ↔ c.rank < k.rank := by
  obtain ⟨hour, minute, second, hh, hm, hs⟩ := c
  obtain ⟨hour', minute', second', hh', hm', hs'⟩ := k
  simp only [chars, rank]
  rw [digits_append_lt_iff (by omega) (by omega), cons_lt_cons_same, digits_append_lt_iff (by omega) (by omega)]
  cases second with
  | none =>
      cases second' with
      | none =>
          simp only [List.not_lt_nil, and_false, or_false]
          omega
      | some s' =>
          have hs' := hs' s' rfl
          simp only [List.nil_lt_cons, and_true]
          omega
  | some s =>
      have hs := hs s rfl
      cases second' with
      | none =>
          simp only [List.not_lt_nil, and_false, or_false]
          omega
      | some s' =>
          have hs' := hs' s' rfl
          have hlast : digits 2 s ++ [] < digits 2 s' ++ [] ↔ s < s' ∨ s = s' ∧ [] < [] :=
            digits_append_lt_iff (by omega) (by omega)
          simp only [List.append_nil, List.not_lt_nil, and_false, or_false] at hlast
          rw [cons_lt_cons_same, hlast]
          dsimp only
          omega

/-- The place of a stamp among those of its day: the day itself, the times after a blank, those after a letter. -/
def Stamp.rank (s : Stamp) : Nat :=
  match s.time with
  | none => 0
  | some (.blank, clock) => clock.rank + 1
  | some (.letter, clock) => clock.rank + 1 + 24 * 60 * 61

theorem Stamp.rank_pos {day : Day} {time : Separator × Clock} : 0 < rank ⟨day, some time⟩ := by
  obtain ⟨separator, clock⟩ := time
  cases separator <;> simp only [rank] <;> omega

theorem Stamp.text_lt_iff {s t : Stamp} :
    s.text < t.text ↔ s.day.number < t.day.number ∨ s.day = t.day ∧ s.rank < t.rank := by
  have hlt : s.text < t.text ↔ s.chars < t.chars := by
    change (String.ofList s.chars).toList < (String.ofList t.chars).toList ↔ _
    rw [String.toList_ofList, String.toList_ofList]
  obtain ⟨day, time⟩ := s
  obtain ⟨day', time'⟩ := t
  rw [hlt, chars, chars, Day.chars_append_lt_iff]
  refine or_congr_right (and_congr_right fun _ => ?_)
  have hblank : ' ' < 'T' := by decide
  have hletter : ¬ ('T' < ' ' ∨ 'T' = ' ') := by decide
  cases time with
  | none =>
      cases time' with
      | none => exact iff_of_false (List.not_lt_nil _) (lt_irrefl _)
      | some time' => exact iff_of_true (List.nil_lt_cons _ _) rank_pos
  | some time =>
      obtain ⟨separator, clock⟩ := time
      cases time' with
      | none => exact iff_of_false (List.not_lt_nil _) (Nat.not_lt_zero _)
      | some time' =>
          obtain ⟨separator', clock'⟩ := time'
          have hc := clock.rank_lt
          have hc' := clock'.rank_lt
          cases separator <;> cases separator' <;>
            simp only [rank, Separator.char, cons_lt_cons_same, Clock.chars_lt_iff]
          · omega
          · rw [List.cons_lt_cons_iff]
            exact iff_of_true (.inl hblank) (by omega)
          · rw [List.cons_lt_cons_iff]
            exact iff_of_false (fun h => hletter (h.imp_right And.left)) (by omega)
          · omega

theorem Stamp.text_le_iff {s t : Stamp} :
    s.text ≤ t.text ↔ s.day.number < t.day.number ∨ s.day = t.day ∧ s.rank ≤ t.rank := by
  rw [← String.not_lt, text_lt_iff]
  rcases Nat.lt_trichotomy s.day.number t.day.number with h | h | h
  · have hne : t.day ≠ s.day := fun he => h.ne' (congrArg Day.number he)
    exact iff_of_true (by simp [h.asymm, hne]) (.inl h)
  · rw [Day.number_injective h]
    simp
  · have hne : s.day ≠ t.day := fun he => h.ne' (congrArg Day.number he)
    exact iff_of_false (not_not.mpr (.inl h)) (by simp [h.asymm, hne])

end FacetedSearch.Timestamp
