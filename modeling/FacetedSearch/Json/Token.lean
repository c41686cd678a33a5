import FacetedSearch.Json.Basic

/-!
# JSON tokens

A text is cut into brackets, separators and scalars. Each step takes at least one character, so the cutting ends.
A scalar may be written correctly and yet have no value: a number beyond all binary64 numbers, or a string with a
surrogate that stands alone.
-/

namespace FacetedSearch.Json

inductive Token where
  | openArray | closeArray | openObject | closeObject | comma | colon
  /-- A string, which may also name a member. -/
  | text (s : Option String)
  /-- Null, a truth value or a number. -/
  | scalar (v : Option Json)

/-- Blanks between tokens. -/
def isSpace (c : Char) : Bool := c == ' ' || c == '\n' || c == '\t' || c == '\r'

/-! ## Strings -/

def hexValue? (c : Char) : Option Nat :=
  if c.isDigit then some (c.toNat - 48)
  else if 'a' ≤ c ∧ c ≤ 'f' then some (c.toNat - 87)
  else if 'A' ≤ c ∧ c ≤ 'F' then some (c.toNat - 55)
  else none

/-- Four hexadecimal digits and the rest. -/
def hexQuad? : List Char → Option (Nat × List Char)
  | a :: b :: c :: d :: rest => do
    let n := (← hexValue? a) * 4096 + (← hexValue? b) * 256 + (← hexValue? c) * 16 + (← hexValue? d)
    some (n, rest)
  | _ => none

theorem hexQuad?_length {cs rest : List Char} {n : Nat} (h : hexQuad? cs = some (n, rest)) :
    rest.length < cs.length := by
  match cs with
  | a :: b :: c :: d :: tail =>
    simp only [hexQuad?, Option.bind_eq_bind, Option.bind_eq_some_iff, Option.some.injEq,
      Prod.mk.injEq] at h
    obtain ⟨_, _, _, _, _, _, _, _, _, rfl⟩ := h
    simp only [List.length_cons]; omega
  | [] | [_] | [_, _] | [_, _, _] => simp [hexQuad?] at h

/-- The escape of the low surrogate that completes a pair. -/
def lowSurrogate? : List Char → Option (Nat × List Char)
  | '\\' :: 'u' :: rest =>
    match hexQuad? rest with
    | some (n, rest) => if 0xDC00 ≤ n ∧ n < 0xE000 then some (n, rest) else none
    | none => none
  | _ => none

theorem lowSurrogate?_length {cs rest : List Char} {n : Nat} (h : lowSurrogate? cs = some (n, rest)) :
    rest.length < cs.length := by
  unfold lowSurrogate? at h
  split at h
  · split at h
    · rename_i hq
      have := hexQuad?_length hq
      split at h
      · simp only [Option.some.injEq, Prod.mk.injEq] at h
        obtain ⟨_, rfl⟩ := h
        simp only [List.length_cons]; omega
      · simp at h
    · simp at h
  · simp at h

/-- A code unit written in hexadecimal; two surrogates together make one character, one alone makes none. -/
def codeUnit? (cs : List Char) : Option (Option Char × List Char) :=
  match hexQuad? cs with
  | none => none
  | some (n, rest) =>
    if 0xD800 ≤ n ∧ n < 0xDC00 then
      match lowSurrogate? rest with
      | some (m, rest) => some (some (Char.ofNat (0x10000 + (n - 0xD800) * 1024 + (m - 0xDC00))), rest)
      | none => some (none, rest)
    else if 0xDC00 ≤ n ∧ n < 0xE000 then some (none, rest)
    else some (some (Char.ofNat n), rest)

theorem codeUnit?_length {cs rest : List Char} {c : Option Char} (h : codeUnit? cs = some (c, rest)) :
    rest.length < cs.length := by
  unfold codeUnit? at h
  split at h
  · simp at h
  · rename_i hq
    have := hexQuad?_length hq
    split at h
    · split at h
      · rename_i hl
        have := lowSurrogate?_length hl
        simp only [Option.some.injEq, Prod.mk.injEq] at h
        obtain ⟨_, rfl⟩ := h
        omega
      · simp only [Option.some.injEq, Prod.mk.injEq] at h
        obtain ⟨_, rfl⟩ := h; assumption
    · split at h <;>
        (simp only [Option.some.injEq, Prod.mk.injEq] at h; obtain ⟨_, rfl⟩ := h; assumption)

/-- The character that an escape stands for; the backslash is already taken. -/
def escape? : List Char → Option (Option Char × List Char)
  | [] => none
  | c :: rest =>
    match c with
    | '"' => some (some '"', rest)
    | '\\' => some (some '\\', rest)
    | '/' => some (some '/', rest)
    | 'b' => some (some '\x08', rest)
    | 'f' => some (some '\x0c', rest)
    | 'n' => some (some '\n', rest)
    | 'r' => some (some '\r', rest)
    | 't' => some (some '\t', rest)
    | 'u' => codeUnit? rest
    | _ => none

theorem escape?_length {cs rest : List Char} {c : Option Char} (h : escape? cs = some (c, rest)) :
    rest.length < cs.length := by
  match cs with
  | [] => simp [escape?] at h
  | d :: tail =>
    simp only [escape?] at h
    split at h
    case h_9 => exact Nat.lt_succ_of_lt (codeUnit?_length h)
    case h_10 => simp at h
    all_goals
      simp only [Option.some.injEq, Prod.mk.injEq] at h
      obtain ⟨_, rfl⟩ := h
      simp

/-- The characters up to the closing quote, none for a surrogate that stands alone, and what follows the quote. -/
def stringTail (cs : List Char) : Option (List (Option Char) × List Char) :=
  match cs with
  | [] => none
  | c :: rest =>
    if c = '"' then some ([], rest)
    else if c = '\\' then
      match h : escape? rest with
      | none => none
      | some (d, rest') =>
        have := escape?_length h
        (stringTail rest').map fun (s, r) => (d :: s, r)
    else if c.toNat < 0x20 then none
    else (stringTail rest).map fun (s, r) => (some c :: s, r)
termination_by cs.length
decreasing_by all_goals (simp only [List.length_cons]; omega)

theorem stringTail_length {cs rest : List Char} {s : List (Option Char)} (h : stringTail cs = some (s, rest)) :
    rest.length < cs.length := by
  fun_induction stringTail cs generalizing s rest with
  | case1 => simp at h
  | case2 tail => simp only [Option.some.injEq, Prod.mk.injEq] at h; obtain ⟨_, rfl⟩ := h; simp
  | case3 => simp at h
  | case4 tail d rest' he hl _ ih =>
    obtain ⟨⟨s', r'⟩, hs, hr⟩ := Option.map_eq_some_iff.1 h
    simp only [Prod.mk.injEq] at hr
    obtain ⟨_, rfl⟩ := hr
    have := ih hs
    simp only [List.length_cons]; omega
  | case5 => simp at h
  | case6 c tail _ _ _ ih =>
    obtain ⟨⟨s', r'⟩, hs, hr⟩ := Option.map_eq_some_iff.1 h
    simp only [Prod.mk.injEq] at hr
    obtain ⟨_, rfl⟩ := hr
    have := ih hs
    simp only [List.length_cons]; omega

/-- The string of characters that are all there. -/
def string? (cs : List (Option Char)) : Option String := (cs.mapM id).map String.ofList

/-! ## Numbers and words -/

def isNumberChar (c : Char) : Bool :=
  c.isDigit || c == '-' || c == '+' || c == '.' || c == 'e' || c == 'E'

/-- No leading zero before another digit. -/
def isWhole (ds : List Char) : Bool :=
  match ds with
  | [] => false
  | ['0'] => true
  | d :: _ => d != '0'

/-- The number of a whole literal: an integer where it fits, the nearest binary64 number otherwise. A literal beyond
all finite numbers has none. -/
def number? (cs : List Char) : Option (Option Number) := do
  let (negative, unsigned) := match cs with
    | '-' :: rest => (true, rest)
    | rest => (false, rest)
  let (whole, rest) := Decimal.splitDigits unsigned
  guard (isWhole whole)
  let n : Int := if negative then -(Decimal.natOfDigits whole : Int) else Decimal.natOfDigits whole
  if h : rest = [] ∧ (-0x8000000000000000 ≤ n ∧ n < 0x10000000000000000) ∧ ¬(negative = true ∧ n = 0) then
    return some (.int n h.2.1)
  else
    let (fraction, rest) ← match rest with
      | '.' :: rest =>
        let (fraction, rest) := Decimal.splitDigits rest
        if fraction.isEmpty then none else some (fraction, rest)
      | rest => some ([], rest)
    let exponent ← Decimal.exponent? rest
    let x := (Decimal.Scientific.ofParts negative whole fraction exponent).toFloat
    return if h : x.isFinite = true then some (.float x h) else none

def word? (cs : List Char) : Option Json :=
  if cs = "null".toList then some .null
  else if cs = "true".toList then some (.bool true)
  else if cs = "false".toList then some (.bool false)
  else none

/-! ## The cutting -/

theorem length_dropWhile_le {α : Type _} (p : α → Bool) (l : List α) :
    (l.dropWhile p).length ≤ l.length :=
  (List.dropWhile_sublist p).length_le

/-- The tokens of a text, if it can be cut into tokens. -/
def tokens? (cs : List Char) : Option (List Token) :=
  match cs with
  | [] => some []
  | c :: rest =>
    if isSpace c then tokens? rest
    else if c = '[' then (tokens? rest).map (.openArray :: ·)
    else if c = ']' then (tokens? rest).map (.closeArray :: ·)
    else if c = '\x7b' then (tokens? rest).map (.openObject :: ·)
    else if c = '\x7d' then (tokens? rest).map (.closeObject :: ·)
    else if c = ',' then (tokens? rest).map (.comma :: ·)
    else if c = ':' then (tokens? rest).map (.colon :: ·)
    else if c = '"' then
      match h : stringTail rest with
      | none => none
      | some (s, rest') =>
        have := stringTail_length h
        (tokens? rest').map (.text (string? s) :: ·)
    else if c = '-' ∨ c.isDigit then
      have := length_dropWhile_le isNumberChar rest
      match number? (c :: rest.takeWhile isNumberChar) with
      | none => none
      | some n => (tokens? (rest.dropWhile isNumberChar)).map (.scalar (n.map .num) :: ·)
    else
      have := length_dropWhile_le Char.isAlpha rest
      match word? (c :: rest.takeWhile Char.isAlpha) with
      | none => none
      | some v => (tokens? (rest.dropWhile Char.isAlpha)).map (.scalar (some v) :: ·)
termination_by cs.length
decreasing_by all_goals (simp only [List.length_cons]; omega)

end FacetedSearch.Json
