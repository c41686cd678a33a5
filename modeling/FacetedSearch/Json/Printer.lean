import FacetedSearch.Json.Basic
import FacetedSearch.Decimal.Layout

/-!
# Writing JSON texts

The compact form without blanks and the indented form. Binary64 numbers always show a point or an exponent, so
that they read back as binary64 numbers.
-/

namespace FacetedSearch.Json

/-- Numbers are positional from `0.00001` to below `10 ^ 16`, and whole ones end in `.0`. -/
def numberStyle : Decimal.Style where
  isPositional lead := -5 ≤ lead && lead ≤ 15
  keepsFraction := true
  tie := .even

def numberText : Number → String
  | .int n _ => toString n
  | .float x _ => Decimal.write numberStyle x

/-- Quotes, backslashes and controls are escaped, all else stands for itself. -/
def escapeChar (c : Char) : String :=
  match c with
  | '"' => "\\\""
  | '\\' => "\\\\"
  | '\x08' => "\\b"
  | '\x0c' => "\\f"
  | '\n' => "\\n"
  | '\r' => "\\r"
  | '\t' => "\\t"
  | c =>
    if c.toNat < 0x20 then
      "\\u00" ++ String.ofList [Nat.digitChar (c.toNat / 16), Nat.digitChar (c.toNat % 16)]
    else String.singleton c

def stringText (s : String) : String :=
  "\"" ++ String.join (s.toList.map escapeChar) ++ "\""

mutual

def compact : Json → String
  | .null => "null"
  | .bool b => if b then "true" else "false"
  | .num n => numberText n
  | .str s => stringText s
  | .arr items => "[" ++ String.intercalate "," (compactItems items) ++ "]"
  | .obj members => "\x7b" ++ String.intercalate "," (compactMembers members) ++ "\x7d"

def compactItems : List Json → List String
  | [] => []
  | item :: rest => item.compact :: compactItems rest

def compactMembers : List (String × Json) → List String
  | [] => []
  | (key, value) :: rest => (stringText key ++ ":" ++ value.compact) :: compactMembers rest

end

/-- Entries on lines of their own between two brackets. -/
def block (opening closing indent : String) (entries : List String) : String :=
  match entries with
  | [] => opening ++ closing
  | entries =>
    opening ++ "\n" ++ String.intercalate ",\n" (entries.map (indent ++ "  " ++ ·)) ++ "\n" ++ indent ++ closing

mutual

/-- The text with one entry per line; `indent` precedes the lines of this value. -/
def indentedFrom (indent : String) : Json → String
  | .null => "null"
  | .bool b => if b then "true" else "false"
  | .num n => numberText n
  | .str s => stringText s
  | .arr items => block "[" "]" indent (indentedItems (indent ++ "  ") items)
  | .obj members => block "\x7b" "\x7d" indent (indentedMembers (indent ++ "  ") members)

def indentedItems (indent : String) : List Json → List String
  | [] => []
  | item :: rest => item.indentedFrom indent :: indentedItems indent rest

def indentedMembers (indent : String) : List (String × Json) → List String
  | [] => []
  | (key, value) :: rest =>
    (stringText key ++ ": " ++ value.indentedFrom indent) :: indentedMembers indent rest

end

/-- The text with one entry per line, each level indented by two blanks. -/
def indented (v : Json) : String := v.indentedFrom ""

end FacetedSearch.Json
