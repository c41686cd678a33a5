import FacetedSearch.Text.Utf8

/-!
# Percent encoding

Every octet but the unreserved ones is written as `%` and two upper-case hexadecimal digits. Reading takes a
`%` that no two digits follow for itself.
-/

namespace FacetedSearch.Text.Percent

/-- The digit for `n`, upper case from ten on; for `n` below sixteen. -/
def hexDigit (n : Nat) : Char :=
  if n < 10 then Char.ofNat (48 + n) else Char.ofNat (55 + n)

/-- The value of an octet that is a hexadecimal digit of either case. -/
def hexValue? (b : UInt8) : Option Nat :=
  let n := b.toNat
  if 48 ≤ n ∧ n ≤ 57 then some (n - 48)
  else if 65 ≤ n ∧ n ≤ 70 then some (n - 55)
  else if 97 ≤ n ∧ n ≤ 102 then some (n - 87)
  else none

/-- Letters, digits and `- _ . ~` are written as they are. -/
def isUnreserved (b : UInt8) : Bool :=
  let n := b.toNat
  (48 ≤ n && n ≤ 57) || (65 ≤ n && n ≤ 90) || (97 ≤ n && n ≤ 122) ||
    n == 45 || n == 46 || n == 95 || n == 126

def encodeOctet (b : UInt8) : List Char :=
  if isUnreserved b then [Char.ofNat b.toNat]
  else ['%', hexDigit (b.toNat / 16), hexDigit (b.toNat % 16)]

def encode (s : List Char) : List Char := (Utf8.encode s).flatMap encodeOctet

/-- Replaces each `%` and two digits by the octet they name. -/
def decodeOctets : List UInt8 → List UInt8
  | [] => []
  | [a] => [a]
  | [a, b] => [a, b]
  | a :: b :: c :: rest =>
    if a.toNat = 37 then
      match hexValue? b, hexValue? c with
      | some hi, some lo => UInt8.ofNat (hi * 16 + lo) :: decodeOctets rest
      | _, _ => a :: decodeOctets (b :: c :: rest)
    else a :: decodeOctets (b :: c :: rest)

def decode (s : List Char) : Except Utf8.Fault (List Char) :=
  Utf8.decode (decodeOctets (Utf8.encode s))

end FacetedSearch.Text.Percent
