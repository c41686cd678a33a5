/-!
# UTF-8

Characters as octets, and octets read back. A reader that fails tells where the first fault begins and how
many octets could have started a character there.
-/

namespace FacetedSearch.Text.Utf8

def encodeChar (c : Char) : List UInt8 :=
  let n := c.toNat
  if n < 0x80 then [UInt8.ofNat n]
  else if n < 0x800 then [UInt8.ofNat (0xC0 + n / 64), UInt8.ofNat (0x80 + n % 64)]
  else if n < 0x10000 then
    [UInt8.ofNat (0xE0 + n / 4096), UInt8.ofNat (0x80 + n / 64 % 64), UInt8.ofNat (0x80 + n % 64)]
  else
    [UInt8.ofNat (0xF0 + n / 262144), UInt8.ofNat (0x80 + n / 4096 % 64),
      UInt8.ofNat (0x80 + n / 64 % 64), UInt8.ofNat (0x80 + n % 64)]

def encode (cs : List Char) : List UInt8 := cs.flatMap encodeChar

inductive Fault where
  /-- The `length` octets from `index` on begin no character. -/
  | invalid (length index : Nat)
  /-- The input ends inside the character that begins at `index`. -/
  | incomplete (index : Nat)
deriving DecidableEq, Repr

/-- The number of octets announced by a first octet. -/
inductive Width where
  | one | two | three | four | none

def width (b : UInt8) : Width :=
  let n := b.toNat
  if n < 0x80 then .one
  else if n < 0xC2 then .none
  else if n < 0xE0 then .two
  else if n < 0xF0 then .three
  else if n < 0xF5 then .four
  else .none

def continues (b : UInt8) : Bool := 0x80 ≤ b.toNat && b.toNat < 0xC0

/-- The second octet of three: no overlong form and no surrogate. -/
def continuesThree (a b : UInt8) : Bool :=
  continues b && !(a.toNat == 0xE0 && b.toNat < 0xA0) && !(a.toNat == 0xED && 0xA0 ≤ b.toNat)

/-- The second octet of four: no overlong form and nothing above U+10FFFF. -/
def continuesFour (a b : UInt8) : Bool :=
  continues b && !(a.toNat == 0xF0 && b.toNat < 0x90) && !(a.toNat == 0xF4 && 0x90 ≤ b.toNat)

/-- Reads characters from octet number `i` on. -/
def decodeFrom (i : Nat) : List UInt8 → Except Fault (List Char)
  | [] => .ok []
  | a :: rest =>
    match width a with
    | .one => (Char.ofNat a.toNat :: ·) <$> decodeFrom (i + 1) rest
    | .none => .error (.invalid 1 i)
    | .two =>
      match rest with
      | [] => .error (.incomplete i)
      | b :: rest =>
        if continues b then
          (Char.ofNat ((a.toNat - 0xC0) * 64 + (b.toNat - 0x80)) :: ·) <$> decodeFrom (i + 2) rest
        else .error (.invalid 1 i)
    | .three =>
      match rest with
      | [] => .error (.incomplete i)
      | b :: rest =>
        if continuesThree a b then
          match rest with
          | [] => .error (.incomplete i)
          | c :: rest =>
            if continues c then
              (Char.ofNat ((a.toNat - 0xE0) * 4096 + (b.toNat - 0x80) * 64 + (c.toNat - 0x80)) :: ·)
                <$> decodeFrom (i + 3) rest
            else .error (.invalid 2 i)
        else .error (.invalid 1 i)
    | .four =>
      match rest with
      | [] => .error (.incomplete i)
      | b :: rest =>
        if continuesFour a b then
          match rest with
          | [] => .error (.incomplete i)
          | c :: rest =>
            if continues c then
              match rest with
              | [] => .error (.incomplete i)
              | d :: rest =>
                if continues d then
                  (Char.ofNat ((a.toNat - 0xF0) * 262144 + (b.toNat - 0x80) * 4096 +
                      (c.toNat - 0x80) * 64 + (d.toNat - 0x80)) :: ·) <$> decodeFrom (i + 4) rest
                else .error (.invalid 3 i)
            else .error (.invalid 2 i)
        else .error (.invalid 1 i)

def decode (bs : List UInt8) : Except Fault (List Char) := decodeFrom 0 bs

end FacetedSearch.Text.Utf8
