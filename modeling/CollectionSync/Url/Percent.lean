import CollectionSync.Text.Utf8

/-! Percent encoding: a byte that a part of a URL does not carry as itself is written as `%` and two
hexadecimal digits. -/

namespace CollectionSync.Url

/-- The upper-case hexadecimal digit of a number below 16. -/
def hexDigit (n : Nat) : Char := (Nat.digitChar n).toUpper

def encodeByte (b : UInt8) : List Char := ['%', hexDigit (b.toNat / 16), hexDigit (b.toNat % 16)]

/-- Encodes the bytes for which `escaped` holds, and every byte beyond ASCII. -/
def percentEncode (escaped : Char → Bool) (s : List Char) : List Char :=
  (Text.utf8 s).flatMap fun b =>
    let c := Char.ofNat b.toNat
    if 0x80 ≤ b || escaped c then encodeByte b else [c]

def hexValue? (b : UInt8) : Option Nat :=
  if 0x30 ≤ b ∧ b ≤ 0x39 then some (b.toNat - 0x30)
  else if 0x41 ≤ b ∧ b ≤ 0x46 then some (b.toNat - 0x37)
  else if 0x61 ≤ b ∧ b ≤ 0x66 then some (b.toNat - 0x57)
  else none

/-- Undoes the encoding; a `%` without two digits behind it stays. -/
def percentDecode : List UInt8 → List UInt8
  | [] => []
  | 0x25 :: h :: l :: rest =>
    match hexValue? h, hexValue? l with
    | some h, some l => UInt8.ofNat (h * 16 + l) :: percentDecode rest
    | _, _ => 0x25 :: percentDecode (h :: l :: rest)
  | b :: rest => b :: percentDecode rest
termination_by s => s.length

def isC0Control (c : Char) : Bool := c.toNat < 0x20 || c.toNat == 0x7F

/-- What a fragment escapes. -/
def escapedInFragment (c : Char) : Bool :=
  isC0Control c || c == ' ' || c == '"' || c == '<' || c == '>' || c.toNat == 0x60

/-- What a path escapes. -/
def escapedInPath (c : Char) : Bool :=
  escapedInFragment c || c == '#' || c == '?' || c == '\x7b' || c == '\x7d'

/-- What a name and a password escape. -/
def escapedInUserinfo (c : Char) : Bool :=
  escapedInPath c || c == '/' || c == ':' || c == ';' || c == '=' || c == '@' || c == '[' ||
    c == '\\' || c == ']' || c == '^' || c == '|'

/-- What a query escapes; the schemes of the web escape the single quote too. -/
def escapedInQuery (special : Bool) (c : Char) : Bool :=
  isC0Control c || c == ' ' || c == '"' || c == '#' || c == '<' || c == '>' ||
    (special && c == '\'')

end CollectionSync.Url
