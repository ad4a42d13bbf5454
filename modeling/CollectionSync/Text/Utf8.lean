/-! UTF-8: characters as bytes, and bytes as characters where every longest start of a character
that does not go on as one becomes U+FFFD. -/

namespace CollectionSync.Text

def utf8 (s : List Char) : List UInt8 := s.flatMap String.utf8EncodeChar

/-- The character that stands for bytes that are none. -/
def replacement : Char := Char.ofNat 0xFFFD

def isContinuation (b : UInt8) : Bool := 0x80 ≤ b && b < 0xC0

/-- The second bytes that may follow a first byte of three or four. -/
def isSecond (first b : UInt8) : Bool :=
  if first = 0xE0 then 0xA0 ≤ b && b < 0xC0
  else if first = 0xED then 0x80 ≤ b && b < 0xA0
  else if first = 0xF0 then 0x90 ≤ b && b < 0xC0
  else if first = 0xF4 then 0x80 ≤ b && b < 0x90
  else isContinuation b

/-- The six payload bits of a continuation byte, after those read before it. -/
def extend (n : Nat) (b : UInt8) : Nat := n * 64 + (b.toNat - 0x80)

/-- The characters that the bytes encode. -/
def decodeLossy : List UInt8 → List Char
  | [] => []
  | a :: s =>
    if a < 0x80 then Char.ofNat a.toNat :: decodeLossy s
    else if 0xC2 ≤ a ∧ a < 0xE0 then
      match s with
      | b :: s =>
        if isContinuation b then Char.ofNat (extend (a.toNat - 0xC0) b) :: decodeLossy s
        else replacement :: decodeLossy (b :: s)
      | [] => [replacement]
    else if 0xE0 ≤ a ∧ a < 0xF0 then
      match s with
      | b :: s =>
        if isSecond a b then
          match s with
          | c :: s =>
            if isContinuation c then
              Char.ofNat (extend (extend (a.toNat - 0xE0) b) c) :: decodeLossy s
            else replacement :: decodeLossy (c :: s)
          | [] => [replacement]
        else replacement :: decodeLossy (b :: s)
      | [] => [replacement]
    else if 0xF0 ≤ a ∧ a < 0xF5 then
      match s with
      | b :: s =>
        if isSecond a b then
          match s with
          | c :: s =>
            if isContinuation c then
              match s with
              | d :: s =>
                if isContinuation d then
                  Char.ofNat (extend (extend (extend (a.toNat - 0xF0) b) c) d) :: decodeLossy s
                else replacement :: decodeLossy (d :: s)
              | [] => [replacement]
            else replacement :: decodeLossy (c :: s)
          | [] => [replacement]
        else replacement :: decodeLossy (b :: s)
      | [] => [replacement]
    else replacement :: decodeLossy s
termination_by s => s.length

/-- The characters that the bytes encode, where every byte is part of one. -/
def decode? (bytes : List UInt8) : Option (List Char) :=
  (String.fromUTF8? (ByteArray.mk bytes.toArray)).map String.toList

end CollectionSync.Text
