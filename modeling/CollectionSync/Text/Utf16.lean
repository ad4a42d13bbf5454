import CollectionSync.Text.Utf8

/-! UTF-16: characters beyond the first 65536 are written as a pair of numbers. -/

namespace CollectionSync.Text

def isHighSurrogate (n : Nat) : Bool := 0xD800 ≤ n && n < 0xDC00
def isLowSurrogate (n : Nat) : Bool := 0xDC00 ≤ n && n < 0xE000

/-- The character that a high and a low number stand for. -/
def ofPair (high low : Nat) : Char :=
  Char.ofNat (0x10000 + (high - 0xD800) * 0x400 + (low - 0xDC00))

/-- The characters that the bytes encode, where `unit` gives the number in two of them. What is half
of a pair, or half of a number, becomes U+FFFD. -/
def decodePairs (unit : UInt8 → UInt8 → Nat) : List UInt8 → List Char
  | a :: b :: c :: d :: rest =>
    let n := unit a b
    if isHighSurrogate n && isLowSurrogate (unit c d) then
      ofPair n (unit c d) :: decodePairs unit rest
    else single n :: decodePairs unit (c :: d :: rest)
  | [a, b, _] =>
    -- a high number takes the lone byte behind it along
    if isHighSurrogate (unit a b) then [replacement] else [single (unit a b), replacement]
  | [a, b] => [single (unit a b)]
  | [_] => [replacement]
  | [] => []
where
  single (n : Nat) : Char :=
    if isHighSurrogate n || isLowSurrogate n then replacement else Char.ofNat n

end CollectionSync.Text
