import CollectionSync.Json.Decode
import CollectionSync.Json.Parser
import CollectionSync.Rounding

/-! JSON as it stands in the bytes of a body, nothing in it decoded. A member that nobody asks for
has to keep to the grammar and no more: that its strings are texts and its numbers are in range is
found out where they are taken. -/

namespace CollectionSync.Json

open Time (Scan)

/-- A string up to its closing quote, escapes left as they are. -/
def rawText : Scan (List Char)
  | '"' :: rest => some ([], rest)
  | '\\' :: 'u' :: a :: b :: c :: d :: rest => do
    let _ ← unit? a b c d
    let (raw, rest) ← rawText rest
    some ('\\' :: 'u' :: a :: b :: c :: d :: raw, rest)
  | '\\' :: c :: rest => do
    let _ ← simpleEscape? c
    let (raw, rest) ← rawText rest
    some ('\\' :: c :: raw, rest)
  | c :: rest =>
    if c.toNat < 32 then none else (rawText rest).map fun (raw, rest) => (c :: raw, rest)
  | [] => none

/-- The text that the characters of a string stand for, each of them a byte. -/
def textOf? (raw : List Char) : Option String := do
  let (text, _) ← stringBody [] ((← Text.decode? (raw.map fun c => c.toNat.toUInt8)) ++ ['"'])
  some text

/-! ## Numbers -/

/-- Appends digits to a number for as long as 64 bits hold it; the others are left. -/
def takeDigits (n : Nat) : List Char → Nat × List Char
  | [] => (n, [])
  | c :: rest =>
    let next := n * 10 + (c.toNat - 48)
    if next < UInt64.size then takeDigits next rest else (n, c :: rest)

namespace Numeral

/-- The power of ten that the exponent names. -/
def power (n : Numeral) : Int :=
  match n.exponent with
  | _ :: '-' :: digits => -(Time.digitsValue digits : Int)
  | _ :: '+' :: digits | _ :: digits => Time.digitsValue digits
  | [] => 0

/-- A significand of 64 bits with the power of ten that scales it. Digits of the whole that do not
fit still count as places, those of the fraction are dropped. -/
def scaled (n : Numeral) : Nat × Int :=
  let (whole, places) := takeDigits 0 n.whole
  let digits := n.fraction.drop 1
  let (significand, dropped) := takeDigits whole digits
  (significand, places.length - (digits.length - dropped.length : Nat) + n.power)

/-- A number whose size no double holds. The significand and the power, which is 10^308 at most, are
rounded before they are multiplied; from 2^1024 - 2^970 on the product rounds to infinity. -/
def overflows (n : Numeral) : Bool :=
  let (significand, power) := n.scaled
  let scale := Nat.pow 10 (min power.toNat 308)
  let product := Rounding.toDouble significand * Rounding.toDouble scale
  significand != 0 &&
    (308 < power || (0 ≤ power && Nat.pow 2 1024 - Nat.pow 2 970 ≤ product))

/-- A whole number without a sign that a word of 64 bits holds. -/
def word? (n : Numeral) : Option Nat :=
  let value := Time.digitsValue n.whole
  if !n.negative && n.fraction.isEmpty && n.exponent.isEmpty && value < UInt64.size then some value
  else none

end Numeral

/-! ## Values -/

/-- A value whose strings and numbers stand as they were written. -/
inductive Wire where
  | null
  | bool (b : Bool)
  | number (n : Numeral)
  | str (raw : List Char)
  | arr (items : List Wire)
  | obj (members : List (List Char × Wire))

namespace Wire

/-- Everything is read as it stands. -/
def reader : Reader (List Char) Wire where
  text := rawText
  number := fun s => (numeral s).map fun (n, rest) => (.number n, rest)
  null := .null
  bool := .bool
  str := .str
  arr := .arr
  obj := .obj

/-- The one value that a body holds. -/
def ofBytes? (body : List UInt8) : Option Wire :=
  reader.read? (body.map fun b => Char.ofNat b.toNat)

def text? : Wire → Option String
  | str raw => textOf? raw
  | _ => none

def word? : Wire → Option Nat
  | number n => n.word?
  | _ => none

def arr? : Wire → Option (List Wire)
  | arr items => some items
  | _ => none

/-- A value that can be kept whatever it is, lists and objects in it at most `depth` deep. -/
def isWhole (depth : Nat) : Wire → Bool
  | null | bool _ => true
  | number n => !n.overflows
  | str raw => (textOf? raw).isSome
  | arr items =>
    match depth with
    | 0 => false
    | depth + 1 => items.all (isWhole depth)
  | obj members =>
    match depth with
    | 0 => false
    | depth + 1 => members.all fun m => (textOf? m.1).isSome && isWhole depth m.2
termination_by structural depth

/-- Lists and objects that may lie in one another where a value is kept. -/
def depthLimit : Nat := 127

/-- The values of the members called `names`, in that order, absent ones as none. Every member has a
name that is a text. A list may leave out members at its end as long as it has `least` of them. -/
def fields? (names : List String) (w : Wire) (least : Nat := names.length) :
    Option (List (Option Wire)) :=
  match w with
  | obj members => do
    membersNamed? names (← members.mapM fun m => (textOf? m.1).map (·, m.2))
  | arr items =>
    if least ≤ items.length ∧ items.length ≤ names.length then
      some (items.map some ++ List.replicate (names.length - items.length) none)
    else none
  | _ => none

/-- The value of a member that may be absent or null. -/
def optional? {α : Type} (read : Wire → Option α) : Option Wire → Option (Option α)
  | none | some null => some none
  | some w => (read w).map some

/-- The value of a member that has to be there. -/
def required? {α : Type} (read : Wire → Option α) (w : Option Wire) : Option α := w.bind read

end Wire

end CollectionSync.Json
