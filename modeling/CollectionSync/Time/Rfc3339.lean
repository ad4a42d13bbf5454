import CollectionSync.Time.Instant
import CollectionSync.Time.Scan

/-! Times as RFC 3339 text: writing in UTC, reading strictly as a stored column is read, and reading
with the freedom that hand-written times get. -/

namespace CollectionSync.Time

open Instant (Fields)

/-- Years of four digits stand bare; any other year takes a sign. -/
def yearText (y : Int) : List Char :=
  if 0 ≤ y ∧ y ≤ 9999 then Span.padded 4 y.toNat
  else (if y < 0 then '-' else '+') :: Span.padded 4 y.natAbs

/-- Date and time of day up to the second. -/
def clockText (f : Fields) : List Char :=
  yearText f.date.year ++ '-' :: Span.padded 2 f.date.month ++ '-' :: Span.padded 2 f.date.day
    ++ 'T' :: Span.padded 2 f.hour ++ ':' :: Span.padded 2 f.minute ++ ':' :: Span.padded 2 f.second

/-- Six decimals always, the rest cut off: the form in which stored times sort as text. -/
def microsText (t : Instant) : String :=
  let f := t.fields
  String.ofList (clockText f ++ '.' :: Span.padded 6 (f.nanos / 1000) ++ ['Z'])

/-- None, three, six or nine decimals, the fewest that are exact. -/
def shortestText (t : Instant) : String :=
  let f := t.fields
  let decimals :=
    if f.nanos = 0 then []
    else if f.nanos % 1000000 = 0 then '.' :: Span.padded 3 (f.nanos / 1000000)
    else if f.nanos % 1000 = 0 then '.' :: Span.padded 6 (f.nanos / 1000)
    else '.' :: Span.padded 9 f.nanos
  String.ofList (clockText f ++ decimals ++ ['Z'])

/-- What stands between a date and a time of day. -/
def dateMark : Scan Unit
  | c :: rest => if c = 'T' ∨ c = 't' ∨ c = ' ' then some ((), rest) else none
  | [] => none

/-- An offset in the strict form: `Z`, or a sign, hours, a colon and minutes. -/
def strictOffset : Scan Int := fun s =>
  match s with
  | 'Z' :: rest | 'z' :: rest => some (0, rest)
  | _ => offset (fun s => (char ':' s).map (·.2)) true s

/-- Reads the exact form: fixed widths, no blanks, nothing after the offset. -/
def readStrict? (text : String) : Option Instant := do
  let s := text.toList
  let (year, s) ← number 4 4 s
  let (_, s) ← char '-' s
  let (month, s) ← number 2 2 s
  let (_, s) ← char '-' s
  let (day, s) ← number 2 2 s
  let (_, s) ← dateMark s
  let (hour, s) ← number 2 2 s
  let (_, s) ← char ':' s
  let (minute, s) ← number 2 2 s
  let (_, s) ← char ':' s
  let (second, s) ← number 2 2 s
  let (nanos, s) ← optionalFraction s
  let (ahead, s) ← strictOffset s
  if s.isEmpty then Instant.ofFields? ⟨⟨year, month, day⟩, hour, minute, second, nanos⟩ ahead
  else none


/-- A year: four digits at most, or a sign and any number of them. -/
private def freeYear : Scan Int := fun s =>
  match s with
  | '-' :: rest => (number 1 rest.length rest).map fun (n, r) => (-(n : Int), r)
  | '+' :: rest => (number 1 rest.length rest).map fun (n, r) => ((n : Int), r)
  | _ => (number 1 4 s).map fun (n, r) => ((n : Int), r)

/-- One or two digits, blanks before and after skipped. -/
private def freeNumber : Scan Nat := fun s =>
  (number 1 2 (Text.trimStart s)).map fun (n, r) => (n, Text.trimStart r)

private def isOffsetSeparator (c : Char) : Bool := c == ':' || Text.isBlank c

/-- `Z`, `UTC`, or hours and minutes with colons or blanks between, or nothing between. -/
private def freeOffset : Scan Int := fun s =>
  match s with
  | 'Z' :: rest | 'z' :: rest => some (0, rest)
  | a :: b :: c :: rest =>
    if [a, b, c].map Char.toUpper = ['U', 'T', 'C'] then some (0, rest)
    else offset (fun s => some (s.dropWhile isOffsetSeparator)) true s
  | _ => none

/-- Reads a time with the freedom given to hand-written ones: short numbers, blanks between the
parts, a signed year. -/
def readFree? (text : String) : Option Instant := do
  let (year, s) ← freeYear (Text.trimStart text.toList)
  let (_, s) ← char '-' (Text.trimStart s)
  let (month, s) ← freeNumber s
  let (_, s) ← char '-' s
  let (day, s) ← number 1 2 (Text.trimStart s)
  let (_, s) ← dateMark s
  let (hour, s) ← freeNumber s
  let (_, s) ← char ':' s
  let (minute, s) ← freeNumber s
  let (_, s) ← char ':' s
  let (second, s) ← number 1 2 (Text.trimStart s)
  let (nanos, s) ← optionalFraction s
  let (ahead, s) ← freeOffset (Text.trimStart s)
  if (Text.trimStart s).isEmpty then
    Instant.ofFields? ⟨⟨year, month, day⟩, hour, minute, second, nanos⟩ ahead
  else none

end CollectionSync.Time
