import CollectionSync.Text.Blank

/-! Small readers of the parts that dates and times are made of. Each takes the text that is left
and gives what it read with the rest, or nothing. -/

namespace CollectionSync.Time

abbrev Scan (α : Type) := List Char → Option (α × List Char)

/-- The value of a row of decimal digits. -/
def digitsValue (ds : List Char) : Nat := ds.foldl (fun n d => n * 10 + (d.toNat - 48)) 0

/-- Between `least` and `most` decimal digits. -/
def number (least most : Nat) : Scan Nat := fun s =>
  let ds := (s.takeWhile Text.isDigit).take most
  if ds.length < least then none else some (digitsValue ds, s.drop ds.length)

def char (c : Char) : Scan Unit
  | d :: rest => if d = c then some ((), rest) else none
  | [] => none

/-- The digits after the point as nanoseconds; digits past the ninth are dropped. -/
def fraction : Scan Nat := fun s =>
  let ds := s.takeWhile Text.isDigit
  if ds.isEmpty then none
  else
    let kept := ds.take 9
    some (digitsValue kept * Nat.pow 10 (9 - kept.length), s.drop ds.length)

/-- A fraction that starts with its point, or no fraction at all. -/
def optionalFraction : Scan Nat
  | '.' :: rest => fraction rest
  | s => some (0, s)

/-- At least one blank. -/
def blanks : Scan Unit := fun s =>
  match s with
  | c :: _ => if Text.isBlank c then some ((), Text.trimStart s) else none
  | [] => none

/-- A sign, two digits of hours, whatever `separator` skips, two digits of minutes: seconds ahead
of UTC. The minus sign U+2212 counts as a sign only where `minusSign` says so. -/
def offset (separator : List Char → Option (List Char)) (minusSign : Bool) : Scan Int := fun s => do
  let (negative, s) ← match s with
    | '+' :: rest => some (false, rest)
    | '-' :: rest => some (true, rest)
    | '−' :: rest => if minusSign then some (true, rest) else none
    | _ => none
  let (hours, s) ← number 2 2 s
  let s ← separator s
  let (minutes, s) ← number 2 2 s
  if minutes > 59 then none
  else
    let seconds : Int := (hours * 3600 + minutes * 60 : Nat)
    some (if negative then -seconds else seconds, s)

end CollectionSync.Time
