import CollectionSync.Time.Instant
import CollectionSync.Time.Scan

/-! Dates in the form of mail and HTTP headers, such as `Wed, 21 Oct 2015 07:28:00 GMT`. -/

namespace CollectionSync.Time

private def lower (s : List Char) : List Char := s.map Char.toLower

/-- The position in `names` of the three letters that the text starts with, whatever their case. -/
private def shortName (names : List String) : Scan Nat := fun s =>
  (names.idxOf? (String.ofList (lower (s.take 3)))).map fun i => (i, s.drop 3)

private def weekdays : List String := ["mon", "tue", "wed", "thu", "fri", "sat", "sun"]

private def months : List String :=
  ["jan", "feb", "mar", "apr", "may", "jun", "jul", "aug", "sep", "oct", "nov", "dec"]

/-- Years of two digits lie in 1950 to 2049, and years of three count from 1900. -/
private def headerYear (digits value : Nat) : Nat :=
  if digits = 2 then (if value < 50 then value + 2000 else value + 1900)
  else if digits = 3 then value + 1900
  else value

/-- The zones that have a name, in hours ahead of UTC. -/
private def zoneHours (name : String) : Option Int :=
  match name with
  | "gmt" | "ut" => some 0
  | "edt" => some (-4)
  | "est" | "cdt" => some (-5)
  | "cst" | "mdt" => some (-6)
  | "mst" | "pdt" => some (-7)
  | "pst" => some (-8)
  | _ => if name.length = 1 ∧ name ≠ "j" then some 0 else none

private def isLetter (c : Char) : Bool := c.isAlpha

/-- A named zone, or a sign and four digits. -/
private def zone : Scan Int := fun s =>
  let name := s.takeWhile isLetter
  if name.isEmpty then offset some false s
  else (zoneHours (String.ofList (lower name))).map fun h => (h * 3600, s.drop name.length)

/-- What is left after the parenthesis that closes the comment opened `depth` times; a backslash
takes the next character with it. -/
private def afterComment : Nat → List Char → Option (List Char)
  | _, [] => none
  | depth, '\\' :: _ :: rest => afterComment depth rest
  | _, ['\\'] => none
  | depth, '(' :: rest => afterComment (depth + 1) rest
  | depth, ')' :: rest => if depth ≤ 1 then some rest else afterComment (depth - 1) rest
  | depth, _ :: rest => afterComment depth rest

/-- Whether the text holds blanks and comments only, the last comment closing it. At most `fuel`
comments are looked at. -/
private def onlyComments : Nat → List Char → Bool
  | 0, s => s.isEmpty
  | fuel + 1, s =>
    if s.isEmpty then true
    else match Text.trimStart s with
      | '(' :: rest =>
        match afterComment 1 rest with
        | some left => onlyComments fuel left
        | none => false
      | _ => false

/-- Reads a header date; a weekday that does not belong to the date is refused. -/
def readHeaderDate? (text : String) : Option Instant := do
  let s := Text.trimStart text.toList
  let (day?, s) ← match shortName weekdays s with
    | some (d, ',' :: rest) => some (some d, rest)
    | some _ => none
    | none => some (none, s)
  let (day, s) ← number 1 2 (Text.trimStart s)
  let (_, s) ← blanks s
  let (month, s) ← shortName months s
  let (_, s) ← blanks s
  let (value, rest) ← number 2 s.length s
  let year := headerYear (s.length - rest.length) value
  let (_, s) ← blanks rest
  let (hour, s) ← number 2 2 s
  let (_, s) ← char ':' (Text.trimStart s)
  let (minute, s) ← number 2 2 (Text.trimStart s)
  let (second, s) ← match char ':' (Text.trimStart s) with
    | some (_, rest) => number 2 2 rest
    | none => some (0, s)
  let (_, s) ← blanks s
  let (ahead, s) ← zone s
  let date : CivilDate := ⟨year, month + 1, day⟩
  if onlyComments text.length s && day?.all (· == date.weekday) then
    Instant.ofFields? ⟨date, hour, minute, second, 0⟩ ahead
  else none

/-- No name of a weekday starts with a digit. -/
private theorem shortName_weekdays {c : Char} {s : List Char} (h : Text.isDigit c = true) :
    shortName weekdays (c :: s) = none := by
  have hletters : ∀ name ∈ weekdays, name.toList.head?.any Text.isDigit = false := by decide
  have hrange := Text.isDigit_iff_toNat.mp h
  have hlower : c.toLower = c := by
    refine dif_neg fun hupper => ?_
    have hfirst : 65 ≤ c.toNat := UInt32.le_iff_toNat_le.mp hupper.1
    omega
  rw [shortName, Option.map_eq_none_iff, List.idxOf?_eq_none_iff]
  intro hmem
  have hdigit := hletters _ hmem
  rw [String.toList_ofList, List.take_succ_cons, lower, List.map_cons, hlower, List.head?_cons,
    Option.any_some, h] at hdigit
  cases hdigit

/-- Three digits in a row start no date: a weekday starts with a letter, and the day has two digits
at most and a blank behind them. -/
theorem readHeaderDate?_digits {s : List Char} (hdigits : ∀ c ∈ s, Text.isDigit c = true)
    (hlength : 2 < s.length) : readHeaderDate? (String.ofList s) = none := by
  match s with
  | a :: b :: c :: rest =>
    have ha := hdigits a (by simp)
    have hb := hdigits b (by simp)
    have hc := Text.isBlank_of_isDigit (hdigits c (by simp))
    have hstart : Text.trimStart (a :: b :: c :: rest) = a :: b :: c :: rest :=
      List.dropWhile_cons_of_neg (by rw [Text.isBlank_of_isDigit ha]; exact Bool.false_ne_true)
    have hday : number 1 2 (a :: b :: c :: rest) = some (digitsValue [a, b], c :: rest) := by
      have hfirst : ((a :: b :: c :: rest).takeWhile Text.isDigit).take 2 = [a, b] := by
        rw [List.takeWhile_cons_of_pos ha, List.takeWhile_cons_of_pos hb]
        rfl
      rw [number, hfirst]
      rfl
    have hstop : blanks (c :: rest) = none := if_neg (by rw [hc]; exact Bool.false_ne_true)
    -- What is read behind the first two fields stays folded: each `show` names the next one only.
    rw [readHeaderDate?, String.toList_ofList, hstart, shortName_weekdays ha]
    show Option.bind (number 1 2 (Text.trimStart (a :: b :: c :: rest))) _ = none
    rw [hstart, hday]
    show Option.bind (blanks (c :: rest)) _ = none
    rw [hstop]
    rfl

end CollectionSync.Time
