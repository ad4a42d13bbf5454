import CollectionSync.Text.Blank
import CollectionSync.Yaml.Scalar

/-! Writing texts as YAML scalars: plain where that reads back as the same text, in quotes
otherwise, and a text of several lines under a bar. -/

namespace CollectionSync.Yaml

/-- The four ways in which a text may stand in a block mapping. -/
inductive Style where
  | plain
  | single
  | double
  /-- Line by line after a bar. -/
  | literal
  deriving DecidableEq

/-- Characters that may stand for themselves. -/
def isWritable (c : Char) : Bool :=
  c == '\n' || (' ' ≤ c && c ≤ '~') || ('\u00a0' ≤ c && c ≤ '\ud7ff')
    || ('\ue000' ≤ c && c ≤ '\ufffd' && c != '\ufeff')

/-- Whether a character of one kind is followed by one of another kind. -/
def hasPair (first second : Char → Bool) : List Char → Bool
  | c :: d :: rest => (first c && second d) || hasPair first second (d :: rest)
  | _ => false

/-- Words that readers take for a truth value or for nothing. -/
def reservedWords : List String :=
  ["true", "false", "null", "~", "y", "yes", "n", "no", "on", "off"]

/-- Whether some reader may take a plain text for something else, such as a number. -/
def isAmbiguous : List Char → Bool
  | [] => true
  | c :: rest =>
    Text.isDigit c || c == '-' || c == '.' || c == '+'
      || reservedWords.contains (String.ofList ((c :: rest).map Char.toLower))

/-- Whether a text begins as a collection, a reference, a quoted text or a comment does. -/
def startsWithIndicator : List Char → Bool
  | [] => false
  | c :: rest =>
    "#,[]\x7b\x7d&*!|>'\"%@\x60".toList.contains c || ((c == '?' || c == ':') && startsWithGap rest)

/-- Whether a text holds what ends a key or begins a comment. -/
def hasInnerIndicator : List Char → Bool
  | c :: d :: rest =>
    (d == ':' && startsWithGap rest) || (d == '#' && isGap c) || hasInnerIndicator (d :: rest)
  | _ => false

/-- Whether a text reads back when nothing marks where it begins and ends. -/
def canBePlain (cs : List Char) : Bool :=
  !isAmbiguous cs && !cs.head?.any isGap && !cs.getLast?.any isGap && !cs.any isBreak
    && !startsWithIndicator cs && !hasInnerIndicator cs

/-- The style of a text. A break next to a space, or a character that cannot stand for itself, would
be lost but in double quotes. -/
def Style.ofText (cs : List Char) : Style :=
  if !cs.all isWritable || hasPair (· == ' ') isBreak cs then double
  else if cs.contains '\n' then if cs.getLast? == some ' ' then double else literal
  else if hasPair isBreak (· == ' ') cs then double
  else if canBePlain cs then plain
  else single

/-- Upper-case hexadecimal digits of a number in at least `width` places. -/
def hexPlaces (width n : Nat) : List Char :=
  let digits := (Nat.toDigits 16 n).map Char.toUpper
  List.replicate (width - digits.length) '0' ++ digits

/-- A character that cannot stand for itself, after a backslash. -/
def escapeCode (c : Char) : List Char :=
  match escapes.find? fun e => e.2 == c with
  | some e => [e.1]
  | none =>
    if c.toNat ≤ 0xFF then 'x' :: hexPlaces 2 c.toNat
    else if c.toNat ≤ 0xFFFF then 'u' :: hexPlaces 4 c.toNat
    else 'U' :: hexPlaces 8 c.toNat

def doubleQuoted (cs : List Char) : List Char :=
  let written (c : Char) : List Char :=
    if !isWritable c || isBreak c || c == '"' || c == '\\' then '\\' :: escapeCode c else [c]
  '"' :: cs.flatMap written ++ ['"']

/-- Puts the margin before each character that begins a line. -/
def withMargin (margin : List Char) : (atStart : Bool) → List Char → List Char
  | _, [] => []
  | atStart, c :: rest =>
    if isBreak c then c :: withMargin margin true rest
    else (if atStart then margin else []) ++ c :: withMargin margin false rest

def singleQuoted (margin cs : List Char) : List Char :=
  '\'' :: withMargin margin false
    (cs.flatMap (fun c => if c == '\'' then ['\'', '\''] else [c]) ++ ['\''])

/-- What follows the bar: the margin, where the first line does not show it, and what becomes of the
breaks at the end. -/
def literalHints (cs : List Char) : List Char :=
  (if cs.head?.any fun c => c == ' ' || isBreak c then ['2'] else [])
    ++ match cs.reverse with
      | [] => ['-']
      | last :: before =>
        if !isBreak last then ['-'] else if before.head?.all isBreak then ['+'] else []

/-- What follows the colon after a key whose value stands `margin` deep. -/
def valueText (margin : List Char) (s : String) : List Char :=
  let cs := s.toList
  ' ' :: match Style.ofText cs with
    | .plain => cs ++ ['\n']
    | .single => singleQuoted margin cs ++ ['\n']
    | .double => doubleQuoted cs ++ ['\n']
    | .literal =>
      '|' :: literalHints cs ++ '\n' :: withMargin margin true cs
        ++ if cs.getLast?.any isBreak then [] else ['\n']

end CollectionSync.Yaml
