/-! Scalars of YAML texts, plain and in quotes, and the folding of line breaks inside them. -/

namespace CollectionSync.Yaml

/-- A place in a text; lines, columns and offsets count from zero. -/
structure Place where
  line : Nat
  column : Nat
  offset : Nat
  deriving DecidableEq

namespace Place

def start : Place := ⟨0, 0, 0⟩
def right (p : Place) (n : Nat) : Place := { p with column := p.column + n, offset := p.offset + n }
def down (p : Place) : Place := ⟨p.line + 1, 0, p.offset + 1⟩

end Place

def isBlank (c : Char) : Bool := c == ' ' || c == '\t'

/-- Line breaks, once carriage returns and next-line characters have become line feeds. -/
def isBreak (c : Char) : Bool := c == '\n' || c == '\u2028' || c == '\u2029'

def isGap (c : Char) : Bool := isBlank c || isBreak c

/-- Whether the text is at its end or goes on with a blank or a break. -/
def startsWithGap (cs : List Char) : Bool := cs.head?.all isGap

/-- Whether a text at the start of a line begins with `---` or `...`. -/
def startsWithMarker (cs : List Char) : Bool :=
  (cs.take 3 == ['-', '-', '-'] || cs.take 3 == ['.', '.', '.']) && startsWithGap (cs.drop 3)

/-- What lies between two parts of a scalar: blanks, or breaks with all blanks around them. -/
inductive Gap where
  | blanks (text : List Char)
  | breaks (first more : List Char)

namespace Gap

def none : Gap := blanks []

def isBroken : Gap → Bool
  | blanks _ => false
  | breaks .. => true

def push : Gap → Char → Gap
  | blanks text, c => if isBreak c then breaks [c] [] else blanks (text ++ [c])
  | breaks first more, c => if isBreak c then breaks first (more ++ [c]) else breaks first more

/-- A single line feed becomes a space; of several, all but the first stay. -/
def text : Gap → List Char
  | blanks text => text
  | breaks first more =>
    if first = ['\n'] then (if more.isEmpty then [' '] else more) else first ++ more

end Gap

/-- Reads blanks and breaks on top of a gap. Below column `indent` of a new line no tab may
stand. -/
def readGap (indent : Nat) : List Char → Place → Gap → Option (Gap × List Char × Place)
  | [], p, g => some (g, [], p)
  | c :: rest, p, g =>
    if isBreak c then readGap indent rest p.down (g.push c)
    else if isBlank c then
      if c == '\t' && g.isBroken && p.column < indent then none
      else readGap indent rest (p.right 1) (g.push c)
    else some (g, c :: rest, p)

/-! ## Plain scalars -/

def isFlowIndicator (c : Char) : Bool := ",[]{}".contains c

/-- Reads what belongs to a plain scalar up to the next gap. -/
def plainRun (inFlow : Bool) : List Char → Option (List Char × List Char)
  | [] => some ([], [])
  | c :: rest =>
    if isGap c then some ([], c :: rest)
    else if inFlow && c == ':' && rest.head?.any (fun d => d == '?' || isFlowIndicator d) then none
    else if (c == ':' && startsWithGap rest) || (inFlow && isFlowIndicator c) then
      some ([], c :: rest)
    else (plainRun inFlow rest).map fun (run, left) => (c :: run, left)

/-- A scalar that was read, with what follows it. -/
structure ScalarEnd where
  text : List Char
  rest : List Char
  place : Place
  /-- Whether a line was begun after the scalar. -/
  onNewLine : Bool

/-- Reads the parts of a plain scalar, after `text` and a gap. Outside of flow collections it goes
on only in lines indented to `indent` or deeper. -/
def plainParts (inFlow : Bool) (indent : Nat) :
    (fuel : Nat) → (text : List Char) → Gap → List Char → Place → Option ScalarEnd
  | 0, _, _, _, _ => none
  | fuel + 1, text, gap, rest, p =>
    if (p.column == 0 && startsWithMarker rest) || rest.head? == some '#' then
      some ⟨text, rest, p, gap.isBroken⟩
    else do
      let (run, rest) ← plainRun inFlow rest
      let p := p.right run.length
      let text := if run.isEmpty then text else text ++ gap.text ++ run
      let gap := if run.isEmpty then gap else Gap.none
      if rest.isEmpty || !startsWithGap rest then some ⟨text, rest, p, gap.isBroken⟩
      else
        let (gap, rest, p) ← readGap indent rest p gap
        if !inFlow && p.column < indent then some ⟨text, rest, p, gap.isBroken⟩
        else plainParts inFlow indent fuel text gap rest p

def readPlain (inFlow : Bool) (indent : Nat) (rest : List Char) (p : Place) : Option ScalarEnd :=
  plainParts inFlow indent (rest.length + 1) [] .none rest p

/-! ## Scalars in quotes -/

/-- Characters that follow a backslash for a single other one. -/
def escapes : List (Char × Char) :=
  [('0', '\x00'), ('a', '\x07'), ('b', '\x08'), ('t', '\t'), ('\t', '\t'), ('n', '\n'),
    ('v', '\x0b'), ('f', '\x0c'), ('r', '\r'), ('e', '\x1b'), (' ', ' '), ('"', '"'), ('/', '/'),
    ('\\', '\\'), ('N', '\u0085'), ('_', '\u00a0'), ('L', '\u2028'), ('P', '\u2029')]

def hexDigit? (c : Char) : Option Nat :=
  if '0' ≤ c ∧ c ≤ '9' then some (c.toNat - '0'.toNat)
  else if 'a' ≤ c ∧ c ≤ 'f' then some (c.toNat - 'a'.toNat + 10)
  else if 'A' ≤ c ∧ c ≤ 'F' then some (c.toNat - 'A'.toNat + 10)
  else none

/-- The character whose code is written in hexadecimal. -/
def hexChar? (digits : List Char) : Option Char := do
  let values ← digits.mapM hexDigit?
  let code := values.foldl (fun n d => n * 16 + d) 0
  if h : code.isValidChar then some (Char.ofNatAux code h) else none

/-- Letters that follow a backslash for a character by its code, and the digits of that code. -/
def codeWidths : List (Char × Nat) := [('x', 2), ('u', 4), ('U', 8)]

/-- Reads an escape after its backslash: the character, and how many characters were read. -/
def escape? : List Char → Option (Char × Nat)
  | [] => none
  | c :: rest =>
    match (escapes.find? fun e => e.1 == c), (codeWidths.find? fun e => e.1 == c) with
    | some e, _ => some (e.2, 1)
    | none, some (_, width) =>
      if rest.length < width then none else (hexChar? (rest.take width)).map fun d => (d, width + 1)
    | none, none => none

/-- Reads what stands in quotes up to a gap or the closing quote; the last component tells whether a
backslash takes the line break that follows out of the text. -/
def quotedRun (quote : Char) : (fuel : Nat) → List Char → Place →
    Option (List Char × List Char × Place × Bool)
  | 0, _, _ => none
  | _, [], p => some ([], [], p, false)
  | fuel + 1, c :: rest, p =>
    let go (d : Char) (n : Nat) (rest : List Char) :=
      (quotedRun quote fuel rest (p.right n)).map fun (run, left) => (d :: run, left)
    if isGap c then some ([], c :: rest, p, false)
    else if c == quote then
      if quote == '\'' && rest.head? == some '\'' then go '\'' 2 rest.tail
      else some ([], c :: rest, p, false)
    else if quote == '"' && c == '\\' then
      if rest.head?.any isBreak then some ([], rest.tail, (p.right 1).down, true)
      else do
        let (d, n) ← escape? rest
        go d (n + 1) (rest.drop n)
    else go c 1 rest

/-- Reads the parts of a scalar in quotes, after `text`, up to the closing quote. -/
def quotedParts (quote : Char) :
    (fuel : Nat) → (text : List Char) → List Char → Place → Option ScalarEnd
  | 0, _, _, _ => none
  | fuel + 1, text, rest, p =>
    if p.column == 0 && startsWithMarker rest then none
    else do
      let (run, rest, p, escaped) ← quotedRun quote (rest.length + 1) rest p
      let text := text ++ run
      match rest with
      | [] => none
      | c :: left =>
        if c == quote then some ⟨text, left, p.right 1, false⟩
        else
          let (gap, rest, p) ← readGap 0 rest p (if escaped then .breaks [] [] else .none)
          quotedParts quote fuel (text ++ gap.text) rest p

/-- Reads a scalar after its opening quote. -/
def readQuoted (quote : Char) (rest : List Char) (p : Place) : Option ScalarEnd :=
  quotedParts quote (rest.length + 1) [] rest p

end CollectionSync.Yaml
