import CollectionSync.Yaml.Scalar

/-! The tokens of a YAML text. Indentation and the keys of mappings show only here: blocks become
pairs of tokens, and a key is marked once the colon behind it is met. -/

namespace CollectionSync.Yaml

inductive Token where
  | documentStart
  | documentEnd
  | blockList
  | blockMapping
  | blockEnd
  | flowList
  | flowListEnd
  | flowMapping
  | flowMappingEnd
  /-- The dash before an entry of a block list. -/
  | dash
  | comma
  | key
  | value
  | scalar (text : String) (plain : Bool)
  deriving DecidableEq

/-- Where a token stands that may turn out to be a key. -/
structure KeyStart where
  /-- How many tokens come before it. -/
  index : Nat
  place : Place
  /-- Whether nothing but a key can stand there. -/
  required : Bool

/-- The state of the reading of tokens. -/
structure Reader where
  rest : List Char
  place : Place
  /-- The tokens read so far, the latest first. -/
  tokens : List Token
  /-- The columns of the open blocks, the innermost first. -/
  blocks : List Nat
  /-- The possible key in the innermost flow collection, or outside of all. -/
  key : Option KeyStart
  /-- The possible keys further out, one per open flow collection. -/
  outer : List (Option KeyStart)
  /-- Whether a key may start here. -/
  keyAllowed : Bool

namespace Reader

def ofText (text : List Char) : Reader := ⟨text, .start, [], [], none, [], true⟩

def inFlow (r : Reader) : Bool := !r.outer.isEmpty

def emit (r : Reader) (t : Token) : Reader := { r with tokens := t :: r.tokens }

/-- Moves over characters of the line. -/
def skip (r : Reader) (n : Nat) : Reader :=
  { r with rest := r.rest.drop n, place := r.place.right n }

/-- Puts a token behind the first `index` ones. -/
def putAt (r : Reader) (index : Nat) (t : Token) : Reader :=
  let later := r.tokens.length - index
  { r with tokens := r.tokens.take later ++ t :: r.tokens.drop later }

/-- Forgets the possible key, unless it was needed. -/
def dropKey (r : Reader) : Option Reader :=
  if r.key.any (·.required) then none else some { r with key := none }

/-- Notes that the next token may be a key. -/
def noteKey (r : Reader) : Option Reader :=
  if r.keyAllowed then
    let required := !r.inFlow && r.blocks.head? == some r.place.column
    r.dropKey.map fun r => { r with key := some ⟨r.tokens.length, r.place, required⟩ }
  else some r

/-- Drops a possible key that another line began, or that has grown too long. -/
def expire (p : Place) : Option KeyStart → Option (Option KeyStart)
  | none => some none
  | some k =>
    if k.place.line < p.line || k.place.offset + 1024 < p.offset then
      if k.required then none else some none
    else some (some k)

def expireKeys (r : Reader) : Option Reader := do
  let key ← expire r.place r.key
  let outer ← r.outer.mapM (expire r.place)
  pure { r with key, outer }

/-- Opens a block at a column that lies deeper than all open ones. -/
def openBlock (r : Reader) (column index : Nat) (t : Token) : Reader :=
  if r.inFlow then r
  else if r.blocks.head?.all (· < column) then
    { r.putAt index t with blocks := column :: r.blocks }
  else r

/-- Closes the blocks for which `deeper` holds. -/
def closeBlocks (r : Reader) (deeper : Nat → Bool) : Reader :=
  if r.inFlow then r
  else
    { r with
      tokens := (r.blocks.takeWhile deeper).map (fun _ => Token.blockEnd) ++ r.tokens
      blocks := r.blocks.dropWhile deeper }

/-- Moves over blanks, comments and breaks. A tab may stand only where no key could. -/
def skipGap (fuel : Nat) (r : Reader) : Reader :=
  match fuel, r.rest with
  | 0, _ | _, [] => r
  | fuel + 1, c :: rest =>
    if c == ' ' || (c == '\t' && (r.inFlow || !r.keyAllowed)) then (r.skip 1).skipGap fuel
    else if c == '#' then (r.skip (r.rest.takeWhile fun d => !isBreak d).length).skipGap fuel
    else if isBreak c then
      { r with rest, place := r.place.down, keyAllowed := r.keyAllowed || !r.inFlow }.skipGap fuel
    else r

def marker (r : Reader) (t : Token) : Option Reader := do
  let r ← (r.closeBlocks fun _ => true).dropKey
  some (({ r with keyAllowed := false }.emit t).skip 3)

def openFlow (r : Reader) (t : Token) : Option Reader := do
  let r ← r.noteKey
  some (({ r with outer := r.key :: r.outer, key := none, keyAllowed := true }.emit t).skip 1)

def closeFlow (r : Reader) (t : Token) : Option Reader := do
  let r ← r.dropKey
  let r : Reader := match r.outer with
    | [] => r
    | key :: outer => { r with key, outer }
  some (({ r with keyAllowed := false }.emit t).skip 1)

def comma (r : Reader) : Option Reader := do
  let r ← r.dropKey
  some (({ r with keyAllowed := true }.emit .comma).skip 1)

def dash (r : Reader) : Option Reader :=
  if !r.inFlow && !r.keyAllowed then none
  else do
    let r ← (r.openBlock r.place.column r.tokens.length .blockList).dropKey
    some (({ r with keyAllowed := true }.emit .dash).skip 1)

/-- A key that is announced by a question mark. -/
def explicitKey (r : Reader) : Option Reader :=
  if !r.inFlow && !r.keyAllowed then none
  else do
    let r ← (r.openBlock r.place.column r.tokens.length .blockMapping).dropKey
    some (({ r with keyAllowed := !r.inFlow }.emit .key).skip 1)

def value (r : Reader) : Option Reader :=
  match r.key with
  | some k =>
    let r := (r.putAt k.index .key).openBlock k.place.column k.index .blockMapping
    some (({ r with key := none, keyAllowed := false }.emit .value).skip 1)
  | none =>
    if !r.inFlow && !r.keyAllowed then none
    else
      let r := r.openBlock r.place.column r.tokens.length .blockMapping
      some (({ r with keyAllowed := !r.inFlow }.emit .value).skip 1)

def endScalar (r : Reader) (plain : Bool) (s : ScalarEnd) : Reader :=
  { r with rest := s.rest, place := s.place, keyAllowed := s.onNewLine }.emit
    (.scalar (String.ofList s.text) plain)

def quoted (r : Reader) (quote : Char) : Option Reader := do
  let r ← r.noteKey
  let r := r.skip 1
  (readQuoted quote r.rest r.place).map (r.endScalar false)

/-- Whether a plain scalar may start with `c` before `rest`. -/
def startsPlain (r : Reader) (c : Char) (rest : List Char) : Bool :=
  !("\t-?:,[]{}#&*!|>'\"%@".contains c || c.toNat == 96)
    || (c == '-' && !rest.head?.all isBlank)
    || (!r.inFlow && (c == '?' || c == ':') && !startsWithGap rest)

def plain (r : Reader) : Option Reader := do
  let r ← r.noteKey
  let indent := match r.blocks with
    | [] => 0
    | column :: _ => column + 1
  (readPlain r.inFlow indent r.rest r.place).map (r.endScalar true)

/-- Reads the next token; the other kind of answer is the list of all. -/
def step (r : Reader) : Option (Reader ⊕ List Token) := do
  let r := r.skipGap (r.rest.length + 1)
  let r ← r.expireKeys
  let r := r.closeBlocks (r.place.column < ·)
  match r.rest with
  | [] => do
    let r ← (r.closeBlocks fun _ => true).dropKey
    some (.inr r.tokens.reverse)
  | c :: rest =>
    Sum.inl <$>
      if r.place.column == 0 && startsWithMarker r.rest then
        r.marker (if c == '-' then .documentStart else .documentEnd)
      else if r.place.column == 0 && c == '%' then none
      else if c == '[' then r.openFlow .flowList
      else if c == '{' then r.openFlow .flowMapping
      else if c == ']' then r.closeFlow .flowListEnd
      else if c == '}' then r.closeFlow .flowMappingEnd
      else if c == ',' then r.comma
      else if c == '-' && startsWithGap rest then r.dash
      else if c == '?' && (r.inFlow || startsWithGap rest) then r.explicitKey
      else if c == ':' && (r.inFlow || startsWithGap rest) then r.value
      else if c == '\'' || c == '"' then r.quoted c
      else if r.startsPlain c rest then r.plain
      else none

def steps : (fuel : Nat) → Reader → Option (List Token)
  | 0, _ => none
  | fuel + 1, r => do
    match ← r.step with
    | .inl r => steps fuel r
    | .inr tokens => some tokens

end Reader

/-- Carriage returns, alone or before a line feed, and next-line characters as line feeds. -/
def plainBreaks : List Char → List Char
  | [] => []
  | '\r' :: '\n' :: rest => '\n' :: plainBreaks rest
  | c :: rest => (if c == '\r' || c == '\u0085' then '\n' else c) :: plainBreaks rest

/-- Characters that a text may hold. -/
def isPrintable (c : Char) : Bool :=
  c == '\t' || c == '\n' || c == '\r' || c == '\u0085' || (' ' ≤ c && c ≤ '~')
    || ('\u00a0' ≤ c && c ≤ '\ud7ff') || ('\ue000' ≤ c && c ≤ '\ufffd' && c != '\ufeff')
    || '\uffff' < c

/-- The tokens of a text, after its byte order mark if there is one. -/
def Token.ofText? (text : List Char) : Option (List Token) :=
  let text := if text.head? == some '\ufeff' then text.tail else text
  if text.all isPrintable then
    let text := plainBreaks text
    (Reader.ofText text).steps (text.length + 2)
  else none

end CollectionSync.Yaml
