import CollectionSync.Json.Basic
import CollectionSync.Text.Utf16
import CollectionSync.Time.Scan

/-! Reading JSON text. The readers take the text that is left and give a value with the rest; the
fuel that they carry bounds nesting and length together and never runs out before the text does. -/

namespace CollectionSync.Json

open Text (isHighSurrogate isLowSurrogate ofPair)
open Time (Scan)

/-- The four characters that JSON skips between tokens. -/
def isGap (c : Char) : Bool := c == ' ' || c == '\t' || c == '\n' || c == '\r'

def skipGap (s : List Char) : List Char := s.dropWhile isGap

def hexValue? (c : Char) : Option Nat :=
  if '0' ≤ c ∧ c ≤ '9' then some (c.toNat - 48)
  else if 'a' ≤ c ∧ c ≤ 'f' then some (c.toNat - 87)
  else if 'A' ≤ c ∧ c ≤ 'F' then some (c.toNat - 55)
  else none

/-- Four hexadecimal digits. -/
def unit? (a b c d : Char) : Option Nat := do
  let a ← hexValue? a
  let b ← hexValue? b
  let c ← hexValue? c
  let d ← hexValue? d
  some (((a * 16 + b) * 16 + c) * 16 + d)

/-- What a backslash and this character stand for. -/
def simpleEscape? : Char → Option Char
  | '"' => some '"'
  | '\\' => some '\\'
  | '/' => some '/'
  | 'b' => some '\x08'
  | 'f' => some '\x0c'
  | 'n' => some '\n'
  | 'r' => some '\r'
  | 't' => some '\t'
  | _ => none

/-- The characters up to the closing quote, after those already read in reverse. -/
def stringBody (done : List Char) : Scan String
  | '"' :: rest => some (String.ofList done.reverse, rest)
  | '\\' :: 'u' :: a :: b :: c :: d :: '\\' :: 'u' :: e :: f :: g :: h :: rest =>
    match unit? a b c d with
    | none => none
    | some n =>
      if isHighSurrogate n then
        match unit? e f g h with
        | none => none
        | some m =>
          if isLowSurrogate m then
            stringBody (ofPair n m :: done) rest
          else none
      else if isLowSurrogate n then none
      else stringBody (Char.ofNat n :: done) ('\\' :: 'u' :: e :: f :: g :: h :: rest)
  | '\\' :: 'u' :: a :: b :: c :: d :: rest =>
    match unit? a b c d with
    | none => none
    | some n =>
      if isHighSurrogate n || isLowSurrogate n then none
      else stringBody (Char.ofNat n :: done) rest
  | '\\' :: c :: rest =>
    match simpleEscape? c with
    | some e => stringBody (e :: done) rest
    | none => none
  | c :: rest => if c.toNat < 32 then none else stringBody (c :: done) rest
  | [] => none
termination_by s => s.length

/-- Digits of a whole number: a single zero, or a row that does not start with one. -/
def wholeDigits : Scan (List Char) := fun s =>
  let ds := s.takeWhile Text.isDigit
  match ds with
  | [] => none
  | '0' :: _ => some (['0'], s.drop 1)
  | ds => some (ds, s.drop ds.length)

/-- A point with digits, or nothing. -/
def fractionPart : Scan (List Char) := fun s =>
  match s with
  | '.' :: rest =>
    let ds := rest.takeWhile Text.isDigit
    if ds.isEmpty then none else some ('.' :: ds, rest.drop ds.length)
  | _ => some ([], s)

/-- An exponent, or nothing. -/
def exponentPart : Scan (List Char) := fun s =>
  match s with
  | e :: rest =>
    if e = 'e' ∨ e = 'E' then
      let (sign, rest) := match rest with
        | '+' :: r => (['+'], r)
        | '-' :: r => (['-'], r)
        | r => ([], r)
      let ds := rest.takeWhile Text.isDigit
      if ds.isEmpty then none else some (e :: sign ++ ds, rest.drop ds.length)
    else some ([], s)
  | [] => some ([], s)

/-- A number as it is written. -/
structure Numeral where
  negative : Bool
  whole : List Char
  /-- The point and the digits behind it, or nothing. -/
  fraction : List Char
  /-- The mark of the exponent, its sign and its digits, or nothing. -/
  exponent : List Char
  deriving DecidableEq

def numeral : Scan Numeral := fun s => do
  let (negative, s) := match s with
    | '-' :: rest => (true, rest)
    | s => (false, s)
  let (whole, s) ← wholeDigits s
  let (fraction, s) ← fractionPart s
  let (exponent, s) ← exponentPart s
  some (⟨negative, whole, fraction, exponent⟩, s)

def Numeral.toJson (n : Numeral) : Json :=
  let value := Time.digitsValue n.whole
  if n.fraction.isEmpty && n.exponent.isEmpty && !(n.negative && value = 0) then
    .int (if n.negative then -(value : Int) else value)
  else
    .real (String.ofList ((if n.negative then ['-'] else []) ++ n.whole ++ n.fraction ++
      n.exponent))

def number : Scan Json := fun s => (numeral s).map fun (n, rest) => (n.toJson, rest)

/-- The word given, at the front of the text. -/
def word {α : Type} (w : List Char) (a : α) : Scan α := fun s =>
  if w.isPrefixOf s then some (a, s.drop w.length) else none

/-- How strings and numbers are read, and what is made of the parts of a document. -/
structure Reader (σ α : Type) where
  /-- Reads a string behind its opening quote. -/
  text : Scan σ
  number : Scan α
  null : α
  bool : Bool → α
  str : σ → α
  arr : List α → α
  obj : List (σ × α) → α

namespace Reader

variable {σ α : Type} (reader : Reader σ α)

mutual

/-- A value, gaps in front of it skipped. -/
def value : Nat → Scan α
  | 0, _ => none
  | fuel + 1, s =>
    match skipGap s with
    | '"' :: rest => (reader.text rest).map fun (t, r) => (reader.str t, r)
    | '[' :: rest =>
      match skipGap rest with
      | ']' :: r => some (reader.arr [], r)
      | r => (items fuel [] r).map fun (l, r) => (reader.arr l, r)
    | '\x7b' :: rest =>
      match skipGap rest with
      | '\x7d' :: r => some (reader.obj [], r)
      | r => (members fuel [] r).map fun (l, r) => (reader.obj l, r)
    | 'n' :: rest => word "ull".toList reader.null rest
    | 't' :: rest => word "rue".toList (reader.bool true) rest
    | 'f' :: rest => word "alse".toList (reader.bool false) rest
    | s => reader.number s

/-- The items of an array up to its closing bracket, after those already read in reverse. -/
def items : Nat → List α → Scan (List α)
  | 0, _, _ => none
  | fuel + 1, done, s =>
    match value fuel s with
    | none => none
    | some (j, rest) =>
      match skipGap rest with
      | ',' :: r => items fuel (j :: done) r
      | ']' :: r => some ((j :: done).reverse, r)
      | _ => none

/-- The members of an object up to its closing brace, after those already read in reverse. -/
def members : Nat → List (σ × α) → Scan (List (σ × α))
  | 0, _, _ => none
  | fuel + 1, done, s =>
    match skipGap s with
    | '"' :: rest =>
      match reader.text rest with
      | none => none
      | some (name, rest) =>
        match skipGap rest with
        | ':' :: rest =>
          match value fuel rest with
          | none => none
          | some (j, rest) =>
            match skipGap rest with
            | ',' :: r => members fuel ((name, j) :: done) r
            | '\x7d' :: r => some (((name, j) :: done).reverse, r)
            | _ => none
        | _ => none
    | _ => none

end

/-- Reads a text that holds one value and nothing else. -/
def read? (s : List Char) : Option α :=
  match reader.value (s.length + 1) s with
  | some (j, rest) => if (skipGap rest).isEmpty then some j else none
  | none => none

end Reader

/-- Everything is read as what it stands for. -/
def plain : Reader String Json where
  text := stringBody []
  number := number
  null := .null
  bool := .bool
  str := .str
  arr := .arr
  obj := .obj

@[simp] theorem plain_text : plain.text = stringBody [] := rfl
@[simp] theorem plain_str : plain.str = .str := rfl
@[simp] theorem plain_arr : plain.arr = .arr := rfl
@[simp] theorem plain_obj : plain.obj = .obj := rfl

/-- Reads a text that holds one value and nothing else. -/
def read? (text : String) : Option Json := plain.read? text.toList

end CollectionSync.Json
