import CollectionSync.Url.Percent

/-! Names and values in a query: pairs joined by `&`, a space written as `+`. -/

namespace CollectionSync.Url

/-- The characters that a query value carries as themselves. -/
def isFormSafe (c : Char) : Bool :=
  c.isAlphanum || c == '*' || c == '-' || c == '.' || c == '_'

/-- A value as it stands in a query. -/
def formEncode (s : List Char) : List Char :=
  (Text.utf8 s).flatMap fun b =>
    let c := Char.ofNat b.toNat
    if b = 0x20 then ['+'] else if b < 0x80 && isFormSafe c then [c] else encodeByte b

/-- Reads back what stands in a query. -/
def formDecode (s : List Char) : List Char :=
  Text.decodeLossy (percentDecode ((Text.utf8 s).map fun b => if b = 0x2B then 0x20 else b))

/-- Splits at every occurrence of `c`. -/
def splitOn (c : Char) : List Char → List (List Char)
  | [] => [[]]
  | d :: rest =>
    if d = c then [] :: splitOn c rest
    else match splitOn c rest with
      | [] => [[d]]
      | part :: parts => (d :: part) :: parts

/-- What stands before the first `=`, and what stands behind it. -/
def nameAndValue (s : List Char) : List Char × List Char :=
  (s.takeWhile (· != '='), (s.dropWhile (· != '=')).drop 1)

/-- The pairs of a query, in order, empty ones left out. -/
def queryPairs (query : List Char) : List (List Char × List Char) :=
  ((splitOn '&' query).filter fun part => !part.isEmpty).map fun part =>
    let (name, value) := nameAndValue part
    (formDecode name, formDecode value)

end CollectionSync.Url
