/-! Identifiers of runs: 128 bits, written as five groups of hexadecimal digits. -/

namespace CollectionSync

/-- The identifier that a run is given when it starts. -/
structure RunId where
  bits : BitVec 128
  deriving DecidableEq

namespace RunId

/-- The number of digits in each group. -/
def groups : List Nat := [8, 4, 4, 4, 12]

/-- The lowest `n` hexadecimal digits of a number. -/
def hexDigits : Nat → Nat → List Char
  | 0, _ => []
  | n + 1, v => hexDigits n (v / 16) ++ [Nat.digitChar (v % 16)]

/-- Cuts a list into pieces of the given lengths. -/
def split : List Nat → List Char → List (List Char)
  | [], _ => []
  | n :: ns, s => s.take n :: split ns (s.drop n)

/-- Lower-case digits with a hyphen between the groups. -/
def text (id : RunId) : String :=
  String.ofList (['-'].intercalate (split groups (hexDigits 32 id.bits.toNat)))

def digitValue (c : Char) : Option Nat :=
  if '0' ≤ c ∧ c ≤ '9' then some (c.toNat - 48)
  else if 'a' ≤ c ∧ c ≤ 'f' then some (c.toNat - 87)
  else if 'A' ≤ c ∧ c ≤ 'F' then some (c.toNat - 55)
  else none

/-- Exactly 32 digits of either case. -/
def ofDigits? (s : List Char) : Option RunId :=
  if s.length = 32 then
    (s.mapM digitValue).map fun ds => ⟨BitVec.ofNat 128 (ds.foldl (fun n d => n * 16 + d) 0)⟩
  else none

/-- Splits at the hyphens. -/
def atHyphens : List Char → List (List Char)
  | [] => [[]]
  | c :: rest =>
    if c = '-' then [] :: atHyphens rest
    else match atHyphens rest with
      | [] => [[c]]
      | g :: gs => (c :: g) :: gs

/-- Five groups with hyphens between. -/
def ofHyphenated? (s : List Char) : Option RunId :=
  let parts := atHyphens s
  if parts.map List.length = groups then ofDigits? parts.flatten else none

/-- What stands in front of a run identifier written as a name of its own. -/
def nameMark : String := "urn:uuid:"

/-- Reads 32 bare digits, five groups, five groups in braces, or five groups after `nameMark`. -/
def read? (text : String) : Option RunId :=
  let s := text.toList
  let mark := nameMark.toList
  if s.length = 32 then ofDigits? s
  else if s.length = 38 ∧ s.head? = some '\x7b' ∧ s.getLast? = some '\x7d' then
    ofHyphenated? (s.drop 1).dropLast
  else if (s.take mark.length).map Char.toLower = mark then ofHyphenated? (s.drop mark.length)
  else ofHyphenated? s

end RunId

end CollectionSync
