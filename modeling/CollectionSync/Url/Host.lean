import CollectionSync.Url.Percent

/-! Hosts: domain names in ASCII, addresses of four and of sixteen bytes, and the names that
schemes outside the web give to their hosts. -/

namespace CollectionSync.Url

/-! ## Names in other scripts -/

/-- The digit of a label's encoding: letters for 0 to 25, then the decimal digits. -/
def labelDigit (n : Nat) : Char :=
  if n < 26 then Char.ofNat (n + 97) else Char.ofNat (n - 26 + 48)

/-- How the step between digits moves after each difference that was written. -/
def adaptBias (delta count : Nat) (first : Bool) : Nat :=
  let start := if first then delta / 700 else delta / 2
  go 5 0 (start + start / count)
where
  go : Nat → Nat → Nat → Nat
    | 0, k, d => k + 36 * d / (d + 38)
    | fuel + 1, k, d => if d > 455 then go fuel (k + 36) (d / 35) else k + 36 * d / (d + 38)

/-- A difference in digits of varying base, the lowest first. -/
def labelDigits : Nat → Nat → Nat → Nat → List Char
  | 0, _, _, q => [labelDigit q]
  | fuel + 1, bias, k, q =>
    let t := if k ≤ bias then 1 else if k ≥ bias + 26 then 26 else k - bias
    if q < t then [labelDigit q]
    else labelDigit (t + (q - t) % (36 - t)) :: labelDigits fuel bias (k + 36) ((q - t) / (36 - t))

/-- One pass over the label for the code point `m`: each smaller one raises the difference, each
equal one is written. -/
def labelPass (m : Nat) : List Nat → Nat → Nat → Nat → Nat → Bool → List Char →
    Nat × Nat × Nat × Bool × List Char
  | [], delta, bias, written, _, first, out => (delta, bias, written, first, out)
  | c :: rest, delta, bias, written, basic, first, out =>
    if c < m then labelPass m rest (delta + 1) bias written basic first out
    else if c = m then
      let digits := labelDigits 40 bias 36 delta
      labelPass m rest 0 (adaptBias delta (written + 1) first) (written + 1) basic false
        (out ++ digits)
    else labelPass m rest delta bias written basic first out

/-- The code points beyond ASCII, from the smallest on. -/
def labelTail : Nat → List Nat → Nat → Nat → Nat → Nat → Nat → Bool → List Char → List Char
  | 0, _, _, _, _, _, _, _, out => out
  | fuel + 1, points, n, delta, bias, written, basic, first, out =>
    match (points.filter (n ≤ ·)).min? with
    | none => out
    | some m =>
      let (delta, bias, written, first, out) :=
        labelPass m points (delta + (m - n) * (written + 1)) bias written basic first out
      labelTail fuel points (m + 1) (delta + 1) bias written basic first out

/-- A label in ASCII: its ASCII characters, then the places of the others. -/
def asciiLabel (label : List Char) : List Char :=
  let basic := label.filter (·.toNat < 128)
  if basic.length = label.length then label
  else
    let points := label.map (·.toNat)
    let head := if basic.isEmpty then [] else basic ++ ['-']
    "xn--".toList ++
      labelTail points.length points 128 0 72 basic.length basic.length true head

/-! ## Addresses -/

/-- A part of an address of four bytes: decimal, octal after `0`, hexadecimal after `0x`. -/
def addressPart (s : List Char) : Option Nat :=
  let (base, digits) := match s with
    | '0' :: 'x' :: rest | '0' :: 'X' :: rest => (16, rest)
    | '0' :: c :: rest => (8, c :: rest)
    | s => (10, s)
  let value (c : Char) : Option Nat := do
    let v ← hexValue? (UInt8.ofNat c.toNat)
    if c.toNat < 128 && v < base then some v else none
  if s.isEmpty then none
  else (digits.mapM value).map fun ds => ds.foldl (fun n d => n * base + d) 0

/-- The labels of a name, one empty label at the end left out. -/
def labels (host : List Char) : List (List Char) :=
  let parts := splitDots host
  match parts.reverse with
  | [] :: (_ :: rest') => (parts.dropLast).take (rest'.length + 1)
  | _ => parts
where
  splitDots : List Char → List (List Char)
    | [] => [[]]
    | '.' :: rest => [] :: splitDots rest
    | c :: rest => match splitDots rest with
      | [] => [[c]]
      | part :: parts => (c :: part) :: parts

/-- A name whose last label is a number has to be an address. -/
def endsInNumber (host : List Char) : Bool :=
  match (labels host).getLast? with
  | none => false
  | some last =>
    (!last.isEmpty && last.all Char.isDigit) ||
      (match last with
        | '0' :: x :: rest =>
          (x == 'x' || x == 'X') && rest.all fun c => (hexValue? (UInt8.ofNat c.toNat)).isSome
        | _ => false)

/-- An address of four bytes in dotted form; its last part fills the bytes that are left. -/
def fourByteAddress (host : List Char) : Option (List Char) := do
  let parts ← (labels host).mapM addressPart
  let front := parts.dropLast
  let last ← parts.getLast?
  if parts.length > 4 || front.any (· > 255) || last ≥ Nat.pow 256 (5 - parts.length) then none
  else
    let bytes := front ++ (List.range (5 - parts.length)).map fun i =>
      last / Nat.pow 256 (4 - parts.length - i) % 256
    some (['.'].intercalate (bytes.map (Nat.toDigits 10)))

/-- One of the eight numbers of an address of sixteen bytes. -/
def piece (s : List Char) : Option Nat :=
  if s.isEmpty || s.length > 4 then none
  else (s.mapM fun c => if c.toNat < 128 then hexValue? (UInt8.ofNat c.toNat) else none).map
    fun ds => ds.foldl (fun n d => n * 16 + d) 0

/-- A decimal byte as it may close an address of sixteen bytes. -/
def plainByte (s : List Char) : Option Nat :=
  if s.isEmpty || s.length > 3 || !s.all Char.isDigit || (s.length > 1 && s.head? == some '0') then
    none
  else
    let n := s.foldl (fun n c => n * 10 + (c.toNat - 48)) 0
    if n > 255 then none else some n

/-- The numbers between colons; the last place may hold four bytes in dotted form. -/
def pieces (s : List Char) : Option (List Nat) :=
  if s.isEmpty then some []
  else
    let parts := splitColons s
    match parts.getLast? with
    | none => some []
    | some last =>
      if last.contains '.' then do
        let front ← parts.dropLast.mapM piece
        match ← (labels.splitDots last).mapM plainByte with
        | [a, b, c, d] => some (front ++ [a * 256 + b, c * 256 + d])
        | _ => none
      else parts.mapM piece
where
  splitColons : List Char → List (List Char)
    | [] => [[]]
    | ':' :: rest => [] :: splitColons rest
    | c :: rest => match splitColons rest with
      | [] => [[c]]
      | part :: parts => (c :: part) :: parts

/-- What stands before the first `::`, and what stands behind it. -/
def atGap : List Char → Option (List Char × List Char)
  | ':' :: ':' :: rest => some ([], rest)
  | c :: rest => (atGap rest).map fun (a, b) => (c :: a, b)
  | [] => none

/-- The eight numbers of an address, a gap filled with zeros. -/
def eightPieces (s : List Char) : Option (List Nat) := do
  match atGap s with
  | none =>
    let ps ← pieces s
    if ps.length = 8 then some ps else none
  | some (a, b) =>
    let before ← pieces a
    let after ← pieces b
    if before.length + after.length < 8 then
      some (before ++ List.replicate (8 - before.length - after.length) 0 ++ after)
    else none

/-- The number of zeros that the list starts with. -/
def zeros (ps : List Nat) : Nat := (ps.takeWhile (· == 0)).length

/-- Where the longest row of at least two zeros starts, the first of equals, and its length. -/
def longestZeros (ps : List Nat) : Option (Nat × Nat) :=
  (List.range ps.length).foldl
    (fun best i =>
      let n := zeros (ps.drop i)
      if n ≥ 2 && n > (best.map (·.2)).getD 1 then some (i, n) else best)
    none

/-- An address in its shortest form. -/
def shortAddress (ps : List Nat) : List Char :=
  let text (l : List Nat) := [':'].intercalate (l.map (Nat.toDigits 16))
  match longestZeros ps with
  | none => text ps
  | some (i, n) => text (ps.take i) ++ [':', ':'] ++ text (ps.drop (i + n))

/-! ## Hosts -/

/-- Characters that no host holds. -/
def forbiddenInHost (c : Char) : Bool :=
  c.toNat == 0 || "\t\n\r #/:<>?@[\\]^|".toList.contains c

/-- Characters that no domain name holds. -/
def forbiddenInDomain (c : Char) : Bool :=
  forbiddenInHost c || isC0Control c || c == '%' || c == '\x22' || c == '\x60' || c == '\x7b' ||
    c == '\x7d'

/-- The host of a URL as it is written; schemes of the web take names and addresses, others any
text without forbidden characters. Of the mapping that names in other scripts go through (UTS 46),
only the lower case of ASCII is done here: a fullwidth letter, an ideographic full stop or a capital
beyond ASCII is not turned into its plain form first. -/
def host? (special : Bool) (s : List Char) : Option (List Char) :=
  match s with
  | '[' :: rest =>
    if rest.getLast? = some ']' then
      (eightPieces rest.dropLast).map fun ps => '[' :: shortAddress ps ++ [']']
    else none
  | _ =>
    if special then
      let decoded := Text.decodeLossy (percentDecode (Text.utf8 s))
      let lower := decoded.map Char.toLower
      let ascii := ['.'].intercalate ((labels.splitDots lower).map asciiLabel)
      if ascii.isEmpty || decoded.any forbiddenInDomain then none
      else if endsInNumber ascii then fourByteAddress ascii
      else some ascii
    else if s.any forbiddenInHost then none
    else some (percentEncode isC0Control s)

end CollectionSync.Url
