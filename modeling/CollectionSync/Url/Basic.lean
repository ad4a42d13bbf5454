import CollectionSync.Url.Form
import CollectionSync.Url.Host

/-! URLs in their normal form: read from any text that stands for one, and written so that equal
resources have equal texts. -/

namespace CollectionSync

/-- A URL. The path is a list of segments, or one opaque text where the scheme wants that. -/
structure Url where
  scheme : List Char
  /-- Name and password in front of the host, with the mark between them. -/
  userinfo : List Char
  host : Option (List Char)
  /-- The number behind the host, left out where it is the scheme's own. -/
  number : Option Nat
  path : List Char
  query : Option (List Char)
  fragment : Option (List Char)
  deriving DecidableEq

namespace Url

/-- The schemes of the web with the number that each connects to. -/
def ownNumber (scheme : List Char) : Option Nat :=
  match String.ofList scheme with
  | "http" | "ws" => some 80
  | "https" | "wss" => some 443
  | "ftp" => some 21
  | _ => none

def isFile (scheme : List Char) : Bool := scheme == "file".toList

def isSpecial (scheme : List Char) : Bool := (ownNumber scheme).isSome || isFile scheme

def isSchemeChar (c : Char) : Bool := c.isAlphanum || c == '+' || c == '-' || c == '.'

/-- Controls and spaces around a URL, and line breaks and tabs in it, do not count. -/
def cleaned (s : List Char) : List Char :=
  let outer (c : Char) : Bool := c.toNat ≤ 0x20
  let s := ((s.dropWhile outer).reverse.dropWhile outer).reverse
  s.filter fun c => c != '\t' && c != '\n' && c != '\r'

def isSlash (special : Bool) (c : Char) : Bool := c == '/' || (special && c == '\\')

/-- Splits a path into segments. -/
def segments (special : Bool) : List Char → List (List Char)
  | [] => [[]]
  | c :: rest =>
    if isSlash special c then [] :: segments special rest
    else match segments special rest with
      | [] => [[c]]
      | part :: parts => (c :: part) :: parts

/-- A segment that stands for the directory itself. -/
def isSingleDot (s : List Char) : Bool :=
  match String.ofList (s.map Char.toLower) with
  | "." | "%2e" => true
  | _ => false

/-- A segment that stands for the directory above. -/
def isDoubleDot (s : List Char) : Bool :=
  match String.ofList (s.map Char.toLower) with
  | ".." | ".%2e" | "%2e." | "%2e%2e" => true
  | _ => false

/-- Resolves dot segments; those before are kept in reverse. A dot segment at the end leaves an
empty one in its place. -/
def resolveDots : List (List Char) → List (List Char) → List (List Char)
  | done, [] => done.reverse
  | done, [s] =>
    if isDoubleDot s then ([] :: done.drop 1).reverse
    else if isSingleDot s then ([] :: done).reverse
    else (s :: done).reverse
  | done, s :: rest =>
    if isDoubleDot s then resolveDots (done.drop 1) rest
    else if isSingleDot s then resolveDots done rest
    else resolveDots (s :: done) rest

/-- A path in its normal form. The text may start with its slash or not. -/
def normalPath (special : Bool) (s : List Char) : List Char :=
  let s := match s with
    | c :: rest => if isSlash special c then rest else c :: rest
    | [] => []
  (resolveDots [] (segments special s)).flatMap fun seg => '/' :: percentEncode escapedInPath seg

/-- What stands before the last `c`, if there is one, and what stands behind it. -/
def atLast (c : Char) (s : List Char) : Option (List Char) × List Char :=
  let tail := s.reverse.takeWhile (· != c)
  if tail.length = s.length then (none, s)
  else (some (s.take (s.length - tail.length - 1)), tail.reverse)

/-- Name and password, encoded, with the mark that ends them. -/
def userinfoText (s : List Char) : List Char :=
  let name := s.takeWhile (· != ':')
  let password := (s.drop name.length).drop 1
  let encode := percentEncode escapedInUserinfo
  if name.isEmpty && password.isEmpty then []
  else encode name ++ (if password.isEmpty then [] else ':' :: encode password) ++ ['@']

/-- The host, and the digits behind a colon that stands outside brackets. -/
def hostAndDigits (s : List Char) : List Char × Option (List Char) :=
  let bracketed := if s.head? = some '[' then (s.takeWhile (· != ']')).length else 0
  let tail := s.drop bracketed
  let front := tail.takeWhile (· != ':')
  let rest := tail.drop front.length
  (s.take (bracketed + front.length), if rest.isEmpty then none else some (rest.drop 1))

/-- A number that a host may be asked on; no digits stand for the scheme's own. -/
def hostNumber? (scheme digits : List Char) : Option (Option Nat) :=
  if digits.all Char.isDigit then
    let n := digits.foldl (fun n c => n * 10 + (c.toNat - 48)) 0
    if digits.isEmpty then some none
    else if n < 65536 then some (if ownNumber scheme = some n then none else some n)
    else none
  else none

/-- Splits off the fragment, then the query. -/
def splitTail (s : List Char) : List Char × Option (List Char) × Option (List Char) :=
  let front := s.takeWhile (· != '#')
  let fragment := if front.length = s.length then none else some (s.drop (front.length + 1))
  let path := front.takeWhile (· != '?')
  let query := if path.length = front.length then none else some (front.drop (path.length + 1))
  (path, query, fragment)

/-- A URL whose authority and path are known, query and fragment yet to be encoded. -/
def assemble (scheme userinfo : List Char) (host : Option (List Char)) (number : Option Nat)
    (path : List Char) (query fragment : Option (List Char)) : Url :=
  { scheme, userinfo, host, number, path
    query := query.map (percentEncode (escapedInQuery (isSpecial scheme)))
    fragment := fragment.map (percentEncode escapedInFragment) }

/-- Reads what follows the slashes of the authority. -/
def ofAuthority? (scheme s : List Char) : Option Url := do
  let special := isSpecial scheme
  let (front, query, fragment) := splitTail s
  let authority := front.takeWhile fun c => !isSlash special c
  let rest := front.drop authority.length
  let (userinfo, address) := atLast '@' authority
  let (name, digits) := hostAndDigits address
  if special && name.isEmpty then none
  else
    let host ← if name.isEmpty then some [] else host? special name
    let number ← hostNumber? scheme (digits.getD [])
    let path := if rest.isEmpty && !special then [] else normalPath special rest
    some (assemble scheme (userinfoText (userinfo.getD [])) (some host) number path query fragment)

/-- Reads what follows `file:`. -/
def ofFile? (scheme s : List Char) : Option Url := do
  let (front, query, fragment) := splitTail s
  match front with
  | a :: b :: rest =>
    if isSlash true a && isSlash true b then
      let name := rest.takeWhile fun c => !isSlash true c
      let host ← if name.isEmpty then some [] else host? true name
      let host := if host = "localhost".toList then [] else host
      some (assemble scheme [] (some host) none (normalPath true (rest.drop name.length)) query
        fragment)
    else some (assemble scheme [] (some []) none (normalPath true front) query fragment)
  | _ => some (assemble scheme [] (some []) none (normalPath true front) query fragment)

/-- Reads what follows the scheme of a URL that names no host. -/
def ofPath (scheme s : List Char) : Url :=
  let (front, query, fragment) := splitTail s
  let path := if front.head? = some '/' then normalPath false front
    else percentEncode isC0Control front
  assemble scheme [] none none path query fragment

/-- Reads a URL; a text without a scheme is none. -/
def read? (text : List Char) : Option Url :=
  let s := cleaned text
  let scheme := s.takeWhile isSchemeChar
  match scheme, s.drop scheme.length with
  | first :: _, ':' :: rest =>
    if first.isAlpha then
      let scheme := scheme.map Char.toLower
      if isFile scheme then ofFile? scheme rest
      else if isSpecial scheme then ofAuthority? scheme (rest.dropWhile (isSlash true))
      else match rest with
        | '/' :: '/' :: rest => ofAuthority? scheme rest
        | rest => some (ofPath scheme rest)
    else none
  | _, _ => none

/-- Whether the URL names a host. -/
def hasHost (u : Url) : Bool := u.host.isSome && u.host != some []

/-- The number that the URL is asked on, its own or the one of its scheme. -/
def asksOn? (u : Url) : Option Nat := u.number.or (ownNumber u.scheme)

def withoutUserinfo (u : Url) : Url := { u with userinfo := [] }

/-- Everything up to the path. -/
def origin (u : Url) : List Char :=
  u.scheme ++ ':' :: match u.host with
    | none => []
    | some host =>
      ['/', '/'] ++ u.userinfo ++ host ++ (match u.number with
        | some n => ':' :: Nat.toDigits 10 n
        | none => [])

def text (u : Url) : String :=
  String.ofList (u.origin ++ u.path ++ (u.query.elim [] ('?' :: ·))
    ++ (u.fragment.elim [] ('#' :: ·)))

/-- The value of the first query pair of that name. -/
def queryValue? (u : Url) (name : List Char) : Option (List Char) :=
  u.query.bind fun q => ((queryPairs q).find? fun p => p.1 = name).map (·.2)

end Url

end CollectionSync
