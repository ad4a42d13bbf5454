import CollectionSync.Url.Basic

/-! References: URLs as they are written inside a document that has a URL of its own. -/

namespace CollectionSync.Url

/-- The directory of a path: all of it up to its last slash. -/
def directory (path : List Char) : List Char :=
  (path.reverse.dropWhile (· != '/')).reverse

/-- Whether the text starts with a scheme. -/
def hasScheme (s : List Char) : Bool :=
  let scheme := s.takeWhile isSchemeChar
  (scheme.head?.any Char.isAlpha) && (s.drop scheme.length).head? == some ':'

/-- The URL that a reference names inside the document of a web address. -/
def resolve? (base : Url) (text : List Char) : Option Url :=
  let s := cleaned text
  if hasScheme s then read? s
  else
    let (front, query, fragment) := splitTail s
    let special := isSpecial base.scheme
    match front with
    | a :: b :: rest =>
      if isSlash special a && isSlash special b then
        ofAuthority? base.scheme (rest ++ s.drop front.length)
      else some (placed special front query fragment)
    | [] =>
      let kept : Url := { base with fragment := none }
      let u := assemble base.scheme [] none none [] query fragment
      some
        { kept with
          query := if query.isSome then u.query else base.query
          fragment := u.fragment }
    | _ => some (placed special front query fragment)
where
  /-- The base with another path, from the root or from its own directory. -/
  placed (special : Bool) (front : List Char) (query fragment : Option (List Char)) : Url :=
    let whole := if front.head?.any (isSlash special) then front else directory base.path ++ front
    let u := assemble base.scheme [] none none (normalPath special whole) query fragment
    { base with path := u.path, query := u.query, fragment := u.fragment }

end CollectionSync.Url
