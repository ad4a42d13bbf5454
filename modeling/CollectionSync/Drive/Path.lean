import CollectionSync.Remote.Item
import CollectionSync.Url.Form

/-! Paths of the drive service: where changes and contents of a root are found, and where a file
lies inside its drive. -/

namespace CollectionSync.Drive

def isSlash (c : Char) : Bool := c == '/'

/-- Slashes at the end dropped. -/
def trimSlashes (s : String) : String :=
  String.ofList (s.toList.reverse.dropWhile isSlash).reverse

/-- The path of the drive that a root lives in. -/
def drivePath (root : SourceRoot) : String :=
  match root.drive with
  | some drive => "/drives/" ++ drive
  | none => "/me/drive"

/-- The folder of a root with one slash in front; none for the whole drive. -/
def folderPath? (root : SourceRoot) : Option String :=
  match root.folder.map trimSlashes with
  | none => none
  | some folder =>
    match folder.toList with
    | [] => none
    | '/' :: _ => some folder
    | _ => some ("/" ++ folder)

/-- The path of the changes of a root since a token. -/
def deltaPath (root : SourceRoot) (token : Option DeltaToken) : String :=
  let feed := match folderPath? root with
    | some folder => drivePath root ++ "/root:" ++ folder ++ ":/delta"
    | none => drivePath root ++ "/root/delta"
  match token with
  | some token => feed ++ "?token=" ++ String.ofList (Url.formEncode token.text.toList)
  | none => feed

/-- The path of the content of a file. -/
def contentPath (root : SourceRoot) (id : RemoteId) : String :=
  drivePath root ++ "/items/" ++ id.text ++ "/content"

/-- What stands behind the first `root:`, or all of the text without one. -/
def afterRoot (s : List Char) : List Char := go s s
where
  go (whole : List Char) : List Char → List Char
    | [] => whole
    | c :: rest =>
      if "root:".toList.isPrefixOf (c :: rest) then (c :: rest).drop 5 else go whole rest

/-- The path of a file inside its drive, from the path of its parent and its name. -/
def itemPath (parent name : String) : String :=
  trimSlashes (String.ofList (afterRoot parent.toList)) ++ "/" ++ name

end CollectionSync.Drive
