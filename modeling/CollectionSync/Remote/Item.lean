import CollectionSync.Identifier
import CollectionSync.Record.Json

/-! Where changes come from and the files that they report. -/

namespace CollectionSync

/-- A remote location that is kept in step with a collection. -/
structure SourceRoot where
  id : RootId
  /-- The drive to read; none is the drive of whoever signs in. -/
  drive : Option String
  /-- The folder inside the drive; none is all of it. -/
  folder : Option String
  deriving DecidableEq

/-- A remote file that was added or changed. -/
structure Item where
  id : RemoteId
  root : RootId
  name : String
  path : Option String
  /-- The fingerprint of the content; without one the file is always extracted. -/
  hash : Option ContentHash
  modified : Option Instant
  size : Nat
  deriving DecidableEq

namespace Item

def file (i : Item) : FileId := i.id.file

/-- What reports call the file: its path where it is known. -/
def displayName (i : Item) : String := i.path.getD i.name

def toJson (i : Item) : Json := .obj
  [("id", .str i.id.text), ("root", .str i.root.text), ("name", .str i.name),
    ("path", Json.ofOption .str i.path), ("hash", Json.ofOption (fun h => .str h.text) i.hash),
    ("modified_time", Json.ofOption instantToJson i.modified), ("size", .nat i.size)]

def ofJson? (j : Json) : Option Item := do
  match ← Json.fields? ["id", "root", "name", "path", "hash", "modified_time", "size"] j with
  | [id, root, name, path, hash, modified, size] =>
    some
      { id := ← Json.required? (fun j => do Json.okay? (RemoteId.ofText (← j.str?))) id
        root := ← Json.required? RootId.ofJson? root
        name := ← Json.required? Json.str? name
        path := ← Json.optional? Json.str? path
        hash := ← Json.optional? (fun j => do Json.okay? (ContentHash.ofText (← j.str?))) hash
        modified := ← Json.optional? Instant.ofJson? modified
        size := ← Json.required? Json.word? size }
  | _ => none

end Item

end CollectionSync
