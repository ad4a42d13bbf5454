import CollectionSync.Drive.Path
import CollectionSync.Json.Wire
import CollectionSync.Remote.ChangeSet
import CollectionSync.Time.Rfc3339

/-! Pages of the feed of changes as the drive service writes them. -/

namespace CollectionSync.Drive

/-- One page: its changes in order, the link to the next page, and the link that closes the feed. -/
structure Page where
  changes : List Change
  next : Option String
  closing : Option String
  deriving DecidableEq

/-- An item of the drive as it is reported. -/
structure RawItem where
  id : String
  name : String
  size : Option Nat
  modified : Option Instant
  /-- The path of the folder that holds it, where it is known. -/
  parent : Option (Option String)
  /-- Present for files: the fingerprints of the content, best first. -/
  file : Option (List (Option String))
  isFolder : Bool
  isDeleted : Bool

/-- A page as it is reported. -/
structure RawPage where
  items : List RawItem
  next : Option String
  closing : Option String

/-! ## Reading -/

open Json (Wire)
open Json.Wire (depthLimit optional? required?)

def instant? (w : Wire) : Option Instant := w.text?.bind Time.readFree?

def parent? (w : Wire) : Option (Option String) := do
  let [path] ← w.fields? ["path"] | none
  optional? Wire.text? path

def hashes? (w : Wire) : Option (List (Option String)) := do
  (← w.fields? ["quickXorHash", "sha256Hash", "sha1Hash"]).mapM (optional? Wire.text?)

def file? (w : Wire) : Option (List (Option String)) := do
  let [hashes] ← w.fields? ["hashes"] | none
  (optional? hashes? hashes).map (·.getD [])

/-- A facet that is kept as it is. It lies in an item in the list of a page. -/
def facet? (w : Wire) : Option Unit := if w.isWhole (depthLimit - 3) then some () else none

def RawItem.ofWire? (w : Wire) : Option RawItem := do
  let [id, name, size, modified, parent, file, folder, deleted] ← w.fields? ["id", "name", "size",
    "lastModifiedDateTime", "parentReference", "file", "folder", "deleted"] | none
  some
    { id := ← required? Wire.text? id
      name := ← name.elim (some "") Wire.text?
      size := ← optional? Wire.word? size
      modified := ← optional? instant? modified
      parent := ← optional? parent? parent
      file := ← optional? file? file
      isFolder := (← optional? facet? folder).isSome
      isDeleted := (← optional? facet? deleted).isSome }

def RawPage.ofWire? (w : Wire) : Option RawPage := do
  let [value, next, closing] ← w.fields? ["value", "@odata.nextLink", "@odata.deltaLink"] | none
  some
    { items := ← (← value.elim (some []) Wire.arr?).mapM RawItem.ofWire?
      next := ← optional? Wire.text? next
      closing := ← optional? Wire.text? closing }

/-- Reads a page out of a body. -/
def RawPage.ofBody? (body : List UInt8) : Option RawPage :=
  (Wire.ofBytes? body).bind RawPage.ofWire?

/-! ## Changes -/

/-- The change that an item stands for; folders and items without a usable identifier are none. -/
def RawItem.change? (root : RootId) (i : RawItem) : Option Change := do
  let id ← Json.okay? (RemoteId.ofText i.id)
  if i.isDeleted then
    if i.isFolder then none else some (.removed id)
  else
    let hashes ← i.file
    some (.upsert
      { id
        root
        name := i.name
        path := i.parent.join.map fun parent => itemPath parent i.name
        hash := (hashes.findSome? fun h => h).bind fun h => Json.okay? (ContentHash.ofText h)
        modified := i.modified
        size := i.size.getD 0 })

/-- A page of a root. -/
def RawPage.page (root : RootId) (p : RawPage) : Page :=
  { changes := p.items.filterMap (RawItem.change? root), next := p.next, closing := p.closing }

end CollectionSync.Drive
