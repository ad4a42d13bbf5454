import CollectionSync.Remote.Item
import CollectionSync.Url.Basic

/-! The changes of one root since a token. A feed may report a file several times; what it says
last holds. -/

namespace CollectionSync

/-- One entry of a feed of changes. -/
inductive Change where
  | upsert (item : Item)
  | removed (id : RemoteId)
  deriving DecidableEq

def Change.id : Change → RemoteId
  | .upsert item => item.id
  | .removed id => id

def Change.item? : Change → Option Item
  | .upsert item => some item
  | .removed _ => none

def Change.removed? : Change → Option RemoteId
  | .upsert _ => none
  | .removed id => some id

/-- What a root reports: files added or changed, files removed, and the token to go on from. -/
structure ChangeSet where
  items : List Item
  removed : List RemoteId
  token : Option DeltaToken
  deriving DecidableEq

/-- The last entry of each file, in the order of the feed. -/
def lastEntries : List Change → List Change
  | [] => []
  | c :: rest => if rest.any fun d => d.id = c.id then lastEntries rest else c :: lastEntries rest

/-- The token in the link that closes a feed: its `token` pair, or the whole link without one. -/
def linkToken? (link : String) : Option String :=
  (Url.read? link.toList).bind fun u => (u.queryValue? "token".toList).map String.ofList

/-- The changes of a whole feed, and the token of its closing link. -/
def ChangeSet.ofFeed (changes : List Change) (link : Option String) : ChangeSet :=
  let last := lastEntries changes
  { items := last.filterMap Change.item?
    removed := last.filterMap Change.removed?
    token := link.bind fun l => Json.okay? (DeltaToken.ofText ((linkToken? l).getD l)) }

end CollectionSync
