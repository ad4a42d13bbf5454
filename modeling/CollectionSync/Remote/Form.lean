import CollectionSync.Json.Fields
import CollectionSync.Remote.ChangeSet
import CollectionSync.Remote.Error

/-! Items, change sets and errors in the short form in which scripts give them: most members may be
left out, and identifiers are checked as everywhere. -/

namespace CollectionSync

/-- A span as the sum of its seconds, milliseconds and nanoseconds. -/
def Span.ofForm (j : Json) : Span :=
  ((ofSeconds (j.natField "secs")).add (ofMillis (j.natField "ms"))).add ⟨j.natField "nanos"⟩

/-- An identifier or other text that may be left out. -/
def optionalText {α : Type} (read : String → Except IdentifierError α) (j : Json) (name : String) :
    Except IdentifierError (Option α) :=
  match j.optStr name with
  | none => .ok none
  | some s => some <$> read s

def SourceRoot.ofForm (j : Json) : Except IdentifierError SourceRoot := do
  return ⟨← RootId.ofText (j.strField "id"), j.optStr "drive", j.optStr "folder"⟩

/-- An item of a root; without a name it is called by its identifier. -/
def Item.ofForm (root : RootId) (j : Json) : Except IdentifierError Item := do
  let id ← RemoteId.ofText (j.strField "id")
  let hash ← optionalText ContentHash.ofText j "hash"
  return {
    id
    root
    name := j.strField "name" (j.strField "id")
    path := j.optStr "path"
    hash
    modified := none
    size := j.natField "size" }

def ChangeSet.ofForm (root : RootId) (j : Json) : Except IdentifierError ChangeSet := do
  let items ← (j.listField "items").mapM (Item.ofForm root)
  let removed ← (j.listField "removed").mapM fun id => RemoteId.ofText (id.str?.getD "")
  return ⟨items, removed, ← optionalText DeltaToken.ofText j "new_token"⟩

namespace RemoteError

/-- The name of the kind of error. -/
def kind : RemoteError → String
  | tokenExpired => "TokenExpired"
  | unauthorized _ => "Unauthorized"
  | notFound _ => "NotFound"
  | throttled _ => "Throttled"
  | timeout _ => "Timeout"
  | server _ => "Server"
  | network _ => "Network"
  | invalidResponse _ => "InvalidResponse"

/-- The error of a kind; any other kind stands for a response that makes no sense. -/
def ofForm (j : Json) : RemoteError :=
  let detail := j.strField "message"
  match j.strField "kind" with
  | "TokenExpired" => tokenExpired
  | "Unauthorized" => unauthorized detail
  | "NotFound" => notFound detail
  | "Throttled" => throttled (Span.ofForm (j.field "retry_after"))
  | "Timeout" => timeout detail
  | "Server" => server detail
  | "Network" => network detail
  | _ => invalidResponse detail

end RemoteError

end CollectionSync
