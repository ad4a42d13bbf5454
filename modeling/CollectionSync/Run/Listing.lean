import CollectionSync.Run.Request
import CollectionSync.Run.Watch

/-! Listing the changes of all roots of a run. A root whose token has expired is listed from
scratch; one that cannot be listed is reported and keeps its token. -/

namespace CollectionSync

/-- What the listing of roots has brought so far. -/
structure Listing where
  changes : List (SourceRoot × ChangeSet)
  /-- The tokens to go on from in the next run. -/
  tokens : Dict RootId DeltaToken
  deriving DecidableEq

/-- The text that says how long a call took at least. -/
def exceeded (what : String) (limit : Span) : String :=
  what ++ " exceeded " ++ toString limit.seconds ++ "s"

/-- Makes a remote call, again and again as the rules for retries say. -/
def callRemote (rules : RunRules) {α : Type} (what : String)
    (call : Running (Option (Except RemoteError α))) : Running (Except RemoteError α) :=
  rules.retry.retry Run.pause do
    return (← call).getD (.error (.timeout (exceeded what rules.itemTimeout)))

def listSince (rules : RunRules) (root : SourceRoot) (token : Option DeltaToken)
    (credentials : String) : Running (Except RemoteError ChangeSet) :=
  callRemote rules ("listing " ++ root.id.text)
    (Run.within rules.itemTimeout (.list root token credentials))

/-- Lists a root since its token, and once more without the token if it has expired. -/
def listRoot (rules : RunRules) (root : SourceRoot) (token : Option DeltaToken)
    (credentials : String) : Running (Except RunError ChangeSet) := do
  let listed ← listSince rules root token credentials
  let listed ←
    if listed matches .error .tokenExpired && token.isSome then
      listSince rules root none credentials
    else pure listed
  pure (listed.mapError fun e =>
    if e = .tokenExpired then .tokenExpired root.id else .remote e)

namespace Listing

/-- Adds what a root has reported. -/
def add (l : Listing) (root : SourceRoot) (set : ChangeSet) : Listing where
  changes := l.changes ++ [(root, set)]
  tokens := match set.token with
    | none => l.tokens
    | some token => l.tokens.insert root.id token

/-- Lists the remaining roots; only the store can make that fail. -/
def extend (rules : RunRules) (order : RunOrder) (i : RunIdentity) :
    List SourceRoot → Listing → Running (Except RunError Listing)
  | [], l => pure (.ok l)
  | root :: rest, l => do
    match ← i.observe with
    | .error e => pure (.error e)
    | .ok true => pure (.ok l)
    | .ok false =>
      let token := order.admission.record.tokens.get? root.id
      match ← listRoot rules root token order.credentials with
      | .ok set => extend rules order i rest (l.add root set)
      | .error e =>
        if (← Run.state).interrupted then
          match ← i.observe with
          | .error e => pure (.error e)
          | .ok _ => pure (.ok l)
        else
          let _ ← Run.change (.runFailure ⟨root.id.text, .enumeration, e.message⟩)
          extend rules order i rest l

/-- Lists all roots of a run, from the tokens of the claimed record. -/
def ofOrder (rules : RunRules) (order : RunOrder) (i : RunIdentity) :
    Running (Except RunError Listing) :=
  extend rules order i order.request.roots ⟨[], order.admission.record.tokens⟩

end Listing

end CollectionSync
