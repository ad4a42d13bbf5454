import CollectionSync.Pipeline
import CollectionSync.Record.Failure
import CollectionSync.Remote.Error
import CollectionSync.Store.Operation

/-! How a run, or a request for one, may fail. -/

namespace CollectionSync

inductive RunError where
  /-- A run owns the collection already. -/
  | conflict (collection : CollectionId) (run : Option RunId)
  /-- The request was refused before anything was claimed. -/
  | invalidRequest (reason : String)
  /-- Not even the listing from scratch was accepted. -/
  | tokenExpired (root : RootId)
  | remote (error : RemoteError)
  /-- A call took longer than an item may. -/
  | timeout (detail : String)
  | processing (error : PipelineError)
  | storeUnavailable (detail : String)
  | cancelled
  /-- The run ended without a result. -/
  | aborted (detail : String)
  deriving DecidableEq

namespace RunError

def message : RunError → String
  | conflict collection _ => "sync already in progress for " ++ collection.text
  | invalidRequest reason => "invalid sync request: " ++ reason
  | tokenExpired root => "delta token expired for source root " ++ root.text
  | remote error => "remote error: " ++ error.message
  | timeout detail => "timed out: " ++ detail
  | processing error => "item processing failed: " ++ error.message
  | storeUnavailable detail => "sync state store unavailable: " ++ detail
  | cancelled => "cancelled"
  | aborted detail => "sync worker aborted: " ++ detail

/-- The kind under which the failure report lists the error. -/
def failureKind : RunError → FailureKind
  | remote (.timeout _) | timeout _ => .timeout
  | remote _ => .remote
  | tokenExpired _ => .enumeration
  | cancelled => .cancelled
  | _ => .processing

/-- Whether the whole run has to stop and fail. -/
def isFatal : RunError → Bool
  | storeUnavailable _ | aborted _ => true
  | _ => false

def ofStore (e : StoreError) : RunError := storeUnavailable e.message

end RunError

end CollectionSync
