import CollectionSync.Time.Span

/-! How a remote call may fail. -/

namespace CollectionSync

inductive RemoteError where
  /-- The token is no longer accepted; the root has to be listed from scratch. -/
  | tokenExpired
  | unauthorized (detail : String)
  | notFound (detail : String)
  /-- The remote side asks to wait this long. -/
  | throttled (wait : Span)
  | timeout (detail : String)
  | server (detail : String)
  | network (detail : String)
  | invalidResponse (detail : String)
  deriving DecidableEq

namespace RemoteError

def message : RemoteError → String
  | tokenExpired => "Delta token expired"
  | unauthorized detail => "Unauthorized: " ++ detail
  | notFound detail => "Not found: " ++ detail
  | throttled wait => "Too many requests, retry after " ++ wait.text
  | timeout detail => "Request timed out: " ++ detail
  | server detail => "Server error: " ++ detail
  | network detail => "Network error: " ++ detail
  | invalidResponse detail => "Invalid response: " ++ detail

/-- Whether the same call may succeed later. -/
def isTransient : RemoteError → Bool
  | throttled _ | timeout _ | server _ | network _ => true
  | _ => false

/-- How long the remote side asks to wait. -/
def hint? : RemoteError → Option Span
  | throttled wait => some wait
  | _ => none

end RemoteError

end CollectionSync
