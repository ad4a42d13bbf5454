import CollectionSync.Remote.Error

/-! How a request to the drive service may fail. -/

namespace CollectionSync

inductive DriveError where
  | unauthorized (detail : String)
  | forbidden (detail : String)
  | notFound (detail : String)
  | tooManyRequests (wait : Span)
  | server (detail : String)
  | timeout (detail : String)
  | network (detail : String)
  | tokenExpired
  | invalidResponse (detail : String)
  deriving DecidableEq

namespace DriveError

def message : DriveError → String
  | unauthorized detail => "Unauthorized: " ++ detail
  | forbidden detail => "Forbidden: " ++ detail
  | notFound detail => "Not found: " ++ detail
  | tooManyRequests wait => "Too many requests, retry after " ++ wait.text
  | server detail => "Server error: " ++ detail
  | timeout detail => "Request timed out: " ++ detail
  | network detail => "Network error: " ++ detail
  | tokenExpired => "Delta token expired"
  | invalidResponse detail => "Invalid response: " ++ detail

/-- The failure as a run sees it: whether rights are missing or refused makes no difference. -/
def toRemote : DriveError → RemoteError
  | unauthorized detail | forbidden detail => .unauthorized detail
  | notFound detail => .notFound detail
  | tooManyRequests wait => .throttled wait
  | server detail => .server detail
  | timeout detail => .timeout detail
  | network detail => .network detail
  | tokenExpired => .tokenExpired
  | invalidResponse detail => .invalidResponse detail

end DriveError

end CollectionSync
