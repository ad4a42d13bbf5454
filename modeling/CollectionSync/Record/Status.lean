/-! The status of a collection and the moves between statuses.

```
idle -> syncing -> completed | completed_with_errors | cancelled | failed
          ^                              |
          +----------- next run ---------+
``` -/

namespace CollectionSync

inductive Status where
  | idle
  | syncing
  | completed
  | completedWithErrors
  | cancelled
  | failed
  deriving DecidableEq, Repr

namespace Status

/-- Every status, in the order of the state machine. -/
def all : List Status := [idle, syncing, completed, completedWithErrors, cancelled, failed]

/-- The stable text of a status, for storage and display. -/
def text : Status → String
  | idle => "idle"
  | syncing => "syncing"
  | completed => "completed"
  | completedWithErrors => "completed_with_errors"
  | cancelled => "cancelled"
  | failed => "failed"

def ofText? (s : String) : Option Status := all.find? fun status => status.text = s

/-- What is said of a text that is no status. -/
def unknownMessage (s : String) : String := "Validation failed: Unknown sync status: " ++ s

/-- The statuses in which a run ends. -/
def isTerminal : Status → Bool
  | idle | syncing => false
  | _ => true

/-- Whether a record may move from the first status to the second. A run that was cancelled still
closes its record, or fails it. -/
def canMoveTo : Status → Status → Bool
  | syncing, cancelled | syncing, completed | syncing, completedWithErrors | syncing, failed => true
  | cancelled, cancelled | cancelled, failed => true
  | syncing, syncing => false
  | _, syncing => true
  | _, _ => false

/-- The status written at the end of a run: a cancellation that was stored meanwhile wins over
success, and nothing wins over failure. -/
def resolve (stored requested : Status) : Status :=
  match stored, requested with
  | cancelled, completed | cancelled, completedWithErrors => cancelled
  | _, requested => requested

end Status

end CollectionSync
