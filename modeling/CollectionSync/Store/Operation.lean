import CollectionSync.Record.Basic

/-! What a record store is asked, what it answers and what it reports when it cannot. Every
operation is atomic on its collection: runs, cancellations and recoveries coordinate through these
operations and nothing else. -/

namespace CollectionSync

/-- Why a stored row cannot be read back. -/
inductive RowFault where
  | collection (text : String) (error : IdentifierError)
  | tokens (collection : CollectionId)
  | failures (collection : CollectionId)
  | run (text : String)
  | time (text : String)
  deriving DecidableEq

inductive StoreError where
  /-- The store cannot be reached, or the query failed. -/
  | unavailable (reason : String)
  | corrupt (fault : RowFault)
  | refused (refusal : Refusal)
  | missing (collection : CollectionId)
  /-- A sum of counters left the range of a counter; whoever asked stops. -/
  | counterOverflow
  deriving DecidableEq

def RowFault.message : RowFault → String
  | .collection text error => "Invalid CollectionId '" ++ text ++ "': " ++ error.message
  | .tokens c => "Invalid delta tokens for " ++ c.text
  | .failures c => "Invalid failed items for " ++ c.text
  | .run text => "Invalid RunId '" ++ text ++ "': " ++ IdentifierError.run.message
  | .time text => "Failed to parse datetime '" ++ text ++ "'"

def StoreError.message : StoreError → String
  | .unavailable reason => "Record store unavailable: " ++ reason
  | .corrupt fault => "Corrupt record: " ++ fault.message
  | .refused refusal => refusal.message
  | .missing c => "No sync record for collection " ++ c.text
  | .counterOverflow => "attempt to add with overflow"

/-- The result of a claim: the record as written, or as another run owns it. -/
inductive ClaimOutcome where
  | claimed (record : Record)
  | conflict (record : Record)
  deriving DecidableEq

/-- An operation on the records of all collections. -/
inductive StoreOp where
  | get (collection : CollectionId)
  | status (collection : CollectionId)
  /-- Moves the status from one of `expected` to `next`. -/
  | compareAndSet (collection : CollectionId) (expected : List Status) (next : Status)
      (now : Instant)
  /-- Makes the run the owner of the record, which is created if need be. -/
  | claim (collection : CollectionId) (run : RunId) (now : Instant)
  | updateProgress (collection : CollectionId) (run : RunId) (progress : Progress) (now : Instant)
  | requestCancel (collection : CollectionId) (now : Instant)
  | finish (collection : CollectionId) (run : RunId) (report : RunReport) (now : Instant)
  /-- Fails every syncing record last written before `staleBefore`. -/
  | recover (staleBefore : Instant) (reason : String) (now : Instant)

/-- What each operation answers. -/
def StoreOp.Reply : StoreOp → Type
  | .get _ => Option Record
  | .status _ => Option Status
  | .compareAndSet .. => Bool
  | .claim .. => ClaimOutcome
  | .updateProgress .. => ProgressOutcome
  | .requestCancel .. => Bool
  | .finish .. => Record
  | .recover .. => List CollectionId

/-- The first of the expected statuses from which the state machine forbids the move. -/
def forbidden? (expected : List Status) (next : Status) : Option Status :=
  expected.find? fun s => !s.canMoveTo next

end CollectionSync
