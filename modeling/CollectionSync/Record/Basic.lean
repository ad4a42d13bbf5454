import CollectionSync.Identifier
import CollectionSync.Record.Failure
import CollectionSync.Record.Progress
import CollectionSync.Record.Status
import CollectionSync.Time.Instant

/-! The record that is kept of each collection, and every change that a run, a cancellation or a
recovery may make to it. -/

namespace CollectionSync

/-- What the rules of a record refuse. -/
inductive Refusal where
  | badMove (stored requested : Status)
  | notOwner (collection : CollectionId) (run : RunId)
  deriving DecidableEq

def Refusal.message : Refusal → String
  | .badMove stored requested =>
    "Invalid state transition from " ++ stored.text ++ " to " ++ requested.text
  | .notOwner collection run =>
    "Run " ++ run.text ++ " does not own the record for " ++ collection.text

/-- The state of one collection. -/
structure Record where
  collection : CollectionId
  status : Status
  progress : Progress
  /-- Where the next run resumes, by source root. -/
  tokens : Dict RootId DeltaToken
  /-- The failure report of the current or the last run. -/
  failures : List FailedItem
  /-- The run that owns the record, or owned it last. -/
  run : Option RunId
  error : Option String
  startedAt : Option Instant
  finishedAt : Option Instant
  updatedAt : Instant
  deriving DecidableEq

/-- What a run folds into its record when it ends. -/
structure RunReport where
  status : Status
  tokens : Dict RootId DeltaToken
  failures : List FailedItem
  progress : Progress
  error : Option String
  deriving DecidableEq

namespace Record

/-- The record of a collection for which no run has started. -/
def idle (collection : CollectionId) (now : Instant) : Record where
  collection
  status := .idle
  progress := .zero
  tokens := .empty
  failures := []
  run := none
  error := none
  startedAt := none
  finishedAt := none
  updatedAt := now

/-- Moves the time of the last write forward, never back. -/
def touch (r : Record) (now : Instant) : Record := { r with updatedAt := r.updatedAt.later now }

/-- Changes the status where the state machine allows it. -/
def moveTo (r : Record) (next : Status) (now : Instant) : Except Refusal Record :=
  if r.status.canMoveTo next then .ok ({ r with status := next }.touch now)
  else .error (.badMove r.status next)

/-- Hands the record to a new run, with fresh counters and the tokens of the last one. -/
def beginRun (r : Record) (run : RunId) (now : Instant) : Except Refusal Record :=
  (r.moveTo .syncing now).map fun r =>
    { r with
      progress := .zero
      failures := []
      run := some run
      error := none
      startedAt := some now
      finishedAt := none }

/-- Writes counters for a run. The write is discarded unless the run owns a syncing record and the
counters do not go back. There is no answer where a sum of counters leaves their range. -/
def applyProgress? (r : Record) (run : RunId) (p : Progress) (now : Instant) :
    Option (ProgressOutcome × Record) :=
  if r.status = .syncing ∧ r.run = some run then do
    let given ← p.settled?
    let stored ← r.progress.settled?
    if given < stored then some (.discarded, r)
    else some (.applied, { r with progress := p }.touch now)
  else some (.discarded, r)

/-- Marks a syncing record as cancelled; any other record stays as it is. -/
def requestCancel (r : Record) (now : Instant) : Bool × Record :=
  if r.status = .syncing then (true, { r with status := .cancelled }.touch now) else (false, r)

/-- Folds the end of a run into its record. -/
def finish (r : Record) (run : RunId) (report : RunReport) (now : Instant) :
    Except Refusal Record :=
  if r.run = some run then
    let status := Status.resolve r.status report.status
    if status.isTerminal then
      (r.moveTo status now).map fun r =>
        { r with
          tokens := report.tokens
          failures := report.failures
          progress := report.progress
          error := if status = .failed then report.error else none
          finishedAt := some now }
    else .error (.badMove r.status status)
  else .error (.notOwner r.collection run)

/-- Fails a syncing record whose run is gone; any other record stays as it is. -/
def interrupt (r : Record) (reason : String) (now : Instant) : Bool × Record :=
  if r.status = .syncing then
    (true,
      { r with status := .failed, error := some reason, finishedAt := some now }.touch now)
  else (false, r)

end Record

end CollectionSync
