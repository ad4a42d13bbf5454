import CollectionSync.Record.Failure
import CollectionSync.Record.Progress

/-! What the tasks of one run share: the counters, the failure report, and whether the run is to
stop. -/

namespace CollectionSync

structure RunState where
  progress : Progress
  log : FailureLog
  /-- Whether a cancellation has been observed. -/
  cancelled : Bool
  /-- Whether the waits of the run are cut short. -/
  interrupted : Bool
  /-- Whether the host shuts down. -/
  stopping : Bool
  /-- The first error that the run cannot survive. -/
  fatal : Option String
  deriving DecidableEq

/-- A change to what the tasks share. -/
inductive RunChange where
  | total (count : Nat)
  | success (name : String)
  | failure (item : FailedItem)
  /-- A failure that belongs to no counted item. -/
  | runFailure (item : FailedItem)
  | fatal (reason : String)
  | cancelled
  | stopping
  deriving DecidableEq

namespace RunState

def start (cap : Nat) (stopping : Bool) : RunState where
  progress := .zero
  log := .empty cap
  cancelled := false
  interrupted := stopping
  stopping
  fatal := none

def change (s : RunState) : RunChange → RunState
  | .total count => { s with progress := { s.progress with total := count } }
  | .success name =>
    { s with
      progress := { s.progress with processed := s.progress.processed + 1, currentItem := name } }
  | .failure item =>
    { s with
      progress := { s.progress with failed := s.progress.failed + 1, currentItem := item.name }
      log := s.log.push item }
  | .runFailure item => { s with log := s.log.push item }
  | .fatal reason => { s with fatal := s.fatal.or (some reason) }
  | .cancelled => { s with cancelled := true, interrupted := true }
  | .stopping => { s with stopping := true, interrupted := true }

def hasFailures (s : RunState) : Bool := !s.log.isEmpty

/-- Whether the run must not begin anything new. -/
def shouldStop (s : RunState) : Bool := s.cancelled || s.fatal.isSome

end RunState

end CollectionSync
