import CollectionSync.Run.Ask
import CollectionSync.Run.Rules

/-! How a run learns that it has been cancelled, and how it reports its counters. -/

namespace CollectionSync

/-- The run on whose behalf a task works. -/
structure RunIdentity where
  collection : CollectionId
  run : RunId
  deriving DecidableEq

namespace RunIdentity

/-- Whether a stored record is syncing for the run. -/
def owns (i : RunIdentity) : Option Record → Bool
  | none => false
  | some r => r.status == .syncing && r.run == some i.run

/-- Checks whether the run is cancelled: it is once a check has found so, once the host shuts down,
and once the stored record is no longer syncing for it. -/
def observe (i : RunIdentity) : Running (Except RunError Bool) := do
  let s ← Run.state
  if s.cancelled then pure (.ok true)
  else if s.stopping then
    let _ ← Run.change .cancelled
    pure (.ok true)
  else
    match ← Run.keeping (Keeper.get i.collection) with
    | .error e => pure (.error e)
    | .ok record =>
      if i.owns record then pure (.ok false)
      else
        let _ ← Run.change .cancelled
        pure (.ok true)

/-- One round of the task that watches the record; the answer is whether it was the last. -/
def watchRound (i : RunIdentity) (interval : Span) : Running Bool := do
  if ← Run.pause interval then pure true
  else
    match ← i.observe with
    | .ok cancelled => pure cancelled
    | .error _ => pure false

/-- Writes counters to the record. -/
def publish (i : RunIdentity) (p : Progress) : Running (Except RunError ProgressOutcome) :=
  Run.keeping (Keeper.writeProgress i.collection i.run p)

/-- Notes an error that the run cannot survive; the first one stays. -/
def noteFatal (e : RunError) : Running Unit := do
  let _ ← Run.change (.fatal e.message)
  pure ()

/-- Writes counters; an error is one that the run cannot survive. -/
def publishOrFail (i : RunIdentity) (p : Progress) : Running Unit := do
  match ← i.publish p with
  | .ok _ => pure ()
  | .error e => noteFatal e

end RunIdentity

end CollectionSync
