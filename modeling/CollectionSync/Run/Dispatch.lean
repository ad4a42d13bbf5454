import CollectionSync.Run.Task
import CollectionSync.Text.Quoted

/-! Handing out the tasks of a run, as many at a time as there are slots. Whether the run has been
cancelled is checked before a task is admitted and again once it has a slot. -/

namespace CollectionSync

namespace SyncTask

/-- Counts a task that a cancellation has kept from starting. -/
def settleCancelled (i : RunIdentity) (task : SyncTask) : Running Unit := do
  let s ← Run.change (.failure (.ofCancelled task.name))
  i.publishOrFail s.progress

end SyncTask

/-- How the breakdown of a task is told; the number of the task stays open. -/
def breakdownText (message : String) : String :=
  "task N panicked with message " ++ Text.quoted message

/-- The report of a task that broke down, under a name of its own. -/
def brokenTask (message : String) : FailedItem := ⟨"<task>", .processing, breakdownText message⟩

namespace Dispatch

/-- Starts the tasks in turn; the answer is how many were started. -/
def startEach (i : RunIdentity) : List SyncTask → (started : Nat) → Running Nat
  | [], started => pure started
  | task :: rest, started => do
    if (← Run.state).fatal.isSome then pure started
    else
      match ← i.observe with
      | .error e =>
        RunIdentity.noteFatal e
        pure started
      | .ok true =>
        task.settleCancelled i
        startEach i rest started
      | .ok false =>
        Run.acquire
        match ← i.observe with
        | .error e =>
          RunIdentity.noteFatal e
          Run.release
          pure started
        | .ok true =>
          Run.release
          task.settleCancelled i
          startEach i rest started
        | .ok false =>
          Run.spawn task
          startEach i rest (started + 1)

/-- Waits until all started tasks have ended. -/
def settle (i : RunIdentity) : (started : Nat) → Running Unit
  | 0 => pure ()
  | started + 1 => do
    match ← Run.join with
    | .settled (.ok ()) => pure ()
    | .settled (.error e) => RunIdentity.noteFatal e
    | .broken message =>
      let s ← Run.change (.failure (brokenTask message))
      i.publishOrFail s.progress
    settle i started

/-- Does all tasks and waits for them. -/
def all (i : RunIdentity) (tasks : List SyncTask) : Running Unit := do
  let s ← Run.change (.total tasks.length)
  match ← i.publish s.progress with
  | .error e => RunIdentity.noteFatal e
  | .ok _ =>
    let started ← startEach i tasks 0
    settle i started

end Dispatch

end CollectionSync
