import CollectionSync.Run.Dispatch

/-! A run from its claim to the terminal write: list the changes, plan, do the tasks, and fold the
result into the record. Failures of single files never end a run; only the store can. -/

namespace CollectionSync

/-- The plan for the listed changes. A file that cannot be looked up in time is extracted. -/
def RunPlan.ofChanges (width : Nat) (limit : Span) (c : CollectionId)
    (changes : List (SourceRoot × ChangeSet)) : Running RunPlan := do
  let files := (reportedItems changes).map fun (_, item) => item.file
  let known ← (.question (RunAsk.lookups files width limit) :
    Running (List (Option (Except PipelineError (Option ContentRecord)))))
  pure (RunPlan.make c changes (known.map fun
    | some (.ok record) => record
    | _ => none))

namespace RunState

/-- The status that a run asks for at its end. -/
def outcome (s : RunState) : Status :=
  if s.fatal.isSome then .failed
  else if s.cancelled then .cancelled
  else if s.hasFailures then .completedWithErrors
  else .completed

def report (s : RunState) (tokens : Dict RootId DeltaToken) : RunReport where
  status := s.outcome
  tokens
  failures := s.log.report
  progress := s.progress
  error := s.fatal

end RunState

namespace RunOrder

def identity (order : RunOrder) : RunIdentity := ⟨order.request.collection, order.admission.run⟩

/-- Lists the roots of a run. Where the store fails, nothing counts as listed, and the run cannot go
on. -/
def listRoots (rules : RunRules) (order : RunOrder) : Running Listing := do
  match ← Listing.ofOrder rules order order.identity with
  | .ok listing => pure listing
  | .error e =>
    RunIdentity.noteFatal e
    pure ⟨[], order.admission.record.tokens⟩

/-- Plans what the listing calls for and does it, unless the run cannot go on. -/
def carryOut (rules : RunRules) (order : RunOrder) (listing : Listing) : Running Unit := do
  let i := order.identity
  if (← Run.state).fatal.isNone then
    let plan ← RunPlan.ofChanges rules.slots rules.itemTimeout i.collection listing.changes
    Dispatch.all i plan.tasks

/-- All that a run does before its terminal write; the answer is what it has listed. -/
def work (rules : RunRules) (order : RunOrder) : Running Listing := do
  (.question RunAsk.startWatch : Running Unit)
  let listing ← listRoots rules order
  carryOut rules order listing
  (.question RunAsk.endWatch : Running Unit)
  pure listing

/-- Writes what has become of a run. -/
def finish (order : RunOrder) (listing : Listing) : Running (Except RunError Record) := do
  let i := order.identity
  let s ← Run.state
  Run.keeping (Keeper.finish i.collection i.run (s.report listing.tokens))

/-- Does a run; the answer is the record as finally written. -/
def run (rules : RunRules) (order : RunOrder) : Running (Except RunError Record) := do
  finish order (← work rules order)

end RunOrder

end CollectionSync
