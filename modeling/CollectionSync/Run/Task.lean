import CollectionSync.Run.Listing

/-! The work on a single file. -/

namespace CollectionSync

/-- Makes a call to the pipeline. -/
def callPipeline (rules : RunRules) {α : Type} (what : String)
    (call : Running (Option (Except PipelineError α))) :
    Running (Except RunError (Except PipelineError α)) := do
  match ← call with
  | none => pure (.error (.timeout (exceeded what rules.itemTimeout)))
  | some result => pure (.ok result)

/-- The result of a pipeline call, where some errors mean that nothing was left to do. -/
def settled {α : Type} (harmless : PipelineError → Bool) :
    Except RunError (Except PipelineError α) → Except RunError Unit
  | .error e => .error e
  | .ok (.ok _) => .ok ()
  | .ok (.error e) => if harmless e then .ok () else .error (.processing e)

namespace SyncTask

variable (rules : RunRules) (i : RunIdentity) (credentials : String)

/-- Hands downloaded content to the pipeline, unless the run has been cancelled meanwhile. -/
def process (item : Item) (bytes : List UInt8) : Running (Except RunError Unit) := do
  match ← i.observe with
  | .error e => pure (.error e)
  | .ok true => pure (.error .cancelled)
  | .ok false =>
    let request : ExtractRequest :=
      { file := item.file, collection := i.collection, name := item.name, path := item.path,
        hash := item.hash, bytes }
    return settled (fun e => e matches .duplicateContent _)
      (← callPipeline rules "extract" (Run.within rules.itemTimeout (.extract request)))

def extract (root : SourceRoot) (item : Item) : Running (Except RunError Unit) := do
  let fetched ← callRemote rules ("download of " ++ item.id.text)
    (Run.within rules.itemTimeout (.fetch root item.id credentials))
  match fetched with
  | .ok bytes => process rules i item bytes
  | .error e =>
    if (← Run.state).interrupted then
      match ← i.observe with
      | .error e => pure (.error e)
      | .ok true => pure (.error .cancelled)
      | .ok false => pure (.error (.remote e))
    else pure (.error (.remote e))

def attach (item : Item) : Running (Except RunError Unit) := do
  return settled (fun e => e matches .alreadyAttached _)
    (← callPipeline rules "attach" (Run.within rules.itemTimeout (.attach item.file i.collection)))

def detach (id : RemoteId) : Running (Except RunError Unit) := do
  return settled (fun e => e matches .notFound _)
    (← callPipeline rules "detach" (Run.within rules.itemTimeout (.detach id.file i.collection)))

def perform (task : SyncTask) : Running (Except RunError Unit) :=
  match task.action with
  | .extract item => extract rules i credentials task.root item
  | .attach item => attach rules i item
  | .detach id => detach rules i id

/-- How an error of a task is listed in the failure report. -/
def failureOf (task : SyncTask) : RunError → FailedItem
  | .cancelled => .ofCancelled task.name
  | e => ⟨task.name, e.failureKind, e.message⟩

/-- Counts what has come of a task, unless it is fatal to the run. -/
def settle (task : SyncTask) (result : Except RunError Unit) : Running (Except RunError Unit) := do
  let outcome : Except RunError RunChange := match result with
    | .ok () => .ok (.success task.name)
    | .error e => if e.isFatal then .error e else .ok (.failure (task.failureOf e))
  match outcome with
  | .error e => pure (.error e)
  | .ok counted =>
    let s ← Run.change counted
    return (← i.publish s.progress).map fun _ => ()

/-- Does the work of a task and counts it. Only errors of the store come back. -/
def run (task : SyncTask) : Running (Except RunError Unit) := do
  settle i task (← perform rules i credentials task)

end SyncTask

end CollectionSync
