import CollectionSync.Run.Basic
import CollectionSync.Run.Recovery

/-! A program that works on the runs of many collections. It admits a run by claiming the record and
keeps account of the runs in work; between different collections nothing but the store is shared. -/

namespace CollectionSync

/-- What a host knows of its runs. -/
structure Host where
  /-- The run in work for each collection. -/
  active : Dict CollectionId RunId
  stopping : Bool
  deriving DecidableEq

namespace Host

def idle : Host := ⟨.empty, false⟩

def launched (h : Host) (c : CollectionId) (run : RunId) : Host :=
  { h with active := h.active.insert c run }

/-- Takes a run off the account, unless another run has taken its place. -/
def ended (h : Host) (c : CollectionId) (run : RunId) : Host :=
  if h.active.get? c = some run then { h with active := h.active.erase c } else h

end Host

inductive HostAsk where
  | keeper (q : KeeperAsk)
  | stopping
  /-- An identifier that no run has had before. -/
  | freshRun
  /-- Enters the run among the active ones and starts its work. -/
  | launch (order : RunOrder)

abbrev HostAsk.Answer : HostAsk → Type
  | .keeper q => q.Answer
  | .stopping => Bool
  | .freshRun => RunId
  | .launch _ => Unit

abbrev Hosting := Program HostAsk HostAsk.Answer

namespace Host

def keeping {α : Type} (p : Keeping α) : Hosting α := p.lift HostAsk.keeper fun _ a => a

/-- Claims the collection of a request for a new run. -/
def claimRun (request : RunRequest) : Hosting (Except RunError Admission) := do
  match request.check with
  | .error e => pure (.error e)
  | .ok () =>
    let run ← (.question HostAsk.freshRun : Hosting RunId)
    match ← keeping (Keeper.claim request.collection run) with
    | .error e => pure (.error e)
    | .ok (.claimed record) => pure (.ok ⟨run, record⟩)
    | .ok (.conflict record) => pure (.error (.conflict request.collection record.run))

/-- Admits a run and starts it; the answer is its identifier. -/
def startRun (request : RunRequest) (credentials : String) : Hosting (Except RunError RunId) := do
  if ← (.question HostAsk.stopping : Hosting Bool) then
    pure (.error (.invalidRequest "sync service is shutting down"))
  else
    match ← claimRun request with
    | .error e => pure (.error e)
    | .ok admission =>
      (.question (HostAsk.launch ⟨request, admission, credentials⟩) : Hosting Unit)
      pure (.ok admission.run)

end Host

/-- What came of the request to cancel the run of a collection. -/
inductive CancelAnswer where
  | requested
  | notRunning (status : Status)
  deriving DecidableEq

/-- Asks the run of a collection to stop. -/
def cancelRun (c : CollectionId) : Keeping (Except RunError CancelAnswer) := do
  match ← Keeper.requestCancel c with
  | .error e => pure (.error e)
  | .ok true => pure (.ok .requested)
  | .ok false => return (← Keeper.current c).map fun record => .notRunning record.status

end CollectionSync
