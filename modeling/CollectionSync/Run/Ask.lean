import CollectionSync.Run.Keeper
import CollectionSync.Run.Plan
import CollectionSync.Run.State

/-! What a run asks of its surroundings. Questions to the store and to the shared state are answered
at once; calls, waits, slots and the ends of tasks may take time, and other tasks go on
meanwhile. -/

namespace CollectionSync

/-- A call to the remote side or to the content pipeline. -/
inductive Call where
  | list (root : SourceRoot) (token : Option DeltaToken) (credentials : String)
  | fetch (root : SourceRoot) (id : RemoteId) (credentials : String)
  | lookup (file : FileId)
  | extract (request : ExtractRequest)
  | attach (file : FileId) (collection : CollectionId)
  | detach (file : FileId) (collection : CollectionId)
  deriving DecidableEq

abbrev Call.Result : Call → Type
  | .list .. => Except RemoteError ChangeSet
  | .fetch .. => Except RemoteError (List UInt8)
  | .lookup _ => Except PipelineError (Option ContentRecord)
  | .extract _ => Except PipelineError PipelineOutcome
  | .attach .. => Except PipelineError PipelineOutcome
  | .detach .. => Except PipelineError Unit

/-- How a task of a run ended. -/
inductive TaskEnd where
  | settled (result : Except RunError Unit)
  /-- The task broke down with a message. -/
  | broken (message : String)

inductive RunAsk where
  | keeper (q : KeeperAsk)
  | state
  /-- Changes the shared state; the answer is the state afterwards. -/
  | change (c : RunChange)
  /-- Makes a call that may take up to `limit`; none tells that it took longer. -/
  | within (limit : Span) (call : Call)
  /-- Looks files up, `width` at a time, each within `limit`; the results come in the order of the
  files. -/
  | lookups (files : List FileId) (width : Nat) (limit : Span)
  /-- Waits; the answer is whether the wait was cut short. -/
  | pause (length : Span)
  /-- Takes a slot, as soon as one is free. -/
  | acquire
  | release
  /-- Starts a task, which gives back the slot of whoever starts it. -/
  | spawn (task : SyncTask)
  /-- Waits for the next task to end. -/
  | join
  /-- Starts, and ends, the task that watches the record. -/
  | startWatch
  | endWatch

abbrev RunAsk.Answer : RunAsk → Type
  | .keeper q => q.Answer
  | .state => RunState
  | .change _ => RunState
  | .within _ call => Option call.Result
  | .lookups .. => List (Option (Except PipelineError (Option ContentRecord)))
  | .pause _ => Bool
  | .acquire => Unit
  | .release => Unit
  | .spawn _ => Unit
  | .join => TaskEnd
  | .startWatch => Unit
  | .endWatch => Unit

abbrev Running := Program RunAsk RunAsk.Answer

namespace Run

def keeping {α : Type} (p : Keeping α) : Running α := p.lift RunAsk.keeper fun _ a => a
def state : Running RunState := .question RunAsk.state
def change (c : RunChange) : Running RunState := .question (RunAsk.change c)
def within (limit : Span) (call : Call) : Running (Option call.Result) :=
  .question (RunAsk.within limit call)
def pause (length : Span) : Running Bool := .question (RunAsk.pause length)
def acquire : Running Unit := .question RunAsk.acquire
def release : Running Unit := .question RunAsk.release
def spawn (task : SyncTask) : Running Unit := .question (RunAsk.spawn task)
def join : Running TaskEnd := .question RunAsk.join

end Run

end CollectionSync
