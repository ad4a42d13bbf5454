import CollectionSync.Run.Ask

/-! Scripts for rehearsals. A rehearsal runs a host against a remote side and a pipeline whose every
answer is written down beforehand. -/

namespace CollectionSync.Rehearsal

/-- Something that happens while a call is under way. -/
inductive Incident where
  | cancel (collection : CollectionId)
  /-- Another run claims the collection. -/
  | claim (collection : CollectionId)
  /-- The syncing record of the collection is failed. -/
  | fail (collection : CollectionId)
  /-- The host shuts down. -/
  | stop
  deriving DecidableEq

inductive Ending where
  | breaks (message : String)
  | remoteFails (error : RemoteError)
  | pipelineFails (error : PipelineError)
  /-- The call succeeds: a listing brings `changes`, a download `bytes` if they are given, and the
  pipeline finds the content new or not. -/
  | succeeds (changes : ChangeSet) (bytes : Option (List UInt8)) (outcome : PipelineOutcome)

/-- How one call goes. -/
structure Cue where
  before : List Incident
  /-- The milliseconds that the call takes. -/
  delay : Nat
  after : List Incident
  ending : Ending
  /-- Whether the cue serves all further calls when it is the only one left. -/
  stays : Bool

/-- The call succeeds at once. -/
def Cue.plain : Cue := ⟨[], 0, [], .succeeds ⟨[], [], none⟩ none .processed, false⟩

/-- The name under which the cues of a call are kept. -/
def callName : Call → String
  | .list root _ _ => "list:" ++ root.id.text
  | .fetch _ id _ => "fetch:" ++ id.text
  | .lookup file => "lookup:" ++ file.text
  | .extract request => "extract:" ++ request.file.text
  | .attach file _ => "attach:" ++ file.text
  | .detach file _ => "detach:" ++ file.text

/-- The cues of each call, in the order in which they serve. -/
structure Script where
  cues : Dict String (List Cue)

namespace Script

/-- Adds cues behind those that the call has. -/
def extend (s : Script) (name : String) (cues : List Cue) : Script :=
  ⟨s.cues.insert name ((s.cues.get? name).getD [] ++ cues)⟩

/-- The next cue of a call. -/
def next (s : Script) (name : String) : Cue × Script :=
  match s.cues.get? name with
  | none | some [] => (.plain, s)
  | some [cue] => (cue, if cue.stays then s else ⟨s.cues.erase name⟩)
  | some (cue :: rest) => (cue, ⟨s.cues.insert name rest⟩)

end Script

/-! ## Faults of the store -/

/-- The kinds of operations that are counted on their own. -/
inductive StoreKind where
  | get
  | claim
  | updateProgress
  | finish
  | compareAndSet
  | recover
  deriving DecidableEq

/-- A status is read with the record, and a cancellation compares and sets. -/
def StoreKind.of : StoreOp → StoreKind
  | .get _ | .status _ => .get
  | .claim .. => .claim
  | .updateProgress .. => .updateProgress
  | .finish .. => .finish
  | .compareAndSet .. | .requestCancel .. => .compareAndSet
  | .recover .. => .recover

/-- Which operations of a kind fail, counted from one. -/
inductive FaultTimes where
  | since (n : Nat)
  | at (ns : List Nat)
  deriving DecidableEq

def FaultTimes.contains : FaultTimes → Nat → Bool
  | .since n, k => n ≤ k
  | .at ns, k => ns.contains k

structure Fault where
  kind : StoreKind
  times : FaultTimes
  message : String
  deriving DecidableEq

end CollectionSync.Rehearsal
