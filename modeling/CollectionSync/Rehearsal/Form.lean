import CollectionSync.Rehearsal.World
import CollectionSync.Remote.Form

/-! Scripts of rehearsals as JSON. The cues of a call stand under its name, and each kind of
operation of the store may have the times at which it fails. -/

namespace CollectionSync

/-- The error of a kind, where it concerns a file that file. -/
def PipelineError.ofForm (file : FileId) (j : Json) : PipelineError :=
  let detail := j.strField "message"
  match j.strField "kind" with
  | "AlreadyAttached" => alreadyAttached file
  | "DuplicateContent" => duplicateContent file
  | "NotFound" => notFound file
  | "Unavailable" => unavailable detail
  | _ => rejected detail

def ContentRecord.ofForm (j : Json) : Except IdentifierError ContentRecord := do
  let hash ← ContentHash.ofText (j.strField "hash")
  let collections ← (j.listField "collections").mapM fun c => CollectionId.ofText (c.str?.getD "")
  return ⟨hash, collections⟩

namespace Rehearsal

/-- An incident as a word, and the collection that it concerns behind a colon. -/
def Incident.ofText? (s : String) : Option Incident :=
  let c : CollectionId := ⟨":".intercalate (s.splitOn ":").tail⟩
  match (s.splitOn ":").headD "" with
  | "shutdown" => some .stop
  | "cancel" => some (.cancel c)
  | "claim" => some (.claim c)
  | "fail" => some (.fail c)
  | _ => none

def Incident.listOfForm (j : Json) (name : String) : List Incident :=
  (j.listField name).filterMap fun i => i.str?.bind ofText?

/-- What a cue of the call `what` on `id` ends in. -/
def Ending.ofForm (what id : String) (j : Json) : Ending :=
  match j.optStr "panic", j.field "error" with
  | some message, _ => .breaks message
  | none, .null =>
    .succeeds (((ChangeSet.ofForm ⟨id⟩ j).toOption).getD ⟨[], [], none⟩)
      ((j.optStr "bytes").map fun s => Text.utf8 s.toList)
      (if j.strField "outcome" == "duplicate" then .duplicate else .processed)
  | none, failure =>
    if what == "list" || what == "fetch" then .remoteFails (.ofForm failure)
    else .pipelineFails (.ofForm (RemoteId.file ⟨id⟩) failure)

def Cue.ofForm (what id : String) (j : Json) : Cue where
  before := Incident.listOfForm j "hook"
  delay := j.natField "delay_ms"
  after := Incident.listOfForm j "hook_after"
  ending := Ending.ofForm what id j
  stays := (j.field "repeat").bool?.getD false

/-- The cues of all calls, under the names of the calls. -/
def cuesOfForm (j : Json) : List (String × List Cue) :=
  (j.obj?.getD []).map fun (name, cues) =>
    let what := (name.splitOn ":").headD ""
    let id := ":".intercalate (name.splitOn ":").tail
    let remote := what == "list" || what == "fetch"
    (if remote then name else what ++ ":" ++ (RemoteId.file ⟨id⟩).text,
      (cues.arr?.getD []).map (Cue.ofForm what id))

def StoreKind.ofText? : String → Option StoreKind
  | "get" => some .get
  | "claim_run" => some .claim
  | "update_progress" => some .updateProgress
  | "set_terminal" => some .finish
  | "compare_and_set_status" => some .compareAndSet
  | "recover_interrupted" => some .recover
  | _ => none

def faultsOfForm (j : Json) : List Fault :=
  (j.obj?.getD []).filterMap fun (name, f) =>
    (StoreKind.ofText? name).map fun kind =>
      let times : FaultTimes := match f.natField? "from" with
        | some n => .since n
        | none => .at ((f.listField "at").filterMap Json.word?)
      ⟨kind, times, f.strField "message" "database is locked"⟩

/-- What the pipeline is to hold of each file; nothing where null stands. -/
def contentOfForm (j : Json) : List (FileId × Option ContentRecord) :=
  (j.obj?.getD []).map fun (id, record) =>
    (RemoteId.file ⟨id⟩, (ContentRecord.ofForm record).toOption)

/-- The surroundings with which a rehearsal starts, around the given records. -/
def World.ofForm (records : List Record) (eventBuffer : Nat) (j : Json) : World :=
  let content := (contentOfForm (j.field "content")).filterMap fun (file, record) =>
    record.map fun record => (file, record)
  let script := (cuesOfForm (j.field "scripts")).foldl
    (fun script e => script.extend e.1 e.2) (⟨.empty⟩ : Script)
  .start records (.ofList content) script (faultsOfForm (j.field "faults")) eventBuffer

end Rehearsal

end CollectionSync
