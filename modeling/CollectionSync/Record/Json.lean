import CollectionSync.Json.Decode
import CollectionSync.Record.Basic
import CollectionSync.Time.Rfc3339

/-! Records and their parts as JSON. -/

namespace CollectionSync

open Json (fields? optional? required? variant? okay?)

def Progress.toJson (p : Progress) : Json := .obj
  [("processed", .nat p.processed), ("failed", .nat p.failed), ("total", .nat p.total),
    ("current_item", .str p.currentItem)]

def Progress.ofJson? (j : Json) : Option Progress := do
  match ← fields? ["processed", "failed", "total", "current_item"] j with
  | [processed, failed, total, currentItem] =>
    some
      { processed := ← required? Json.word? processed
        failed := ← required? Json.word? failed
        total := ← required? Json.word? total
        currentItem := ← required? Json.str? currentItem }
  | _ => none

def FailedItem.toJson (i : FailedItem) : Json := .obj
  [("name", .str i.name), ("error_kind", .str i.kind.text), ("message", .str i.message)]

def FailedItem.ofJson? (j : Json) : Option FailedItem := do
  match ← fields? ["name", "error_kind", "message"] j with
  | [name, kind, message] =>
    some
      { name := ← required? Json.str? name
        kind := ← required? (variant? FailureKind.ofText?) kind
        message := ← required? Json.str? message }
  | _ => none

def CollectionId.ofJson? (j : Json) : Option CollectionId := do
  okay? (CollectionId.ofText (← j.str?))

def RootId.ofJson? (j : Json) : Option RootId := do
  okay? (RootId.ofText (← j.str?))

def DeltaToken.ofJson? (j : Json) : Option DeltaToken := do
  okay? (DeltaToken.ofText (← j.str?))

def RunId.ofJson? (j : Json) : Option RunId := do
  okay? (RunId.ofText (← j.str?))

def Instant.ofJson? (j : Json) : Option Instant := do
  Time.readFree? (← j.str?)

/-- Tokens as an object from roots to tokens. -/
def tokensToJson (tokens : Dict RootId DeltaToken) : Json :=
  .obj (tokens.entries.map fun e => (e.1.text, .str e.2.text))

/-- One member of an object from roots to tokens. -/
def tokenEntry? (m : String × Json) : Option (RootId × DeltaToken) := do
  let root ← okay? (RootId.ofText m.1)
  let token ← DeltaToken.ofJson? m.2
  some (root, token)

/-- Tokens out of an object; the last of several for one root counts. -/
def tokensOfJson? (j : Json) : Option (Dict RootId DeltaToken) := do
  let entries ← (← j.obj?).mapM tokenEntry?
  some (Dict.ofList entries)

def failuresToJson (items : List FailedItem) : Json := .arr (items.map FailedItem.toJson)

def failuresOfJson? (j : Json) : Option (List FailedItem) := do
  (← j.arr?).mapM FailedItem.ofJson?

def instantToJson (t : Instant) : Json := .str (Time.shortestText t)

def Record.toJson (r : Record) : Json := .obj
  [("collection_id", .str r.collection.text), ("status", .str r.status.text),
    ("progress", r.progress.toJson), ("delta_tokens", tokensToJson r.tokens),
    ("failed_items", failuresToJson r.failures),
    ("run_id", Json.ofOption (fun run => .str run.text) r.run),
    ("error", Json.ofOption .str r.error),
    ("started_at", Json.ofOption instantToJson r.startedAt),
    ("finished_at", Json.ofOption instantToJson r.finishedAt),
    ("updated_at", instantToJson r.updatedAt)]

def Record.ofJson? (j : Json) : Option Record := do
  match ← fields? ["collection_id", "status", "progress", "delta_tokens", "failed_items", "run_id",
      "error", "started_at", "finished_at", "updated_at"] j with
  | [collection, status, progress, tokens, failures, run, error, startedAt, finishedAt,
      updatedAt] =>
    some
      { collection := ← required? CollectionId.ofJson? collection
        status := ← required? (variant? Status.ofText?) status
        progress := ← required? Progress.ofJson? progress
        tokens := ← required? tokensOfJson? tokens
        failures := ← required? failuresOfJson? failures
        run := ← optional? RunId.ofJson? run
        error := ← optional? Json.str? error
        startedAt := ← optional? Instant.ofJson? startedAt
        finishedAt := ← optional? Instant.ofJson? finishedAt
        updatedAt := ← required? Instant.ofJson? updatedAt }
  | _ => none

end CollectionSync
