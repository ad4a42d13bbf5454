import CollectionSync.Store.Database

/-! A database as the text of a file: one JSON document with the version and the rows of the
table. -/

namespace CollectionSync

open Json (fields? optional? required?)

namespace Row

def toJson (r : Row) : Json := .obj
  [("collection_id", .str r.collection), ("status", .str r.status.text),
    ("processed", .nat r.processed), ("failed", .nat r.failed), ("total", .nat r.total),
    ("current_item", .str r.currentItem), ("delta_tokens", .str r.tokens),
    ("failed_items", .str r.failures), ("run_id", Json.ofOption .str r.run),
    ("error", Json.ofOption .str r.error), ("started_at", Json.ofOption .str r.startedAt),
    ("finished_at", Json.ofOption .str r.finishedAt), ("updated_at", .str r.updatedAt)]

def ofJson? (j : Json) : Option Row := do
  match ← fields? columns j with
  | [collection, status, processed, failed, total, currentItem, tokens, failures, run, error,
      startedAt, finishedAt, updatedAt] =>
    some
      { collection := ← required? Json.str? collection
        status := ← required? (fun j => j.str?.bind Status.ofText?) status
        processed := ← required? Json.word? processed
        failed := ← required? Json.word? failed
        total := ← required? Json.word? total
        currentItem := ← required? Json.str? currentItem
        tokens := ← required? Json.str? tokens
        failures := ← required? Json.str? failures
        run := ← optional? Json.str? run
        error := ← optional? Json.str? error
        startedAt := ← optional? Json.str? startedAt
        finishedAt := ← optional? Json.str? finishedAt
        updatedAt := ← required? Json.str? updatedAt }
  | _ => none

end Row

namespace ForeignTable

def toJson (t : ForeignTable) : Json := .obj
  [("columns", .arr (t.columns.map .str)), ("rows",
    .arr (t.rows.map fun row => .arr (row.map .str)))]

def ofJson? (j : Json) : Option ForeignTable := do
  let columns ← (← (← j.member? "columns").arr?).mapM Json.str?
  let rows ← (← (← j.member? "rows").arr?).mapM fun row => do (← row.arr?).mapM Json.str?
  some ⟨columns, rows⟩

end ForeignTable

namespace TableState

def toJson : TableState → Json
  | records rows => .arr (rows.map Row.toJson)
  | foreign table => table.toJson
  | absent => .null

def ofJson? : Json → Option TableState
  | .arr rows => (rows.mapM Row.ofJson?).map records
  | .null => some absent
  | j => (ForeignTable.ofJson? j).map foreign

end TableState

namespace Database

def toText (db : Database) : String :=
  (Json.obj [("version", .int db.version), ("table", db.table.toJson)]).render ++ "\n"

/-- The database in a text; an empty text is a file without content. -/
def ofText? (text : String) : Option Database :=
  if text.isEmpty then some blank
  else do
    let j ← Json.read? text
    some ⟨← (← j.member? "version").int?, ← TableState.ofJson? (← j.member? "table")⟩

/-- What a file with the given text holds. -/
def Found.ofText (text : String) : Found :=
  match ofText? text with
  | some db => .database db
  | none => .unusable

end Database

end CollectionSync
