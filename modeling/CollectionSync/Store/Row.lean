import CollectionSync.Json.Parser
import CollectionSync.Json.Printer
import CollectionSync.Record.Json
import CollectionSync.Store.Operation

/-! Records as rows of a table. Identifiers, times and the two documents are columns of text, so a
row may hold what no record does; counters are columns of signed 64-bit words. -/

namespace CollectionSync

/-- One row of the table of records. -/
structure Row where
  collection : String
  status : Status
  processed : Nat
  failed : Nat
  total : Nat
  currentItem : String
  tokens : String
  failures : String
  run : Option String
  error : Option String
  startedAt : Option String
  finishedAt : Option String
  updatedAt : String
  deriving DecidableEq

namespace Row

/-- The names of the columns, in their order. -/
def columns : List String :=
  ["collection_id", "status", "processed", "failed", "total", "current_item", "delta_tokens",
    "failed_items", "run_id", "error", "started_at", "finished_at", "updated_at"]

/-- The largest count that a column holds; a larger one is stored as this. -/
def counterLimit : Nat := UInt64.size / 2 - 1

def counter (n : Nat) : Nat := min n counterLimit

def tokensText (tokens : Dict RootId DeltaToken) : String := (tokensToJson tokens).render

def failuresText (items : List FailedItem) : String := (failuresToJson items).render

/-- The row that a record is stored as. -/
def ofRecord (r : Record) : Row where
  collection := r.collection.text
  status := r.status
  processed := counter r.progress.processed
  failed := counter r.progress.failed
  total := counter r.progress.total
  currentItem := r.progress.currentItem
  tokens := tokensText r.tokens
  failures := failuresText r.failures
  run := r.run.map RunId.text
  error := r.error
  startedAt := r.startedAt.map Time.microsText
  finishedAt := r.finishedAt.map Time.microsText
  updatedAt := Time.microsText r.updatedAt

def readTime (text : String) : Except RowFault Instant :=
  match Time.readStrict? text with
  | some t => .ok t
  | none => .error (.time text)

/-- A time that may be absent, which the empty text says too. -/
def readOptionalTime : Option String → Except RowFault (Option Instant)
  | none => .ok none
  | some text => if text.isEmpty then .ok none else (readTime text).map some

def readRun : Option String → Except RowFault (Option RunId)
  | none => .ok none
  | some text =>
    match RunId.read? text with
    | some run => .ok (some run)
    | none => .error (.run text)

def readCollection (text : String) : Except RowFault CollectionId :=
  match CollectionId.ofText text with
  | .ok c => .ok c
  | .error error => .error (.collection text error)

/-- The record that a row stands for; of several faults the one of the first column is reported. -/
def toRecord (row : Row) : Except RowFault Record := do
  let collection ← readCollection row.collection
  let tokens ← ((Json.read? row.tokens).bind tokensOfJson?).elim
    (.error (.tokens collection)) .ok
  let failures ← ((Json.read? row.failures).bind failuresOfJson?).elim
    (.error (.failures collection)) .ok
  let run ← readRun row.run
  let startedAt ← readOptionalTime row.startedAt
  let finishedAt ← readOptionalTime row.finishedAt
  let updatedAt ← readTime row.updatedAt
  .ok
    { collection
      status := row.status
      progress := ⟨row.processed, row.failed, row.total, row.currentItem⟩
      tokens
      failures
      run
      error := row.error
      startedAt
      finishedAt
      updatedAt }

/-- The later of two stored times, which is the greater of the texts. -/
def laterText (a b : String) : String := if a < b then b else a

end Row

end CollectionSync
