import CollectionSync.Store.Database

/-! Changes to a database from outside: another program may write to the file, and what it leaves
behind has to be told from a record. -/

namespace CollectionSync

/-- The value of one column. -/
inductive Cell where
  | null
  | text (s : String)
  | number (n : Int)
  deriving DecidableEq

namespace Cell

/-- The value in a column of text, which holds numbers as their digits. -/
def text? : Cell → Option String
  | null => none
  | text s => some s
  | number n => some (toString n)

/-- The value in a column of counters; none where the column would refuse it. -/
def counter? : Cell → Option Nat
  | number n => if 0 ≤ n ∧ n.toNat ≤ Row.counterLimit then some n.toNat else none
  | _ => none

end Cell

/-- The row with one column changed; none where the table refuses the value. -/
def Row.setColumn? (r : Row) (column : String) (value : Cell) : Option Row :=
  match column with
  | "collection_id" => value.text?.map fun s => { r with collection := s }
  | "status" => (value.text?.bind Status.ofText?).map fun s => { r with status := s }
  | "processed" => value.counter?.map fun n => { r with processed := n }
  | "failed" => value.counter?.map fun n => { r with failed := n }
  | "total" => value.counter?.map fun n => { r with total := n }
  | "current_item" => value.text?.map fun s => { r with currentItem := s }
  | "delta_tokens" => value.text?.map fun s => { r with tokens := s }
  | "failed_items" => value.text?.map fun s => { r with failures := s }
  | "run_id" => some { r with run := value.text? }
  | "error" => some { r with error := value.text? }
  | "started_at" => some { r with startedAt := value.text? }
  | "finished_at" => some { r with finishedAt := value.text? }
  | "updated_at" => value.text?.map fun s => { r with updatedAt := s }
  | _ => none

namespace Database

/-- Writes one column of the row of a collection, and says how many rows that changed. -/
def setColumn (db : Database) (c : CollectionId) (column : String) (value : Cell) :
    Except StoreError Nat × Database :=
  db.withRows fun rows =>
    match find? rows c with
    | none => (.ok 0, rows)
    | some row =>
      match row.setColumn? column value with
      | none => (.error queryFailed, rows)
      | some changed =>
        if changed.collection != row.collection
            && rows.any (fun r => r.collection == changed.collection) then
          (.error queryFailed, rows)
        else (.ok 1, rows.map fun r => if r.collection = c.text then changed else r)

def setVersion (db : Database) (version : Int) : Database := { db with version }

def dropTable (db : Database) : Database := { db with table := .absent }

/-- Puts a table with other columns in the place of the records, as if no schema step had run. -/
def replaceTable (_ : Database) : Database := ⟨0, .foreign ⟨["x"], []⟩⟩

end Database

end CollectionSync
