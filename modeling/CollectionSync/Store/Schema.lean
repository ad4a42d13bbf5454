import CollectionSync.Program
import CollectionSync.Store.Row

/-! The schema of a database, and how it is brought up to date when the database is opened. Each
schema step is one transaction; what is not committed leaves no trace. -/

namespace CollectionSync

/-- A table that this library has not made, with its values as texts. -/
structure ForeignTable where
  columns : List String
  rows : List (List String)
  deriving DecidableEq

/-- What stands in the place of the table of records. -/
inductive TableState where
  | records (rows : List Row)
  /-- A table of that name with other columns. -/
  | foreign (table : ForeignTable)
  | absent
  deriving DecidableEq

/-- A database: the number of schema steps that it says were applied, and the table. -/
structure Database where
  version : Int
  table : TableState
  deriving DecidableEq

def TableState.columns? : TableState → Option (List String)
  | .records _ => some Row.columns
  | .foreign table => some table.columns
  | .absent => none

/-! ## Statements -/

/-- A statement of a schema step. -/
inductive SchemaStatement where
  /-- Makes the table of records, unless there is a table of its name. -/
  | createTable
  /-- Makes an index on columns of the table. -/
  | createIndex (columns : List String)
  | setVersion (version : Nat)
  deriving DecidableEq

namespace SchemaStatement

/-- Whether a statement can be carried out. -/
def isPossible (db : Database) : SchemaStatement → Bool
  | createIndex columns =>
    match db.table.columns? with
    | some found => columns.all found.contains
    | none => false
  | createTable | setVersion _ => true

/-- What a statement makes of a database. -/
def effect (db : Database) : SchemaStatement → Database
  | createTable =>
    match db.table with
    | .absent => { db with table := .records [] }
    | .records _ | .foreign _ => db
  | createIndex _ => db
  | setVersion version => { db with version }

end SchemaStatement

/-- The schema steps of this library; the step with index `n` leads from version `n` to `n + 1`. -/
def schema : List (List SchemaStatement) := [[.createTable, .createIndex ["status", "updated_at"]]]

def schemaVersion : Nat := schema.length

/-- Why a database cannot be opened. -/
inductive OpenError where
  /-- The path cannot be used, or the file is no database. -/
  | connection (path : String)
  | versionUnread
  | newerSchema (version : Int)
  | schemaStep (step : Nat)
  deriving DecidableEq

def OpenError.message : OpenError → String
  | .connection path => "Connection failed: " ++ path
  | .versionUnread => "Migration failed"
  | .newerSchema version =>
    "Migration failed: database schema version " ++ toString version
      ++ " is newer than this build (" ++ toString schemaVersion ++ ")"
  | .schemaStep step => "Migration failed: schema step " ++ toString step

/-! ## Bringing the schema up to date -/

/-- What is asked of the connection to a database. -/
inductive SchemaAsk where
  | version
  | begin
  | execute (statement : SchemaStatement)
  | commit

/-- The version, where it can be read, or whether it was done. -/
abbrev SchemaAsk.Answer : SchemaAsk → Type
  | .version => Option Int
  | .begin | .execute _ | .commit => Bool

abbrev Migrating := Program SchemaAsk SchemaAsk.Answer

namespace Migrating

/-- Executes statements up to the first that fails. -/
def executeAll : List SchemaStatement → Migrating Bool
  | [] => pure true
  | statement :: rest => do
    if ← (.question (SchemaAsk.execute statement) : Migrating Bool) then executeAll rest
    else pure false

/-- Applies a schema step in a transaction of its own, which is given up unless all of it
succeeds. -/
def applyStep (statements : List SchemaStatement) (version : Nat) : Migrating Bool := do
  if ← (.question SchemaAsk.begin : Migrating Bool) then
    if ← executeAll (statements ++ [.setVersion version]) then
      (.question SchemaAsk.commit : Migrating Bool)
    else pure false
  else pure false

/-- Applies schema steps, each with its index, up to the first that fails. -/
def applySteps : List (List SchemaStatement × Nat) → Migrating (Except OpenError Unit)
  | [] => pure (.ok ())
  | (statements, index) :: rest => do
    if ← applyStep statements (index + 1) then applySteps rest
    else pure (.error (.schemaStep (index + 1)))

/-- Applies the schema steps that the database says were not applied. A negative version counts as
none. -/
def migrate : Migrating (Except OpenError Unit) := do
  match ← (.question SchemaAsk.version : Migrating (Option Int)) with
  | none => pure (.error .versionUnread)
  | some version =>
    let current := version.toNat
    if current > schema.length then pure (.error (.newerSchema current))
    else applySteps (schema.zipIdx.drop current)

end Migrating

/-- A connection to a database. -/
structure Connection where
  /-- What is committed. -/
  stored : Database
  /-- What the open transaction has made of it. -/
  pending : Option Database

namespace Connection

/-- Executes a statement, which outside of a transaction is a transaction of its own. -/
def execute (c : Connection) (statement : SchemaStatement) : Bool × Connection :=
  match c.pending with
  | none =>
    if statement.isPossible c.stored then (true, { c with stored := statement.effect c.stored })
    else (false, c)
  | some db =>
    if statement.isPossible db then (true, { c with pending := some (statement.effect db) })
    else (false, c)

/-- How a connection answers where nothing fails but what the database itself rules out. -/
def answer : (q : SchemaAsk) → Connection → q.Answer × Connection
  | .version, c => (some (c.pending.getD c.stored).version, c)
  | .begin, c =>
    match c.pending with
    | none => (true, { c with pending := some c.stored })
    | some _ => (false, c)
  | .execute statement, c => c.execute statement
  | .commit, c =>
    match c.pending with
    | none => (false, c)
    | some db => (true, ⟨db, none⟩)

end Connection

namespace Database

/-- Brings the schema up to date; the result is what is stored then. -/
def openAt (db : Database) : Except OpenError Database :=
  let (result, c) := Migrating.migrate.run Connection.answer ⟨db, none⟩
  result.map fun _ => c.stored

end Database

end CollectionSync
