import CollectionSync.Store.Schema

/-! The store that keeps records in a table of a database file. Every operation is one conditional
statement on the table: the rows it holds for are changed, all others stay, and what it answers is
read from the rows that it changed. -/

namespace CollectionSync

namespace Database

/-- A file without content. -/
def blank : Database := ⟨0, .absent⟩

/-- The result of a query on a table that is not there, or not the right one. -/
def queryFailed : StoreError := .unavailable "Query failed"

/-- What is found where a database is to be opened. -/
inductive Found where
  | nothing
  | database (db : Database)
  /-- The directory of the path cannot be made: a file of its name is in the way. -/
  | fileInTheWay
  /-- A directory, or a file that is no database. -/
  | unusable
  deriving DecidableEq

/-- The directory of a path. -/
def parentPath (path : String) : String :=
  String.ofList (path.toList.reverse.dropWhile (· != '/')).reverse.dropLast

/-- Opens the database at a path, or makes a new one there. -/
def openPath (path : String) : Found → Except OpenError Database
  | .nothing => blank.openAt
  | .database db => db.openAt
  | .fileInTheWay => .error (.connection (parentPath path))
  | .unusable => .error (.connection path)

/-- Runs a statement on the rows. -/
def withRows {α : Type} (db : Database) (f : List Row → Except StoreError α × List Row) :
    Except StoreError α × Database :=
  match db.table with
  | .records rows =>
    let (answer, rows) := f rows
    (answer, { db with table := .records rows })
  | _ => (.error queryFailed, db)

/-- Changes the rows for which the condition holds, and gives them as changed. -/
def update (rows : List Row) (condition : Row → Bool) (change : Row → Row) :
    List Row × List Row :=
  ((rows.filter condition).map change, rows.map fun r => if condition r then change r else r)

/-- Reads a row that a statement returned. -/
def readRow (row : Row) : Except StoreError Record :=
  match row.toRecord with
  | .ok r => .ok r
  | .error fault => .error (.corrupt fault)

def find? (rows : List Row) (c : CollectionId) : Option Row :=
  rows.find? fun r => r.collection = c.text

def getRows (c : CollectionId) (rows : List Row) : Except StoreError (Option Record) :=
  match find? rows c with
  | none => .ok none
  | some row => (readRow row).map some

/-- The record of a collection that a statement has just seen. -/
def existing (c : CollectionId) (rows : List Row) : Except StoreError Record :=
  match getRows c rows with
  | .ok (some r) => .ok r
  | .ok none => .error (.missing c)
  | .error e => .error e

def get (db : Database) (c : CollectionId) : Except StoreError (Option Record) × Database :=
  db.withRows fun rows => (getRows c rows, rows)

def status (db : Database) (c : CollectionId) : Except StoreError (Option Status) × Database :=
  db.withRows fun rows => (.ok ((find? rows c).map (·.status)), rows)

def compareAndSet (db : Database) (c : CollectionId) (expected : List Status) (next : Status)
    (now : Instant) : Except StoreError Bool × Database :=
  if expected.isEmpty then (.ok false, db)
  else match forbidden? expected next with
    | some stored => (.error (.refused (.badMove stored next)), db)
    | none => db.withRows fun rows =>
      let (changed, rows) := update rows
        (fun r => r.collection = c.text && expected.contains r.status)
        (fun r => { r with
          status := next, updatedAt := Row.laterText r.updatedAt (Time.microsText now) })
      (.ok (changed.length == 1), rows)

/-- The row of a collection as its first run claims it. -/
def firstClaim (c : CollectionId) (run : RunId) (now : String) : Row where
  collection := c.text
  status := .syncing
  processed := 0
  failed := 0
  total := 0
  currentItem := ""
  tokens := "\x7b\x7d"
  failures := "[]"
  run := some run.text
  error := none
  startedAt := some now
  finishedAt := none
  updatedAt := now

/-- A row as a new run claims it: the tokens stay, all that tells of the last run goes. -/
def nextClaim (run : RunId) (now : String) (r : Row) : Row :=
  { r with
    status := .syncing
    processed := 0
    failed := 0
    total := 0
    currentItem := ""
    failures := "[]"
    run := some run.text
    error := none
    startedAt := some now
    finishedAt := none
    updatedAt := Row.laterText r.updatedAt now }

def claim (db : Database) (c : CollectionId) (run : RunId) (now : Instant) :
    Except StoreError ClaimOutcome × Database :=
  db.withRows fun rows =>
    let text := Time.microsText now
    match find? rows c with
    | none =>
      let row := firstClaim c run text
      ((readRow row).map .claimed, rows ++ [row])
    | some _ =>
      let (changed, rows) := update rows
        (fun r => r.collection = c.text && r.status != .syncing) (nextClaim run text)
      match changed with
      | row :: _ => ((readRow row).map .claimed, rows)
      | [] => ((existing c rows).map .conflict, rows)

def updateProgress (db : Database) (c : CollectionId) (run : RunId) (p : Progress) (now : Instant) :
    Except StoreError ProgressOutcome × Database :=
  match p.settled? with
  | none => (.error .counterOverflow, db)
  | some settled => db.withRows fun rows =>
    let (changed, rows) := update rows
      (fun r => r.collection = c.text && r.status == .syncing && r.run == some run.text
        && r.processed + r.failed ≤ Row.counter settled)
      (fun r => { r with
        processed := Row.counter p.processed
        failed := Row.counter p.failed
        total := Row.counter p.total
        currentItem := p.currentItem
        updatedAt := Row.laterText r.updatedAt (Time.microsText now) })
    (.ok (if changed.length = 1 then .applied else .discarded), rows)

def requestCancel (db : Database) (c : CollectionId) (now : Instant) :
    Except StoreError Bool × Database :=
  db.compareAndSet c [.syncing] .cancelled now

/-- A row as the end of its run leaves it. -/
def closed (report : RunReport) (now : String) (r : Row) : Row :=
  { r with
    status := Status.resolve r.status report.status
    tokens := Row.tokensText report.tokens
    failures := Row.failuresText report.failures
    processed := Row.counter report.progress.processed
    failed := Row.counter report.progress.failed
    total := Row.counter report.progress.total
    currentItem := report.progress.currentItem
    error := if report.status = .failed then report.error else none
    finishedAt := some now
    updatedAt := Row.laterText r.updatedAt now }

def finish (db : Database) (c : CollectionId) (run : RunId) (report : RunReport) (now : Instant) :
    Except StoreError Record × Database :=
  if report.status.isTerminal then
    db.withRows fun rows =>
      let (changed, rows) := update rows
        (fun r => r.collection = c.text && r.run == some run.text
          && (r.status == .syncing || r.status == .cancelled))
        (closed report (Time.microsText now))
      match changed with
      | row :: _ => (readRow row, rows)
      | [] =>
        match existing c rows with
        | .error e => (.error e, rows)
        | .ok r =>
          if r.run = some run then (.error (.refused (.badMove r.status report.status)), rows)
          else (.error (.refused (.notOwner c run)), rows)
  else (.error (.refused (.badMove .syncing report.status)), db)

/-- Rows in the order of their last write, rows written together in the order they were made. -/
def byLastWrite (rows : List Row) : List Row :=
  rows.mergeSort fun a b => !(b.updatedAt < a.updatedAt)

def isStale (staleBefore : String) (r : Row) : Bool :=
  r.status == .syncing && r.updatedAt < staleBefore

def interrupted (reason now : String) (r : Row) : Row :=
  { r with
    status := .failed
    error := some reason
    finishedAt := some now
    updatedAt := Row.laterText r.updatedAt now }

/-- Reads the collection of a row that a recovery changed. -/
def readCollection (row : Row) : Except StoreError CollectionId :=
  match Row.readCollection row.collection with
  | .ok c => .ok c
  | .error fault => .error (.corrupt fault)

def recover (db : Database) (staleBefore : Instant) (reason : String) (now : Instant) :
    Except StoreError (List CollectionId) × Database :=
  db.withRows fun rows =>
    let stale := isStale (Time.microsText staleBefore)
    let (_, changed) := update rows stale (interrupted reason (Time.microsText now))
    let found := (byLastWrite (rows.filter stale)).mapM readCollection
    (found.map fun l => l.mergeSort fun a b => !(b.text < a.text), changed)

/-- Answers an operation and gives the database afterwards. -/
def run (db : Database) : (op : StoreOp) → Except StoreError op.Reply × Database
  | .get c => db.get c
  | .status c => db.status c
  | .compareAndSet c expected next now => db.compareAndSet c expected next now
  | .claim c run now => db.claim c run now
  | .updateProgress c run p now => db.updateProgress c run p now
  | .requestCancel c now => db.requestCancel c now
  | .finish c run report now => db.finish c run report now
  | .recover staleBefore reason now => db.recover staleBefore reason now

/-- Stores records as they are. -/
def ofRecords (records : List Record) : Database :=
  ⟨schemaVersion, .records (records.map Row.ofRecord)⟩

end Database

end CollectionSync
