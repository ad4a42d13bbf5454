import CollectionSync.Command.Arguments
import CollectionSync.Command.Basic
import CollectionSync.Store.File
import Std.Time.DateTime.Timestamp

/-! The program. It answers what commands ask from files, the clock and the terminal. -/

namespace CollectionSync.Terminal

/-- The text of a file, none where there is no file. -/
def textOf? (path : String) : IO (Option String) := do
  try
    return some (← IO.FS.readFile path)
  catch
    | .noFileOrDirectory .. => return none
    | e => throw e

def readFile (path : String) : IO Command.FileText := do
  try
    match ← textOf? path with
    | some s => return .text s
    | none => return .missing
  catch e => return .unreadable (toString e)

def foundAt? (path : String) : IO (Option Database.Found) := do
  try
    return (← textOf? path).map Database.Found.ofText
  catch _ => return some .unusable

/-- Opens the store at a path and brings its schema up to date. -/
def openStore (path : String) : IO (Option (Except OpenError Unit)) := do
  match ← foundAt? path with
  | none => return none
  | some found =>
    match Database.openPath path found with
    | .error e => return some (.error e)
    | .ok db =>
      try
        IO.FS.writeFile path db.toText
        return some (.ok ())
      catch _ => return some (.error (.connection path))

/-- Performs an operation while no other program writes to the file. -/
def perform (path : String) (op : StoreOp) : IO (Except StoreError op.Reply) := do
  try
    let file ← IO.FS.Handle.mk path .readWrite
    file.lock
    match Database.ofText? (← file.readToEnd) with
    | none => return .error Database.queryFailed
    | some db =>
      let (reply, db) := db.run op
      file.rewind
      file.truncate
      file.putStr db.toText
      file.flush
      return reply
  catch e => return .error (.unavailable (toString e))

def now : IO Instant := do
  let nanos := (← Std.Time.Timestamp.now).toNanosecondsSinceUnixEpoch.val
  return ⟨nanos / 1000000000, (nanos % 1000000000).toNat⟩

def answer (store : IO.Ref String) : (q : CommandAsk) → IO q.Answer
  | .say .out line => IO.println line
  | .say .err line => IO.eprintln line
  | .file path => readFile path
  | .openStore path => do
    store.set path
    openStore path
  | .keeper .clock => now
  | .keeper (.store op) => do perform (← store.get) op
  | .keeper .watched => return false
  | .keeper (.announce _) => return ()

/-- Answers all questions of a command. -/
def carryOut {α : Type} (store : IO.Ref String) : Commanding α → IO α
  | .done a => return a
  | .ask q next => do carryOut store (next (← answer store q))

/-- Goes on with a watch until it ends. -/
partial def follow (store : IO.Ref String) : Command.Outcome → IO Command.Ending
  | .ended e => return e
  | .watching w => do
    let outcome ← carryOut store w.look
    match outcome with
    | .ended _ => pure ()
    | .watching w => IO.sleep (min w.pauseMillis (UInt32.size - 1)).toUInt32
    follow store outcome

def call (i : Command.Invocation) : IO UInt32 := do
  let directories := Directories.ofUser (← IO.getEnv "HOME") (← IO.getEnv "XDG_CONFIG_HOME")
    (← IO.getEnv "XDG_DATA_HOME")
  let store ← IO.mkRef ""
  let ending ← follow store (← carryOut store (i.run directories))
  if let some text := ending.complaint then IO.eprintln text
  return ending.exitCode

end CollectionSync.Terminal

open CollectionSync Command in
def main (args : List String) : IO UInt32 := do
  match Reading.ofArguments args with
  | .run i => Terminal.call i
  | .help t =>
    t.manual.lines.forM IO.println
    return 0
  | .version =>
    IO.println versionLine
    return 0
  | .misuse =>
    IO.eprintln ("Usage: " ++ Topic.program.usage)
    return 2
