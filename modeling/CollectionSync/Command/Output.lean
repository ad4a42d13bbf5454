import CollectionSync.Json.Printer
import CollectionSync.Json.Sorted

/-! What commands have to say, and the two forms of it: lines for people, and JSON documents of one
line each for programs. -/

namespace CollectionSync.Command

inductive Form where
  | human
  | json
  deriving DecidableEq

/-- Where a line goes: results, or complaints. -/
inductive Channel where
  | out
  | err
  deriving DecidableEq

inductive Notice where
  | success (text : String)
  | info (text : String)
  | warning (text : String)
  | error (text : String)
  /-- A result for programs. -/
  | document (j : Json)
  /-- A line for people without any mark. -/
  | bare (text : String)

namespace Notice

/-- A notice for people; they are not shown documents. -/
def forPeople : Notice → Option (Channel × String)
  | success text => some (.out, "✓ " ++ text)
  | info text => some (.out, "  " ++ text)
  | warning text => some (.err, "⚠ Warning: " ++ text)
  | error text => some (.err, "✗ Error: " ++ text)
  | document _ => none
  | bare text => some (.out, text)

/-- A notice for programs, which are spared remarks on the way. -/
def forPrograms : Notice → Option (Channel × String)
  | success text =>
    some (.out, (Json.obj [("message", .str text), ("success", .bool true)]).render)
  | info _ => none
  | warning text =>
    some (.err, (Json.obj [("level", .str "warning"), ("message", .str text)]).render)
  | error text => some (.err, (Json.obj [("error", .str text), ("success", .bool false)]).render)
  | document j => some (.out, j.sorted.render)
  | bare _ => none

def inForm : Form → Notice → Option (Channel × String)
  | .human => forPeople
  | .json => forPrograms

end Notice

/-- How a command ends. -/
inductive Ending where
  | success
  /-- What could not be done, and why. -/
  | failure (context cause : String)
  /-- The command stopped in the middle of its work. -/
  | breakdown (message : String)
  deriving DecidableEq

namespace Ending

def exitCode : Ending → UInt32
  | success => 0
  | failure .. => 1
  | breakdown _ => 101

/-- The complaint at the end: each line of the cause stands four places in. -/
def complaint : Ending → Option String
  | success => none
  | failure context cause =>
    some ("Error: " ++ context ++ "\n\nCaused by:\n"
      ++ String.intercalate "\n" ((cause.splitOn "\n").map ("    " ++ ·)))
  | breakdown message => some message

end Ending

end CollectionSync.Command
