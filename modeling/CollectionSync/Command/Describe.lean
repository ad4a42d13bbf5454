import CollectionSync.Command.Output
import CollectionSync.Record.Json
import CollectionSync.Rounding

/-! Records in words. -/

namespace CollectionSync.Command

/-- Failed items that are listed by name. -/
def failuresShown : Nat := 20

/-- Date and time of day to the second. -/
def timeText (t : Instant) : String :=
  let clock := String.ofList (Time.clockText t.fields)
  clock.map (fun c => if c = 'T' then ' ' else c) ++ " UTC"

/-- The share of settled items as a whole number of percent. -/
def percentText? (p : Progress) : Option String :=
  p.percent?.map fun x => toString (Rounding.nearestWhole x)

/-- The counters in one line; none where their sum leaves the range of a counter. -/
def progressLine? (p : Progress) : Option String :=
  (percentText? p).map fun percent =>
    "Progress: " ++ toString p.processed ++ "/" ++ toString p.total ++ " processed, "
      ++ toString p.failed ++ " failed (" ++ percent ++ "%)"
      ++ if p.currentItem.isEmpty then "" else " - last: " ++ p.currentItem

/-- The first line on a record, louder the worse its status is. -/
def headline (r : Record) : Notice :=
  let text := r.collection.text ++ " - " ++ r.status.text
  match r.status with
  | .failed => .error text
  | .completedWithErrors | .cancelled => .warning text
  | _ => .success text

/-- A line for a value that may be missing. -/
def labelledLine {α : Type} (label : String) (text : α → String) (value : Option α) : List Notice :=
  (value.map fun a => Notice.info (label ++ ": " ++ text a)).toList

/-- What is known of the last run, up to its counters. -/
def runNotices (r : Record) : List Notice :=
  labelledLine "Run" RunId.text r.run ++ labelledLine "Started" timeText r.startedAt
    ++ labelledLine "Finished" timeText r.finishedAt ++ labelledLine "Error" id r.error
    ++ [.info ""]

def tokenNotices (r : Record) : List Notice :=
  if r.tokens.entries.isEmpty then []
  else [.info "", .info "Delta tokens:"]
    ++ r.tokens.entries.map fun (root, token) => .info ("  " ++ root.text ++ ": " ++ token.text)

def failureNotices (r : Record) : List Notice :=
  let count := r.failures.length
  if r.failures.isEmpty then []
  else [.info "", .info ("Failed items (" ++ toString count ++ "):")]
    ++ (r.failures.take failuresShown).map (fun i => .info ("  " ++ i.text))
    ++ if count > failuresShown then
        [.info ("  ... and " ++ toString (count - failuresShown) ++ " more")]
      else []

/-- A record in words: the lines before its counters, and from the counters on where they have a
share in percent. -/
def recordNotices (r : Record) : List Notice × Option (List Notice) :=
  if r.status = .idle then ([headline r, .info "Never synced"], some [])
  else (headline r :: runNotices r,
    (progressLine? r.progress).map fun line => .info line :: tokenNotices r ++ failureNotices r)

end CollectionSync.Command
