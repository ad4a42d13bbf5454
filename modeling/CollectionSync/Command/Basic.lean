import CollectionSync.Command.Describe
import CollectionSync.Command.Invocation
import CollectionSync.Run.Recovery
import CollectionSync.Settings.Fault
import CollectionSync.Settings.Printer
import CollectionSync.Settings.Yaml
import CollectionSync.Store.Database

/-! The commands with which an operator looks at the runs of collections and at the settings. A
command asks for files, for the store and for lines to be shown, and tells how it ended. -/

namespace CollectionSync.Command

/-- What is found at a path that is to be read. -/
inductive FileText where
  | missing
  | text (s : String)
  | unreadable (reason : String)
  deriving DecidableEq

def FileText.text? : FileText → Option String
  | text s => some s
  | _ => none

end Command

open Command

inductive CommandAsk where
  | say (channel : Channel) (line : String)
  | file (path : String)
  /-- Opens the store at a path; the answer is none where there is nothing. -/
  | openStore (path : String)
  /-- Asks the store that was opened. -/
  | keeper (q : KeeperAsk)

abbrev CommandAsk.Answer : CommandAsk → Type
  | .say .. => Unit
  | .file _ => FileText
  | .openStore _ => Option (Except OpenError Unit)
  | .keeper q => q.Answer

abbrev Commanding := Program CommandAsk CommandAsk.Answer

namespace Command

/-- A watch on the run of a collection. -/
structure Watch where
  collection : CollectionId
  form : Form
  pauseMillis : Nat
  /-- When the record that was shown last had been written. -/
  lastSeen : Option Instant
  deriving DecidableEq

inductive Outcome where
  | ended (e : Ending)
  /-- The watch goes on after a pause. -/
  | watching (w : Watch)
  deriving DecidableEq

def keeping {α : Type} (p : Keeping α) : Commanding α := p.lift CommandAsk.keeper fun _ a => a

def readFile (path : String) : Commanding FileText := .question (CommandAsk.file path)

/-- Shows notices, those that the form has words for. -/
def say (form : Form) : List Notice → Commanding Unit
  | [] => pure ()
  | notice :: rest => do
    match notice.inForm form with
    | none => say form rest
    | some (channel, line) =>
      (.question (CommandAsk.say channel line) : Commanding Unit)
      say form rest

/-- Opens the store of the settings; false where no collection was ever synced. -/
def openStore (s : Settings) : Commanding (Except Ending Bool) := do
  let path := s.store.databasePath
  match ← (.question (CommandAsk.openStore path) : Commanding (Option (Except OpenError Unit))) with
  | none => pure (.ok false)
  | some (.ok ()) => pure (.ok true)
  | some (.error e) => pure (.error (.failure ("Failed to open database " ++ path) e.message))

def readFailure (e : RunError) : Ending := .failure "Failed to read sync record" e.message

/-- The record of a collection, an idle one where there is no store. -/
def currentRecord (c : CollectionId) (stored : Bool) : Keeping (Except RunError Record) := do
  if stored then Keeper.current c else return .ok (.idle c (← Keeper.now))

/-- Shows a record in full. -/
def report (form : Form) (r : Record) : Commanding Ending := do
  match form with
  | .json =>
    say form [.document r.toJson]
    pure .success
  | .human =>
    say form (recordNotices r).1
    match (recordNotices r).2 with
    | none => pure (.breakdown StoreError.counterOverflow.message)
    | some rest =>
      say form rest
      pure .success

/-! ## Runs -/

def runStatus (form : Form) (s : Settings) (c : CollectionId) : Commanding Ending := do
  match ← openStore s with
  | .error e => pure e
  | .ok stored =>
    match ← keeping (currentRecord c stored) with
    | .error e => pure (readFailure e)
    | .ok record => report form record

/-- Asks the run of a collection to stop: whether there was one, and the status afterwards. -/
def requestCancel (c : CollectionId) (stored : Bool) : Keeping (Except Ending (Bool × Status)) := do
  if stored then
    match ← Keeper.requestCancel c with
    | .error e => pure (.error (.failure "Failed to request cancellation" e.message))
    | .ok requested =>
      match ← Keeper.current c with
      | .error e => pure (.error (readFailure e))
      | .ok record => pure (.ok (requested, record.status))
  else pure (.ok (false, .idle))

def cancelNotices (form : Form) (c : CollectionId) (requested : Bool) (status : Status) :
    List Notice :=
  match form with
  | .json => [.document (.obj
      [("collection", .str c.text), ("requested", .bool requested), ("status", .str status.text)])]
  | .human =>
    if requested then
      [.success ("Cancellation requested for " ++ c.text),
        .info "The worker stops at its next check and keeps its delta tokens."]
    else [.warning ("No sync running for " ++ c.text ++ " (status: " ++ status.text ++ ")")]

def runCancel (form : Form) (s : Settings) (c : CollectionId) : Commanding Ending := do
  match ← openStore s with
  | .error e => pure e
  | .ok stored =>
    match ← keeping (requestCancel c stored) with
    | .error e => pure e
    | .ok (requested, status) =>
      say form (cancelNotices form c requested status)
      pure .success

/-- The shortest pause of a watch in milliseconds. -/
def shortestPause : Nat := 50

def runWatch (form : Form) (s : Settings) (c : CollectionId) (everyMillis : Nat) :
    Commanding Outcome := do
  match ← openStore s with
  | .error e => pure (.ended e)
  | .ok false =>
    say form [.warning (c.text ++ " has never been synced")]
    pure (.ended .success)
  | .ok true => pure (.watching ⟨c, form, max everyMillis shortestPause, none⟩)

/-- The notice of a run in work; none where its counters have no share in percent. -/
def syncingNotice? (form : Form) (r : Record) : Option Notice :=
  match form with
  | .json => some (.document (.obj
      [("collection", .str r.collection.text), ("status", .str r.status.text),
        ("progress", r.progress.toJson)]))
  | .human => (progressLine? r.progress).map .info

/-- One look at the record. A run in work is shown when its record has changed since the last look,
and the end of the run ends the watch. -/
def Watch.look (w : Watch) : Commanding Outcome := do
  match ← keeping (Keeper.current w.collection) with
  | .error e => pure (.ended (readFailure e))
  | .ok r =>
    if r.status ≠ .syncing then return .ended (← report w.form r)
    else if w.lastSeen = some r.updatedAt then pure (.watching w)
    else
      match syncingNotice? w.form r with
      | none => pure (.ended (.breakdown StoreError.counterOverflow.message))
      | some notice =>
        say w.form [notice]
        pure (.watching { w with lastSeen := some r.updatedAt })

/-- Fails the records of runs that are gone, none where there is no store. -/
def recoverRuns (threshold : Span) (stored : Bool) :
    Keeping (Except Ending (List CollectionId)) := do
  if stored then
    match staleBefore threshold (← Keeper.now) with
    | .error e => pure (.error (.breakdown e.message))
    | .ok t =>
      match ← Keeper.recover t interruptedReason with
      | .error e => pure (.error (.failure "Failed to recover interrupted runs" e.message))
      | .ok recovered => pure (.ok recovered)
  else pure (.ok [])

def recoverNotices (form : Form) (threshold : Span) (recovered : List CollectionId) : List Notice :=
  match form with
  | .json => [.document (.obj
      [("recovered", .arr (recovered.map fun c => .str c.text)),
        ("stale_after_secs", .nat threshold.seconds)])]
  | .human =>
    let count := recovered.length
    if recovered.isEmpty then [.success "No interrupted runs found"]
    else .success ("Marked " ++ toString count ++ " interrupted run"
        ++ (if count = 1 then "" else "s") ++ " as failed:")
      :: recovered.map fun c => .info ("  " ++ c.text)

def runRecover (form : Form) (s : Settings) (staleAfterSecs : Option UInt64) :
    Commanding Ending := do
  let threshold := (staleAfterSecs.map fun n => Span.ofSeconds n.toNat).getD s.staleRunAfter
  if threshold.seconds > thresholdLimit then
    pure (.failure "Stale run threshold out of range" thresholdFault)
  else
    match ← openStore s with
    | .error e => pure e
    | .ok stored =>
      match ← keeping (recoverRuns threshold stored) with
      | .error e => pure e
      | .ok recovered =>
        say form (recoverNotices form threshold recovered)
        pure .success

/-! ## Settings -/

/-- The lines of a text; one that ends with a line break has no empty last line. -/
def linesOf (text : String) : List String :=
  let lines := text.splitOn "\n"
  if lines.getLast? = some "" then lines.dropLast else lines

def displayNotices (form : Form) (s : Settings) (path : String) (file : FileText) : List Notice :=
  match form with
  | .json => [.document s.toJson]
  | .human =>
    .success (if file = .missing then "Default configuration (" ++ path ++ " not found)"
      else "Configuration (" ++ path ++ ")")
    :: .info "" :: (linesOf s.toYaml).map .info

/-- The result of a check for programs. -/
def checkDocument (path : String) (valid : Bool) (errors : List String)
    (more : List (String × Json)) : Notice :=
  .document (.obj
    ([("valid", .bool valid), ("config_path", .str path), ("errors", .arr (errors.map .str))]
      ++ more))

def faultNotices (path : String) (faults : List SettingsFault) : List Notice :=
  if faults.isEmpty then [.success "Configuration is valid", .info ("File: " ++ path)]
  else
    [.error ("Configuration has " ++ toString faults.length ++ " error"
        ++ (if faults.length = 1 then "" else "s") ++ ":"),
      .info ("File: " ++ path), .info ""]
    ++ faults.map fun f => .info ("  " ++ f.field ++ " - " ++ f.message)

/-- Why the settings cannot be had, with what the system says to it. -/
def loadFault (e : SettingsError) (file : FileText) : String :=
  match e, file with
  | .unreadable _, .unreadable reason => e.message ++ ": " ++ reason
  | _, _ => e.message

def checkNotices (form : Form) (d : Directories) (path : String) (file : FileText) : List Notice :=
  if file = .missing then
    match form with
    | .json =>
      [checkDocument path true []
        [("note", .str "Configuration file not found. Using defaults.")]]
    | .human =>
      [.info ("Configuration file not found at " ++ path), .info "Defaults are in effect."]
  else
    match form, Settings.load d path file.text? with
    | .json, .error e => [checkDocument path false [loadFault e file] []]
    | .human, .error e => [.error (loadFault e file)]
    | .json, .ok s => [checkDocument path s.isValid (s.faults.map SettingsFault.text) []]
    | .human, .ok s => faultNotices path s.faults

def locationNotices (form : Form) (path : String) (file : FileText) : List Notice :=
  match form with
  | .json => [.document (.obj [("config_path", .str path), ("exists", .bool (file ≠ .missing))])]
  | .human => [.bare path]

def settingsNotices (view : SettingsView) (form : Form) (d : Directories) (s : Settings)
    (path : String) (file : FileText) : List Notice :=
  match view with
  | .display => displayNotices form s path file
  | .check => checkNotices form d path file
  | .location => locationNotices form path file

/-! ## Any command -/

/-- Reads the name of a collection for a command that needs one. -/
def withCollection (raw : String) (next : CollectionId → Commanding Outcome) : Commanding Outcome :=
  match CollectionId.ofText raw with
  | .error e => pure (.ended (.failure ("Invalid collection id '" ++ raw ++ "'") e.message))
  | .ok c => next c

def Invocation.run (d : Directories) (i : Invocation) : Commanding Outcome := do
  let path := i.settingsPath.getD d.settingsFile
  let file ← readFile path
  let s := Settings.loadOrInitial d path file.text?
  match i.action with
  | .status c => withCollection c fun c => return .ended (← runStatus i.form s c)
  | .cancel c => withCollection c fun c => return .ended (← runCancel i.form s c)
  | .watch c everyMillis => withCollection c fun c => runWatch i.form s c everyMillis
  | .recover staleAfterSecs => return .ended (← runRecover i.form s staleAfterSecs)
  | .settings view =>
    say i.form (settingsNotices view i.form d s path file)
    pure (.ended .success)

end Command

end CollectionSync
