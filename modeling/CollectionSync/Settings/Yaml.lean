import CollectionSync.Settings.Basic
import CollectionSync.Yaml.Node

/-! Settings as YAML. A section is a mapping or left out; unknown names are ignored, known ones may
come once. Numbers and truth values are plain scalars; a text is any scalar as it is written. -/

namespace CollectionSync

namespace Yaml.Node

/-- The digits of a number in the given base; any other text has no value. -/
def digits? (base : Nat) (cs : List Char) : Option Nat :=
  if cs.isEmpty then none
  else cs.foldlM (fun n c => do
    let d ← hexDigit? c
    if d < base then some (n * base + d) else none) 0

/-- Whether a text is a number in decimal digits with zeros in front. -/
def isZeroPadded (cs : List Char) : Bool :=
  cs.length > 1 && cs.head? == some '0' && cs.all fun c => '0' ≤ c && c ≤ '9'

/-- A number without a sign: decimal, or `0x`, `0o`, `0b` and digits in that base. -/
def magnitude? (cs : List Char) : Option Nat :=
  match cs with
  | '0' :: 'x' :: rest => digits? 16 rest
  | '0' :: 'o' :: rest => digits? 8 rest
  | '0' :: 'b' :: rest => digits? 2 rest
  | cs => if isZeroPadded cs then none else digits? 10 cs

/-- A number that is not negative; a minus sign may stand before zero. -/
def number? (cs : List Char) : Option Nat :=
  match cs with
  | '+' :: rest => magnitude? rest
  | '-' :: rest => (magnitude? rest).filter (· == 0)
  | cs => magnitude? cs

def nat? : Node → Option Nat
  | scalar text true => number? text.toList
  | _ => none

def word64? (n : Node) : Option UInt64 :=
  n.nat?.bind fun k => if k < UInt64.size then some k.toUInt64 else none

def word32? (n : Node) : Option UInt32 :=
  n.nat?.bind fun k => if k < UInt32.size then some k.toUInt32 else none

def bool? : Node → Option Bool
  | scalar text true =>
    if ["true", "True", "TRUE"].contains text then some true
    else if ["false", "False", "FALSE"].contains text then some false
    else none
  | _ => none

def text? : Node → Option String
  | scalar text _ => some text
  | _ => none

/-- The entries of a mapping by name; nothing at all is a mapping without entries. -/
def members? : Node → Option (List (String × Node))
  | mapping entries => entries.mapM fun (key, value) => (key.text?).map (·, value)
  | scalar "" true => some []
  | _ => none

/-- The value of a member that may be left out. -/
def member? {α : Type} (members : List (String × Node)) (name : String) (read : Node → Option α)
    (absent : α) : Option α :=
  match members.filter fun m => m.1 = name with
  | [] => some absent
  | [(_, value)] => read value
  | _ => none

end Yaml.Node

namespace Settings

open Yaml (Node)

def syncOfNode? (s : SyncSettings) (n : Node) : Option SyncSettings := do
  let members ← n.members?
  let word (name : String) (absent : UInt64) := Node.member? members name Node.word64? absent
  some
    { maxConcurrency := ← word "max_concurrency" s.maxConcurrency
      itemTimeoutSecs := ← word "item_timeout_secs" s.itemTimeoutSecs
      failedItemsCap := ← word "failed_items_cap" s.failedItemsCap
      staleRunAfterSecs := ← word "stale_run_after_secs" s.staleRunAfterSecs
      eventBuffer := ← word "event_buffer" s.eventBuffer
      cancelPollMillis := ← word "cancel_poll_interval_ms" s.cancelPollMillis }

def retryOfNode? (s : RetrySettings) (n : Node) : Option RetrySettings := do
  let members ← n.members?
  some
    { maxRetries := ← Node.member? members "max_retries" Node.word32? s.maxRetries
      baseDelayMillis := ← Node.member? members "base_delay_ms" Node.word64? s.baseDelayMillis }

def remoteOfNode? (s : RemoteSettings) (n : Node) : Option RemoteSettings := do
  let members ← n.members?
  some
    { baseUrl := ← Node.member? members "base_url" Node.text? s.baseUrl
      requestTimeoutSecs :=
        ← Node.member? members "request_timeout_secs" Node.word64? s.requestTimeoutSecs }

def storeOfNode? (s : StoreSettings) (n : Node) : Option StoreSettings := do
  let members ← n.members?
  some { databasePath := ← Node.member? members "database_path" Node.text? s.databasePath }

def loggingOfNode? (s : LoggingSettings) (n : Node) : Option LoggingSettings := do
  let members ← n.members?
  some
    { level := ← Node.member? members "level" Node.text? s.level
      json := ← Node.member? members "json" Node.bool? s.json }

/-- The settings of a node, with those of `s` where it sets nothing. -/
def ofNode? (s : Settings) (n : Node) : Option Settings := do
  let members ← n.members?
  some
    { sync := ← Node.member? members "sync" (syncOfNode? s.sync) s.sync
      retry := ← Node.member? members "retry" (retryOfNode? s.retry) s.retry
      remote := ← Node.member? members "remote" (remoteOfNode? s.remote) s.remote
      store := ← Node.member? members "store" (storeOfNode? s.store) s.store
      logging := ← Node.member? members "logging" (loggingOfNode? s.logging) s.logging }

def ofYaml? (d : Directories) (text : String) : Option Settings :=
  (Node.ofText? text).bind (ofNode? (initial d))

end Settings

/-- Why settings cannot be had from a file. -/
inductive SettingsError where
  | unreadable (path : String)
  | malformed (path : String)
  deriving DecidableEq

def SettingsError.message : SettingsError → String
  | unreadable path => "Failed to read config file " ++ path
  | malformed path => "Failed to parse config file " ++ path

namespace Settings

/-- The settings in a file with the given content, none where there is no such file. -/
def load (d : Directories) (path : String) (content : Option String) :
    Except SettingsError Settings :=
  match content with
  | none => .error (.unreadable path)
  | some text =>
    match ofYaml? d text with
    | none => .error (.malformed path)
    | some s => .ok s

/-- The settings in a file, or the initial ones where it cannot be used. -/
def loadOrInitial (d : Directories) (path : String) (content : Option String) : Settings :=
  match load d path content with
  | .ok s => s
  | .error _ => initial d

end Settings

end CollectionSync
