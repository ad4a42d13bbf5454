import CollectionSync.Json.Basic
import CollectionSync.Run.Rules

/-! The settings of the program: how runs work, where the remote files and the records are, and what
holds where nothing is set. -/

namespace CollectionSync

/-- The directories under which the program keeps its files. -/
structure Directories where
  settings : String
  data : String
  deriving DecidableEq

namespace Directories

/-- The settings file that is read unless another one is named. -/
def settingsFile (d : Directories) : String := d.settings ++ "/deltamirror/config.yaml"

def database (d : Directories) : String := d.data ++ "/deltamirror/state.db"

/-- A directory that is named by an absolute path, or else one below the home directory. -/
def named (home : Option String) (name : Option String) (place : String) : String :=
  match name.filter fun path => path.toList.head? = some '/' with
  | some path => path
  | none => home.getD "~" ++ place

/-- The directories of a user, by the home directory and the two directories that may be set. -/
def ofUser (home settings data : Option String) : Directories where
  settings := named home settings "/.config"
  data := named home data "/.local/share"

end Directories

structure SyncSettings where
  /-- Items that a run works on at a time. -/
  maxConcurrency : UInt64
  /-- Seconds that one remote or pipeline call may take. -/
  itemTimeoutSecs : UInt64
  /-- Entries that a failure report may list. -/
  failedItemsCap : UInt64
  /-- Seconds without a write after which a syncing record counts as interrupted. -/
  staleRunAfterSecs : UInt64
  /-- Events kept for a subscriber that lags. -/
  eventBuffer : UInt64
  /-- How often a run looks at its record while it waits. -/
  cancelPollMillis : UInt64
  deriving DecidableEq

structure RetrySettings where
  maxRetries : UInt32
  baseDelayMillis : UInt64
  deriving DecidableEq

structure RemoteSettings where
  baseUrl : String
  requestTimeoutSecs : UInt64
  deriving DecidableEq

structure StoreSettings where
  databasePath : String
  deriving DecidableEq

structure LoggingSettings where
  level : String
  json : Bool
  deriving DecidableEq

structure Settings where
  sync : SyncSettings
  retry : RetrySettings
  remote : RemoteSettings
  store : StoreSettings
  logging : LoggingSettings
  deriving DecidableEq

namespace Settings

/-- What holds where nothing is set. -/
def initial (d : Directories) : Settings where
  sync :=
    { maxConcurrency := 5
      itemTimeoutSecs := 120
      failedItemsCap := 200
      staleRunAfterSecs := 3600
      eventBuffer := 256
      cancelPollMillis := 1000 }
  retry := { maxRetries := 3, baseDelayMillis := 500 }
  remote := { baseUrl := "https://graph.microsoft.com/v1.0", requestTimeoutSecs := 60 }
  store := { databasePath := d.database }
  logging := { level := "info", json := false }

def itemTimeout (s : Settings) : Span := .ofSeconds s.sync.itemTimeoutSecs.toNat
def staleRunAfter (s : Settings) : Span := .ofSeconds s.sync.staleRunAfterSecs.toNat
def cancelPollInterval (s : Settings) : Span := .ofMillis s.sync.cancelPollMillis.toNat
def requestTimeout (s : Settings) : Span := .ofSeconds s.remote.requestTimeoutSecs.toNat

def retryPolicy (s : Settings) : RetryPolicy :=
  ⟨s.retry.maxRetries.toNat, .ofMillis s.retry.baseDelayMillis.toNat⟩

/-- The limits that runs keep to. -/
def runRules (s : Settings) : RunRules where
  concurrency := s.sync.maxConcurrency.toNat
  itemTimeout := s.itemTimeout
  failuresCap := s.sync.failedItemsCap.toNat
  retry := s.retryPolicy
  pollInterval := s.cancelPollInterval

def toJson (s : Settings) : Json :=
  let word (n : UInt64) : Json := .nat n.toNat
  .obj
    [("logging", .obj [("json", .bool s.logging.json), ("level", .str s.logging.level)]),
      ("remote", .obj
        [("base_url", .str s.remote.baseUrl),
          ("request_timeout_secs", word s.remote.requestTimeoutSecs)]),
      ("retry", .obj
        [("base_delay_ms", word s.retry.baseDelayMillis),
          ("max_retries", .nat s.retry.maxRetries.toNat)]),
      ("store", .obj [("database_path", .str s.store.databasePath)]),
      ("sync", .obj
        [("cancel_poll_interval_ms", word s.sync.cancelPollMillis),
          ("event_buffer", word s.sync.eventBuffer),
          ("failed_items_cap", word s.sync.failedItemsCap),
          ("item_timeout_secs", word s.sync.itemTimeoutSecs),
          ("max_concurrency", word s.sync.maxConcurrency),
          ("stale_run_after_secs", word s.sync.staleRunAfterSecs)])]

end Settings

end CollectionSync
