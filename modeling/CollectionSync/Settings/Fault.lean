import CollectionSync.Settings.Basic

/-! What makes settings unusable. All faults are reported together, in the order of the settings. -/

namespace CollectionSync

/-- A setting with a value that it must not have. -/
structure SettingsFault where
  /-- The section and the name of the setting, with a point between them. -/
  field : String
  message : String
  deriving DecidableEq

def SettingsFault.text (f : SettingsFault) : String := f.field ++ ": " ++ f.message

namespace Settings

def concurrencyLimit : UInt64 := 64

def retryLimit : UInt32 := 10

def logLevels : List String := ["trace", "debug", "info", "warn", "error"]

/-- Whether a base URL names one of the two schemes that can be read. -/
def isWebUrl (url : String) : Bool :=
  "https://".toList.isPrefixOf url.toList || "http://".toList.isPrefixOf url.toList

/-- Each setting with the fault that it shows where the condition holds. -/
def checks (s : Settings) : List (Bool × SettingsFault) :=
  let positive := "must be greater than 0"
  [(s.sync.maxConcurrency == 0 || s.sync.maxConcurrency > concurrencyLimit,
      ⟨"sync.max_concurrency", "must be between 1 and 64"⟩),
    (s.sync.itemTimeoutSecs == 0, ⟨"sync.item_timeout_secs", positive⟩),
    (s.sync.failedItemsCap == 0, ⟨"sync.failed_items_cap", positive⟩),
    (s.sync.staleRunAfterSecs < s.sync.itemTimeoutSecs,
      ⟨"sync.stale_run_after_secs", "must not be shorter than sync.item_timeout_secs"⟩),
    (s.sync.cancelPollMillis == 0, ⟨"sync.cancel_poll_interval_ms", positive⟩),
    (s.sync.eventBuffer == 0, ⟨"sync.event_buffer", positive⟩),
    (s.retry.maxRetries > retryLimit, ⟨"retry.max_retries", "must be at most 10"⟩),
    (s.retry.maxRetries > 0 && s.retry.baseDelayMillis == 0,
      ⟨"retry.base_delay_ms", "must be greater than 0 when retries are enabled"⟩),
    (!isWebUrl s.remote.baseUrl,
      ⟨"remote.base_url", "must be an http(s) URL: " ++ s.remote.baseUrl⟩),
    (s.remote.requestTimeoutSecs == 0, ⟨"remote.request_timeout_secs", positive⟩),
    (s.store.databasePath.isEmpty, ⟨"store.database_path", "must not be empty"⟩),
    (!logLevels.contains s.logging.level,
      ⟨"logging.level", "invalid level '" ++ s.logging.level ++ "', expected one of: "
        ++ String.intercalate ", " logLevels⟩)]

def faults (s : Settings) : List SettingsFault := (s.checks.filter (·.1)).map (·.2)

def isValid (s : Settings) : Bool := s.faults.isEmpty

end Settings

end CollectionSync
