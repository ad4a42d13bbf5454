import CollectionSync.Settings.Basic
import CollectionSync.Yaml.Printer

/-! Settings as a YAML text, every one of them in its section. -/

namespace CollectionSync.Settings

/-- One setting on lines of its own; texts go through the styles of YAML. -/
def textLine (name value : String) : List Char :=
  ("  " ++ name ++ ":").toList ++ Yaml.valueText [' ', ' ', ' ', ' '] value

def numberLine (name : String) (n : Nat) : List Char :=
  ("  " ++ name ++ ": " ++ toString n ++ "\n").toList

def flagLine (name : String) (b : Bool) : List Char :=
  ("  " ++ name ++ ": " ++ (if b then "true" else "false") ++ "\n").toList

def sectionLines (name : String) (settings : List (List Char)) : List Char :=
  (name ++ ":\n").toList ++ settings.flatten

def toYaml (s : Settings) : String := String.ofList
  (sectionLines "sync"
      [numberLine "max_concurrency" s.sync.maxConcurrency.toNat,
        numberLine "item_timeout_secs" s.sync.itemTimeoutSecs.toNat,
        numberLine "failed_items_cap" s.sync.failedItemsCap.toNat,
        numberLine "stale_run_after_secs" s.sync.staleRunAfterSecs.toNat,
        numberLine "event_buffer" s.sync.eventBuffer.toNat,
        numberLine "cancel_poll_interval_ms" s.sync.cancelPollMillis.toNat]
    ++ sectionLines "retry"
      [numberLine "max_retries" s.retry.maxRetries.toNat,
        numberLine "base_delay_ms" s.retry.baseDelayMillis.toNat]
    ++ sectionLines "remote"
      [textLine "base_url" s.remote.baseUrl,
        numberLine "request_timeout_secs" s.remote.requestTimeoutSecs.toNat]
    ++ sectionLines "store" [textLine "database_path" s.store.databasePath]
    ++ sectionLines "logging"
      [textLine "level" s.logging.level, flagLine "json" s.logging.json])

end CollectionSync.Settings
