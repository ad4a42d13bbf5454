import CollectionSync.Record.Basic

/-! What observers of runs are told. -/

namespace CollectionSync

inductive EventKind where
  /-- Counters were written. -/
  | progress
  /-- The record reached the end of a run. -/
  | terminal
  deriving DecidableEq

/-- A notification, with the record as it was written. -/
structure RunEvent where
  kind : EventKind
  record : Record
  deriving DecidableEq

end CollectionSync
