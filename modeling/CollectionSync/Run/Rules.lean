import CollectionSync.Retry

/-! The limits that a run keeps to. -/

namespace CollectionSync

structure RunRules where
  /-- Items in work at a time; zero counts as one. -/
  concurrency : Nat
  /-- How long one remote or pipeline call may take. -/
  itemTimeout : Span
  /-- Entries that the failure report may list. -/
  failuresCap : Nat
  retry : RetryPolicy
  /-- How often the run looks at its record while it waits. -/
  pollInterval : Span
  deriving DecidableEq

/-- The slots for items in work. -/
def RunRules.slots (rules : RunRules) : Nat := max rules.concurrency 1

end CollectionSync
