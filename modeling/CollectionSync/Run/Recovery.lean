import CollectionSync.Run.Keeper

/-! Failing the records of runs whose program is gone. -/

namespace CollectionSync

/-- The error text of a record whose run is gone. -/
def interruptedReason : String := "run interrupted"

/-- Why a recovery did not take place. -/
inductive RecoveryError where
  | run (error : RunError)
  /-- The calendar does not reach back as far as the threshold; whoever asked stops. -/
  | beforeCalendar
  deriving DecidableEq

def RecoveryError.message : RecoveryError → String
  | run error => error.message
  | beforeCalendar => "\x60DateTime - TimeDelta\x60 overflowed"

/-- The most seconds that a threshold may have. -/
def thresholdLimit : Nat := (UInt64.size / 2 - 1) / 1000

/-- Why a threshold cannot be used at all. -/
def thresholdFault : String := "Source duration value is out of range for the target type"

/-- The time before which a record must have been written last to count as stale. -/
def staleBefore (threshold : Span) (now : Instant) : Except RecoveryError Instant :=
  match now.sub? threshold with
  | some t => .ok t
  | none => .error .beforeCalendar

/-- Fails every syncing record that has not been written for longer than the threshold. -/
def recoverStale (threshold : Span) : Keeping (Except RecoveryError (List CollectionId)) := do
  if threshold.seconds > thresholdLimit then
    pure (.error (.run (.invalidRequest
      ("stale run threshold out of range: " ++ thresholdFault))))
  else
    match staleBefore threshold (← Keeper.now) with
    | .error e => pure (.error e)
    | .ok t => return (← Keeper.recover t interruptedReason).mapError RecoveryError.run

end CollectionSync
