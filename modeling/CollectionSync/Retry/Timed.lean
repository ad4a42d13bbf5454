import CollectionSync.Retry

/-! Retries on a clock that counts milliseconds. Calls take no time of their own and waits last
their length, a started millisecond counted in full, unless an interrupt cuts them short. -/

namespace CollectionSync

/-- What the retrying of a call asks. -/
inductive RetryAsk where
  | call
  /-- Waits; the answer tells whether the wait was interrupted. -/
  | pause (length : Span)

abbrev RetryAsk.Answer (α : Type) : RetryAsk → Type
  | .call => Except RemoteError α
  | .pause _ => Bool

/-- A call that is retried, with its waits. -/
def RetryPolicy.retrying (α : Type) (policy : RetryPolicy) :
    Program RetryAsk (RetryAsk.Answer α) (Except RemoteError α) :=
  policy.retry (fun length => .question (RetryAsk.pause length)) (.question RetryAsk.call)

/-- The end of a wait that starts at `now`, and whether it was interrupted. -/
def endOfPause (interrupt : Option Nat) (now : Nat) (length : Span) : Bool × Nat :=
  let due := now + length.millisCeil
  match interrupt with
  | none => (false, due)
  | some t => if t ≤ now then (true, now) else if t ≤ due then (true, t) else (false, due)

/-- The calls made so far, by the time of their start, and the time now. -/
structure CallTimes where
  now : Nat
  calls : List Nat
  deriving DecidableEq

namespace CallTimes

def start : CallTimes := ⟨0, []⟩

/-- Answers call number `n`, counted from zero, with `results n`. -/
def handle {α : Type} (results : Nat → Except RemoteError α) (interrupt : Option Nat) :
    (q : RetryAsk) → CallTimes → q.Answer α × CallTimes
  | .call, s => (results s.calls.length, { s with calls := s.calls ++ [s.now] })
  | .pause length, s =>
    let (interrupted, now) := endOfPause interrupt s.now length
    (interrupted, { s with now })

end CallTimes

/-- The result of the retries, with the times of all calls. -/
def RetryPolicy.timed {α : Type} (policy : RetryPolicy) (results : Nat → Except RemoteError α)
    (interrupt : Option Nat) : Except RemoteError α × CallTimes :=
  (policy.retrying α).run (CallTimes.handle results interrupt) .start

end CollectionSync
