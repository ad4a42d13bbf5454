import CollectionSync.Program
import CollectionSync.Remote.Error

/-! Retrying remote calls that fail for a while. The wait doubles from one attempt to the next and
is never shorter than the server asks for. -/

namespace CollectionSync

structure RetryPolicy where
  /-- Attempts after the first. -/
  maxRetries : Nat
  baseDelay : Span
  deriving DecidableEq

namespace RetryPolicy

/-- How often the base delay goes into the wait before retry number `attempt`, counted from zero. -/
def factor (attempt : Nat) : Nat := if attempt < 32 then 1 <<< attempt else UInt32.size - 1

def backoff (policy : RetryPolicy) (attempt : Nat) : Span := policy.baseDelay.scale (factor attempt)

/-- The wait before retry number `attempt`, after an error. -/
def delayFor (policy : RetryPolicy) (attempt : Nat) (error : RemoteError) : Span :=
  match error.hint? with
  | some hint => (policy.backoff attempt).max hint
  | none => policy.backoff attempt

variable {Ask : Type} {Answer : Ask → Type} {α : Type}

/-- Calls, with `left` retries still to go after `attempt` of them. A wait that is interrupted ends
the attempts with the error that led to it. -/
def attempts (policy : RetryPolicy) (pause : Span → Program Ask Answer Bool)
    (call : Program Ask Answer (Except RemoteError α)) :
    (left attempt : Nat) → Program Ask Answer (Except RemoteError α)
  | 0, _ => call
  | left + 1, attempt => do
    match ← call with
    | .ok a => pure (.ok a)
    | .error e =>
      if e.isTransient then
        if ← pause (policy.delayFor attempt e) then pure (.error e)
        else attempts policy pause call left (attempt + 1)
      else pure (.error e)

/-- Calls until an attempt succeeds, fails for good, or is the last. -/
def retry (policy : RetryPolicy) (pause : Span → Program Ask Answer Bool)
    (call : Program Ask Answer (Except RemoteError α)) :
    Program Ask Answer (Except RemoteError α) :=
  policy.attempts pause call policy.maxRetries 0

end RetryPolicy

end CollectionSync
