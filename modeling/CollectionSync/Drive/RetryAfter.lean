import CollectionSync.Time.Rfc2822
import CollectionSync.Time.Span

/-! How long a server asks to wait: a number of seconds, or a date. -/

namespace CollectionSync.Drive

/-- No wait that a server asks for is longer than this. -/
def longestWait : Span := .ofSeconds 3600

/-- The wait where the server asks for none that can be read. -/
def usualWait : Span := .ofSeconds 30

/-- A whole number of seconds that 64 bits hold; a plus sign may stand in front. -/
def readSeconds? (s : List Char) : Option Nat :=
  let digits := match s with
    | '+' :: rest => rest
    | s => s
  if digits.isEmpty || !digits.all Text.isDigit then none
  else
    let n := Time.digitsValue digits
    if n < UInt64.size then some n else none

/-- The wait that a header asks for at the time `now`; a date in the past asks for none. -/
def retryAfter (value : String) (default : Span) (now : Instant) : Span :=
  let s := Text.trim value.toList
  match readSeconds? s with
  | some n => (Span.ofSeconds n).min longestWait
  | none =>
    match Time.readHeaderDate? (String.ofList s) with
    | some date => ((date.since? now).getD .zero).min longestWait
    | none => default

end CollectionSync.Drive
