import CollectionSync.Time.Calendar
import CollectionSync.Time.Span

/-! Points in time in UTC. The nanoseconds of a leap second run on past the second before it, so
the order by seconds and then nanoseconds is the order of time. -/

namespace CollectionSync

/-- Seconds since 1970-01-01 and nanoseconds into that second, a billion or more inside a leap
second. -/
structure Instant where
  seconds : Int
  nanos : Nat
  deriving DecidableEq, Repr

namespace Instant

instance : LT Instant :=
  ⟨fun a b => a.seconds < b.seconds ∨ (a.seconds = b.seconds ∧ a.nanos < b.nanos)⟩

instance (a b : Instant) : Decidable (a < b) :=
  inferInstanceAs (Decidable (a.seconds < b.seconds ∨ (a.seconds = b.seconds ∧ a.nanos < b.nanos)))

/-- The later of two instants, the first one where they agree. -/
def later (a b : Instant) : Instant := if a < b then b else a

/-- The instant cut to whole microseconds. -/
def toMicros (t : Instant) : Instant := ⟨t.seconds, t.nanos / 1000 * 1000⟩

/-- Seconds at which the calendar starts and ends. -/
def firstSecond : Int := (⟨CivilDate.firstYear, 1, 1⟩ : CivilDate).dayNumber * 86400
def lastSecond : Int := (⟨CivilDate.lastYear, 12, 31⟩ : CivilDate).dayNumber * 86400 + 86399

def isRepresentable (t : Instant) : Bool := firstSecond ≤ t.seconds && t.seconds ≤ lastSecond

def add (t : Instant) (s : Span) : Instant :=
  ⟨t.seconds + ((t.nanos + s.nanos) / 1000000000 : Nat), (t.nanos + s.nanos) % 1000000000⟩

/-- The instant `s` before `t`; none where the calendar does not reach that far back. -/
def sub? (t : Instant) (s : Span) : Option Instant :=
  let total : Int := t.seconds * 1000000000 + t.nanos - s.nanos
  let r : Instant := ⟨total / 1000000000, (total % 1000000000).toNat⟩
  if r.isRepresentable then some r else none

/-- How long `t` lies after `base`; none if it lies before. -/
def since? (t base : Instant) : Option Span :=
  let total : Int := (t.seconds - base.seconds) * 1000000000 + t.nanos - base.nanos
  if total < 0 then none else some ⟨total.toNat⟩

/-- A date with the time of day, its nanoseconds a billion or more in a leap second. -/
structure Fields where
  date : CivilDate
  hour : Nat
  minute : Nat
  second : Nat
  nanos : Nat
  deriving DecidableEq, Repr

def Fields.isValid (f : Fields) : Bool :=
  f.date.isValid && f.hour ≤ 23 && f.minute ≤ 59 && f.second ≤ 60

/-- The instant that a clock `offset` seconds ahead of UTC shows as these fields. Second 60 is the
leap second that follows second 59. -/
def ofFields? (f : Fields) (offset : Int) : Option Instant :=
  if f.isValid && offset.natAbs < 86400 then
    let second := if f.second = 60 then 59 else f.second
    let t : Instant :=
      ⟨f.date.dayNumber * 86400 + (f.hour * 3600 + f.minute * 60 + second : Nat) - offset,
        if f.second = 60 then f.nanos + 1000000000 else f.nanos⟩
    if t.isRepresentable then some t else none
  else none

/-- The fields that a clock in UTC shows. -/
def fields (t : Instant) : Fields :=
  let ofDay := (t.seconds % 86400).toNat
  let leap := t.nanos ≥ 1000000000
  { date := CivilDate.ofDayNumber (t.seconds / 86400)
    hour := ofDay / 3600
    minute := ofDay / 60 % 60
    second := ofDay % 60 + (if leap then 1 else 0)
    nanos := if leap then t.nanos - 1000000000 else t.nanos }

end Instant

end CollectionSync
