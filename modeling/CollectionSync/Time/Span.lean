/-! Lengths of time, counted in nanoseconds. A wait that would exceed what 64-bit seconds hold is
cut at that limit, never wrapped. -/

namespace CollectionSync

/-- A length of time in nanoseconds. -/
structure Span where
  nanos : Nat
  deriving DecidableEq, Repr

namespace Span

def zero : Span := ⟨0⟩
def ofSeconds (n : Nat) : Span := ⟨n * 1000000000⟩
def ofMillis (n : Nat) : Span := ⟨n * 1000000⟩

/-- The longest span: all of 64-bit seconds and one nanosecond less than a further one. -/
def limit : Span := ⟨UInt64.size * 1000000000 - 1⟩

def seconds (s : Span) : Nat := s.nanos / 1000000000
def subsecNanos (s : Span) : Nat := s.nanos % 1000000000

/-- Whole milliseconds, a started one counted in full. -/
def millisCeil (s : Span) : Nat := (s.nanos + 999999) / 1000000

def add (a b : Span) : Span := ⟨a.nanos + b.nanos⟩
def max (a b : Span) : Span := ⟨Nat.max a.nanos b.nanos⟩
def min (a b : Span) : Span := ⟨Nat.min a.nanos b.nanos⟩

/-- The span taken `n` times, cut at the limit. -/
def scale (s : Span) (n : Nat) : Span := (⟨s.nanos * n⟩ : Span).min limit

instance : LE Span := ⟨fun a b => a.nanos ≤ b.nanos⟩
instance : LT Span := ⟨fun a b => a.nanos < b.nanos⟩
instance (a b : Span) : Decidable (a ≤ b) := inferInstanceAs (Decidable (a.nanos ≤ b.nanos))
instance (a b : Span) : Decidable (a < b) := inferInstanceAs (Decidable (a.nanos < b.nanos))

/-- The digits of `n` in exactly `width` places, zeros in front. -/
def padded (width n : Nat) : List Char :=
  let digits := Nat.toDigits 10 n
  List.replicate (width - digits.length) '0' ++ digits

/-- A whole part and a fraction of `places` digits, its closing zeros left out. -/
def decimal (whole fraction places : Nat) : List Char :=
  let digits := ((padded places fraction).reverse.dropWhile (· == '0')).reverse
  Nat.toDigits 10 whole ++ (if digits.isEmpty then [] else '.' :: digits)

/-- The span in the largest unit of s, ms, µs and ns that it fills, with all its decimals. -/
def text (s : Span) : String :=
  if s.seconds > 0 then String.ofList (decimal s.seconds s.subsecNanos 9 ++ ['s'])
  else if s.nanos ≥ 1000000 then
    String.ofList (decimal (s.nanos / 1000000) (s.nanos % 1000000) 6 ++ ['m', 's'])
  else if s.nanos ≥ 1000 then
    String.ofList (decimal (s.nanos / 1000) (s.nanos % 1000) 3 ++ ['µ', 's'])
  else String.ofList (Nat.toDigits 10 s.nanos ++ ['n', 's'])

end Span

end CollectionSync
