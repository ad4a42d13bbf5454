/-! Counters of a run. -/

namespace CollectionSync

/-- How far a run has come. -/
structure Progress where
  processed : Nat
  failed : Nat
  total : Nat
  /-- The item settled last. -/
  currentItem : String
  deriving DecidableEq

namespace Progress

def zero : Progress := ⟨0, 0, 0, ""⟩

instance : Inhabited Progress := ⟨zero⟩

/-- Counters are words of 64 bits. -/
def counterLimit : Nat := UInt64.size

/-- Items settled either way; none where the sum leaves the range of a counter. -/
def settled? (p : Progress) : Option Nat :=
  if p.processed + p.failed < counterLimit then some (p.processed + p.failed) else none

/-- The share of settled items in percent, in double precision; zero where nothing was planned. -/
def percent? (p : Progress) : Option Float :=
  if p.total = 0 then some 0.0
  else p.settled?.map fun n => n.toUInt64.toFloat / p.total.toUInt64.toFloat * 100.0

end Progress

/-- What became of a progress write. -/
inductive ProgressOutcome where
  | applied
  | discarded
  deriving DecidableEq, Repr

end CollectionSync
