/-! Failures of single items and the bounded report of them. -/

namespace CollectionSync

/-- Why an item did not make it into the collection. -/
inductive FailureKind where
  | processing
  | remote
  | timeout
  | cancelled
  | enumeration
  deriving DecidableEq, Repr

def FailureKind.all : List FailureKind := [.processing, .remote, .timeout, .cancelled, .enumeration]

def FailureKind.text : FailureKind → String
  | .processing => "processing"
  | .remote => "remote"
  | .timeout => "timeout"
  | .cancelled => "cancelled"
  | .enumeration => "enumeration"

def FailureKind.ofText? (s : String) : Option FailureKind := all.find? fun kind => kind.text = s

/-- One entry of the failure report. -/
structure FailedItem where
  name : String
  kind : FailureKind
  message : String
  deriving DecidableEq

/-- The entry of an item that a cancellation stopped. -/
def FailedItem.ofCancelled (name : String) : FailedItem := ⟨name, .cancelled, "cancelled by user"⟩

def FailedItem.text (i : FailedItem) : String :=
  i.name ++ " [" ++ i.kind.text ++ "]: " ++ i.message

/-- Failures in the order they came, kept up to `cap` and counted beyond it. -/
structure FailureLog where
  cap : Nat
  kept : List FailedItem
  dropped : Nat
  deriving DecidableEq

namespace FailureLog

def empty (cap : Nat) : FailureLog := ⟨cap, [], 0⟩

def push (log : FailureLog) (item : FailedItem) : FailureLog :=
  if log.kept.length < log.cap then { log with kept := log.kept ++ [item] }
  else { log with dropped := log.dropped + 1 }

/-- The number of failures, listed or not. -/
def size (log : FailureLog) : Nat := log.kept.length + log.dropped

def isEmpty (log : FailureLog) : Bool := log.size == 0

/-- The entry that stands for `count` failures, the first of them being `displaced`. -/
def summary (count : Nat) (displaced : FailedItem) : FailedItem :=
  ⟨toString count ++ " more", displaced.kind, toString count ++ " further failures were not listed"⟩

/-- The report to store: where failures were dropped, the last entry makes room for their count. -/
def report (log : FailureLog) : List FailedItem :=
  if log.dropped = 0 then log.kept
  else match log.kept.getLast? with
    | none => []
    | some last => log.kept.dropLast ++ [summary (log.dropped + 1) last]

end FailureLog

end CollectionSync
