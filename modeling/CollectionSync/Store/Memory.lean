import CollectionSync.Store.Operation

/-! The store that holds records as they are. Each operation reads one record, applies the rule of
the record and writes the result back. -/

namespace CollectionSync

/-- One record per collection. -/
structure Memory where
  records : Dict CollectionId Record
  deriving DecidableEq

namespace Memory

def empty : Memory := ⟨.empty⟩

def get (m : Memory) (c : CollectionId) : Option Record := m.records.get? c

/-- Stores a record as it is, over the one of its collection. -/
def put (m : Memory) (r : Record) : Memory := ⟨m.records.insert r.collection r⟩

/-- Stores a record under a collection. -/
def set (m : Memory) (c : CollectionId) (r : Record) : Memory := ⟨m.records.insert c r⟩

def compareAndSet (m : Memory) (c : CollectionId) (expected : List Status) (next : Status)
    (now : Instant) : Except StoreError Bool × Memory :=
  match forbidden? expected next with
  | some stored => (.error (.refused (.badMove stored next)), m)
  | none =>
    match m.get c with
    | none => (.ok false, m)
    | some r =>
      if expected.contains r.status then
        match r.moveTo next now with
        | .ok r => (.ok true, m.set c r)
        | .error refusal => (.error (.refused refusal), m)
      else (.ok false, m)

def claim (m : Memory) (c : CollectionId) (run : RunId) (now : Instant) :
    Except StoreError ClaimOutcome × Memory :=
  let r := (m.get c).getD (.idle c now)
  match r.beginRun run now with
  | .ok r => (.ok (.claimed r), m.set c r)
  | .error _ => (.ok (.conflict r), m)

def updateProgress (m : Memory) (c : CollectionId) (run : RunId) (p : Progress) (now : Instant) :
    Except StoreError ProgressOutcome × Memory :=
  match m.get c with
  | none => (.ok .discarded, m)
  | some r =>
    match r.applyProgress? run p now with
    | some (outcome, r) => (.ok outcome, m.set c r)
    | none => (.error .counterOverflow, m)

def requestCancel (m : Memory) (c : CollectionId) (now : Instant) :
    Except StoreError Bool × Memory :=
  match m.get c with
  | none => (.ok false, m)
  | some r =>
    let (done, r) := r.requestCancel now
    (.ok done, m.set c r)

def finish (m : Memory) (c : CollectionId) (run : RunId) (report : RunReport) (now : Instant) :
    Except StoreError Record × Memory :=
  match m.get c with
  | none => (.error (.missing c), m)
  | some r =>
    match r.finish run report now with
    | .ok r => (.ok r, m.set c r)
    | .error refusal => (.error (.refused refusal), m)

/-- Whether a recovery takes hold of a record. -/
def isStale (staleBefore : Instant) (r : Record) : Bool :=
  r.status == .syncing && r.updatedAt < staleBefore

def recover (m : Memory) (staleBefore : Instant) (reason : String) (now : Instant) :
    Except StoreError (List CollectionId) × Memory :=
  (.ok ((m.records.entries.filter fun e => isStale staleBefore e.2).map (·.1)),
    ⟨m.records.map fun _ r => if isStale staleBefore r then (r.interrupt reason now).2 else r⟩)

/-- Answers an operation and gives the records afterwards. -/
def run (m : Memory) : (op : StoreOp) → Except StoreError op.Reply × Memory
  | .get c => (.ok (m.get c), m)
  | .status c => (.ok ((m.get c).map (·.status)), m)
  | .compareAndSet c expected next now => m.compareAndSet c expected next now
  | .claim c run now => m.claim c run now
  | .updateProgress c run p now => m.updateProgress c run p now
  | .requestCancel c now => m.requestCancel c now
  | .finish c run report now => m.finish c run report now
  | .recover staleBefore reason now => m.recover staleBefore reason now

end Memory

end CollectionSync
