import CollectionSync.Rehearsal.Cue
import CollectionSync.Store.Memory

/-! The surroundings of a rehearsed host: the records, the content that the pipeline holds, the
events and calls so far, and a clock that counts milliseconds. -/

namespace CollectionSync.Rehearsal

/-- What a subscriber receives. -/
inductive Heard where
  | event (e : RunEvent)
  /-- So many events were lost before the next one. -/
  | lagged (count : Nat)
  deriving DecidableEq

structure World where
  /-- Milliseconds since the start. -/
  time : Nat
  /-- The time of day; no two readings are the same. -/
  clock : Instant
  memory : Memory
  faults : List Fault
  /-- The kinds of all operations that the faults have been counted over. -/
  asked : List StoreKind
  content : Dict FileId ContentRecord
  script : Script
  calls : List (Nat × Call)
  /-- The events that the subscriber can still receive. -/
  events : List RunEvent
  /-- The events that were lost since the subscriber last looked. -/
  lost : Nat
  /-- How many events are kept for the subscriber. -/
  capacity : Nat
  /-- The runs that have been numbered so far. -/
  runs : Nat

/-- Rehearsed runs are numbered; their identifiers are the highest ones. -/
def runNumbered (n : Nat) : RunId := ⟨BitVec.ofNat 128 n - BitVec.ofNat 128 UInt32.size⟩

/-- The least power of two that is not below `n`, found in at most `fuel` doublings of `k`. -/
def powerAbove (n : Nat) : (fuel k : Nat) → Nat
  | 0, k => k
  | fuel + 1, k => if n ≤ k then k else powerAbove n fuel (2 * k)

namespace World

def start (records : List Record) (content : Dict FileId ContentRecord) (script : Script)
    (faults : List Fault) (eventBuffer : Nat) : World where
  time := 0
  clock := (Instant.ofFields? ⟨⟨2026, 6, 1⟩, 0, 0, 0, 0⟩ 0).getD ⟨0, 0⟩
  memory := records.foldl Memory.put .empty
  faults
  asked := []
  content
  script
  calls := []
  events := []
  lost := 0
  capacity := powerAbove eventBuffer 64 1
  runs := 0

/-- Reads the time of day. -/
def readClock (w : World) : Instant × World :=
  (w.clock, { w with clock := w.clock.add ⟨1000⟩ })

/-- An operation of the store, which fails where a fault says so. -/
def perform (w : World) (op : StoreOp) : Except StoreError op.Reply × World :=
  let kind := StoreKind.of op
  let w := { w with asked := kind :: w.asked }
  match w.faults.find? fun f => f.kind = kind && f.times.contains (w.asked.count kind) with
  | some fault => (.error (.unavailable fault.message), w)
  | none =>
    let (reply, memory) := w.memory.run op
    (reply, { w with memory })

/-- Announces an event; the oldest one makes room where there is none. -/
def announce (w : World) (e : RunEvent) : World :=
  if w.events.length < w.capacity then { w with events := w.events ++ [e] }
  else { w with events := w.events.tail ++ [e], lost := w.lost + 1 }

/-- All that the subscriber has not received yet. -/
def hear (w : World) : List Heard × World :=
  ((if w.lost = 0 then [] else [.lagged w.lost]) ++ w.events.map .event,
    { w with events := [], lost := 0 })

def keep (w : World) : (q : KeeperAsk) → q.Answer × World
  | .clock => w.readClock
  | .store op => w.perform op
  | .watched => (true, w)
  | .announce e => ((), w.announce e)

/-- The identifier that the next run gets. -/
def freshRun (w : World) : RunId := runNumbered (w.runs + 1)

def countRun (w : World) : World := { w with runs := w.runs + 1 }

/-- Changes the records past the faults and without an event. -/
def interfere (w : World) : Incident → World
  | .cancel c =>
    let (now, w) := w.readClock
    { w with memory := (w.memory.requestCancel c now).2 }
  | .claim c =>
    let run := w.freshRun
    let (now, w) := w.countRun.readClock
    { w with memory := (w.memory.claim c run now).2 }
  | .fail c =>
    let (now, w) := w.readClock
    { w with memory := (w.memory.compareAndSet c [.syncing] .failed now).2 }
  | .stop => w

/-! ## The pipeline -/

/-- Puts a file into a collection, with a new fingerprint if there is one. -/
def store (w : World) (file : FileId) (hash : ContentHash) (c : CollectionId) : World :=
  let held := ((w.content.get? file).map (·.collections)).getD []
  let collections := if held.contains c then held else held ++ [c]
  { w with content := w.content.insert file ⟨hash, collections⟩ }

def extract (w : World) (r : ExtractRequest) : World :=
  w.store r.file (r.hash.getD ⟨"bytes-" ++ toString r.bytes.length⟩) r.collection

def attach (w : World) (file : FileId) (c : CollectionId) : Except PipelineError World :=
  match w.content.get? file with
  | none => .error (.notFound file)
  | some record =>
    if record.collections.contains c then .error (.alreadyAttached file)
    else .ok (w.store file record.hash c)

def detach (w : World) (file : FileId) (c : CollectionId) : World :=
  match w.content.get? file with
  | none => w
  | some record =>
    let kept := record.collections.filter (· ≠ c)
    { w with content := w.content.insert file ⟨record.hash, kept⟩ }

/-- What a download brings where the script gives no bytes. -/
def defaultBytes (id : RemoteId) : List UInt8 := Text.utf8 ("content of " ++ id.text).toList

/-- The result of a call that ends as its cue says; none where the call breaks down. -/
def conclude (w : World) (call : Call) (ending : Ending) : Except String call.Result × World :=
  match ending with
  | .breaks message => (.error message, w)
  | .remoteFails e =>
    match call with
    | .list .. => (.ok (.error e), w)
    | .fetch .. => (.ok (.error e), w)
    | _ => (.error e.message, w)
  | .pipelineFails e =>
    match call with
    | .lookup _ => (.ok (.error e), w)
    | .extract _ => (.ok (.error e), w)
    | .attach .. => (.ok (.error e), w)
    | .detach .. => (.ok (.error e), w)
    | _ => (.error e.message, w)
  | .succeeds changes bytes outcome =>
    match call with
    | .list .. => (.ok (.ok changes), w)
    | .fetch _ id _ => (.ok (.ok (bytes.getD (defaultBytes id))), w)
    | .lookup file => (.ok (.ok (w.content.get? file)), w)
    | .extract request => (.ok (.ok outcome), w.extract request)
    | .attach file c =>
      match w.attach file c with
      | .error e => (.ok (.error e), w)
      | .ok w => (.ok (.ok outcome), w)
    | .detach file c => (.ok (.ok ()), w.detach file c)

end World

end CollectionSync.Rehearsal
