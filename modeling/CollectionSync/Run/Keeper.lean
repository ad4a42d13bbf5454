import CollectionSync.Program
import CollectionSync.Run.Error
import CollectionSync.Run.Event

/-! The one way in which records change. Each write goes to the store as a single operation, and
what the store accepts is announced, so that observers need not poll. -/

namespace CollectionSync

inductive KeeperAsk where
  | clock
  | store (op : StoreOp)
  /-- Whether anyone listens to events. -/
  | watched
  | announce (event : RunEvent)

abbrev KeeperAsk.Answer : KeeperAsk → Type
  | .clock => Instant
  | .store op => Except StoreError op.Reply
  | .watched => Bool
  | .announce _ => Unit

abbrev Keeping := Program KeeperAsk KeeperAsk.Answer

namespace Keeper

def now : Keeping Instant := .question KeeperAsk.clock

def announce (kind : EventKind) (record : Record) : Keeping Unit :=
  .question (KeeperAsk.announce ⟨kind, record⟩)

/-- Asks the store; its errors end whatever asked. -/
def perform (op : StoreOp) : Keeping (Except RunError op.Reply) := do
  let reply ← (.question (KeeperAsk.store op) : Keeping (Except StoreError op.Reply))
  pure (reply.mapError RunError.ofStore)

/-- What whoever answers the keeper has of the store is handed on. -/
theorem run_perform {σ : Type} {handle : (q : KeeperAsk) → σ → q.Answer × σ} {op : StoreOp}
    {reply : Except StoreError op.Reply} {s s' : σ} (h : handle (.store op) s = (reply, s')) :
    (perform op).run handle s = (reply.mapError RunError.ofStore, s') := by
  have hrun : (perform op).run handle s =
      ((handle (.store op) s).1.mapError RunError.ofStore, (handle (.store op) s).2) := rfl
  rw [hrun, h]

def get (c : CollectionId) : Keeping (Except RunError (Option Record)) := perform (.get c)

/-- The stored record, or an idle one where there is none. -/
def current (c : CollectionId) : Keeping (Except RunError Record) := do
  match ← get c with
  | .error e => pure (.error e)
  | .ok (some record) => pure (.ok record)
  | .ok none => return .ok (.idle c (← now))

def claim (c : CollectionId) (run : RunId) : Keeping (Except RunError ClaimOutcome) := do
  perform (.claim c run (← now))

/-- Writes counters of a run. An accepted write is announced with the record as it is read after
it. -/
def writeProgress (c : CollectionId) (run : RunId) (p : Progress) :
    Keeping (Except RunError ProgressOutcome) := do
  match ← perform (.updateProgress c run p (← now)) with
  | .error e => pure (.error e)
  | .ok .discarded => pure (.ok .discarded)
  | .ok .applied =>
    if ← (.question KeeperAsk.watched : Keeping Bool) then
      match ← get c with
      | .error e => pure (.error e)
      | .ok none => pure (.ok .applied)
      | .ok (some record) =>
        announce .progress record
        pure (.ok .applied)
    else pure (.ok .applied)

/-- Marks the record as cancelled; the answer is whether it was syncing. -/
def requestCancel (c : CollectionId) : Keeping (Except RunError Bool) := do
  perform (.requestCancel c (← now))

/-- Writes the end of a run and announces it. -/
def finish (c : CollectionId) (run : RunId) (report : RunReport) :
    Keeping (Except RunError Record) := do
  match ← perform (.finish c run report (← now)) with
  | .error e => pure (.error e)
  | .ok record =>
    announce .terminal record
    pure (.ok record)

/-- Announces the end of each collection in turn, as long as records can be read. -/
def announceEnds : List CollectionId → Keeping (Except RunError Unit)
  | [] => pure (.ok ())
  | c :: rest => do
    match ← get c with
    | .error e => pure (.error e)
    | .ok none => announceEnds rest
    | .ok (some record) =>
      announce .terminal record
      announceEnds rest

/-- Fails the records of runs that are gone and announces each of them. -/
def recover (staleBefore : Instant) (reason : String) :
    Keeping (Except RunError (List CollectionId)) := do
  match ← perform (.recover staleBefore reason (← now)) with
  | .error e => pure (.error e)
  | .ok recovered =>
    match ← announceEnds recovered with
    | .error e => pure (.error e)
    | .ok () => pure (.ok recovered)

end Keeper

end CollectionSync
