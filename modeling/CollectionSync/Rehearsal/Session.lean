import CollectionSync.Rehearsal.Machine

/-! Rehearsed sessions: what the operator of a host does step by step, and what each step brings. -/

namespace CollectionSync.Rehearsal

inductive Step where
  | start (request : RunRequest) (credentials : String)
  /-- Waits for the end of a run; a run can be waited for once. -/
  | wait (run : RunId)
  | sleep (millis : Nat)
  | cancel (collection : CollectionId)
  | status (collection : CollectionId)
  | active
  | recover
  | stop
  /-- Shuts down and waits until all runs have ended, but not longer than `grace` milliseconds. -/
  | stopAndWait (grace : Nat)
  | events
  | calls
  | content
  /-- Adds cues, sets or removes what the pipeline holds, and counts the given faults from anew. -/
  | stage (cues : List (String × List Cue)) (content : List (FileId × Option ContentRecord))
      (faults : Option (List Fault))
  | nothing

/-- What a step brings. -/
inductive StepResult where
  | started (collection : CollectionId) (result : Except RunError RunId)
  /-- Nothing where there is no run to wait for. -/
  | ended (result : Option (Except RunError Record))
  | cancelled (result : Except RunError CancelAnswer)
  | status (result : Except RunError Record)
  | active (runs : List (CollectionId × RunId))
  | recovered (result : Except RunError (List CollectionId))
  | flag (b : Bool)
  | events (heard : List Heard)
  | calls (calls : List (Nat × Call))
  | content (content : Dict FileId ContentRecord)
  | done

structure Answered where
  time : Nat
  result : StepResult

structure Session where
  /-- The steps that are still to come; the first one may be waiting. -/
  steps : List Step
  /-- Whether the first step waits. -/
  waiting : Bool
  /-- The runs that can be waited for. -/
  handles : List RunId
  /-- The age from which a recovery takes a record for stale. -/
  staleAfter : Span
  answers : List Answered

namespace Session

/-- How a step goes on: at once, or after a wait. -/
inductive Progression where
  | brings (result : StepResult)
  | waits (wait : OperatorWait)

def indexOf (m : Machine) (run : RunId) : Option Nat :=
  m.cells.findIdx? fun cell => cell.identity.run == run

/-- The end of a run, as whoever waits for it learns of it. -/
def endOf (m : Machine) (index : Nat) : Option (Except RunError Record) := do
  let cell ← m.cells[index]?
  let result ← cell.result
  match result with
  | .ok r => some r
  | .error message =>
    some (.error (.aborted (breakdownText message)))

def halt (m : Machine) (message : String) : Machine := { m with halted := some message }

/-- Does something that need not wait, and goes on with its result. -/
def asking {α : Type} (m : Machine) (p : Keeping α) (k : α → StepResult) : Progression × Machine :=
  match m.hosting (Host.keeping p) with
  | (.ok a, m) => (.brings (k a), m)
  | (.error message, m) => (.brings .done, halt m message)

def allEnded (m : Machine) : Bool := m.cells.all (·.result.isSome)

/-- Begins a step. -/
def begin (m : Machine) (s : Session) : Step → Progression × Machine × Session
  | .start request credentials =>
    match m.hosting (Host.startRun request credentials) with
    | (.error message, m) => (.brings .done, halt m message, s)
    | (.ok result, m) =>
      let handles := match result with
        | .ok run => run :: s.handles
        | .error _ => s.handles
      (.brings (.started request.collection result), m, { s with handles })
  | .wait run =>
    match if s.handles.contains run then indexOf m run else none with
    | none => (.brings (.ended none), m, s)
    | some index =>
      let s := { s with handles := s.handles.filter (· != run) }
      match endOf m index with
      | some r => (.brings (.ended (some r)), m, s)
      | none => (.waits (.run index), m, s)
  | .sleep 0 => (.brings .done, m, s)
  | .sleep millis =>
    let (due, m) := m.setAlarm millis
    (.waits (.time due), m, s)
  | .cancel c =>
    let (p, m) := asking m (cancelRun c) .cancelled
    (p, m, s)
  | .status c =>
    let (p, m) := asking m (Keeper.current c) .status
    (p, m, s)
  | .active => (.brings (.active m.host.active.entries), m, s)
  | .recover =>
    match m.hosting (Host.keeping (recoverStale s.staleAfter)) with
    | (.error message, m) => (.brings .done, halt m message, s)
    | (.ok (.ok ids), m) => (.brings (.recovered (.ok ids)), m, s)
    | (.ok (.error (.run e)), m) => (.brings (.recovered (.error e)), m, s)
    | (.ok (.error .beforeCalendar), m) =>
      (.brings .done, halt m RecoveryError.beforeCalendar.message, s)
  | .stop =>
    let m := m.stop
    (.brings (.flag m.host.stopping), m, s)
  | .stopAndWait grace =>
    let m := m.stop
    if allEnded m then (.brings (.flag true), m, s)
    else if grace = 0 then (.brings (.flag false), m, s)
    else
      let (due, m) := m.setAlarm grace
      (.waits (.idle due), m, s)
  | .events =>
    let (heard, world) := m.world.hear
    (.brings (.events heard), { m with world }, s)
  | .calls =>
    (.brings (.calls m.world.calls), { m with world := { m.world with calls := [] } }, s)
  | .content => (.brings (.content m.world.content), m, s)
  | .stage cues content faults =>
    let script := cues.foldl (fun script e => script.extend e.1 e.2) m.world.script
    let content := content.foldl (fun d e => match e.2 with
      | some record => d.insert e.1 record
      | none => d.erase e.1) m.world.content
    let world := { m.world with script, content }
    let world := match faults with
      | none => world
      | some faults => { world with faults, asked := [] }
    (.brings .done, { m with world }, s)
  | .nothing => (.brings .done, m, s)

/-- What a wait has brought, once it is over. -/
def waited (m : Machine) : OperatorWait → Option StepResult
  | .none => some .done
  | .time due => if due.time ≤ m.now then some .done else none
  | .run index => (endOf m index).map fun r => .ended (some r)
  | .idle due =>
    if allEnded m then some (.flag true)
    else if due.time ≤ m.now then some (.flag false)
    else none

/-- The answer of the first step, which is thereby through. -/
def answer (m : Machine) (s : Session) (result : StepResult) : Session :=
  { s with steps := s.steps.tail, waiting := false, answers := s.answers ++ [⟨m.now, result⟩] }

/-- Takes steps until one has to wait. -/
def advance : (fuel : Nat) → Machine → Session → Machine × Session
  | 0, m, s => (m, s)
  | fuel + 1, m, s =>
    match s.steps with
    | [] => (m, s)
    | step :: _ =>
      match begin m s step with
      | (.brings result, m, s) =>
        if m.halted.isSome then (m, s) else advance fuel m (s.answer m result)
      | (.waits wait, m, s) => ({ m with operator := wait }, { s with waiting := true })

/-- A turn of the operator. -/
def turn (m : Machine) (s : Session) : Machine × Session :=
  if s.waiting then
    match waited m m.operator with
    | none => (m, s)
    | some result =>
      let m := { m with operator := .none }
      let s := s.answer m result
      advance s.steps.length m s
  else advance s.steps.length m s

/-- Rehearses all steps; an error is the message with which the operator broke down. -/
def rehearse (world : World) (rules : RunRules) (staleAfter : Span) (steps : List Step) :
    Except String (List Answered) :=
  let (m, s) := Machine.play turn (fun _ s => s.steps.isEmpty) Machine.turnLimit
    (.start world rules) ⟨steps, false, [], staleAfter, []⟩
  match m.halted with
  | some message => .error message
  | none => .ok s.answers

end Session

/-- Rehearses the planning of a run; the answer is the plan with the time and the calls made. -/
def rehearsePlan (world : World) (rules : RunRules) (c : CollectionId)
    (changes : List (SourceRoot × ChangeSet)) : Except String (Option RunPlan × World) :=
  let (run, m) := (Machine.start world rules).addCell ⟨c, runNumbered 0⟩ ""
  let m := m.addFiber run .main do
    return .plan (← RunPlan.ofChanges rules.slots rules.itemTimeout c changes)
  let (m, ()) := Machine.play (fun m s => (m, s)) (fun m _ => m.plan.isSome) Machine.turnLimit m ()
  match m.cells[run]?.bind (·.result) with
  | some (.error message) => .error message
  | _ => .ok (m.plan, m.world)

end CollectionSync.Rehearsal
