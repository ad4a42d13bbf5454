import CollectionSync.Rehearsal.Session

/-! A single run on the bench: what its tasks share is changed, written and watched step by step,
without a host that works on the run. -/

namespace CollectionSync.Rehearsal

inductive BenchStep where
  | claim
  | total (count : Nat)
  | success (name : String)
  | failure (item : FailedItem)
  | runFailure (item : FailedItem)
  /-- Writes counters, those of the run unless others are given. -/
  | publish (progress : Option Progress)
  | observe
  | fatal (reason : String)
  | cancel
  | status
  | get
  | incidents (incidents : List Incident)
  | stop
  /-- Starts a watch over the record. -/
  | watch (interval : Span)
  | sleep (millis : Nat)
  /-- Takes a slot if one is free. -/
  | acquire
  /-- Gives back the slot that was taken last. -/
  | release
  | finish (report : RunReport)
  | recover (staleBefore : Instant) (reason : String)
  | events
  | nothing

inductive BenchResult where
  | claimed (result : Except RunError ClaimOutcome)
  | progress (p : Progress)
  | published (result : Except RunError ProgressOutcome)
  | flag (result : Except RunError Bool)
  | status (result : Except RunError (Option Status))
  | record (result : Except RunError (Option Record))
  | recovered (result : Except RunError (List CollectionId))
  | events (heard : List Heard)
  | done

/-- A step's result, with the shared state and the free slots after it. -/
structure BenchAnswer where
  time : Nat
  result : BenchResult
  state : RunState
  free : Nat

structure Bench where
  run : Nat
  steps : List BenchStep
  waiting : Bool
  /-- The slots that have been taken. -/
  taken : Nat
  answers : List BenchAnswer

namespace Bench

def answer (m : Machine) (s : Bench) (result : BenchResult) : Bench :=
  let answers := match m.cells[s.run]? with
    | none => s.answers
    | some cell => s.answers ++ [⟨m.now, result, cell.state, cell.free⟩]
  { s with steps := s.steps.tail, waiting := false, answers }

/-- How a step goes on: with a result at once, or after a wait. -/
inductive Progression where
  | brings (result : BenchResult)
  | waits (wait : OperatorWait)

/-- Does something for the run that need not wait. -/
def doing {α : Type} (m : Machine) (s : Bench) (p : Running α) (k : α → BenchResult) :
    Progression × Machine × Bench :=
  match m.running s.run p with
  | (.ok a, m) => (.brings (k a), m, s)
  | (.error message, m) => (.brings .done, Session.halt m message, s)

def keeping {α : Type} (m : Machine) (s : Bench) (p : Keeping α) (k : α → BenchResult) :
    Progression × Machine × Bench :=
  doing m s (Run.keeping p) k

/-- Changes the shared state. -/
def change (m : Machine) (s : Bench) (c : RunChange) (k : RunState → BenchResult) :
    Progression × Machine × Bench :=
  doing m s (Run.change c) k

/-- Begins a step. -/
def begin (m : Machine) (s : Bench) (cell : RunCell) : BenchStep → Progression × Machine × Bench
  | .claim => keeping m s (Keeper.claim cell.identity.collection cell.identity.run) .claimed
  | .total count => change m s (.total count) fun state => .progress state.progress
  | .success name => change m s (.success name) fun state => .progress state.progress
  | .failure item => change m s (.failure item) fun state => .progress state.progress
  | .runFailure item => change m s (.runFailure item) fun _ => .done
  | .publish progress =>
    doing m s (cell.identity.publish (progress.getD cell.state.progress)) .published
  | .observe => doing m s cell.identity.observe .flag
  | .fatal reason => change m s (.fatal (RunError.storeUnavailable reason).message) fun _ => .done
  | .cancel => keeping m s (Keeper.requestCancel cell.identity.collection) .flag
  | .status => keeping m s (Keeper.perform (.status cell.identity.collection)) .status
  | .get => keeping m s (Keeper.get cell.identity.collection) .record
  | .incidents incidents => (.brings .done, incidents.foldl Machine.suffer m, s)
  | .stop => (.brings .done, m.stop, s)
  | .watch interval =>
    let round : Running Outcome := do return .round (← cell.identity.watchRound interval)
    (.brings .done, m.addFiber s.run (.watch round) round, s)
  | .sleep 0 => (.brings .done, m, s)
  | .sleep millis =>
    let (due, m) := m.setAlarm millis
    (.waits (.time due), m, s)
  | .acquire =>
    if cell.free = 0 then (.brings (.flag (.ok false)), m, s)
    else
      let m := m.changeCell s.run fun cell => { cell with free := cell.free - 1 }
      (.brings (.flag (.ok true)), m, { s with taken := s.taken + 1 })
  | .release =>
    if s.taken = 0 then (.brings (.flag (.ok false)), m, s)
    else (.brings (.flag (.ok true)), m.giveBack s.run, { s with taken := s.taken - 1 })
  | .finish report =>
    keeping m s (Keeper.finish cell.identity.collection cell.identity.run report)
      fun r => .record (r.map some)
  | .recover staleBefore reason => keeping m s (Keeper.recover staleBefore reason) .recovered
  | .events =>
    let (heard, world) := m.world.hear
    (.brings (.events heard), { m with world }, s)
  | .nothing => (.brings .done, m, s)

/-- Takes steps until one has to wait. -/
def advance : (fuel : Nat) → Machine → Bench → Machine × Bench
  | 0, m, s => (m, s)
  | fuel + 1, m, s =>
    match s.steps, m.cells[s.run]? with
    | step :: _, some cell =>
      match begin m s cell step with
      | (.brings result, m, s) =>
        if m.halted.isSome then (m, s) else advance fuel m (s.answer m result)
      | (.waits wait, m, s) => ({ m with operator := wait }, { s with waiting := true })
    | _, _ => (m, s)

def turn (m : Machine) (s : Bench) : Machine × Bench :=
  if s.waiting then
    match Session.waited m m.operator with
    | none => (m, s)
    | some _ =>
      let m := { m with operator := .none }
      let s := s.answer m .done
      advance s.steps.length m s
  else advance s.steps.length m s

/-- Takes all steps for a run of a collection; without an identifier the run gets a fresh one. -/
def rehearse (world : World) (rules : RunRules) (c : CollectionId) (run : Option RunId)
    (steps : List BenchStep) : Except String (List BenchAnswer) :=
  let (id, world) := match run with
    | some run => (run, world)
    | none => (world.freshRun, world.countRun)
  let (index, m) := (Machine.start world rules).addCell ⟨c, id⟩ ""
  let (m, s) := Machine.play turn (fun _ s => s.steps.isEmpty) Machine.turnLimit m
    ⟨index, steps, false, 0, []⟩
  match m.halted with
  | some message => .error message
  | none => .ok s.answers

end Bench

end CollectionSync.Rehearsal
