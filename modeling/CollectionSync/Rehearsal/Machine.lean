import CollectionSync.Host.Basic
import CollectionSync.Rehearsal.World

/-! The machine that works on all runs of a rehearsed host, one fiber at a time. A fiber goes on
until it has to wait. Fibers that can go on are served in the order in which they became ready; time
stands still until none is left, and then jumps to the next alarm. -/

namespace CollectionSync.Rehearsal

/-- Goes off at a time; alarms for the same time go off in the order in which they were set. -/
structure Alarm where
  time : Nat
  order : Nat
  deriving DecidableEq

def Alarm.notAfter (a b : Alarm) : Bool :=
  a.time < b.time || (a.time == b.time && a.order ≤ b.order)

/-- What a fiber comes to in the end. -/
inductive Outcome where
  | run (result : Except RunError Record)
  | task (result : Except RunError Unit)
  /-- A round of a watch, perhaps the last one. -/
  | round (last : Bool)
  | plan (plan : RunPlan)

abbrev Known := Option (Except PipelineError (Option ContentRecord))

/-- A file that is being looked up. -/
structure Lookup where
  index : Nat
  file : FileId
  cue : Cue
  due : Alarm
  limit : Alarm

/-- The alarm that has gone off first, if one has. -/
def Lookup.rung? (l : Lookup) (now : Nat) : Option Alarm :=
  match decide (l.due.time ≤ now), decide (l.limit.time ≤ now) with
  | true, true => some (if l.due.notAfter l.limit then l.due else l.limit)
  | true, false => some l.due
  | false, true => some l.limit
  | false, false => none

/-- Files that are looked up some at a time. A further one starts once the first result that is
missing arrives. -/
structure Gathering where
  files : List FileId
  width : Nat
  limit : Span
  started : Nat
  results : List (Nat × Known)
  underWay : List Lookup

namespace Gathering

/-- The results from the first on that are there without a gap. -/
def settled (g : Gathering) : List Known :=
  ((List.range g.files.length).map fun i => g.results.find? fun r => r.1 == i).takeWhile
    (·.isSome) |>.filterMap fun r => r.map (·.2)

def isComplete (g : Gathering) : Bool := g.settled.length == g.files.length

/-- The files that are to be started now. -/
def startable (g : Gathering) : List Nat :=
  let missing := g.started - g.settled.length
  List.range' g.started (min (g.files.length - g.started) (g.width - missing))

def settle (g : Gathering) (index : Nat) (known : Known) : Gathering :=
  { g with
    results := (index, known) :: g.results
    underWay := g.underWay.filter (·.index != index) }

end Gathering

/-- What a fiber waits for, and how it goes on. -/
inductive Wait where
  | turn (p : Running Outcome)
  | call (call : Call) (cue : Cue) (due limit : Alarm) (next : Option call.Result → Running Outcome)
  | lookups (g : Gathering) (next : List Known → Running Outcome)
  /-- `since` tells which of several pauses began first. -/
  | pause (due : Alarm) (since : Nat) (next : Bool → Running Outcome)
  | slot (next : Unit → Running Outcome)
  | join (next : TaskEnd → Running Outcome)

inductive Role where
  | main
  | task
  /-- Goes through the round again and again. -/
  | watch (round : Running Outcome)

structure Fiber where
  id : Nat
  /-- The run that the fiber works for, by its place among all runs. -/
  run : Nat
  role : Role
  wait : Wait

/-- A run and what its fibers share. -/
structure RunCell where
  identity : RunIdentity
  rules : RunRules
  credentials : String
  state : RunState
  /-- The free slots. -/
  free : Nat
  /-- The tasks that have ended and have not been joined. -/
  ended : List TaskEnd
  /-- How the run itself ended; an error is the message with which it broke down. -/
  result : Option (Except String (Except RunError Record))

/-- What the operator of the host waits for. -/
inductive OperatorWait where
  | none
  | time (due : Alarm)
  /-- The end of a run. -/
  | run (index : Nat)
  /-- The end of all runs, or the alarm. -/
  | idle (due : Alarm)

structure Machine where
  world : World
  host : Host
  rules : RunRules
  cells : List RunCell
  fibers : List Fiber
  /-- The fibers that can go on; zero stands for the operator. -/
  ready : List Nat
  fibersMade : Nat
  ordersMade : Nat
  /-- The runs that a shutdown reaches, the last one first. -/
  reached : List Nat
  plan : Option RunPlan
  operator : OperatorWait
  /-- The message with which the operator broke down. -/
  halted : Option String

/-- How a question of a fiber is served. -/
inductive Served (α : Type) where
  | answered (a : α) (m : Machine)
  | broken (message : String) (m : Machine)
  | waiting (wait : (α → Running Outcome) → Wait) (m : Machine)

namespace Machine

def start (world : World) (rules : RunRules) : Machine where
  world
  host := .idle
  rules
  cells := []
  fibers := []
  ready := [0]
  fibersMade := 0
  ordersMade := 0
  reached := []
  plan := none
  operator := .none
  halted := none

def now (m : Machine) : Nat := m.world.time

def takeOrder (m : Machine) : Nat × Machine :=
  (m.ordersMade, { m with ordersMade := m.ordersMade + 1 })

/-- Sets an alarm `delay` milliseconds ahead. -/
def setAlarm (m : Machine) (delay : Nat) : Alarm × Machine :=
  let (order, m) := m.takeOrder
  (⟨m.now + delay, order⟩, m)

def wake (m : Machine) (id : Nat) : Machine :=
  if m.ready.contains id then m else { m with ready := m.ready ++ [id] }

def wakeAll (m : Machine) (ids : List Nat) : Machine := ids.foldl wake m

def addFiber (m : Machine) (run : Nat) (role : Role) (p : Running Outcome) : Machine :=
  let id := m.fibersMade + 1
  let f : Fiber := { id, run, role, wait := .turn p }
  { m with fibers := m.fibers ++ [f], fibersMade := id }.wake id

def changeCell (m : Machine) (run : Nat) (f : RunCell → RunCell) : Machine :=
  { m with cells := m.cells.modify run f }

/-- The fibers of a run that pause, in the order in which they began to. -/
def pausing (m : Machine) (run : Nat) : List Nat :=
  let pauses := m.fibers.filterMap fun f =>
    match f.wait with
    | .pause _ since _ => if f.run == run then some (since, f.id) else none
    | _ => none
  (pauses.mergeSort fun a b => a.1 ≤ b.1).map (·.2)

/-- Changes what the fibers of a run share, and ends their pauses if that is now called for. -/
def changeState (m : Machine) (run : Nat) (c : RunChange) : Machine :=
  match m.cells[run]? with
  | none => m
  | some cell =>
    let state := cell.state.change c
    let m := m.changeCell run fun cell => { cell with state }
    if state.interrupted && !cell.state.interrupted then m.wakeAll (m.pausing run) else m

/-- Shuts the host down. -/
def stop (m : Machine) : Machine :=
  let reached := m.reached
  reached.foldl (fun m run => m.changeState run .stopping)
    { m with host := { m.host with stopping := true }, reached := [] }

/-- Takes a run off those that a shutdown reaches; the last one moves to its place. -/
def unreach (m : Machine) (run : Nat) : Machine :=
  match m.reached with
  | [] => m
  | last :: rest =>
    if last == run then { m with reached := rest }
    else if rest.contains run then
      { m with reached := rest.map fun r => if r == run then last else r }
    else m

/-- Notes that a fiber is gone; a run without fibers is out of reach. -/
def leave (m : Machine) (run : Nat) : Machine :=
  if m.fibers.any (·.run == run) then m else m.unreach run

/-! ## Calls -/

def suffer (m : Machine) : Incident → Machine
  | .stop => m.stop
  | i => { m with world := m.world.interfere i }

/-- Begins a call: it is noted, and its cue is taken. -/
def beginCall (m : Machine) (call : Call) : Cue × Machine :=
  let (cue, script) := m.world.script.next (callName call)
  let calls := m.world.calls ++ [(m.now, call)]
  (cue, cue.before.foldl suffer { m with world := { m.world with script, calls } })

def endCall (m : Machine) (call : Call) (cue : Cue) : Except String call.Result × Machine :=
  let m := cue.after.foldl suffer m
  let (result, world) := m.world.conclude call cue.ending
  (result, { m with world })

/-- The alarms of a call that takes its time: when it is done, and when it has taken too long. -/
def callAlarms (m : Machine) (cue : Cue) (limit : Span) : Alarm × Alarm × Machine :=
  let (due, m) := m.setAlarm cue.delay
  let (late, m) := m.setAlarm limit.millisCeil
  (due, late, m)

/-- Goes on with one of the files to look up, or starts it. -/
def lookUp (m : Machine) (g : Gathering) (index : Nat) : Except String Gathering × Machine :=
  match g.underWay.find? (·.index == index), g.files[index]? with
  | some l, _ =>
    if l.due.time ≤ m.now then
      match m.endCall (.lookup l.file) l.cue with
      | (.ok known, m) => (.ok (g.settle index (some known)), m)
      | (.error message, m) => (.error message, m)
    else if l.limit.time ≤ m.now then (.ok (g.settle index none), m)
    else (.ok g, m)
  | none, some file =>
    let (cue, m) := m.beginCall (.lookup file)
    if cue.delay = 0 then
      match m.endCall (.lookup file) cue with
      | (.ok known, m) => (.ok (g.settle index (some known)), m)
      | (.error message, m) => (.error message, m)
    else if g.limit.millisCeil = 0 then (.ok (g.settle index none), m)
    else
      let (due, limit, m) := m.callAlarms cue g.limit
      let l : Lookup := { index, file, cue, due, limit }
      (.ok { g with underWay := l :: g.underWay }, m)
  | none, none => (.ok g, m)

/-- Serves the files of `queue` in turn, and those that can be started on the way. -/
def gather : (fuel : Nat) → (queue : List Nat) → Gathering → Machine →
    Except String Gathering × Machine
  | 0, _, g, m => (.ok g, m)
  | fuel + 1, queue, g, m =>
    let more := g.startable
    match queue ++ more with
    | [] => (.ok g, m)
    | index :: queue =>
      match m.lookUp { g with started := g.started + more.length } index with
      | (.ok g, m) => gather fuel queue g m
      | (.error message, m) => (.error message, m)

/-- Goes on with files to look up as far as possible. -/
def gatherOn (m : Machine) (g : Gathering) : Except String Gathering × Machine :=
  let rung := g.underWay.filterMap fun l => (l.rung? m.now).map fun alarm => (alarm, l.index)
  let queue := (rung.mergeSort fun a b => a.1.notAfter b.1).map (·.2)
  m.gather (2 * g.files.length + 1) queue g

/-! ## Questions -/

def overflows : (q : KeeperAsk) → q.Answer → Bool
  | .store _, .error .counterOverflow => true
  | _, _ => false

def keep (m : Machine) (q : KeeperAsk) : Except String q.Answer × Machine :=
  let (a, world) := m.world.keep q
  let m := { m with world }
  if overflows q a then (.error StoreError.counterOverflow.message, m) else (.ok a, m)

/-- The fibers of a run that wait for a slot, or for a task to end. -/
def waitingMain (m : Machine) (run : Nat) : List Nat :=
  m.fibers.filterMap fun f =>
    match f.wait with
    | .slot _ | .join _ => if f.run == run then some f.id else none
    | _ => none

def giveBack (m : Machine) (run : Nat) : Machine :=
  let m := m.changeCell run fun cell => { cell with free := cell.free + 1 }
  m.wakeAll (m.waitingMain run)

def watchOf (cell : RunCell) : Running Outcome := do
  return .round (← cell.identity.watchRound cell.rules.pollInterval)

def taskOf (cell : RunCell) (task : SyncTask) : Running Outcome := do
  return .task (← task.run cell.rules cell.identity cell.credentials)

/-- Serves a question of a fiber of the given run. -/
def serve (m : Machine) (run : Nat) (cell : RunCell) : (q : RunAsk) → Served q.Answer
  | .keeper q =>
    match m.keep q with
    | (.ok a, m) => .answered a m
    | (.error message, m) => .broken message m
  | .state => .answered cell.state m
  | .change c => .answered (cell.state.change c) (m.changeState run c)
  | .within limit call =>
    let (cue, m) := m.beginCall call
    if cue.delay = 0 then
      match m.endCall call cue with
      | (.ok result, m) => .answered (some result) m
      | (.error message, m) => .broken message m
    else if limit.millisCeil = 0 then .answered none m
    else
      let (due, late, m) := m.callAlarms cue limit
      .waiting (.call call cue due late) m
  | .lookups files width limit =>
    match m.gatherOn ⟨files, width, limit, 0, [], []⟩ with
    | (.error message, m) => .broken message m
    | (.ok g, m) => if g.isComplete then .answered g.settled m else .waiting (.lookups g) m
  | .pause length =>
    if cell.state.interrupted then .answered true m
    else if length.millisCeil = 0 then .answered false m
    else
      let (since, m) := m.takeOrder
      let (due, m) := m.setAlarm length.millisCeil
      .waiting (.pause due since) m
  | .acquire =>
    if cell.free = 0 then .waiting .slot m
    else .answered () (m.changeCell run fun cell => { cell with free := cell.free - 1 })
  | .release => .answered () (m.giveBack run)
  | .spawn task => .answered () (m.addFiber run .task (taskOf cell task))
  | .join =>
    match cell.ended with
    | [] => .waiting .join m
    | e :: rest => .answered e (m.changeCell run fun cell => { cell with ended := rest })
  | .startWatch =>
    let round := watchOf cell
    .answered () (m.addFiber run (.watch round) round)
  | .endWatch =>
    .answered () { m with fibers := m.fibers.filter fun f =>
      !(f.run == run && f.role matches .watch _) }

/-! ## Fibers -/

/-- Tells the operator that a run has ended. -/
def reportEnd (m : Machine) (run : Nat) : Machine :=
  match m.operator with
  | .run index => if index == run then m.wake 0 else m
  | .idle _ => if m.cells.all (·.result.isSome) then m.wake 0 else m
  | _ => m

def suspend (m : Machine) (f : Fiber) (wait : Wait) : Machine :=
  { m with fibers := m.fibers ++ [{ f with wait }] }

def endTask (m : Machine) (run : Nat) (e : TaskEnd) : Machine :=
  let m := m.giveBack run
  let m := m.changeCell run fun cell => { cell with ended := cell.ended ++ [e] }
  (m.wakeAll (m.waitingMain run)).leave run

/-- Starts the next round of a watch. -/
def watchAgain (m : Machine) (f : Fiber) (round : Running Outcome) : Machine :=
  match m.cells[f.run]?, round with
  | some cell, .ask (.pause length) next =>
    match m.serve f.run cell (.pause length) with
    | .waiting wait m => m.suspend f (wait next)
    | .answered a m => (m.suspend f (.turn (next a))).wake f.id
    | .broken _ m => m.leave f.run
  | _, p => (m.suspend f (.turn p)).wake f.id

/-- What happens when a fiber is through. -/
def conclude (m : Machine) (f : Fiber) : Outcome → Machine
  | .run result =>
    let m := m.changeCell f.run fun cell => { cell with result := some (.ok result) }
    let m := match m.cells[f.run]? with
      | some cell =>
        { m with host := m.host.ended cell.identity.collection cell.identity.run }
      | none => m
    (m.leave f.run).reportEnd f.run
  | .task result => m.endTask f.run (.settled result)
  | .round last =>
    match f.role with
    | .watch round => if last then m.leave f.run else m.watchAgain f round
    | _ => m.leave f.run
  | .plan plan => { m with plan := some plan }

/-- What happens when a fiber breaks down. A run takes its tasks down with it and stays on the
account of the host. -/
def breakDown (m : Machine) (f : Fiber) (message : String) : Machine :=
  match f.role with
  | .main =>
    let fibers := m.fibers.filter fun g => !(g.run == f.run && g.role matches .task)
    let m := { m with fibers }.changeCell f.run fun cell =>
      { cell with result := some (.error message) }
    (m.leave f.run).reportEnd f.run
  | .task => m.endTask f.run (.broken message)
  | .watch _ => m.leave f.run

/-- Goes on with a fiber until it waits, breaks down or is through. -/
def drive (f : Fiber) : Running Outcome → Machine → Machine
  | .done outcome, m => m.conclude f outcome
  | .ask q next, m =>
    match m.cells[f.run]? with
    | none => m
    | some cell =>
      match m.serve f.run cell q with
      | .answered a m => drive f (next a) m
      | .broken message m => m.breakDown f message
      | .waiting wait m => m.suspend f (wait next)

/-- Goes on with a fiber if what it waits for has come. -/
def resume (m : Machine) (id : Nat) : Machine :=
  match m.fibers.find? (·.id == id) with
  | none => m
  | some f =>
    let stays := m
    let m := { m with fibers := m.fibers.filter (·.id != id) }
    match m.cells[f.run]?, f.wait with
    | none, _ => m
    | some _, .turn p => m.drive f p
    | some _, .call call cue due late next =>
      if due.time ≤ m.now then
        match m.endCall call cue with
        | (.ok result, m) => m.drive f (next (some result))
        | (.error message, m) => m.breakDown f message
      else if late.time ≤ m.now then m.drive f (next none)
      else stays
    | some _, .lookups g next =>
      match m.gatherOn g with
      | (.error message, m) => m.breakDown f message
      | (.ok g, m) =>
        if g.isComplete then m.drive f (next g.settled) else m.suspend f (.lookups g next)
    | some cell, .pause due _ next =>
      if cell.state.interrupted then m.drive f (next true)
      else if due.time ≤ m.now then m.drive f (next false)
      else stays
    | some cell, .slot next =>
      if cell.free = 0 then stays
      else (m.changeCell f.run fun cell => { cell with free := cell.free - 1 }).drive f (next ())
    | some cell, .join next =>
      match cell.ended with
      | [] => stays
      | e :: rest => (m.changeCell f.run fun cell => { cell with ended := rest }).drive f (next e)

/-! ## Time -/

def Wait.alarms : Wait → List Alarm
  | .call _ _ due late _ => [due, late]
  | .lookups g _ => g.underWay.flatMap fun l => [l.due, l.limit]
  | .pause due _ _ => [due]
  | _ => []

/-- All alarms that are set, each with the fiber that waits for it. -/
def alarms (m : Machine) : List (Alarm × Nat) :=
  (match m.operator with
    | .time due | .idle due => [(due, 0)]
    | _ => [])
    ++ m.fibers.flatMap fun f => (Wait.alarms f.wait).map (·, f.id)

/-- Lets time pass until the next alarm goes off; none if no alarm is set. -/
def advance (m : Machine) : Option Machine :=
  let sorted := m.alarms.mergeSort fun a b => a.1.notAfter b.1
  match sorted with
  | [] => none
  | (first, _) :: _ =>
    let time := max first.time m.now
    let m := { m with world := { m.world with time } }
    some (m.wakeAll ((sorted.takeWhile fun a => a.1.time == first.time).map (·.2)))

/-- Serves fibers, and the operator with `turn`, until `isOver` holds or nothing can happen any
more. -/
def play {σ : Type} (turn : Machine → σ → Machine × σ) (isOver : Machine → σ → Bool) :
    (fuel : Nat) → Machine → σ → Machine × σ
  | 0, m, s => (m, s)
  | fuel + 1, m, s =>
    if m.halted.isSome || isOver m s then (m, s)
    else
      match m.ready with
      | 0 :: ready =>
        let (m, s) := turn { m with ready } s
        play turn isOver fuel m s
      | id :: ready => play turn isOver fuel ({ m with ready }.resume id) s
      | [] =>
        match m.advance with
        | none => (m, s)
        | some m => play turn isOver fuel m s

/-- More turns than any rehearsal takes. -/
def turnLimit : Nat := 10000000

/-! ## What the operator does without waiting -/

/-- Puts a run under the machine's care, without a fiber of its own yet. -/
def addCell (m : Machine) (i : RunIdentity) (credentials : String) : Nat × Machine :=
  let cell : RunCell :=
    { identity := i, rules := m.rules, credentials,
      state := .start m.rules.failuresCap m.host.stopping,
      free := m.rules.slots, ended := [], result := none }
  let run := m.cells.length
  (run, { m with cells := m.cells ++ [cell], reached := run :: m.reached })

def launch (m : Machine) (order : RunOrder) : Machine :=
  let i := order.identity
  let m := { m with world := m.world.countRun }
  let (run, m) := { m with host := m.host.launched i.collection i.run }.addCell i order.credentials
  m.addFiber run .main do return .run (← order.run m.rules)

/-- Does what a host asks for. A run that is not launched leaves its number to the next one. -/
def hosting {α : Type} : Hosting α → Machine → Except String α × Machine
  | .done a, m => (.ok a, m)
  | .ask (.keeper q) next, m =>
    match m.keep q with
    | (.ok a, m) => hosting (next a) m
    | (.error message, m) => (.error message, m)
  | .ask .stopping next, m => hosting (next m.host.stopping) m
  | .ask .freshRun next, m => hosting (next m.world.freshRun) m
  | .ask (.launch order) next, m => hosting (next ()) (m.launch order)

/-- Does what a run asks for, as long as it need not wait. -/
def running {α : Type} (run : Nat) : Running α → Machine → Except String α × Machine
  | .done a, m => (.ok a, m)
  | .ask q next, m =>
    match m.cells[run]? with
    | none => (.error "no such run", m)
    | some cell =>
      match m.serve run cell q with
      | .answered a m => running run (next a) m
      | .broken message m => (.error message, m)
      | .waiting _ m => (.error "nothing to wait for", m)

end Machine

end CollectionSync.Rehearsal
