import CollectionSync.Proofs.Program
import CollectionSync.Run.Basic

/-! # All orders in which the programs of a run may be served

A run is a main program, the tasks that it has started, and the watch over its record. Each of them
is known by what it has heard. A step serves one question of one of them, and any of them may be
served next, so the reachable pools are those of every order. Nothing has to happen: a run that
breaks down in its main program is one whose main program is not served again. -/

namespace CollectionSync.Interleaving

open Program (Follows Yields ask)

/-- A question of a run with the answer to it. -/
abbrev RunHeard := Heard RunAsk.Answer

/-- Questions to the store, the remote side and the pipeline. -/
def IsOutward : RunAsk → Prop
  | .keeper _ | .within .. | .lookups .. => True
  | _ => False

/-- What a run is surrounded by. -/
structure Surroundings where
  World : Type
  /-- The answers that an outward question may get, and what it does to the world. -/
  answers : (q : RunAsk) → q.Answer → World → World → Prop
  /-- What may happen without the run. -/
  moves : World → World → Prop

variable (env : Surroundings) (rules : RunRules) (order : RunOrder)

/-- What all programs of a run work on. -/
structure Shared where
  run : RunState
  free : Nat
  world : env.World

variable {env}

/-- How a question is answered that neither starts a task nor waits for one. -/
inductive Serves : (q : RunAsk) → q.Answer → Shared env → Shared env → Prop
  | outward {q : RunAsk} {a : q.Answer} {s : Shared env} {w : env.World} :
    IsOutward q → env.answers q a s.world w → Serves q a s { s with world := w }
  | state {s : Shared env} : Serves .state s.run s s
  | change {c : RunChange} {s : Shared env} :
    Serves (.change c) (s.run.change c) s { s with run := s.run.change c }
  | pause {length : Span} {cut : Bool} {s : Shared env} :
    (cut = true → s.run.interrupted = true) → Serves (.pause length) cut s s
  | acquire {s : Shared env} : 0 < s.free → Serves .acquire () s { s with free := s.free - 1 }
  | release {s : Shared env} : Serves .release () s { s with free := s.free + 1 }

/-- How far a task has come. -/
inductive Course where
  | working
  | ended (e : TaskEnd)
  | joined (e : TaskEnd)

/-- A task that was started, with what it has heard. -/
structure Fiber where
  task : SyncTask
  heard : List RunHeard
  course : Course

variable (env) in
/-- The programs of a run between two steps. -/
structure Pool where
  shared : Shared env
  main : List RunHeard
  fibers : List Fiber
  /-- What the watch has heard in its present round. -/
  watch : Option (List RunHeard)

namespace Pool

variable (env) in
def start (stopping : Bool) (w : env.World) : Pool env where
  shared := ⟨.start rules.failuresCap stopping, rules.slots, w⟩
  main := []
  fibers := []
  watch := none

/-- All that the main program and the tasks have heard. -/
def heard (p : Pool env) : List RunHeard := p.main ++ p.fibers.flatMap Fiber.heard

def hear (p : Pool env) (q : RunAsk) (a : q.Answer) : Pool env :=
  { p with main := p.main ++ [⟨q, a⟩] }

/-- A task has ended and gives back its slot. -/
def giveBack (p : Pool env) : Pool env :=
  { p with shared := { p.shared with free := p.shared.free + 1 } }

end Pool

/-- The program of a task of the run. -/
abbrev taskOf (task : SyncTask) : Running (Except RunError Unit) :=
  task.run rules order.identity order.credentials

/-- One round of the watch of the run. -/
abbrev watchOf : Running Bool := order.identity.watchRound rules.pollInterval

/-- A program of the run goes on by one question, or something happens around them. -/
inductive Step : Pool env → Pool env → Prop
  | main {p : Pool env} {q : RunAsk} {next : q.Answer → Running (Except RunError Record)}
      {a : q.Answer} {s : Shared env} :
    Follows (order.run rules) p.main (ask q next) → Serves q a p.shared s →
    Step p { p.hear q a with shared := s }
  | spawn {p : Pool env} {task : SyncTask} {next : Unit → Running (Except RunError Record)} :
    Follows (order.run rules) p.main (ask (.spawn task) next) →
    Step p { p.hear (.spawn task) () with fibers := p.fibers ++ [⟨task, [], .working⟩] }
  | join {p : Pool env} {next : TaskEnd → Running (Except RunError Record)}
      {before after : List Fiber} {task : SyncTask} {h : List RunHeard} {e : TaskEnd} :
    Follows (order.run rules) p.main (ask .join next) →
    p.fibers = before ++ ⟨task, h, .ended e⟩ :: after →
    Step p { p.hear .join e with fibers := before ++ ⟨task, h, .joined e⟩ :: after }
  | startWatch {p : Pool env} {next : Unit → Running (Except RunError Record)} :
    Follows (order.run rules) p.main (ask .startWatch next) →
    Step p { p.hear .startWatch () with watch := some [] }
  /-- The watch may have gone on by a few questions when it notices. -/
  | endWatch {p : Pool env} {next : Unit → Running (Except RunError Record)} :
    Follows (order.run rules) p.main (ask .endWatch next) → Step p (p.hear .endWatch ())
  | task {p : Pool env} {before after : List Fiber} {task : SyncTask} {h : List RunHeard}
      {q : RunAsk} {next : q.Answer → Running (Except RunError Unit)} {a : q.Answer}
      {s : Shared env} :
    p.fibers = before ++ ⟨task, h, .working⟩ :: after →
    Follows (taskOf rules order task) h (ask q next) → Serves q a p.shared s →
    Step p { p with
      shared := s
      fibers := before ++ ⟨task, h ++ [⟨q, a⟩], .working⟩ :: after }
  | taskEnds {p : Pool env} {before after : List Fiber} {task : SyncTask} {h : List RunHeard}
      {result : Except RunError Unit} :
    p.fibers = before ++ ⟨task, h, .working⟩ :: after →
    Yields (taskOf rules order task) h result →
    Step p { p.giveBack with fibers := before ++ ⟨task, h, .ended (.settled result)⟩ :: after }
  /-- A call to the remote side or to the pipeline takes the task down with it. -/
  | taskBreaks {p : Pool env} {before after : List Fiber} {task : SyncTask} {h : List RunHeard}
      {limit : Span} {call : Call} {next : Option call.Result → Running (Except RunError Unit)}
      {message : String} :
    p.fibers = before ++ ⟨task, h, .working⟩ :: after →
    Follows (taskOf rules order task) h (ask (.within limit call) next) →
    Step p { p.giveBack with fibers := before ++ ⟨task, h, .ended (.broken message)⟩ :: after }
  | watch {p : Pool env} {h : List RunHeard} {q : RunAsk} {next : q.Answer → Running Bool}
      {a : q.Answer} {s : Shared env} :
    p.watch = some h → Follows (watchOf rules order) h (ask q next) → Serves q a p.shared s →
    Step p { p with shared := s, watch := some (h ++ [⟨q, a⟩]) }
  | watchRound {p : Pool env} {h : List RunHeard} {last : Bool} :
    p.watch = some h → Yields (watchOf rules order) h last →
    Step p { p with watch := if last then none else some [] }
  | watchGone {p : Pool env} : Step p { p with watch := none }
  /-- The host begins to shut down. -/
  | stop {p : Pool env} :
    Step p { p with shared := { p.shared with run := p.shared.run.change .stopping } }
  | world {p : Pool env} {w : env.World} :
    env.moves p.shared.world w → Step p { p with shared := { p.shared with world := w } }

/-- The pools that a run can come to, whatever happens. -/
inductive Reachable : Pool env → Prop
  | start (stopping : Bool) (w : env.World) : Reachable (.start env rules stopping w)
  | step {p p' : Pool env} : Reachable p → Step rules order p p' → Reachable p'

end CollectionSync.Interleaving
