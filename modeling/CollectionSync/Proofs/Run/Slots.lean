import CollectionSync.Proofs.Run.Alone
import CollectionSync.Proofs.Run.Notes
import CollectionSync.Proofs.Run.Overlap

/-! # The slots of a run

The main program takes a slot before it starts a task, and then gives it back or leaves it to the
task, which keeps it until it is over, however it ends. So a slot is free, or held by a task, or
held by the main program, and none is lost on the way. -/

namespace CollectionSync.Interleaving

open Program

variable {env : Surroundings} {rules : RunRules} {order : RunOrder} {task : SyncTask}
  {i : RunIdentity} {h : List RunHeard} {held : Bool} {α β : Type}

/-! ## Taking turns -/

def IsSlotAsk : RunAsk → Prop
  | .acquire | .release | .spawn _ => True
  | _ => False

/-- Whether the main program holds a slot after a question. A task that is started takes the slot
over. -/
def holdsAfter (held : Bool) : RunAsk → Bool
  | .acquire => true
  | .release | .spawn _ => false
  | _ => held

/-- A slot is taken by who holds none, and given away by who holds one. -/
def InTurn (held : Bool) : RunAsk → Prop
  | .acquire => held = false
  | .release | .spawn _ => held = true
  | _ => True

/-- Whether the main program holds a slot, by what it has heard. -/
def holds (held : Bool) (h : List RunHeard) : Bool :=
  h.foldl (fun held e => holdsAfter held e.1) held

/-- The program takes slots and gives them away in turn, whatever it hears, and holds none at its
end. -/
def TakesTurns : Bool → Running α → Prop
  | held, .done _ => held = false
  | held, .ask q next => InTurn held q ∧ ∀ a, TakesTurns (holdsAfter held q) (next a)

theorem holdsAfter_of_not_isSlotAsk {q : RunAsk}
    (hq : ¬ IsSlotAsk q) : holdsAfter held q = held := by
  unfold holdsAfter
  split <;> first | rfl | exact absurd trivial hq

theorem inTurn_of_not_isSlotAsk {q : RunAsk} (hq : ¬ IsSlotAsk q) : InTurn held q := by
  unfold InTurn
  split <;> first | trivial | exact absurd trivial hq

theorem holds_concat (h : List RunHeard) (e : RunHeard) :
    holds held (h ++ [e]) = holdsAfter (holds held h) e.1 := by
  rw [holds, List.foldl_append]
  rfl

/-- A program that has nothing to do with slots. -/
abbrev Slotless (p : Running α) : Prop := p.Asks fun q => ¬ IsSlotAsk q

theorem holds_of_slotless (hh : ∀ e ∈ h, ¬ IsSlotAsk e.1) : holds held h = held := by
  induction h with
  | nil => rfl
  | cons e h ih =>
    obtain ⟨he, hh⟩ := List.forall_mem_cons.mp hh
    have hcons : holds held (e :: h) = holds (holdsAfter held e.1) h := rfl
    rw [hcons, holdsAfter_of_not_isSlotAsk he, ih hh]

namespace TakesTurns

theorem bind {p : Running α} {f : α → Running β} (hp : TakesTurns held p)
    (hf : ∀ a, TakesTurns false (f a)) : TakesTurns held (p >>= f) := by
  induction p generalizing held with
  | done a =>
    have hheld : held = false := hp
    exact hheld ▸ hf a
  | ask q next ih => exact ⟨hp.1, fun a => ih a (hp.2 a)⟩

/-- What has nothing to do with slots may be done while one is held. -/
theorem after {p : Running α} {f : α → Running β} (hp : Slotless p)
    (hf : ∀ a, TakesTurns held (f a)) : TakesTurns held (p >>= f) := by
  induction p with
  | done a => exact hf a
  | ask q next ih =>
    refine ⟨inTurn_of_not_isSlotAsk hp.1, fun a => ?_⟩
    rw [holdsAfter_of_not_isSlotAsk hp.1]
    exact ih a (hp.2 a)

theorem pure (a : α) : TakesTurns false (Pure.pure a : Running α) := rfl

theorem of_slotless {p : Running α} (hp : Slotless p) : TakesTurns false p :=
  bind_pure p ▸ after hp pure

theorem acquire {f : Unit → Running α} (hf : TakesTurns true (f ())) :
    TakesTurns false (Run.acquire >>= f) := ⟨rfl, fun _ => hf⟩

theorem release {f : Unit → Running α} (hf : TakesTurns false (f ())) :
    TakesTurns true (Run.release >>= f) := ⟨rfl, fun _ => hf⟩

theorem spawn {f : Unit → Running α} (hf : TakesTurns false (f ())) :
    TakesTurns true (Run.spawn task >>= f) := ⟨rfl, fun _ => hf⟩

theorem of_follows {p p' : Running α} (hp : TakesTurns held p) (hf : Follows p h p') :
    TakesTurns (holds held h) p' := by
  induction hf generalizing held with
  | refl => exact hp
  | hear a _ ih => exact ih (hp.2 a)

end TakesTurns

/-! ## The programs of a run -/

theorem IsRoutine.not_isSlotAsk {q : RunAsk} (hq : IsRoutine q) : ¬ IsSlotAsk q := by
  intro hslot
  unfold IsSlotAsk at hslot
  split at hslot <;> first | exact hq | exact hslot

theorem Routine.slotless {p : Running α} (hp : Routine p) : Slotless p :=
  hp.mono fun _ hq => hq.not_isSlotAsk

theorem noteFatal_slotless (e : RunError) : Slotless (RunIdentity.noteFatal e) :=
  (Asks.question id).bind fun _ => Asks.pure _

theorem publishOrFail_slotless (p : Progress) : Slotless (i.publishOrFail p) := by
  refine (publish_routine i p).slotless.bind fun published => ?_
  cases published with
  | ok outcome => trivial
  | error e => exact noteFatal_slotless e

theorem settleCancelled_slotless (task : SyncTask) : Slotless (task.settleCancelled i) :=
  (Asks.question id).bind fun _ => publishOrFail_slotless _

theorem settle_slotless (n : Nat) : Slotless (Dispatch.settle i n) := by
  induction n with
  | zero => trivial
  | succ n ih =>
    refine (Asks.question id).bind fun e => ?_
    split
    · exact ih
    · exact (noteFatal_slotless _).bind fun _ => ih
    · exact (Asks.question id).bind fun _ => (publishOrFail_slotless _).bind fun _ => ih

theorem startEach_turns (tasks : List SyncTask) (n : Nat) :
    TakesTurns false (Dispatch.startEach i tasks n) := by
  induction tasks generalizing n with
  | nil => exact .pure n
  | cons task rest ih =>
    refine .after state_routine.slotless fun s => ?_
    split
    · exact .pure n
    refine .after (observe_routine i).slotless fun observed => ?_
    split
    · exact .after (noteFatal_slotless _) fun _ => .pure n
    · exact .after (settleCancelled_slotless task) fun _ => ih n
    refine .acquire (.after (observe_routine i).slotless fun observed => ?_)
    split
    · exact .after (noteFatal_slotless _) fun _ => .release (.pure n)
    · exact .release (.after (settleCancelled_slotless task) fun _ => ih n)
    · exact .spawn (ih (n + 1))

theorem all_turns (tasks : List SyncTask) : TakesTurns false (Dispatch.all i tasks) := by
  refine .after (Asks.question id) fun s =>
    .after (publish_routine i _).slotless fun published => ?_
  split
  · exact .of_slotless (noteFatal_slotless _)
  · exact (startEach_turns tasks 0).bind fun n => .of_slotless (settle_slotless n)

/-- What a run does until all its tasks have been waited for. -/
def untilSettled (rules : RunRules) (order : RunOrder) : Running Listing := do
  (.question RunAsk.startWatch : Running Unit)
  let listing ← order.listRoots rules
  order.carryOut rules listing
  pure listing

theorem work_eq : order.work rules = (do
    let listing ← untilSettled rules order
    (.question RunAsk.endWatch : Running Unit)
    pure listing) := by
  rw [RunOrder.work, untilSettled, bind_assoc]
  refine congrArg (question RunAsk.startWatch >>= ·) (funext fun _ => ?_)
  rw [bind_assoc]
  refine congrArg (order.listRoots rules >>= ·) (funext fun listing => ?_)
  rw [bind_assoc]
  rfl

theorem untilSettled_turns : TakesTurns false (untilSettled rules order) := by
  have hlist : Slotless (order.listRoots rules) := by
    refine (extend_asks (fun _ hq => hq.not_isSlotAsk) (fun _ => id) _ _).bind fun listed => ?_
    split
    · trivial
    · exact (noteFatal_slotless _).bind fun _ => Asks.pure _
  have hcarry : ∀ listing, TakesTurns false (order.carryOut rules listing) := by
    intro listing
    refine .after state_routine.slotless fun s => ?_
    split
    · exact .after ((Asks.question id).bind fun _ => Asks.pure _) fun plan => all_turns plan.tasks
    · exact .pure ()
  exact .after (Asks.question id) fun _ => .after hlist fun listing =>
    (hcarry listing).bind fun _ => .pure listing

/-- What a run does after its tasks. -/
def closing (order : RunOrder) (listing : Listing) : Running (Except RunError Record) := do
  (.question RunAsk.endWatch : Running Unit)
  order.finish listing

theorem run_eq : order.run rules = untilSettled rules order >>= closing order := by
  rw [RunOrder.run, work_eq, bind_assoc]
  rfl

theorem closing_asks {listing : Listing} :
    (closing order listing).Asks fun q => IsQuiet q ∧ ¬ IsSlotAsk q := by
  refine (Asks.question ⟨fun _ => rfl, id⟩).bind fun _ => ?_
  refine (Asks.question ⟨fun _ => rfl, id⟩).bind fun s => (keeping_asks _).mono ?_
  rintro q ⟨k, rfl⟩
  exact ⟨fun _ => rfl, id⟩

theorem run_turns : TakesTurns false (order.run rules) := by
  rw [run_eq]
  exact untilSettled_turns.bind fun _ => .of_slotless (closing_asks.mono fun _ hq => hq.2)

theorem taskOf_slotless : Slotless (taskOf rules order task) :=
  (perform_routine _ _ task).slotless.bind fun done =>
    settle_asks (fun _ => id) (fun _ => (publish_routine _ _).slotless) done

/-! ## Who holds the slots -/

def Course.isWorking : Course → Bool
  | .working => true
  | _ => false

/-- A task holds its slot until it is over: until it has come to its end, or has broken down. -/
abbrev Fiber.HoldsSlot (f : Fiber) : Prop := f.course.isWorking = true

namespace Pool

/-- How many tasks hold a slot. -/
def holders (p : Pool env) : Nat := p.fibers.countP (·.course.isWorking)

/-- How many slots the main program holds: one while it looks at its record before it starts a
task. -/
def reserved (p : Pool env) : Nat := (holds false p.main).toNat

end Pool

variable {p p' : Pool env} {s s' : Shared env} {q : RunAsk} {a : q.Answer}

theorem IsOutward.not_isSlotAsk (hq : IsOutward q) : ¬ IsSlotAsk q := by
  intro hslot
  unfold IsSlotAsk at hslot
  split at hslot <;> first | exact hq | exact hslot

/-- What whoever asks gets or gives away is what the free slots lose or get. -/
theorem Serves.balance (hs : Serves q a s s') (hturn : InTurn held q) :
    s'.free + (holdsAfter held q).toNat = s.free + held.toNat := by
  cases hs with
  | outward hq => rw [holdsAfter_of_not_isSlotAsk hq.not_isSlotAsk]
  | state | change | pause => rfl
  | @acquire _ hfree =>
    obtain rfl : held = false := hturn
    exact Nat.sub_add_cancel hfree
  | release =>
    obtain rfl : held = true := hturn
    rfl

theorem Serves.free (hs : Serves q a s s') (hq : ¬ IsSlotAsk q) : s'.free = s.free := by
  have hbalance : s'.free + (holdsAfter false q).toNat = s.free + false.toNat :=
    hs.balance (inTurn_of_not_isSlotAsk hq)
  rwa [holdsAfter_of_not_isSlotAsk hq] at hbalance

namespace Pool

theorem reserved_hear (p : Pool env) (q : RunAsk) (a : q.Answer) :
    (p.hear q a).reserved = (holdsAfter (holds false p.main) q).toNat :=
  congrArg Bool.toNat (holds_concat p.main ⟨q, a⟩)

theorem holders_eq {before after : List Fiber} {f : Fiber} (hf : p.fibers = before ++ f :: after) :
    p.holders = before.countP (·.course.isWorking) + after.countP (·.course.isWorking) +
      f.course.isWorking.toNat := by
  rw [holders, hf, List.countP_append, List.countP_cons, ← Nat.add_assoc]
  cases f.course.isWorking <;> rfl

/-- The slots that are free, and those that are held. -/
def slots (p : Pool env) : Nat := p.shared.free + p.holders + p.reserved

theorem slots_hear {p' : Pool env} (hm : p'.main = p.main ++ [⟨q, a⟩]) (hq : ¬ IsSlotAsk q)
    (hfree : p'.shared = p.shared) (hheld : p'.holders = p.holders) : p'.slots = p.slots := by
  have hreserved : p'.reserved = p.reserved := by
    rw [reserved, hm, holds_concat, holdsAfter_of_not_isSlotAsk hq, reserved]
  rw [slots, slots, hfree, hheld, hreserved]

theorem slots_replaced {p' : Pool env} {before after : List Fiber} {f g : Fiber}
    (hf : p.fibers = before ++ f :: after) (hg : p'.fibers = before ++ g :: after)
    (hm : p'.main = p.main)
    (hfree : p'.shared.free + g.course.isWorking.toNat = p.shared.free + f.course.isWorking.toNat) :
    p'.slots = p.slots := by
  have hreserved : p'.reserved = p.reserved := by rw [reserved, hm, reserved]
  have hheld := holders_eq hf
  have hheld' := holders_eq hg
  rw [slots, slots]
  omega

end Pool

/-- One step of any of the programs loses no slot, and makes none. -/
theorem Step.slots (hs : Step rules order p p') : p'.slots = p.slots := by
  have hturn : ∀ {q : RunAsk} {next : q.Answer → Running (Except RunError Record)},
      Follows (order.run rules) p.main (ask q next) → InTurn (holds false p.main) q :=
    fun hf => (run_turns.of_follows hf).1
  cases hs with
  | @main q _ a s hf hs =>
    have hbalance := hs.balance (hturn hf)
    rw [← p.reserved_hear q a] at hbalance
    change s.free + p.holders + (p.hear q a).reserved = p.shared.free + p.holders + p.reserved
    have hreserved : p.reserved = (holds false p.main).toNat := rfl
    omega
  | @spawn task _ hf =>
    -- the slot of the main program becomes that of the task
    have hheld : p.reserved = 1 := congrArg Bool.toNat (hturn hf)
    have hleft : (p.hear (.spawn task) ()).reserved = 0 := p.reserved_hear (.spawn task) ()
    have hholds : (p.fibers ++ [(⟨task, [], .working⟩ : Fiber)]).countP (·.course.isWorking) =
        p.holders + 1 := by
      rw [List.countP_append]
      rfl
    change p.shared.free + (p.fibers ++ [(⟨task, [], .working⟩ : Fiber)]).countP _ +
      (p.hear (.spawn task) ()).reserved = p.shared.free + p.holders + p.reserved
    omega
  | @join _ before after task h e _ hf =>
    have hheld : (before ++ (⟨task, h, .joined e⟩ : Fiber) :: after).countP (·.course.isWorking) =
        p.holders := by
      rw [Pool.holders, hf, List.countP_append, List.countP_append]
      rfl
    exact Pool.slots_hear (q := .join) rfl id rfl hheld
  | startWatch _ => exact Pool.slots_hear (q := .startWatch) rfl id rfl rfl
  | endWatch _ => exact Pool.slots_hear (q := .endWatch) rfl id rfl rfl
  | task hf hq hs =>
    have hfree := hs.free (taskOf_slotless.of_follows hq).2.1
    exact Pool.slots_replaced hf rfl rfl (congrArg (· + 1) hfree)
  | taskEnds hf _ | taskBreaks hf _ => exact Pool.slots_replaced hf rfl rfl rfl
  | watch _ hq hs =>
    have hfree := hs.free (watchOf_routine.slotless.of_follows hq).2.1
    exact congrArg (· + p.holders + p.reserved) hfree
  | watchRound _ _ | watchGone | stop | world _ => rfl

/-- However the programs are served, every slot is free, or held by a task or by the main
program. -/
theorem slots_of_reachable (hr : Reachable rules order p) : p.slots = rules.slots := by
  induction hr with
  | start stopping w => rfl
  | step hr hs ih => exact hs.slots.trans ih

/-- A run that waits for a slot gets one, or waits for a task that is at work. -/
theorem free_of_acquires (hr : Reachable rules order p)
    {next : Unit → Running (Except RunError Record)}
    (hf : Follows (order.run rules) p.main (ask .acquire next)) :
    0 < p.shared.free ∨ 0 < p.holders := by
  have hnone : p.reserved = 0 := congrArg Bool.toNat (run_turns.of_follows hf).1
  have hslots := slots_of_reachable hr
  have hsome : 1 ≤ rules.slots := Nat.le_max_right ..
  rw [Pool.slots] at hslots
  omega

/-! ## Who makes the calls -/

/-- A call that downloads an item, or that changes what the pipeline holds of it. -/
def IsItemWork : RunAsk → Prop
  | .within _ (.fetch ..) | .within _ (.extract _) | .within _ (.attach ..)
  | .within _ (.detach ..) => True
  | _ => False

inductive Asker where
  | main
  | task (f : Fiber)
  | watch

/-- Who waits for the answer to a question. A task that is over waits for none. -/
inductive Pool.Awaits (rules : RunRules) (order : RunOrder) (p : Pool env) : Asker → RunAsk → Prop
  | main {q : RunAsk} {next : q.Answer → Running (Except RunError Record)} :
    Follows (order.run rules) p.main (ask q next) → Awaits rules order p .main q
  | task {f : Fiber} {q : RunAsk} {next : q.Answer → Running (Except RunError Unit)} :
    f ∈ p.fibers → (∀ e, f.course ≠ .ended e ∧ f.course ≠ .joined e) →
    Follows (taskOf rules order f.task) f.heard (ask q next) → Awaits rules order p (.task f) q
  | watch {h : List RunHeard} {q : RunAsk} {next : q.Answer → Running Bool} :
    p.watch = some h → Follows (watchOf rules order) h (ask q next) → Awaits rules order p .watch q

theorem IsLater.not_isItemWork (hq : IsLater q) : ¬ IsItemWork q := by
  intro hwork
  unfold IsItemWork at hwork
  split at hwork <;> first | exact hq | exact hwork

/-- Of the main program, only the listing of roots makes calls. -/
theorem run_works_on_none : (order.run rules).Asks fun q => ¬ IsItemWork q := by
  have hlater : ∀ {α : Type} {p : Running α}, p.Asks IsLater → p.Asks fun q => ¬ IsItemWork q :=
    fun hp => hp.mono fun _ hq => hq.not_isItemWork
  have hlist : (order.listRoots rules).Asks fun q => ¬ IsItemWork q := by
    refine (extend_asks_of (observe_asks id id id) (fun _ => ?_) id (fun _ => id) _ _).bind
      fun listed => ?_
    · exact listingOf_asks (fun _ => id) fun _ _ => id
    · split
      · trivial
      · exact (Asks.question id).bind fun _ => Asks.pure _
  rw [run_eq]
  refine Asks.bind ?_ fun listing => (Asks.question id).bind fun _ => hlater (finish_later listing)
  exact (Asks.question id).bind fun _ => hlist.bind fun listing =>
    (hlater (carryOut_later listing)).bind fun _ => Asks.pure _

/-- A call that works on an item is made by a task that holds a slot. -/
theorem Pool.Awaits.holdsSlot {asker : Asker} (ha : p.Awaits rules order asker q)
    (hq : IsItemWork q) :
    ∃ f ∈ p.fibers, asker = .task f ∧ f.HoldsSlot := by
  cases ha with
  | main hf => exact absurd hq (run_works_on_none.of_follows hf).2.1
  | watch _ hf => exact absurd hq (watchOf_later.of_follows hf).2.1.not_isItemWork
  | @task f _ _ hmem hover _ =>
    refine ⟨f, hmem, rfl, ?_⟩
    cases hcourse : f.course with
    | working => rw [Fiber.HoldsSlot, hcourse]; rfl
    | ended e => exact absurd hcourse (hover e).1
    | joined e => exact absurd hcourse (hover e).2

/-! ## The end of the tasks -/

variable {m m' : List RunHeard} {listing : Listing}

/-- What the main program has heard since its tasks were done. -/
theorem closing_of_settled (hr : Reachable rules order p)
    (hy : Yields (untilSettled rules order) m listing)
    (hm : p.main = m ++ m') : ∀ e ∈ m', IsQuiet e.1 ∧ ¬ IsSlotAsk e.1 := by
  obtain ⟨r, hf⟩ := main_follows hr
  rw [hm, run_eq] at hf
  exact (closing_asks.of_follows (hy.after hf)).1

theorem joined_of_settled (hr : Reachable rules order p)
    (hy : Yields (untilSettled rules order) m listing)
    (hm : p.main = m ++ m') : ∀ f ∈ p.fibers, f.course.isJoined = true := by
  have hmarks : marks p.main = marks m := by
    rw [hm, marks_append, marks_eq_nil fun e he => (closing_of_settled hr hy hm e he).1,
      List.append_nil]
  have hwork : Yields (order.work rules) (m ++ [⟨.endWatch, ()⟩]) listing := by
    have hend : Yields (question RunAsk.endWatch : Running Unit) [⟨.endWatch, ()⟩] () :=
      yields_question.mpr rfl
    rw [work_eq]
    exact yields_bind.mpr ⟨m, listing, _, rfl, hy,
      yields_bind.mpr ⟨_, (), [], rfl, hend, yields_pure.mpr ⟨rfl, rfl⟩⟩⟩
  obtain ⟨tasks, hb, -⟩ := work_balance hwork
  have hends : marks (m ++ [(⟨.endWatch, ()⟩ : RunHeard)]) = marks m := by
    rw [marks_append]
    exact List.append_nil _
  have ht := tracked_of_reachable hr
  refine List.countP_eq_length.mp ?_
  rw [ht.joined, hmarks, ← hends, hb.awaited, hends, ← hmarks, ← ht.tasks, List.length_map]

theorem free_of_settled (hr : Reachable rules order p)
    (hy : Yields (untilSettled rules order) m listing)
    (hm : p.main = m ++ m') : p.shared.free = rules.slots := by
  have hnone : p.holders = 0 := by
    refine List.countP_eq_zero.mpr fun f hf => ?_
    have hjoined := joined_of_settled hr hy hm f hf
    cases hcourse : f.course with
    | joined e => exact Bool.false_ne_true
    | working | ended e => rw [hcourse] at hjoined; cases hjoined
  have hgiven : holds false m = false := untilSettled_turns.of_follows hy
  have hleft : p.reserved = 0 := by
    rw [Pool.reserved, hm, holds, List.foldl_append]
    change (holds (holds false m) m').toNat = 0
    rw [holds_of_slotless fun e he => (closing_of_settled hr hy hm e he).2, hgiven]
    rfl
  have hslots := slots_of_reachable hr
  rw [Pool.slots] at hslots
  omega

/-- What is so of the slots of a run at any moment. -/
structure SlotsKept (rules : RunRules) (order : RunOrder) (p : Pool env) : Prop where
  /-- The free slots and those that are held, by tasks or by the main program, stay as many as they
  were. -/
  conserved : p.shared.free + p.holders + p.reserved = max 1 rules.concurrency
  bounded : p.holders ≤ max 1 rules.concurrency
  /-- Who waits for a call that works on an item is a task with a slot. -/
  made : ∀ asker q, p.Awaits rules order asker q → IsItemWork q →
    ∃ f ∈ p.fibers, asker = .task f ∧ f.HoldsSlot
  /-- Once all tasks have been waited for, all slots are free. -/
  returned : ∀ m m' listing, p.main = m ++ m' → Yields (untilSettled rules order) m listing →
    p.shared.free = max 1 rules.concurrency

/-- Whatever tasks a run has, however they end and whatever comes in between, its slots are kept. -/
theorem slots_kept (hr : Reachable rules order p) : SlotsKept rules order p := by
  have hslots : rules.slots = max 1 rules.concurrency := Nat.max_comm ..
  have hconserved : p.shared.free + p.holders + p.reserved = max 1 rules.concurrency :=
    (slots_of_reachable hr).trans hslots
  refine ⟨hconserved, by omega, fun _ _ => Pool.Awaits.holdsSlot, fun m m' listing hm hy => ?_⟩
  exact (free_of_settled hr hy hm).trans hslots

/-- The task that detaches a file has the only slot, and gives it back where the call takes it
down. -/
theorem slots_kept_broken : ∃ p p' : Pool (.over Memory.run),
    (Reachable Overlap.rules (Overlap.order false) p ∧
      Reachable Overlap.rules (Overlap.order false) p') ∧
      (SlotsKept Overlap.rules (Overlap.order false) p ∧
        SlotsKept Overlap.rules (Overlap.order false) p') ∧
      (∃ asker, p.Awaits Overlap.rules (Overlap.order false) asker
        (.within Overlap.rules.itemTimeout Overlap.call)) ∧
      p.holders = 1 ∧ p'.holders = 0 := by
  obtain ⟨p, hsteps, -, hfibers⟩ := Overlap.detaches false
  obtain ⟨next, hcall⟩ := Overlap.task_calls false
  have hr : Reachable Overlap.rules (Overlap.order false) p :=
    (Reachable.start false _).leads hsteps
  have hbreaks :=
    @Step.taskBreaks _ Overlap.rules (Overlap.order false) p [] [] _ _ _ _ next "" hfibers hcall
  have hawaits :=
    @Pool.Awaits.task _ Overlap.rules (Overlap.order false) p ⟨Overlap.task, [], .working⟩ _ next
    (hfibers ▸ List.mem_cons_self) (fun _ => ⟨nofun, nofun⟩) hcall
  refine ⟨p, _, ⟨hr, hr.step hbreaks⟩, ⟨slots_kept hr, slots_kept (hr.step hbreaks)⟩, ⟨_, hawaits⟩,
    ?_, rfl⟩
  rw [Pool.holders, hfibers]
  rfl

end CollectionSync.Interleaving
