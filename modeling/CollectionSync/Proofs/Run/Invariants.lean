import CollectionSync.Proofs.Record.Failures
import CollectionSync.Proofs.Run.Work

/-! # What holds in every pool that a run can come to

The shared counters are those of the marks that the programs have left, in whatever order they were
served. The tasks are those that the main program has started, and what it has heard of their ends
is how they have ended. -/

namespace CollectionSync.Interleaving

open Program

variable {env : Surroundings} {rules : RunRules} {order : RunOrder} {p p' : Pool env}
  {s s' : Shared env} {q : RunAsk} {a : q.Answer} {h : List RunHeard} {l l' : List Mark}

/-! ## The counters -/

/-- The counters and the failure report are what the marks say. -/
structure Counted (run : RunState) (l : List Mark) : Prop where
  processed : run.progress.processed = l.count .success
  failed : run.progress.failed = l.count .failure
  logged : run.log.size = l.count .failure + l.count .uncounted

theorem Counted.of_count {run : RunState} (hc : Counted run l)
    (hl : ∀ m, m = .success ∨ m = .failure ∨ m = .uncounted → l'.count m = l.count m) :
    Counted run l' := by
  obtain ⟨hp, hf, hg⟩ := hc
  have hsuccess := hl .success (.inl rfl)
  have hfailure := hl .failure (.inr (.inl rfl))
  have huncounted := hl .uncounted (.inr (.inr rfl))
  exact ⟨by rw [hsuccess, hp], by rw [hfailure, hf], by rw [hfailure, huncounted, hg]⟩

theorem Counted.change {run : RunState} (hc : Counted run l) (c : RunChange) :
    Counted (run.change c) (l ++ (mark? (.change c) (run.change c)).toList) := by
  obtain ⟨hp, hf, hg⟩ := hc
  cases c with
  | failure item =>
    refine ⟨?_, ?_, ?_⟩
    · simp [RunState.change, mark?, hp]
    · simp [RunState.change, mark?, hf]
    · simp [RunState.change, mark?, FailureLog.size_push, hg]
      omega
  | total | success | runFailure | fatal | cancelled | stopping =>
    refine ⟨?_, ?_, ?_⟩
    · simp [RunState.change, mark?, hp]
    · simp [RunState.change, mark?, hf]
    · simp [RunState.change, mark?, FailureLog.size_push, hg, Nat.add_assoc]

theorem mark?_eq_none_of_isOutward (hq : IsOutward q) : mark? q a = none := by
  unfold mark?
  split <;> first | rfl | cases hq

theorem Serves.counted (hs : Serves q a s s') (hc : Counted s.run l) :
    Counted s'.run (l ++ (mark? q a).toList) := by
  cases hs with
  | change => exact hc.change _
  | outward hq =>
    rw [mark?_eq_none_of_isOutward hq, Option.toList_none, List.append_nil]
    exact hc
  | state | pause | acquire | release =>
    rw [← List.append_nil l] at hc
    exact hc

/-- A question that leaves no mark changes neither the counters nor the report. -/
theorem Serves.quiet (hs : Serves q a s s') (hq : IsQuiet q) :
    s'.run.progress = s.run.progress ∧ s'.run.log = s.run.log := by
  cases hs with
  | @change c =>
    cases c with
    | total count => cases hq (s.run.change (.total count))
    | success name => cases hq (s.run.change (.success name))
    | failure item => cases hq (s.run.change (.failure item))
    | runFailure item => cases hq (s.run.change (.runFailure item))
    | fatal | cancelled | stopping => exact ⟨rfl, rfl⟩
  | outward | state | pause | acquire | release => exact ⟨rfl, rfl⟩

theorem watchOf_routine : Routine (watchOf rules order) := by
  refine (Asks.question trivial).bind fun cut => ?_
  split
  · trivial
  · refine (observe_routine _).bind fun observed => ?_
    split <;> trivial

theorem marks_hear (p : Pool env) (q : RunAsk) (a : q.Answer) :
    marks (p.hear q a).main = marks p.main ++ (mark? q a).toList := by
  rw [Pool.hear, marks_append, marks_cons, marks_nil, List.append_nil]

/-- What a step adds to all that was heard, in some place: an answer that is served, or one that
leaves the shared state alone. A step without an answer leaves the counters and the failure report
alone. -/
inductive Hears (p p' : Pool env) : Prop
  | served {q : RunAsk} {a : q.Answer} (hs : Serves q a p.shared p'.shared)
      (hheard : p'.heard.Perm (p.heard ++ [⟨q, a⟩]))
  | told {q : RunAsk} {a : q.Answer} (hq : ∀ c, q ≠ .change c) (hrun : p'.shared.run = p.shared.run)
      (hheard : p'.heard.Perm (p.heard ++ [⟨q, a⟩]))
  | nothing (hprogress : p'.shared.run.progress = p.shared.run.progress)
      (hlog : p'.shared.run.log = p.shared.run.log) (hheard : p'.heard = p.heard)

theorem perm_heard_last (l l' : List RunHeard) (e : RunHeard) :
    (l ++ e :: l').Perm (l ++ l' ++ [e]) :=
  List.perm_middle.trans (List.perm_append_singleton e (l ++ l')).symm

/-- The main program hears an answer. -/
theorem heard_of_main {e : RunHeard} (hm : p'.main = p.main ++ [e])
    (hf : p'.fibers.flatMap Fiber.heard = p.fibers.flatMap Fiber.heard) :
    p'.heard.Perm (p.heard ++ [e]) := by
  rw [Pool.heard, Pool.heard, hm, hf, List.append_assoc]
  exact perm_heard_last _ _ e

theorem Step.hears (hs : Step rules order p p') : Hears p p' := by
  cases hs with
  | main _ hs => exact .served hs (heard_of_main rfl rfl)
  | @spawn task _ _ =>
    have hnew : (p.fibers ++ [(⟨task, [], .working⟩ : Fiber)]).flatMap Fiber.heard
        = p.fibers.flatMap Fiber.heard := by
      rw [List.flatMap_append]
      exact List.append_nil _
    exact .told (q := .spawn task) nofun rfl (heard_of_main rfl hnew)
  | join _ hf =>
    refine .told (q := .join) nofun rfl (heard_of_main rfl ?_)
    rw [hf, List.flatMap_append, List.flatMap_append]
    rfl
  | startWatch _ => exact .told (q := .startWatch) nofun rfl (heard_of_main rfl rfl)
  | endWatch _ => exact .told (q := .endWatch) nofun rfl (heard_of_main rfl rfl)
  | @task before after task h q _ a s hf _ hs =>
    refine .served hs ?_
    have hbefore : p.heard = (p.main ++ (before.flatMap Fiber.heard ++ h)) ++
        after.flatMap Fiber.heard := by
      simp only [Pool.heard, hf, List.flatMap_append, List.flatMap_cons, List.append_assoc]
    rw [hbefore]
    refine .trans (.of_eq ?_) (perm_heard_last _ _ ⟨q, a⟩)
    simp only [Pool.heard, List.flatMap_append, List.flatMap_cons, List.append_assoc,
      List.cons_append, List.nil_append]
  | taskEnds hf _ | taskBreaks hf _ =>
    refine .nothing rfl rfl ?_
    simp only [Pool.heard, Pool.giveBack, hf, List.flatMap_append, List.flatMap_cons]
  | watch _ hf hs =>
    obtain ⟨hp, hg⟩ := hs.quiet ((watchOf_routine.of_follows hf).2.1).isQuiet
    exact .nothing hp hg rfl
  | watchRound _ _ | watchGone | stop | world _ => exact .nothing rfl rfl rfl

theorem marks_perm {h' : List RunHeard} (hp : h'.Perm (h ++ [⟨q, a⟩])) (m : Mark) :
    (marks h').count m = (marks h ++ (mark? q a).toList).count m := by
  have hmarks : marks (h ++ [⟨q, a⟩]) = marks h ++ (mark? q a).toList := by
    rw [marks_append, marks_cons, marks_nil, List.append_nil]
  rw [← hmarks]
  exact (hp.filterMap _).count_eq m

/-- A question that changes nothing leaves no mark that counts. -/
theorem Counted.told {run : RunState} (hc : Counted run l) (hq : ∀ c, q ≠ .change c) :
    Counted run (l ++ (mark? q a).toList) := by
  refine hc.of_count fun m hm => ?_
  have hnone : (mark? q a).toList.count m = 0 := by
    unfold mark?
    split
    all_goals first
      | exact absurd rfl (hq _)
      | rcases hm with rfl | rfl | rfl <;> rfl
  rw [List.count_append, hnone, Nat.add_zero]

theorem counted_of_reachable (hr : Reachable rules order p) :
    Counted p.shared.run (marks p.heard) := by
  induction hr with
  | start stopping w => exact ⟨rfl, rfl, rfl⟩
  | step hr hs ih =>
    cases hs.hears with
    | served hs hheard => exact (hs.counted ih).of_count fun m _ => marks_perm hheard m
    | told hq hrun hheard =>
      rw [hrun]
      exact (ih.told hq).of_count fun m _ => marks_perm hheard m
    | nothing hprogress hlog hheard =>
      rw [hheard]
      exact ⟨(congrArg _ hprogress).trans ih.processed, (congrArg _ hprogress).trans ih.failed,
        (congrArg _ hlog).trans ih.logged⟩

/-! ## The number of planned tasks -/

theorem totalOf_concat {m : Mark} (hm : total? m = none) : totalOf (l ++ [m]) = totalOf l := by
  simp only [totalOf, List.filterMap_append, List.filterMap_cons, hm, List.filterMap_nil,
    List.append_nil]

theorem Serves.planned (hs : Serves q a s s') (ht : s.run.progress.total = totalOf l) :
    s'.run.progress.total = totalOf (l ++ (mark? q a).toList) := by
  cases hs with
  | @change c =>
    cases c with
    | total count =>
      simp only [mark?, Option.toList_some, totalOf, List.filterMap_append, List.filterMap_cons,
        total?, List.filterMap_nil, List.getLastD_concat]
      rfl
    | success | failure | runFailure => exact ht.trans (totalOf_concat rfl).symm
    | fatal | cancelled | stopping => exact ht.trans (congrArg _ (List.append_nil l).symm)
  | outward hq =>
    rw [mark?_eq_none_of_isOutward hq, Option.toList_none, List.append_nil]
    exact ht
  | state | pause | acquire | release => exact ht.trans (congrArg _ (List.append_nil l).symm)

theorem planned_of_reachable (hr : Reachable rules order p) :
    p.shared.run.progress.total = totalOf (marks p.main) := by
  induction hr with
  | start stopping w => rfl
  | step hr hs ih =>
    cases hs with
    | main _ hs =>
      rw [marks_hear]
      exact hs.planned ih
    | spawn _ =>
      rw [marks_hear]
      exact ih.trans (totalOf_concat rfl).symm
    | @join _ _ _ _ _ e _ _ =>
      rw [marks_hear]
      cases e <;> exact ih.trans (totalOf_concat rfl).symm
    | startWatch _ | endWatch _ =>
      rw [marks_hear]
      exact ih.trans (congrArg _ (List.append_nil _).symm)
    | @task _ _ _ _ q _ a s hf hq hs =>
      have hmark := (taskOf_asks.of_follows hq).2.1.2 a
      have htotal := hs.planned ih
      rcases hmark with hm | hm | hm
      · rw [hm, Option.toList_none, List.append_nil] at htotal
        exact htotal
      · rw [hm, Option.toList_some, totalOf_concat rfl] at htotal
        exact htotal
      · rw [hm, Option.toList_some, totalOf_concat rfl] at htotal
        exact htotal
    | watch _ hf hs =>
      obtain ⟨hp, -⟩ := hs.quiet ((watchOf_routine.of_follows hf).2.1).isQuiet
      exact (congrArg _ hp).trans ih
    | taskEnds _ _ | taskBreaks _ _ | watchRound _ _ | watchGone | stop | world _ => exact ih

/-! ## The tasks -/

/-- What a task has heard bears out how it ended. -/
def Ends (rules : RunRules) (order : RunOrder) (task : SyncTask)
    (h : List RunHeard) : TaskEnd → Prop
  | .settled result => Yields (taskOf rules order task) h result
  | .broken _ =>
    ∃ limit call next, Follows (taskOf rules order task) h (ask (.within limit call) next)

def Fiber.Faithful (rules : RunRules) (order : RunOrder) (f : Fiber) : Prop :=
  match f.course with
  | .working => True
  | .ended e | .joined e => Ends rules order f.task f.heard e

theorem forall_mem_replaced {P : Fiber → Prop} {before after : List Fiber} {f g : Fiber}
    (hall : ∀ x ∈ before ++ f :: after, P x) (hg : P f → P g) :
    ∀ x ∈ before ++ g :: after, P x := by
  simp only [List.mem_append, List.mem_cons, or_imp, forall_and, forall_eq] at hall ⊢
  exact ⟨hall.1, hg hall.2.1, hall.2.2⟩

theorem mem_replaced {before after : List Fiber} {f g x : Fiber} (hx : x ∈ before ++ f :: after)
    (hne : x ≠ f) : x ∈ before ++ g :: after := by
  simp only [List.mem_append, List.mem_cons] at hx ⊢
  rcases hx with hx | hx | hx
  · exact .inl hx
  · exact absurd hx hne
  · exact .inr (.inr hx)

theorem getElem?_replaced {before after : List Fiber} {f g x : Fiber} {k : Nat}
    (hx : (before ++ g :: after)[k]? = some x) :
    (before ++ f :: after)[k]? = some f ∧ x = g ∨ (before ++ f :: after)[k]? = some x := by
  rcases Nat.lt_or_ge k before.length with hlt | hge
  · rw [List.getElem?_append_left hlt] at hx ⊢
    exact .inr hx
  · rw [List.getElem?_append_right hge] at hx ⊢
    cases hk : k - before.length with
    | zero =>
      rw [hk] at hx
      exact .inl ⟨rfl, (Option.some.inj hx).symm⟩
    | succ n =>
      rw [hk] at hx
      exact .inr hx

theorem faithful_of_reachable (hr : Reachable rules order p) :
    ∀ f ∈ p.fibers, f.Faithful rules order := by
  induction hr with
  | start stopping w =>
    intro f hf
    cases hf
  | step hr hs ih =>
    cases hs with
    | spawn _ =>
      intro f hf
      rcases List.mem_append.mp hf with hf | hf
      · exact ih f hf
      · cases List.mem_singleton.mp hf
        trivial
    | join _ hf =>
      rw [hf] at ih
      exact forall_mem_replaced ih id
    | task hf _ _ =>
      rw [hf] at ih
      exact forall_mem_replaced ih id
    | taskEnds hf hy =>
      rw [hf] at ih
      exact forall_mem_replaced ih fun _ => hy
    | taskBreaks hf hq =>
      rw [hf] at ih
      exact forall_mem_replaced ih fun _ => ⟨_, _, _, hq⟩
    | main _ _ | startWatch _ | endWatch _ | watch _ _ _ | watchRound _ _ | watchGone | stop
    | world _ =>
      exact ih

def Course.isJoined : Course → Bool
  | .joined _ => true
  | _ => false

def Course.isBroken : Course → Bool
  | .joined (.broken _) => true
  | _ => false

/-- What the main program has heard of the tasks is so. -/
structure Tracked (p : Pool env) : Prop where
  tasks : p.fibers.map Fiber.task = spawned (marks p.main)
  joined : p.fibers.countP (·.course.isJoined) =
    (marks p.main).count .joined + (marks p.main).count .broken
  broken : p.fibers.countP (·.course.isBroken) = (marks p.main).count .broken
  errors : ∀ e : RunError, (⟨.join, .settled (.error e)⟩ : RunHeard) ∈ p.main →
    ∃ f ∈ p.fibers, f.course = .joined (.settled (.error e))

theorem Course.isBroken_eq_false {c : Course} (hc : c.isJoined = false) : c.isBroken = false := by
  cases c with
  | joined e => cases hc
  | working | ended e => rfl

/-- Only starting a task and waiting for one leaves marks that tell of tasks. -/
theorem mark?_untracked (hspawn : ∀ task, q ≠ .spawn task) (hjoin : q ≠ .join) :
    spawned (mark? q a).toList = [] ∧ (mark? q a).toList.count .joined = 0 ∧
      (mark? q a).toList.count .broken = 0 := by
  unfold mark?
  split
  all_goals first
    | exact ⟨rfl, rfl, rfl⟩
    | exact absurd rfl (hspawn _)
    | exact absurd rfl hjoin

/-- An answer that tells of no task keeps track. -/
theorem Tracked.hear (ht : Tracked p) (hf : p'.fibers = p.fibers)
    (hm : p'.main = p.main ++ [⟨q, a⟩]) (hspawn : ∀ task, q ≠ .spawn task) (hjoin : q ≠ .join) :
    Tracked p' := by
  obtain ⟨htasks, hjoined, hbroken, herrors⟩ := ht
  obtain ⟨hs, hj, hb⟩ := mark?_untracked (a := a) hspawn hjoin
  have hmarks : marks p'.main = marks p.main ++ (mark? q a).toList := by
    rw [hm, marks_append, marks_cons, marks_nil, List.append_nil]
  refine ⟨?_, ?_, ?_, ?_⟩
  · rw [hf, hmarks, spawned_append, hs, List.append_nil, htasks]
  · rw [hf, hmarks, List.count_append, List.count_append, hj, hb, hjoined]
    rfl
  · rw [hf, hmarks, List.count_append, hb, hbroken]
    rfl
  · intro e he
    rw [hm] at he
    rcases List.mem_append.mp he with he | he
    · rw [hf]
      exact herrors e he
    · cases List.mem_singleton.mp he
      exact absurd rfl hjoin

/-- A task that has not been waited for may go on or end. -/
theorem Tracked.goOn {before after : List Fiber} {f g : Fiber} (ht : Tracked p)
    (hf : p.fibers = before ++ f :: after) (hg : p'.fibers = before ++ g :: after)
    (hm : p'.main = p.main) (htask : g.task = f.task) (hfj : f.course.isJoined = false)
    (hgj : g.course.isJoined = false) : Tracked p' := by
  obtain ⟨htasks, hjoined, hbroken, herrors⟩ := ht
  have hfb := Course.isBroken_eq_false hfj
  have hgb := Course.isBroken_eq_false hgj
  rw [hf] at htasks hjoined hbroken
  refine ⟨?_, ?_, ?_, ?_⟩
  · rw [hg, hm, ← htasks, List.map_append, List.map_append, List.map_cons, List.map_cons, htask]
  · rw [hg, hm, ← hjoined, List.countP_append, List.countP_append, List.countP_cons,
      List.countP_cons, hfj, hgj]
  · rw [hg, hm, ← hbroken, List.countP_append, List.countP_append, List.countP_cons,
      List.countP_cons, hfb, hgb]
  · intro e he
    rw [hm] at he
    obtain ⟨x, hx, hcourse⟩ := herrors e he
    rw [hf] at hx
    rw [hg]
    refine ⟨x, mem_replaced hx ?_, hcourse⟩
    rintro rfl
    rw [hcourse] at hfj
    cases hfj

theorem Tracked.spawn {task : SyncTask} (ht : Tracked p) :
    Tracked { p.hear (.spawn task) () with fibers := p.fibers ++ [⟨task, [], .working⟩] } := by
  obtain ⟨htasks, hjoined, hbroken, herrors⟩ := ht
  have hmarks := marks_hear p (.spawn task) ()
  refine ⟨?_, ?_, ?_, ?_⟩
  · rw [hmarks, spawned_append, List.map_append, htasks]
    rfl
  · rw [hmarks, List.countP_append, hjoined, List.count_append, List.count_append]
    rfl
  · rw [hmarks, List.countP_append, hbroken, List.count_append]
    rfl
  · intro e he
    rcases List.mem_append.mp he with he | he
    · obtain ⟨x, hx, hcourse⟩ := herrors e he
      exact ⟨x, List.mem_append_left _ hx, hcourse⟩
    · cases List.mem_singleton.mp he

theorem Tracked.join {before after : List Fiber} {task : SyncTask} {e : TaskEnd} (ht : Tracked p)
    (hf : p.fibers = before ++ ⟨task, h, .ended e⟩ :: after) :
    Tracked { p.hear .join e with fibers := before ++ ⟨task, h, .joined e⟩ :: after } := by
  obtain ⟨htasks, hjoined, hbroken, herrors⟩ := ht
  have hmarks := marks_hear p .join e
  rw [hf, List.map_append, List.map_cons] at htasks
  rw [hf, List.countP_append, List.countP_cons_of_neg Bool.false_ne_true] at hjoined hbroken
  have herrors' : ∀ e' : RunError, (⟨.join, .settled (.error e')⟩ : RunHeard) ∈ p.main ++
      [⟨.join, e⟩] →
      ∃ f ∈ before ++ ⟨task, h, .joined e⟩ :: after, f.course = .joined (.settled (.error e')) := by
    intro e' he
    rcases List.mem_append.mp he with he | he
    · obtain ⟨x, hx, hcourse⟩ := herrors e' he
      rw [hf] at hx
      refine ⟨x, mem_replaced hx ?_, hcourse⟩
      rintro rfl
      cases hcourse
    · cases List.mem_singleton.mp he
      exact ⟨_, List.mem_append_right _ List.mem_cons_self, rfl⟩
  refine ⟨?_, ?_, ?_, herrors'⟩
  · rw [hmarks, spawned_append, List.map_append, List.map_cons, ← htasks]
    cases e <;> exact (List.append_nil _).symm
  · rw [hmarks, List.countP_append, List.countP_cons_of_pos rfl, List.count_append,
      List.count_append]
    cases e with
    | settled result =>
      have hmark : (mark? .join (.settled result)).toList = [.joined] := rfl
      simp only [hmark, List.count_cons_self, List.count_nil, ne_eq, reduceCtorEq,
        not_false_eq_true, List.count_cons_of_ne]
      omega
    | broken message =>
      have hmark : (mark? .join (.broken message)).toList = [.broken] := rfl
      simp only [hmark, List.count_cons_self, List.count_nil, ne_eq, reduceCtorEq,
        not_false_eq_true, List.count_cons_of_ne]
      omega
  · rw [hmarks, List.countP_append, List.count_append]
    cases e with
    | settled result =>
      rw [List.countP_cons_of_neg Bool.false_ne_true]
      exact hbroken
    | broken message =>
      rw [List.countP_cons_of_pos rfl]
      have hmark : (mark? .join (.broken message)).toList.count .broken = 1 := rfl
      omega

theorem tracked_of_reachable (hr : Reachable rules order p) : Tracked p := by
  induction hr with
  | start stopping w => exact ⟨rfl, rfl, rfl, fun e he => by cases he⟩
  | @step p p' hr hs ih =>
    cases hs with
    | main _ hs =>
      refine ih.hear rfl rfl ?_ ?_
      · intro task hq
        subst hq
        cases hs with
        | outward hq => cases hq
      · intro hq
        subst hq
        cases hs with
        | outward hq => cases hq
    | startWatch _ | endWatch _ => exact ih.hear rfl rfl (by simp) (by simp)
    | spawn _ => exact ih.spawn
    | join _ hf => exact ih.join hf
    | task hf _ _ | taskEnds hf _ | taskBreaks hf _ => exact ih.goOn hf rfl rfl rfl rfl rfl
    | watch _ _ _ | watchRound _ _ | watchGone | stop | world _ =>
      exact ⟨ih.tasks, ih.joined, ih.broken, ih.errors⟩

/-! ## Errors that the run cannot survive -/

theorem Serves.fatal (hs : Serves q a s s') (hq : ¬ IsFatal q) : s'.run.fatal = s.run.fatal := by
  cases hs with
  | @change c =>
    cases c with
    | fatal reason => exact absurd trivial hq
    | total | success | failure | runFailure | cancelled | stopping => rfl
  | outward | state | pause | acquire | release => rfl

/-- Only the main program notes such errors, and it is told of no other. -/
structure Noted (p : Pool env) : Prop where
  kept : p.shared.run.fatal.isSome = true → Has (fun q _ => IsFatal q) p.main
  told : ∀ s : RunState, (⟨.state, s⟩ : RunHeard) ∈ p.main → s.fatal.isSome = true →
    Has (fun q _ => IsFatal q) p.main

theorem Noted.hear (hn : Noted p) (hm : p'.main = p.main ++ [⟨q, a⟩])
    (hfatal : p'.shared.run.fatal = p.shared.run.fatal ∨ IsFatal q)
    (htold : ∀ s : RunState, (⟨.state, s⟩ : RunHeard) = ⟨q, a⟩ → s = p.shared.run) : Noted p' := by
  rcases hfatal with hfatal | hfatal
  · refine ⟨fun hsome => ?_, fun s hs hsome => ?_⟩
    · rw [hfatal] at hsome
      rw [hm]
      exact has_append.mpr (.inl (hn.kept hsome))
    · rw [hm] at hs ⊢
      rcases List.mem_append.mp hs with hs | hs
      · exact has_append.mpr (.inl (hn.told s hs hsome))
      · rw [htold s (List.mem_singleton.mp hs)] at hsome
        exact has_append.mpr (.inl (hn.kept hsome))
  · have hhas : Has (fun q _ => IsFatal q) p'.main := by
      rw [hm]
      exact has_append.mpr (.inr ⟨_, List.mem_singleton.mpr rfl, hfatal⟩)
    exact ⟨fun _ => hhas, fun _ _ _ => hhas⟩

theorem noted_of_reachable (hr : Reachable rules order p) : Noted p := by
  induction hr with
  | start stopping w => exact ⟨(by cases ·), fun _ => (by cases ·)⟩
  | @step p p' hr hs ih =>
    cases hs with
    | @main q _ a s _ hs =>
      refine ih.hear rfl ?_ ?_
      · by_cases hq : IsFatal q
        · exact .inr hq
        · exact .inl (hs.fatal hq)
      · intro s' heq
        cases heq
        cases hs with
        | state => rfl
        | outward hq => cases hq
    | spawn _ | join _ _ | startWatch _ | endWatch _ =>
      exact ih.hear rfl (.inl rfl) (by simp)
    | task _ hq hs =>
      refine ⟨fun hsome => ih.kept ?_, ih.told⟩
      rwa [← hs.fatal (taskOf_asks.of_follows hq).2.1.1]
    | watch _ hq hs =>
      refine ⟨fun hsome => ih.kept ?_, ih.told⟩
      rwa [← hs.fatal (watchOf_routine.of_follows hq).2.1.not_isFatal]
    | taskEnds _ _ | taskBreaks _ _ | watchRound _ _ | watchGone | stop | world _ =>
      exact ⟨ih.kept, ih.told⟩

/-! ## After the work -/

variable {m m' : List RunHeard} {listing : Listing}

theorem finish_asks : (order.finish listing).Asks fun q => IsQuiet q ∧ ¬ IsFatal q := by
  refine (state_routine.mono fun q hq => ⟨hq.isQuiet, hq.not_isFatal⟩).bind fun s => ?_
  refine (keeping_asks _).mono ?_
  intro q hq
  obtain ⟨k, rfl⟩ := hq
  exact ⟨fun _ => rfl, id⟩

theorem main_follows (hr : Reachable rules order p) :
    ∃ r, Follows (order.run rules) p.main r := by
  induction hr with
  | start stopping w => exact ⟨_, .refl _⟩
  | step hr hs ih =>
    cases hs with
    | main hf _ | spawn hf | join hf _ | startWatch hf | endWatch hf =>
      exact ⟨_, follows_concat.mpr ⟨_, hf, rfl⟩⟩
    | task _ _ _ | taskEnds _ _ | taskBreaks _ _ | watch _ _ _ | watchRound _ _ | watchGone | stop
    | world _ => exact ih

/-- When the work of a run is done, all its tasks have been waited for. -/
theorem joined_of_worked (hr : Reachable rules order p) (hy : Yields (order.work rules) m listing)
    (hm : p.main = m ++ m') :
    marks p.main = marks m ∧ ∀ f ∈ p.fibers, f.course.isJoined = true := by
  obtain ⟨r, hf⟩ := main_follows hr
  rw [hm] at hf
  have hquiet := marks_eq_nil fun e he => ((finish_asks.of_follows (hy.after hf)).1 e he).1
  have hmarks : marks p.main = marks m := by
    rw [hm, marks_append, hquiet, List.append_nil]
  refine ⟨hmarks, List.countP_eq_length.mp ?_⟩
  obtain ⟨tasks, hb, -⟩ := work_balance hy
  have ht := tracked_of_reachable hr
  rw [ht.joined, hmarks, hb.awaited, ← hmarks, ← ht.tasks, List.length_map]

/-- What is heard last is either the answer in question, or comes after it. -/
theorem append_singleton_cases {l m m' : List RunHeard} {e x : RunHeard}
    (heq : l ++ [e] = m ++ x :: m') :
    (l = m ∧ e = x) ∨ ∃ m'', l = m ++ x :: m'' := by
  rcases List.eq_nil_or_concat m' with rfl | ⟨m'', y, rfl⟩
  · obtain ⟨hl, he⟩ := List.append_inj' heq rfl
    exact .inl ⟨hl, List.head_eq_of_cons_eq he⟩
  · rw [List.concat_eq_append, ← List.cons_append, ← List.append_assoc] at heq
    exact .inr ⟨m'', (List.append_inj' heq rfl).1⟩

/-- The counters that a run reads before its terminal write stay as they are. -/
theorem kept_after_work (hr : Reachable rules order p) {s : RunState}
    (hy : Yields (order.work rules) m listing) (hm : p.main = m ++ ⟨.state, s⟩ :: m') :
    s.progress = p.shared.run.progress ∧ s.log = p.shared.run.log := by
  induction hr generalizing m' with
  | start stopping w =>
    cases m <;> cases hm
  | @step p p' hr hs ih =>
    cases hs with
    | main hf hs =>
      rcases append_singleton_cases hm with ⟨-, he⟩ | ⟨m'', hm⟩
      · cases he
        cases hs with
        | state => exact ⟨rfl, rfl⟩
        | outward hq => cases hq
      · rw [hm] at hf
        obtain ⟨hp, hg⟩ := hs.quiet (finish_asks.of_follows (hy.after hf)).2.1.1
        obtain ⟨hp', hg'⟩ := ih hm
        exact ⟨hp'.trans hp.symm, hg'.trans hg.symm⟩
    | spawn _ | join _ _ | startWatch _ | endWatch _ =>
      rcases append_singleton_cases hm with ⟨-, he⟩ | ⟨m'', hm⟩
      · cases he
      · exact ih hm
    | task hf _ _ =>
      have hall := (joined_of_worked hr hy hm).2
      rw [hf] at hall
      cases hall _ (List.mem_append_right _ List.mem_cons_self)
    | watch _ hf hs =>
      obtain ⟨hp, hg⟩ := hs.quiet ((watchOf_routine.of_follows hf).2.1).isQuiet
      obtain ⟨hp', hg'⟩ := ih hm
      exact ⟨hp'.trans hp.symm, hg'.trans hg.symm⟩
    | taskEnds _ _ | taskBreaks _ _ | watchRound _ _ | watchGone | stop | world _ => exact ih hm

end CollectionSync.Interleaving
