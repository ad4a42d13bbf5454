import CollectionSync.Proofs.Run.Faults

/-! # Every planned task is settled exactly once

When a run comes to its terminal write, its report counts each planned task once, as a success
exactly if its action has succeeded, whatever the answers were and in whatever order its programs
were served. -/

namespace CollectionSync.Interleaving

open Program

variable {env : Surroundings} {rules : RunRules} {order : RunOrder} {p : Pool env}
  {h : List RunHeard}

/-! ## What the tasks add up to -/

open Classical in
/-- The number of tasks that have succeeded, by what was answered to them. -/
noncomputable def successes (rules : RunRules) (order : RunOrder) (fibers : List Fiber) : Nat :=
  fibers.countP fun f => decide (Succeeded rules order f.task f.heard)

open Classical in
theorem successes_cons_of_succeeds {f : Fiber} {rest : List Fiber}
    (hs : Succeeded rules order f.task f.heard) :
    successes rules order (f :: rest) = successes rules order rest + 1 :=
  List.countP_cons_of_pos (decide_eq_true hs)

open Classical in
theorem successes_cons_of_not {f : Fiber} {rest : List Fiber}
    (hs : ¬ Succeeded rules order f.task f.heard) :
    successes rules order (f :: rest) = successes rules order rest :=
  List.countP_cons_of_neg fun h => hs (of_decide_eq_true h)

/-- The marks of a task, with whether it broke down, come to one; only an error of the store can
keep them from it. -/
structure CountsOnce (succeeds : Prop) (broken : Bool) (h : List RunHeard) : Prop where
  success : succeeds ∧ (marks h).count .success = 1 ∨ ¬ succeeds ∧ (marks h).count .success = 0
  uncounted : (marks h).count .uncounted = 0
  bounded : (marks h).count .success + (marks h).count .failure + broken.toNat ≤ 1
  settled : ¬ Faulted h →
    (marks h).count .success + (marks h).count .failure + broken.toNat = 1

theorem CountsOnce.of_marks {succeeds : Prop} {broken : Bool} {l : List Mark} (hm : marks h = l)
    (hs : succeeds ∧ l.count .success = 1 ∨ ¬ succeeds ∧ l.count .success = 0)
    (hu : l.count .uncounted = 0) (hle : l.count .success + l.count .failure + broken.toNat ≤ 1)
    (heq : ¬ Faulted h → l.count .success + l.count .failure + broken.toNat = 1) :
    CountsOnce succeeds broken h := by
  subst hm
  exact ⟨hs, hu, hle, heq⟩

theorem Fiber.Faithful.countsOnce {f : Fiber} (hf : f.Faithful rules order)
    (hj : f.course.isJoined = true) :
    CountsOnce (Succeeded rules order f.task f.heard) f.course.isBroken f.heard := by
  obtain ⟨task, h, course⟩ := f
  cases course with
  | working => cases hj
  | ended e => cases hj
  | joined e =>
    cases e with
    | settled result =>
      rcases taskOf_marks hf with ⟨hs, hm⟩ | ⟨hs, hm | ⟨hm, hfault⟩⟩
      · exact .of_marks hm (.inl ⟨hs, rfl⟩) rfl (Nat.le_refl 1) fun _ => rfl
      · exact .of_marks hm (.inr ⟨hs, rfl⟩) rfl (Nat.le_refl 1) fun _ => rfl
      · exact .of_marks hm (.inr ⟨hs, rfl⟩) rfl (Nat.zero_le 1) fun hok => absurd hfault hok
    | broken message =>
      obtain ⟨limit, call, next, hq⟩ := hf
      obtain ⟨hs, hm⟩ := taskOf_broken hq
      exact .of_marks hm (.inr ⟨hs, rfl⟩) rfl (Nat.le_refl 1) fun _ => rfl

/-- What the marks of tasks that were all waited for come to. -/
structure CountsEach (rules : RunRules) (order : RunOrder) (fibers : List Fiber) (l : List Mark) :
    Prop where
  success : l.count .success = successes rules order fibers
  uncounted : l.count .uncounted = 0
  bounded : l.count .success + l.count .failure + fibers.countP (·.course.isBroken) ≤ fibers.length
  settled : ¬ Faulted (fibers.flatMap Fiber.heard) →
    l.count .success + l.count .failure + fibers.countP (·.course.isBroken) = fibers.length

theorem countsEach_of_joined {fibers : List Fiber}
    (hall : ∀ f ∈ fibers, f.Faithful rules order ∧ f.course.isJoined = true) :
    CountsEach rules order fibers (marks (fibers.flatMap Fiber.heard)) := by
  induction fibers with
  | nil => exact ⟨rfl, rfl, Nat.le_refl 0, fun _ => rfl⟩
  | cons f rest ih =>
    obtain ⟨hf, hrest⟩ := List.forall_mem_cons.mp hall
    obtain ⟨hsuccess, huncounted, hle, heq⟩ := ih hrest
    obtain ⟨hsuccess', huncounted', hle', heq'⟩ := hf.1.countsOnce hf.2
    have hcount : ∀ m, (marks ((f :: rest).flatMap Fiber.heard)).count m =
        (marks f.heard).count m + (marks (rest.flatMap Fiber.heard)).count m := fun m => by
      rw [List.flatMap_cons, marks_append, List.count_append]
    have hbroken : (f :: rest).countP (·.course.isBroken) =
        rest.countP (·.course.isBroken) + f.course.isBroken.toNat := by
      rw [List.countP_cons]
      cases f.course.isBroken <;> rfl
    refine ⟨?_, ?_, ?_, ?_⟩
    · rw [hcount, hsuccess]
      rcases hsuccess' with ⟨hs, hone⟩ | ⟨hs, hzero⟩
      · rw [hone, successes_cons_of_succeeds hs, Nat.add_comm]
      · rw [hzero, successes_cons_of_not hs, Nat.zero_add]
    · rw [hcount, huncounted, huncounted']
    · rw [hcount, hcount, hbroken, List.length_cons]
      omega
    · intro hok
      rw [List.flatMap_cons] at hok
      have hone := heq' fun hf => hok (has_append.mpr (.inl hf))
      have hmany := heq fun hf => hok (has_append.mpr (.inr hf))
      rw [hcount, hcount, hbroken, List.length_cons]
      omega

/-! ## The terminal write -/

/-- The first terminal write of a run writes its report, once the clock was read. -/
theorem finish_asked {c c' : CollectionId} {run run' : RunId} {report report' : RunReport}
    {now : Instant} {next : Except StoreError Record → Running (Except RunError Record)}
    (hf : Follows (Run.keeping (Keeper.finish c run report)) h
      (ask (.keeper (.store (.finish c' run' report' now))) next)) :
    h = [⟨.keeper .clock, now⟩] ∧ c' = c ∧ run' = run ∧ report' = report := by
  cases hf with
  | hear t hf =>
    cases hf with
    | refl => exact ⟨rfl, rfl, rfl, rfl⟩
    | hear reply hf =>
      cases reply with
      | error e => cases hf
      | ok record =>
        cases hf with
        | hear _ hf => cases hf

/-- A run that asks for its terminal write has done its work, and reports the state that it has read
since. -/
theorem of_finish_asked {c : CollectionId} {run : RunId} {report : RunReport} {now : Instant}
    {next : Except StoreError Record → Running (Except RunError Record)}
    (hf : Follows (order.run rules) h (ask (.keeper (.store (.finish c run report now))) next)) :
    ∃ (m : List RunHeard) (listing : Listing) (s : RunState),
      h = m ++ [⟨.state, s⟩, ⟨.keeper .clock, now⟩] ∧ Yields (order.work rules) m listing ∧
      c = order.request.collection ∧ run = order.admission.run ∧
      report = s.report listing.tokens := by
  have hfinish : IsFinish (.keeper (.store (.finish c run report now))) := trivial
  rcases follows_bind_ask.mp hf with ⟨_, hwork, -⟩ | ⟨m, listing, m', rfl, hy, hf'⟩
  · exact absurd hfinish (work_working.of_follows hwork).2.1.not_isFinish
  · rcases follows_bind_ask.mp hf' with ⟨_, hstate, -⟩ | ⟨h₁, s, h₂, rfl, hs, hwrite⟩
    · exact absurd hfinish (state_routine.of_follows hstate).2.1.isWork.not_isFinish
    · obtain rfl := yields_question.mp hs
      obtain ⟨rfl, rfl, rfl, rfl⟩ := finish_asked hwrite
      exact ⟨m, listing, s, rfl, hy, rfl, rfl, rfl⟩

/-- While the store works, nothing breaks a run off: an error is noted for the whole run only when a
task has ended in one, and a task ends in one only when the store fails. -/
theorem not_breaksOff (hr : Reachable rules order p) {m m' : List RunHeard} {listing : Listing}
    (hy : Yields (order.work rules) m listing) (hm : p.main = m ++ m') (hok : ¬ Faulted p.heard) :
    ¬ Has BreaksOff m := by
  have hmain : ¬ Faulted m := fun hf => by
    rw [Pool.heard, hm] at hok
    exact hok (has_append.mpr (.inl (has_append.mpr (.inl hf))))
  intro hb
  obtain ⟨⟨q, a⟩, he, hfault | ⟨s, hs, hfatal⟩⟩ := hb
  · exact hmain ⟨_, he, hfault⟩
  · have hnoted : Has (fun q _ => IsFatal q) (m ++ m') := by
      rw [← hm]
      refine (noted_of_reachable hr).told s ?_ hfatal
      rw [hm, ← hs]
      exact List.mem_append_left _ he
    rcases has_append.mp hnoted with hnoted | ⟨e', he', hnoted⟩
    · exact hok (faulted_of_noted hr hy hm hnoted)
    · obtain ⟨r, hf⟩ := main_follows hr
      rw [hm] at hf
      exact ((finish_asks.of_follows (hy.after hf)).1 e' he').2 hnoted

/-- The run is about to write this report as its end. -/
def Reports (rules : RunRules) (order : RunOrder) (p : Pool env) (report : RunReport) : Prop :=
  ∃ c run now next, Follows (order.run rules) p.main
    (ask (.keeper (.store (.finish c run report now))) next)

/-! ## Runs that are followed step by step -/

/-- Surroundings that may answer anything. -/
def Surroundings.anything : Surroundings := ⟨Unit, fun _ _ _ _ => True, fun _ _ => False⟩

/-- A pool that a run can come to while the store works, with what its main program is about to
do. -/
structure ComesTo (rules : RunRules) (order : RunOrder) (p : Pool .anything)
    (r : Running (Except RunError Record)) : Prop where
  reachable : Reachable rules order p
  main : Follows (order.run rules) p.main r
  works : ¬ Faulted p.heard

namespace ComesTo

variable {q : RunAsk} {a : q.Answer} {s s' : Shared .anything} {main : List RunHeard}
  {fibers : List Fiber} {watch : Option (List RunHeard)} {r : Running (Except RunError Record)}
  {task : SyncTask}

/-- The main program hears an answer that is no error of the store. -/
theorem goOn {next : q.Answer → Running (Except RunError Record)} {fibers' : List Fiber}
    {watch' : Option (List RunHeard)}
    (hp : ComesTo rules order ⟨s, main, fibers, watch⟩ (ask q next))
    (hs : Step rules order ⟨s, main, fibers, watch⟩ ⟨s', main ++ [⟨q, a⟩], fibers', watch'⟩)
    (hf : fibers'.flatMap Fiber.heard = fibers.flatMap Fiber.heard) (ha : ¬ IsStoreError q a) :
    ComesTo rules order ⟨s', main ++ [⟨q, a⟩], fibers', watch'⟩ (next a) := by
  refine ⟨.step hp.reachable hs, follows_concat.mpr ⟨next, hp.main, rfl⟩, fun hfault => ?_⟩
  have hworks := hp.works
  simp only [Pool.heard, hf, has_append, has_cons, not_or] at hfault hworks
  rcases hfault with (hfault | hfault | hfault) | hfault
  · exact hworks.1 hfault
  · exact ha hfault
  · exact not_has_nil hfault
  · exact hworks.2 hfault

theorem hear {next : q.Answer → Running (Except RunError Record)}
    (hp : ComesTo rules order ⟨s, main, fibers, watch⟩ (ask q next)) (hs : Serves q a s s')
    (ha : ¬ IsStoreError q a) :
    ComesTo rules order ⟨s', main ++ [⟨q, a⟩], fibers, watch⟩ (next a) :=
  hp.goOn (.main hp.main hs) rfl ha

theorem answer {next : q.Answer → Running (Except RunError Record)}
    (hp : ComesTo rules order ⟨s, main, fibers, watch⟩ (ask q next)) (a : q.Answer)
    (hq : IsOutward q) (ha : ¬ IsStoreError q a) :
    ComesTo rules order ⟨s, main ++ [⟨q, a⟩], fibers, watch⟩ (next a) :=
  hp.hear (.outward hq trivial) ha

theorem spawn {next : Unit → Running (Except RunError Record)}
    (hp : ComesTo rules order ⟨s, main, [], watch⟩ (ask (.spawn task) next)) :
    ComesTo rules order ⟨s, main ++ [⟨.spawn task, ()⟩], [⟨task, [], .working⟩], watch⟩ (next ()) :=
  hp.goOn (.spawn hp.main) rfl id

theorem work {next : q.Answer → Running (Except RunError Unit)}
    (hp : ComesTo rules order ⟨s, main, [⟨task, h, .working⟩], watch⟩ r)
    (hf : Follows (taskOf rules order task) h (ask q next)) (hs : Serves q a s s')
    (ha : ¬ IsStoreError q a) :
    ComesTo rules order ⟨s', main, [⟨task, h ++ [⟨q, a⟩], .working⟩], watch⟩ r ∧
      Follows (taskOf rules order task) (h ++ [⟨q, a⟩]) (next a) := by
  have hstep := @Step.task _ rules order ⟨s, main, _, watch⟩ [] [] task h q next a s' rfl hf hs
  refine ⟨⟨.step hp.reachable hstep, hp.main, fun hfault => ?_⟩, follows_concat.mpr ⟨next, hf, rfl⟩⟩
  have hworks := hp.works
  simp only [Pool.heard, List.flatMap_cons, List.flatMap_nil, List.append_nil, has_append, has_cons,
    not_or] at hfault hworks
  rcases hfault with hfault | hfault | hfault | hfault
  · exact hworks.1 hfault
  · exact hworks.2 hfault
  · exact ha hfault
  · exact not_has_nil hfault

theorem workOut {next : q.Answer → Running (Except RunError Unit)}
    (hp : ComesTo rules order ⟨s, main, [⟨task, h, .working⟩], watch⟩ r)
    (hf : Follows (taskOf rules order task) h (ask q next)) (a : q.Answer) (hq : IsOutward q)
    (ha : ¬ IsStoreError q a) :
    ComesTo rules order ⟨s, main, [⟨task, h ++ [⟨q, a⟩], .working⟩], watch⟩ r ∧
      Follows (taskOf rules order task) (h ++ [⟨q, a⟩]) (next a) :=
  hp.work hf (.outward hq trivial) ha

theorem settle {next : TaskEnd → Running (Except RunError Record)} {result : Except RunError Unit}
    (hp : ComesTo rules order ⟨s, main, [⟨task, h, .working⟩], watch⟩ (ask .join next))
    (hf : Yields (taskOf rules order task) h result) :
    ComesTo rules order ⟨{ s with free := s.free + 1 }, main ++ [⟨.join, .settled result⟩],
      [⟨task, h, .joined (.settled result)⟩], watch⟩ (next (.settled result)) := by
  have hend := @Step.taskEnds _ rules order ⟨s, main, _, watch⟩ [] [] task h result rfl hf
  have hp' : ComesTo rules order ⟨{ s with free := s.free + 1 }, main,
      [⟨task, h, .ended (.settled result)⟩], watch⟩ (ask .join next) :=
    ⟨.step hp.reachable hend, hp.main, hp.works⟩
  exact hp'.goOn (@Step.join _ rules order _ next [] [] task h _ hp.main rfl) rfl id

theorem reports {p : Pool .anything} {next : q.Answer → Running (Except RunError Record)}
    {c : CollectionId} {run : RunId} {report : RunReport} {now : Instant}
    (hp : ComesTo rules order p (ask q next))
    (hq : q = .keeper (.store (.finish c run report now))) : Reports rules order p report := by
  subst hq
  exact ⟨c, run, now, next, hp.main⟩

end ComesTo

/-! ## The account of a run -/

/-- What the report of a run accounts for: all tasks of the plan, each once. -/
structure Settled (rules : RunRules) (order : RunOrder) (p : Pool env) (plan : RunPlan)
    (missed : Nat) (report : RunReport) : Prop where
  /-- No task of the plan was started twice, and no other one. -/
  started : (p.fibers.map Fiber.task).Sublist plan.tasks
  total : report.progress.total = plan.tasks.length
  processed : report.progress.processed = successes rules order p.fibers
  settled : report.progress.processed + report.progress.failed = report.progress.total
  /-- The failure report has an entry for each task that failed and for each root that was
  missed. -/
  logged : p.shared.run.log.size = report.progress.failed + missed
  listed : report.failures = p.shared.run.log.report

/-- What a run has read before its terminal write, by the marks that its work and its tasks have
left. -/
structure Account (p : Pool env) (m : List RunHeard) (s : RunState) : Prop where
  total : s.progress.total = totalOf (marks m)
  processed : s.progress.processed =
    (marks m).count .success + (marks (p.fibers.flatMap Fiber.heard)).count .success
  failed : s.progress.failed =
    (marks m).count .failure + (marks (p.fibers.flatMap Fiber.heard)).count .failure
  logged : p.shared.run.log.size = s.progress.failed +
    ((marks m).count .uncounted + (marks (p.fibers.flatMap Fiber.heard)).count .uncounted)
  listed : s.log = p.shared.run.log
  tasks : p.fibers.map Fiber.task = spawned (marks m)
  broken : p.fibers.countP (·.course.isBroken) = (marks m).count .broken

theorem account_of_worked {m m' : List RunHeard} {listing : Listing} {s : RunState}
    (hr : Reachable rules order p) (hy : Yields (order.work rules) m listing)
    (hm : p.main = m ++ ⟨.state, s⟩ :: m') : Account p m s := by
  have hmarks : marks p.main = marks m := (joined_of_worked hr hy hm).1
  have hcount : ∀ k, (marks p.heard).count k =
      (marks m).count k + (marks (p.fibers.flatMap Fiber.heard)).count k := by
    intro k
    rw [Pool.heard, marks_append, List.count_append, hmarks]
  have htrack := tracked_of_reachable hr
  obtain ⟨hprogress, hlog⟩ := kept_after_work hr hy hm
  obtain ⟨hprocessed, hfailed, hlogged⟩ := counted_of_reachable hr
  refine ⟨?_, ?_, ?_, ?_, hlog, ?_, ?_⟩
  · rw [hprogress, planned_of_reachable hr, hmarks]
  · rw [hprogress, hprocessed, hcount]
  · rw [hprogress, hfailed, hcount]
  · rw [hprogress, hfailed, hlogged, hcount .uncounted]
  · rw [htrack.tasks, hmarks]
  · rw [htrack.broken, hmarks]

/-- What the state counts that a run reads when its work is done. -/
theorem settled_of_worked {m m' : List RunHeard} {listing : Listing} {s : RunState}
    (hr : Reachable rules order p) (hy : Yields (order.work rules) m listing)
    (hm : p.main = m ++ ⟨.state, s⟩ :: m') :
    s.progress.processed + s.progress.failed ≤ s.progress.total ∧
      (¬ Faulted p.heard → ∃ plan, Prepared rules order p.main plan ((marks m).count .uncounted) ∧
        Settled rules order p plan ((marks m).count .uncounted) (s.report listing.tokens)) := by
  obtain ⟨tasks, hbalance, hplan⟩ := work_balance hy
  have haccount := account_of_worked hr hy hm
  have hjoined := (joined_of_worked hr hy hm).2
  have heach := countsEach_of_joined fun f hf => ⟨faithful_of_reachable hr f hf, hjoined f hf⟩
  have hreport : (s.report listing.tokens).progress = s.progress := rfl
  have hstarted : p.fibers.length = (spawned (marks m)).length := by
    rw [← haccount.tasks, List.length_map]
  have htotal : s.progress.total = tasks.length := by
    rw [haccount.total, hbalance.planned]
  have hprocessed := haccount.processed
  rw [hbalance.success, Nat.zero_add] at hprocessed
  have hfailed := haccount.failed
  have hbroken := haccount.broken
  refine ⟨?_, fun hok => ?_⟩
  · have hmain := hbalance.bounded
    have htasks := heach.bounded
    omega
  · have hwhole := not_breaksOff hr hy hm hok
    have hmain := hbalance.settled hwhole
    have htasks := heach.settled fun hf => hok (has_append.mpr (.inr hf))
    obtain ⟨plan, rfl, hprepared⟩ := hplan hwhole
    refine ⟨plan, ?_, ?_, htotal, ?_, ?_, ?_, ?_⟩
    · rw [hm]
      exact hprepared.append _
    · rw [haccount.tasks]
      exact hbalance.started
    · rw [hreport, hprocessed, heach.success]
    · rw [hreport]
      omega
    · rw [hreport, haccount.logged, heach.uncounted, Nat.add_zero]
    · rw [← haccount.listed]
      rfl

/-- Whatever a run is surrounded by and in whatever order its programs are served: when it comes to
its terminal write and the store has not failed, each task of its plan is settled exactly once, as
processed if its action has succeeded and as failed otherwise. If the store has failed, none is
settled twice. -/
theorem settled_exactly_once {report : RunReport} (hr : Reachable rules order p)
    (hf : Reports rules order p report) :
    report.progress.processed + report.progress.failed ≤ report.progress.total ∧
      (¬ Faulted p.heard → ∃ plan missed, Prepared rules order p.main plan missed ∧
        Settled rules order p plan missed report) := by
  obtain ⟨_, _, _, _, hf⟩ := hf
  obtain ⟨m, listing, s, hm, hy, -, -, rfl⟩ := of_finish_asked hf
  obtain ⟨hbounded, hwhole⟩ := settled_of_worked hr hy hm
  refine ⟨hbounded, fun hok => ?_⟩
  obtain ⟨plan, hplan⟩ := hwhole hok
  exact ⟨plan, _, hplan⟩

/-- A root reports a file as removed, and the run detaches it. -/
theorem settled_exactly_once_detached :
    let rules : RunRules := ⟨1, ⟨1⟩, 10, ⟨0, ⟨1⟩⟩, ⟨1⟩⟩
    let order : RunOrder :=
      ⟨⟨⟨"docs"⟩, [⟨⟨"root"⟩, none, none⟩]⟩, ⟨⟨1⟩, .idle ⟨"docs"⟩ ⟨0, 0⟩⟩, ""⟩
    ∃ (p : Pool .anything) (report : RunReport),
      (Reachable rules order p ∧ Reports rules order p report) ∧
      (report.progress.processed = 1 ∧ report.progress.failed = 0 ∧ report.progress.total = 1) ∧
      ∃ plan missed, Prepared rules order p.main plan missed ∧
        Settled rules order p plan missed report := by
  intro rules order
  let owned : Record := { Record.idle ⟨"docs"⟩ ⟨0, 0⟩ with status := .syncing, run := some ⟨1⟩ }
  let removed : ChangeSet := ⟨[], [⟨"old"⟩], none⟩
  have h : ComesTo rules order (.start .anything rules false ()) (order.run rules) :=
    ⟨.start false _, .refl _, not_has_nil⟩
  -- the root is listed and the plan made
  have h := h.goOn (.startWatch h.main) rfl id
  have h := (h.hear .state id).answer (Except.ok (some owned)) trivial id
  have h := h.answer (some (Except.ok removed)) trivial id
  have h := (h.hear .state id).answer [] trivial id
  have h := ((h.hear .change id).answer (⟨1, 0⟩ : Instant) trivial id).answer
    (Except.ok ProgressOutcome.discarded) trivial id
  -- the task is admitted and started
  have h := ((h.hear .state id).hear .state id).answer (Except.ok (some owned)) trivial id
  have h := h.hear (.acquire (by decide)) id
  have h := ((h.hear .state id).answer (Except.ok (some owned)) trivial id).spawn
  -- the task does its work and is counted
  obtain ⟨h, t⟩ := h.workOut (.refl _) (some (Except.ok ())) trivial id
  obtain ⟨h, t⟩ := h.work t .change id
  obtain ⟨h, t⟩ := h.workOut t (⟨2, 0⟩ : Instant) trivial id
  obtain ⟨h, t⟩ := h.workOut t (Except.ok ProgressOutcome.discarded) trivial id
  have h := h.settle t
  have h := ((h.goOn (.endWatch h.main) rfl id).hear .state id).answer (⟨3, 0⟩ : Instant) trivial id
  have hreport := h.reports rfl
  exact ⟨_, _, ⟨h.reachable, hreport⟩, ⟨rfl, rfl, rfl⟩,
    (settled_exactly_once h.reachable hreport).2 h.works⟩

end CollectionSync.Interleaving
