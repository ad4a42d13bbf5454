import CollectionSync.Proofs.Run.Overlap
import CollectionSync.Proofs.Run.Withholding

/-! # Whether files of a cancelled run are counted as cancelled

Not all of them are. A download that fails while nobody has looked at the record since is counted
with its own failure, and one that breaks down under another name; and once the counters cannot be
written, no further file is counted at all. -/

namespace CollectionSync.Interleaving

open Program Relation

theorem hasWorked_of_reports {env : Surroundings} {rules : RunRules} {order : RunOrder}
    {p : Pool env}
    {report : RunReport} (hf : Reports rules order p report) : p.HasWorked rules order := by
  obtain ⟨_, _, _, _, hf⟩ := hf
  obtain ⟨l, listing, s, hl, hy, -⟩ := of_finish_asked hf
  exact ⟨l, listing, _, hl, hy⟩

/-- The run was to end as it stood, and has come to this pool since. -/
def Member.Forfeits (rules : RunRules) (m : Member Memory.run)
    (p : Pool (.over Memory.run)) : Prop :=
  ∃ (e₀ e : Ensemble Memory.run) (k : Nat),
    e₀.Reachable rules (· = .empty) ∧ ReflTransGen (Ensemble.Step rules) e₀ e ∧
      e₀.members[k]? = some m ∧ m.Forfeited Memory.Owned e₀.store ∧
      e.members[k]? = some { m with pool := p }

/-- While the store works, a run that is to end counts each file as cancelled whose task was started
but had not downloaded it. -/
def StartedCancelled (rules : RunRules) : Prop :=
  ∀ (m : Member Memory.run) (p : Pool (.over Memory.run)) (f : Fiber) (item : Item)
    (result : Except RunError Unit),
    m.Forfeits rules p → f ∈ p.fibers → f.task.action = .extract item →
    ¬ m.pool.HasDownloaded rules m.order item.file → f.Ended (.settled result) → ¬ Faulted p.heard →
    CountsAs (.ofCancelled f.task.name) f.heard

/-- While the store works, it counts such a file as cancelled even where the task has broken
down. -/
def BrokenCancelled (rules : RunRules) : Prop :=
  ∀ (m : Member Memory.run) (p : Pool (.over Memory.run)) (f : Fiber) (item : Item)
    (message : String), m.Forfeits rules p → f ∈ p.fibers → f.task.action = .extract item →
    ¬ m.pool.HasDownloaded rules m.order item.file → f.Ended (.broken message) →
    p.HasWorked rules m.order → ¬ Faulted p.heard → .ofCancelled f.task.name ∈ failures p.heard

/-- While records can be read, a run that is to end counts each file as cancelled whose task it does
not start. -/
def UnstartedCancelled (rules : RunRules) : Prop :=
  ∀ (m : Member Memory.run) (p : Pool (.over Memory.run)) (plan : RunPlan) (missed : Nat)
    (task : SyncTask) (item : Item),
    m.Forfeits rules p → p.HasWorked rules m.order → Prepared rules m.order p.main plan missed →
    task ∈ plan.tasks → task.action = .extract item → task ∉ p.fibers.map Fiber.task →
    (∀ x ∈ p.heard, ¬ IsUnread m.order.identity x) → .ofCancelled task.name ∈ failures p.main

namespace Arrives

variable {env : Surroundings} {rules : RunRules} {order : RunOrder} {p₀ : Pool env}
  {task : SyncTask} {q : RunAsk} {a : q.Answer} {s s' : Shared env} {main h : List RunHeard}
  {watch : Option (List RunHeard)} {r : Running (Except RunError Record)}

/-- The only task hears an answer. -/
theorem work {next : q.Answer → Running (Except RunError Unit)}
    (hp : Arrives rules order p₀ ⟨s, main, [⟨task, h, .working⟩], watch⟩ r)
    (hf : Follows (taskOf rules order task) h (ask q next)) (hs : Serves q a s s') :
    Arrives rules order p₀ ⟨s', main, [⟨task, h ++ [⟨q, a⟩], .working⟩], watch⟩ r ∧
      Follows (taskOf rules order task) (h ++ [⟨q, a⟩]) (next a) := by
  have hstep := @Step.task _ rules order ⟨s, main, _, watch⟩ [] [] task h q next a s' rfl hf hs
  exact ⟨⟨hp.steps.tail hstep, hp.main⟩, follows_concat.mpr ⟨next, hf, rfl⟩⟩

theorem ends {result : Except RunError Unit}
    (hp : Arrives rules order p₀ ⟨s, main, [⟨task, h, .working⟩], watch⟩ r)
    (hf : Yields (taskOf rules order task) h result) :
    Arrives rules order p₀ ⟨{ s with free := s.free + 1 }, main,
      [⟨task, h, .ended (.settled result)⟩], watch⟩ r :=
  ⟨hp.steps.tail (@Step.taskEnds _ rules order ⟨s, main, _, watch⟩ [] [] task h result rfl hf),
    hp.main⟩

theorem stops {fibers : List Fiber} (hp : Arrives rules order p₀ ⟨s, main, fibers, watch⟩ r) :
    Arrives rules order p₀ ⟨{ s with run := s.run.change .stopping }, main, fibers, watch⟩ r :=
  ⟨hp.steps.tail .stop, hp.main⟩

/-- The same pool, as the one to go on from. -/
theorem again {p : Pool env} (hp : Arrives rules order p₀ p r) : Arrives rules order p p r :=
  ⟨.refl, hp.main⟩

end Arrives

theorem forall_mem_concat {P : RunHeard → Prop} {h : List RunHeard} {e : RunHeard}
    (hh : ∀ x ∈ h, P x) (he : P e) : ∀ x ∈ h ++ [e], P x :=
  List.forall_mem_append.mpr ⟨hh, List.forall_mem_singleton.mpr he⟩

namespace Forfeiture

open Overlap (rules docs drive order fresh store claimed planned cancelled)

/-- The one file of the drive was added. -/
def item : Item := ⟨⟨"a"⟩, ⟨"drive"⟩, "a.pdf", none, none, none, 0⟩

def added : ChangeSet := ⟨[item], [], none⟩

def task : SyncTask := ⟨drive, .extract item⟩

/-- What the programs of the run share while the file is downloaded and the store holds this
record. -/
def shared (r : Record) : Shared (.over Memory.run) :=
  ⟨(RunState.start 10 false).change (.total 1), 0, store r⟩

def fetch : RunAsk := .within rules.itemTimeout (.fetch drive item.id "")

/-- The file is being downloaded. -/
def downloading (main : List RunHeard) : Pool (.over Memory.run) :=
  ⟨shared (planned false), main, [⟨task, [], .working⟩], some []⟩

/-- The run was cancelled meanwhile, and the download is answered. -/
def answered (main : List RunHeard) (answer : fetch.Answer) : Pool (.over Memory.run) :=
  ⟨shared cancelled, main, [⟨task, [⟨fetch, answer⟩], .working⟩], some []⟩

/-- The run was cancelled meanwhile, and the download has broken down. -/
def broken (main : List RunHeard) : Pool (.over Memory.run) :=
  ⟨{ shared cancelled with free := 1 }, main, [⟨task, [], .ended (.broken "boom")⟩], some []⟩

/-- The counters of a run that was cancelled are not written any more. -/
theorem discards (t : Progress) : Memory.run (store cancelled)
    (.updateProgress docs (Overlap.run false) t ⟨0, 0⟩) = (.ok .discarded, store cancelled) := rfl

/-- After such answers the run does the rest of its work once the task has ended. -/
structure WorksOn (main : List RunHeard) : Prop where
  settled : ∀ (s : Shared (.over Memory.run)) (h : List RunHeard), ∃ p : Pool (.over Memory.run),
    ReflTransGen (Step rules (order false)) ⟨s, main, [⟨task, h, .ended (.settled (.ok ()))⟩],
      some []⟩ p ∧
      p.fibers = [⟨task, h, .joined (.settled (.ok ()))⟩] ∧ p.HasWorked rules (order false)
  broken : ∃ p : Pool (.over Memory.run),
    ReflTransGen (Step rules (order false)) (broken main) p ∧
      p.fibers = [⟨task, [], .joined (.broken "boom")⟩] ∧ p.HasWorked rules (order false) ∧
      (∀ x ∈ p.main, ¬ IsStoreError x.1 x.2) ∧ failures p.main = [brokenTask "boom"]

theorem downloads : ∃ main next,
    Arrives rules (order false) (fresh false) (downloading main) (ask .join next) ∧
      (∀ x ∈ main, ¬ IsStoreError x.1 x.2) ∧ WorksOn main := by
  have h : Arrives rules (order false) (fresh false) (fresh false) ((order false).run rules) :=
    ⟨.refl, .refl _⟩
  -- the root is listed and the plan made
  have h := (h.goOn (.startWatch h.main)).hear .state
  have h := (h.reply (Overlap.claimed_reads _)).hear (a := some (.ok added)) (.outward trivial rfl)
  have h := (h.hear .state).hear (a := [some (.ok none)]) (.outward trivial rfl)
  have h := (h.hear .change).hear (a := (⟨0, 0⟩ : Instant)) (.outward trivial rfl)
  have h := (h.reply (Overlap.plans _)).hear (a := false) (.outward trivial rfl)
  -- the task is admitted and started
  have h := ((h.hear .state).hear .state).reply (Overlap.planned_reads _)
  have h := ((h.hear (.acquire (by decide))).hear .state).reply (Overlap.planned_reads _)
  have h := h.goOn (.spawn h.main)
  refine ⟨_, _, h, ?_, fun s heard => ?_, ?_⟩
  · repeat refine forall_mem_concat ?_ id
    exact List.forall_mem_nil _
  · have hend : Arrives rules (order false) _
        ⟨s, _, [⟨task, heard, .ended (.settled (.ok ()))⟩], some []⟩ _ := ⟨.refl, h.main⟩
    have hend := hend.goOn (@Step.join _ _ _ _ _ [] [] _ _ _ hend.main rfl)
    have hend := hend.goOn (.endWatch hend.main)
    have hend := (hend.hear .state).hear (a := (⟨0, 0⟩ : Instant)) (.outward trivial rfl)
    exact ⟨_, hend.steps, rfl, hasWorked_of_reports ⟨_, _, _, _, hend.main⟩⟩
  · have hend : Arrives rules (order false) _ (broken _) _ := ⟨.refl, h.main⟩
    have hend := hend.goOn (@Step.join _ _ _ _ _ [] [] _ _ _ hend.main rfl)
    have hend := (hend.hear .change).hear (a := (⟨0, 0⟩ : Instant)) (.outward trivial rfl)
    have hend := hend.reply (discards _)
    have hend := hend.goOn (.endWatch hend.main)
    have hend := (hend.hear .state).hear (a := (⟨0, 0⟩ : Instant)) (.outward trivial rfl)
    refine ⟨_, hend.steps, rfl, hasWorked_of_reports ⟨_, _, _, _, hend.main⟩, ?_, rfl⟩
    repeat refine forall_mem_concat ?_ id
    exact List.forall_mem_nil _

section

variable {main : List RunHeard} {r : Running (Except RunError Record)} {answer : fetch.Answer}
  {p : Pool (.over Memory.run)}

theorem launched {s : Memory → Prop} (hs : s .empty) :
    Ensemble.Reachable rules s ⟨store (claimed false), [⟨order false, fresh false⟩]⟩ := by
  have hempty : Ensemble.Reachable rules s (⟨.empty, []⟩ : Ensemble Memory.run) := .start _ hs
  exact hempty.step (Overlap.launches false List.not_mem_nil rfl)

theorem cancelled_reachable {s : Memory → Prop} (hs : s .empty)
    (h : Arrives rules (order false) (fresh false) (downloading main) r) :
    Ensemble.Reachable rules s ⟨store cancelled, [⟨order false, downloading main⟩]⟩ := by
  have hcancel : IsOutside (.requestCancel docs ⟨0, 0⟩) :=
    .cancel (c := docs) (.hear ⟨0, 0⟩ (.refl _))
  exact ((launched hs).trans (Ensemble.goes_on [] h.steps)).step (.outside hcancel)

theorem answers : Step rules (order false) ((downloading main).within (store cancelled))
    (answered main answer) :=
  @Step.task _ rules (order false) ((downloading main).within (store cancelled))
    [] [] task [] fetch _
    answer (shared cancelled) rfl (.refl _) (.outward trivial rfl)

theorem breaks :
    Step rules (order false) ((downloading main).within (store cancelled)) (broken main) :=
  @Step.taskBreaks _ rules (order false) ((downloading main).within (store cancelled)) [] [] task []
    rules.itemTimeout (.fetch drive item.id "") _ "boom" rfl (.refl _)

theorem goes_on {p₀ : Pool (.over Memory.run)}
    (hs : Step rules (order false) ((downloading main).within (store cancelled)) p₀)
    (hl : ReflTransGen (Step rules (order false)) p₀ p) :
    ReflTransGen (Ensemble.Step rules) ⟨store cancelled, [⟨order false, downloading main⟩]⟩
      ⟨p.shared.world, [⟨order false, p⟩]⟩ := by
  have hstep : Ensemble.Step rules ⟨store cancelled, [⟨order false, downloading main⟩]⟩ _ :=
    .work (k := 0) rfl hs
  exact .head hstep (Ensemble.goes_on [] hl)

theorem not_owned : ¬ Memory.Owned (order false).identity (store cancelled) := by
  intro howned
  cases howned

theorem forfeits {p₀ : Pool (.over Memory.run)}
    (h : Arrives rules (order false) (fresh false) (downloading main) r)
    (hs : Step rules (order false) ((downloading main).within (store cancelled)) p₀)
    (hl : ReflTransGen (Step rules (order false)) p₀ p) :
    Member.Forfeits rules ⟨order false, downloading main⟩ p :=
  ⟨_, _, 0, cancelled_reachable rfl h, goes_on hs hl, rfl, .inl not_owned, rfl⟩

theorem not_downloaded : ¬ (downloading main).HasDownloaded rules (order false) item.file := by
  rintro ⟨f, hf, -, hd⟩
  cases List.mem_singleton.mp hf
  exact not_downloaded_nil hd

theorem not_faulted {f : Fiber} (hfibers : p.fibers = [f])
    (hmain : ∀ x ∈ p.main, ¬ IsStoreError x.1 x.2)
    (htask : ∀ x ∈ f.heard, ¬ IsStoreError x.1 x.2) : ¬ Faulted p.heard := by
  rintro ⟨x, hx, hfault⟩
  rw [Pool.heard, hfibers, List.flatMap_singleton] at hx
  exact (List.mem_append.mp hx).elim (hmain x · hfault) (htask x · hfault)

/-- The download fails, and nobody has looked at the record. -/
theorem fails (hmain : Follows ((order false).run rules) main r)
    (hworks : ∀ x ∈ main, ¬ IsStoreError x.1 x.2) :
    ∃ (p : Pool (.over Memory.run)) (f : Fiber),
      ReflTransGen (Step rules (order false)) (answered main (some (.error (.notFound "gone")))) p ∧
      p.fibers = [f] ∧ f.task = task ∧
      f.course = .ended (.settled (.ok ())) ∧ ¬ Faulted p.heard ∧
      (failures f.heard).map FailedItem.kind = [.remote] := by
  have h : Arrives rules (order false) (answered main (some (.error (.notFound "gone"))))
      ⟨shared cancelled, main, [⟨task, [⟨fetch, some (.error (.notFound "gone"))⟩], .working⟩],
        some []⟩
      r := ⟨.refl, hmain⟩
  obtain ⟨h, t⟩ := h.work (.hear _ (.refl _)) .state
  obtain ⟨h, t⟩ := h.work t .change
  obtain ⟨h, t⟩ := h.work t (a := (⟨0, 0⟩ : Instant)) (.outward trivial rfl)
  obtain ⟨h, t⟩ := h.work t (.outward trivial (.inl (discards _)))
  have h := h.ends t
  refine ⟨_, _, h.steps, rfl, rfl, rfl, not_faulted rfl hworks ?_, rfl⟩
  repeat refine forall_mem_concat ?_ id
  exact List.forall_mem_singleton.mpr id

/-- What the task hears once it has the content: the record was cancelled. -/
def looks : List RunHeard :=
  [⟨.state, (shared cancelled).run⟩, ⟨.keeper (.store (.get docs)), .ok (some cancelled)⟩,
    ⟨.change .cancelled, (shared cancelled).run.change .cancelled⟩]

theorem looks_yields : Yields (order false).identity.observe looks (.ok true) :=
  .hear _ (.hear _ (.hear _ (.refl _)))

/-- The run has latched that it was cancelled, and the watch waits or has waited. -/
def latched (main : List RunHeard) (r : Record) (watch : List RunHeard) : Pool (.over Memory.run) :=
  ⟨{ shared r with run := (shared r).run.change .cancelled }, main,
    [⟨task, ⟨fetch, some (.ok [])⟩ :: looks, .working⟩], some watch⟩

theorem cancelled_reads :
    Memory.run (store cancelled) (.get docs) = (.ok (some cancelled), store cancelled) := rfl

theorem finds (hmain : Follows ((order false).run rules) main r) :
    Arrives rules (order false) (answered main (some (.ok []))) (latched main cancelled []) r := by
  have h : Arrives rules (order false) (answered main (some (.ok [])))
      (answered main (some (.ok [])))
      r := ⟨.refl, hmain⟩
  obtain ⟨h, t⟩ := h.work (.hear _ (.refl _)) .state
  obtain ⟨h, t⟩ := h.work t (.outward trivial (.inl cancelled_reads))
  exact (h.work t .change).1

/-- The task is counted as cancelled. -/
theorem counts (hmain : Follows ((order false).run rules) main r) (hon : WorksOn main) :
    ∃ (p : Pool (.over Memory.run)) (f : Fiber),
      ReflTransGen (Step rules (order false)) (latched main cancelled []) p ∧
      p.HasWorked rules (order false) ∧ p.fibers = [f] ∧
      CountsAs (.ofCancelled "a.pdf") f.heard := by
  have h : Arrives rules (order false) (latched main cancelled []) (latched main cancelled []) r :=
    ⟨.refl, hmain⟩
  obtain ⟨h, t⟩ := h.work (.hear _ (.hear _ (.hear _ (.hear _ (.refl _))))) .change
  obtain ⟨h, t⟩ := h.work t (a := (⟨0, 0⟩ : Instant)) (.outward trivial rfl)
  obtain ⟨h, t⟩ := h.work t (.outward trivial (.inl (discards _)))
  obtain ⟨p, hl, hfibers, hworked⟩ := hon.settled _ _
  exact ⟨p, _, (h.ends t).steps.trans hl, hworked, hfibers, rfl, rfl⟩

/-- A task that has downloaded its file looks at the record. -/
theorem task_checks : ∃ next, Follows (taskOf rules (order false) task) [⟨fetch, some (.ok [])⟩]
    ((order false).identity.observe >>= next) := by
  have hd : Yields (downloadOf rules (order false) drive item) [⟨fetch, some (.ok [])⟩] (.ok []) :=
    .hear _ (.refl _)
  have hprocess : Follows (task.perform rules (order false).identity "") [⟨fetch, some (.ok [])⟩]
      (SyncTask.process rules (order false).identity item []) := hd.bind
  exact ⟨_, bind_assoc (order false).identity.observe _ _ ▸ hprocess.bind⟩

/-- That check finds the record cancelled; were the record as before, the watch would find it
cancelled all the same. -/
theorem found_latched (main : List RunHeard) :
    ∃ p p' : Pool (Surroundings.over Memory.run).restless,
      Checks rules (order false) (answered main (some (.ok []))).alone
        (latched main cancelled []).alone
        (.ok true) ∧
      ReflTransGen (Step rules (order false)) (latched main cancelled []).alone p ∧
      Memory.Owned (order false).identity p.shared.world ∧
      ReflTransGen (Step rules (order false)) p p' ∧
      Checks rules (order false) p p' (.ok true) := by
  obtain ⟨next, hcheck⟩ := task_checks
  have hpause : Yields (Run.pause rules.pollInterval) [⟨.pause rules.pollInterval, false⟩] false :=
    .hear _ (.refl _)
  let moved := (latched main (planned false) []).alone
  let waited := (latched main (planned false) [⟨.pause rules.pollInterval, false⟩]).alone
  have hmoved : Step rules (order false) (latched main cancelled []).alone moved := .world trivial
  have hwaited : Step rules (order false) moved waited :=
    .watch (p := moved) rfl (.refl _) (.pause fun hcut => nomatch hcut)
  have hread : Step rules (order false) waited _ := .watch rfl (.hear _ (.refl _)) .state
  exact ⟨_, _, .task (k := 0) rfl hcheck rfl rfl looks_yields, .tail (.single hmoved) hwaited, rfl,
    .single hread, .watch rfl hpause.bind rfl (.hear _ (.refl _))⟩

end

/-- The host begins to shut down when the root is listed, and then the counters cannot be
written. -/
theorem unwritten : ∃ (p₀ p : Pool (.over Memory.run)) (missed : Nat),
    Member.Forfeits rules ⟨order false, p₀⟩ p ∧ p.HasWorked rules (order false) ∧
      Prepared rules (order false) p.main ⟨[task], 0⟩ missed ∧ p.fibers = [] ∧
      (∀ x ∈ p.heard, ¬ IsUnread (order false).identity x) ∧ failures p.main = [] := by
  have h : Arrives rules (order false) (fresh false) (fresh false) ((order false).run rules) :=
    ⟨.refl, .refl _⟩
  have h := (h.goOn (.startWatch h.main)).hear .state
  have h := (h.reply (Overlap.claimed_reads _)).hear (a := some (.ok added)) (.outward trivial rfl)
  have h₀ := h.stops
  have h := (h₀.again.hear .state).hear (a := [some (.ok none)]) (.outward trivial rfl)
  have h := (h.hear .change).hear (a := (⟨0, 0⟩ : Instant)) (.outward trivial rfl)
  have h := h.hear (a := Except.error (.unavailable "down"))
    (.outward trivial (.inr ⟨⟨"down", rfl⟩, .inl rfl⟩))
  have h := h.hear .change
  have h := h.goOn (.endWatch h.main)
  have h := (h.hear .state).hear (a := (⟨0, 0⟩ : Instant)) (.outward trivial rfl)
  have hroots : Yields (Listing.ofOrder rules (order false) (order false).identity)
      [⟨.state, .start 10 false⟩, ⟨.keeper (.store (.get docs)), .ok (some (claimed false))⟩,
        ⟨.within rules.itemTimeout (.list drive none ""), some (.ok added)⟩]
      (.ok ⟨[(drive, added)], (claimed false).tokens⟩) := .hear _ (.hear _ (.hear _ (.refl _)))
  have hplan : Yields (RunPlan.ofChanges rules.slots rules.itemTimeout docs [(drive, added)])
      [⟨.lookups [item.file] rules.slots rules.itemTimeout, [some (.ok none)]⟩] ⟨[task], 0⟩ :=
    .hear _ (.refl _)
  obtain ⟨missed, hunlisted⟩ := extend_unlisted hroots
  have hprepared : Prepared rules (order false) (_ :: (_ ++ ⟨.state, _⟩ :: (_ ++ []))) _ _ :=
    .mk (s := (RunState.start 10 false).change .stopping) hroots hunlisted hplan
  have hforfeits := (launched (s := (· = Memory.empty)) rfl).trans (Ensemble.goes_on [] h₀.steps)
  refine ⟨_, _, missed, ⟨_, _, 0, hforfeits, Ensemble.goes_on [] h.steps, rfl, .inr rfl, rfl⟩,
    hasWorked_of_reports ⟨_, _, _, _, h.main⟩, hprepared.append _, rfl, ?_, rfl⟩
  refine List.forall_mem_append.mpr ⟨?_, List.forall_mem_nil _⟩
  repeat refine forall_mem_concat ?_ (by rintro ⟨reason, heq⟩; cases heq)
  exact List.forall_mem_nil _

end Forfeiture

/-- None of this is so. A download that fails before anyone has noticed is counted with its own
failure, one that breaks down without its name; and where the counters cannot be written, files that
were not started are not counted. -/
theorem not_all_cancelled : ¬ StartedCancelled Overlap.rules ∧ ¬ BrokenCancelled Overlap.rules ∧
    ¬ UnstartedCancelled Overlap.rules := by
  obtain ⟨main, next, h, hworks, hon⟩ := Forfeiture.downloads
  refine ⟨fun hall => ?_, fun hall => ?_, fun hall => ?_⟩
  · obtain ⟨p, f, hl, hfibers, htask, hended, hok, hkind⟩ := Forfeiture.fails h.main hworks
    have hcounts := hall _ p f Forfeiture.item _ (Forfeiture.forfeits h Forfeiture.answers hl)
      (hfibers ▸ List.mem_cons_self) (htask ▸ rfl) Forfeiture.not_downloaded (.inl hended) hok
    rw [hcounts.2] at hkind
    cases hkind
  · obtain ⟨p, hl, hfibers, hworked, hworks, hfailures⟩ := hon.broken
    have hcounted := hall _ p _ Forfeiture.item _ (Forfeiture.forfeits h Forfeiture.breaks hl)
      (hfibers ▸ List.mem_cons_self) rfl Forfeiture.not_downloaded (.inr rfl) hworked
      (Forfeiture.not_faulted hfibers hworks (List.forall_mem_nil _))
    have hheard : failures p.heard = [brokenTask "boom"] := by
      rw [Pool.heard, hfibers, failures_append, hfailures]
      rfl
    rw [hheard] at hcounted
    have hname := congrArg FailedItem.name (List.mem_singleton.mp hcounted)
    exact absurd hname (by decide)
  · obtain ⟨_, p, missed, hforfeits, hworked, hprepared, hfibers, hread, hnone⟩ :=
      Forfeiture.unwritten
    have hcounted := hall _ p _ missed Forfeiture.task Forfeiture.item hforfeits hworked hprepared
      List.mem_cons_self rfl (by rw [hfibers]; exact List.not_mem_nil) hread
    rw [hnone] at hcounted
    cases hcounted

/-- However runs are admitted, cancelled, recovered, replaced and shut down: a run that has lost its
record, or is to stop, withholds from the pipeline what it had not downloaded before. And once a
check of a run has found it cancelled, every later one does so, whatever becomes of the record. -/
theorem forfeited_items_withheld {rules : RunRules} :
    (∀ e₀ e : Ensemble Memory.run, e₀.Reachable rules (fun _ => True) →
      ReflTransGen (Ensemble.Step rules) e₀ e → Withholds rules Memory.Owned e₀ e) ∧
    (∀ e₀ e : Ensemble Database.run, e₀.Reachable rules Database.Keyed →
      ReflTransGen (Ensemble.Step rules) e₀ e → Withholds rules Database.Owned e₀ e) ∧
    ∀ (env : Surroundings) (order : RunOrder) (p₀ p₁ p₂ p₃ : Pool env)
    (observed : Except RunError Bool),
      Reachable rules order p₁ → Checks rules order p₀ p₁ (.ok true) →
      ReflTransGen (Step rules order) p₁ p₂ → ReflTransGen (Step rules order) p₂ p₃ →
      Checks rules order p₂ p₃ observed → observed = .ok true :=
  ⟨fun _ _ => withholds Memory.custody, fun _ _ => withholds Database.custody,
    fun _ _ _ _ _ _ _ hr hfound hl hl' => found_again hr hfound hl hl'⟩

/-- A run that was cancelled while it downloaded its only file. -/
theorem forfeited_items_withheld_cancelled :
    ∃ (main : List RunHeard) (p : Pool (.over Memory.run)) (f : Fiber)
      (p₂ p₃ : Pool (Surroundings.over Memory.run).restless),
      let e₀ : Ensemble Memory.run :=
        ⟨Overlap.store Overlap.cancelled, [⟨Overlap.order false, Forfeiture.downloading main⟩]⟩
      let e : Ensemble Memory.run := ⟨p.shared.world, [⟨Overlap.order false, p⟩]⟩
      (e₀.Reachable Overlap.rules (fun _ => True) ∧
        ReflTransGen (Ensemble.Step Overlap.rules) e₀ e ∧
        ¬ Memory.Owned (Overlap.order false).identity e₀.store ∧
        Withholds Overlap.rules Memory.Owned e₀ e ∧
        p.HasWorked Overlap.rules (Overlap.order false) ∧
        p.fibers = [f] ∧ CountsAs (.ofCancelled "a.pdf") f.heard) ∧
      Memory.Owned (Overlap.order false).identity p₂.shared.world ∧
      Checks Overlap.rules (Overlap.order false) p₂ p₃ (.ok true) ∧
      ∀ observed, Checks Overlap.rules (Overlap.order false) p₂ p₃ observed →
      observed = .ok true := by
  obtain ⟨main, next, h, -, hon⟩ := Forfeiture.downloads
  have hr := Forfeiture.cancelled_reachable (s := fun _ => True) trivial h
  have hfinds := (Forfeiture.finds h.main).steps
  have hfound := hr.trans (Forfeiture.goes_on Forfeiture.answers hfinds)
  obtain ⟨p, f, hl, hworked, hfibers, hcounts⟩ := Forfeiture.counts h.main hon
  have hs := Forfeiture.goes_on Forfeiture.answers (hfinds.trans hl)
  obtain ⟨p₂, p₃, hcheck, hmoved, howned, hread, hagain⟩ := Forfeiture.found_latched main
  have hreach := Ensemble.reachable_alone (k := 0) hfound rfl
  exact ⟨main, p, f, p₂, p₃,
    ⟨hr, hs, Forfeiture.not_owned, forfeited_items_withheld.1 _ _ hr hs, hworked, hfibers, hcounts⟩,
    howned, hagain,
    fun _ => forfeited_items_withheld.2.2 _ _ _ _ _ _ _ hreach hcheck hmoved hread⟩

end CollectionSync.Interleaving
