import CollectionSync.Proofs.Run.Aftermath

/-! # Whether runs of a collection overlap

A run that is cancelled gives up its record before it has ended, and the next run may claim the
record at once. So two runs may be at work. What keeps them apart is that only the last one owns the
record: the others wind down. -/

namespace CollectionSync.Interleaving

open Program Relation

/-- A call to the remote side or to the pipeline. -/
def IsCall : RunAsk → Prop
  | .within .. | .lookups .. => True
  | _ => False

/-- The task waits for the answer to such a question. -/
def Fiber.Waits (rules : RunRules) (order : RunOrder) (kind : RunAsk → Prop) (f : Fiber) : Prop :=
  f.course = .working ∧ ∃ q next, kind q ∧ Follows (taskOf rules order f.task) f.heard (ask q next)

namespace Member

variable {σ : Type} {step : σ → (op : StoreOp) → Except StoreError op.Reply × σ}

/-- The plan is made, and the main program may still come to start a task of it. -/
def HasTasksLeft (rules : RunRules) (m : Member step) : Prop :=
  (∃ count, .total count ∈ marks m.pool.main) ∧
    ∃ h task next, Follows (m.order.run rules) (m.pool.main ++ h) (ask (.spawn task) next)

/-- A call to the remote side or to the pipeline is not finished. -/
def HasCall (rules : RunRules) (m : Member step) : Prop :=
  (∃ q next, IsCall q ∧ Follows (m.order.run rules) m.pool.main (ask q next)) ∨
    ∃ f ∈ m.pool.fibers, f.Waits rules m.order IsCall

def AtWork (rules : RunRules) (m : Member step) : Prop := m.HasTasksLeft rules ∨ m.HasCall rules

/-- An item operation was begun, whether it is finished or not. -/
def HasBegun (rules : RunRules) (m : Member step) : Prop :=
  ∃ f ∈ m.pool.fibers, f.Waits rules m.order IsItemCall ∨ Has (fun q _ => IsItemCall q) f.heard

end Member

/-- At no moment are two runs of a collection at work. -/
def OneAtWork (rules : RunRules) : Prop :=
  ∀ (e : Ensemble Memory.run) (j k : Nat) (m m' : Member Memory.run),
    e.Reachable rules (· = .empty) → e.members[j]? = some m → e.members[k]? = some m' →
    m.order.request.collection = m'.order.request.collection → m.AtWork rules →
    m'.AtWork rules → j = k

/-- Once a run has begun an item operation, no item operation of an earlier run of the collection is
answered any more. -/
def EffectsInTurn (rules : RunRules) : Prop :=
  ∀ (e e' : Ensemble Memory.run) (j k : Nat) (m m' later : Member Memory.run),
    e.Reachable rules (· = .empty) → Ensemble.Step rules e e' → j < k →
    e.members[j]? = some m → e'.members[j]? = some m' → e.members[k]? = some later →
    m.order.request.collection = later.order.request.collection → later.HasBegun rules →
    ∀ x ∈ m'.pool.fibers.flatMap Fiber.heard, IsItemCall x.1 → x ∈ m.pool.fibers.flatMap Fiber.heard

/-- The last run of an ensemble may go on by itself. -/
theorem Ensemble.goes_on {σ : Type} {step : σ → (op : StoreOp) → Except StoreError op.Reply × σ}
    {rules : RunRules} {order : RunOrder} {p p' : Pool (.over step)} (l : List (Member step))
    (hs : ReflTransGen (Interleaving.Step rules order) p p') :
    ReflTransGen (Ensemble.Step rules) ⟨p.shared.world, l ++ [⟨order, p⟩]⟩
      ⟨p'.shared.world, l ++ [⟨order, p'⟩]⟩ := by
  induction hs with
  | refl => exact .refl
  | @tail p₁ p₂ _ hs ih =>
    have hk : (l ++ [(⟨order, p₁⟩ : Member step)])[l.length]? = some ⟨order, p₁⟩ :=
      List.getElem?_concat_length
    have hset : (l ++ [(⟨order, p₁⟩ : Member step)]).set l.length ⟨order, p₂⟩ =
        l ++ [⟨order, p₂⟩] := by
      rw [List.set_append_right _ _ (Nat.le_refl _), Nat.sub_self]
      rfl
    have hstep : Ensemble.Step rules ⟨p₁.shared.world, _⟩ _ := .work hk hs
    exact congrArg (Ensemble.mk p₂.shared.world) hset ▸ ih.tail hstep

namespace Overlap

def rules : RunRules := ⟨1, ⟨1⟩, 10, ⟨0, ⟨1⟩⟩, ⟨1⟩⟩

def docs : CollectionId := ⟨"docs"⟩

def drive : SourceRoot := ⟨⟨"drive"⟩, none, none⟩

/-- The one file of the drive was removed. -/
def removed : ChangeSet := ⟨[], [⟨"a"⟩], none⟩

def task : SyncTask := ⟨drive, .detach ⟨"a"⟩⟩

def request : RunRequest := ⟨docs, [drive]⟩

/-- The one run, or the run that takes its place. -/
def run (later : Bool) : RunId := if later then ⟨2⟩ else ⟨1⟩

def claimed (later : Bool) : Record :=
  { Record.idle docs ⟨0, 0⟩ with
    status := .syncing, run := some (run later), startedAt := some ⟨0, 0⟩ }

def order (later : Bool) : RunOrder := ⟨request, ⟨run later, claimed later⟩, ""⟩

/-- The record once the task is planned. -/
def planned (later : Bool) : Record := { claimed later with progress := ⟨0, 0, 1, ""⟩ }

def cancelled : Record := { planned false with status := .cancelled }

def store (r : Record) : Memory := Memory.empty.put r

/-- The run has claimed the record, and nothing else has happened. -/
abbrev fresh (later : Bool) : Pool (.over Memory.run) :=
  .start _ rules false (store (claimed later))

theorem claimed_reads (later : Bool) : Memory.run (store (claimed later)) (.get docs) =
    (.ok (some (claimed later)), store (claimed later)) := by
  cases later <;> rfl

theorem planned_reads (later : Bool) : Memory.run (store (planned later)) (.get docs) =
    (.ok (some (planned later)), store (planned later)) := by
  cases later <;> rfl

theorem plans (later : Bool) : Memory.run (store (claimed later))
    (.updateProgress docs (run later) ⟨0, 0, 1, ""⟩ ⟨0, 0⟩) =
    (.ok .applied, store (planned later)) := by
  cases later <;> rfl

def call : Call := .detach task.file docs

/-- The first thing that the task does is to detach the file. -/
theorem task_calls (later : Bool) : ∃ next,
    Follows (taskOf rules (order later) task) [] (ask (.within rules.itemTimeout call) next) :=
  ⟨_, .refl _⟩

/-- A run that owns the record comes to detach the file. -/
theorem detaches (later : Bool) : ∃ p : Pool (.over Memory.run),
    ReflTransGen (Interleaving.Step rules (order later)) (fresh later) p ∧
      p.shared.world = store (planned later) ∧ p.fibers = [⟨task, [], .working⟩] := by
  have h : Arrives rules (order later) (fresh later) (fresh later) ((order later).run rules) :=
    ⟨.refl, .refl _⟩
  cases later
  all_goals
    -- the root is listed and the plan made
    have h := (h.goOn (.startWatch h.main)).hear .state
    have h := (h.reply (claimed_reads _)).hear (a := some (.ok removed)) (.outward trivial rfl)
    have h := (h.hear .state).hear (a := []) (.outward trivial rfl)
    have h := (h.hear .change).hear (a := (⟨0, 0⟩ : Instant)) (.outward trivial rfl)
    have h := (h.reply (plans _)).hear (a := false) (.outward trivial rfl)
    -- the task is admitted and started
    have h := ((h.hear .state).hear .state).reply (planned_reads _)
    have h := ((h.hear (.acquire (by decide))).hear .state).reply (planned_reads _)
    have h := h.goOn (.spawn h.main)
    exact ⟨_, h.steps, rfl, rfl⟩

theorem launches (later : Bool) {m : Memory} {l : List (Member Memory.run)}
    (hfresh : run later ∉ l.map (·.order.admission.run))
    (hclaim : Memory.run m (.claim docs (run later) ⟨0, 0⟩) =
      (.ok (.claimed (claimed later)), store (claimed later))) :
    Ensemble.Step rules ⟨m, l⟩ ⟨store (claimed later), l ++ [⟨order later, fresh later⟩]⟩ := by
  have hf : Follows (Host.startRun request "")
      [⟨.stopping, false⟩, ⟨.freshRun, run later⟩, ⟨.keeper .clock, ⟨0, 0⟩⟩,
        ⟨.keeper (.store (.claim docs (run later) ⟨0, 0⟩)), .ok (.claimed (claimed later))⟩]
      (ask (.launch (order later)) fun _ => pure (.ok (run later))) :=
    .hear _ (.hear _ (.hear _ (.hear _ (.refl _))))
  exact .launch hfresh hclaim hf

/-- The run is cancelled while it detaches the file, and another one takes its place. -/
theorem comes_about : ∃ p p' : Pool (.over Memory.run),
    (p.fibers = [⟨task, [], .working⟩] ∧ p'.fibers = [⟨task, [], .working⟩]) ∧
    (∀ Sound : Memory → Prop, Sound .empty →
      Ensemble.Reachable rules Sound ⟨store cancelled, [⟨order false, p⟩]⟩) ∧
    ReflTransGen (Ensemble.Step rules) ⟨store cancelled, [⟨order false, p⟩]⟩
      ⟨store (planned true), [⟨order false, p⟩, ⟨order true, p'⟩]⟩ := by
  obtain ⟨p, hp, hstore, hfibers⟩ := detaches false
  obtain ⟨p', hp', hstore', hfibers'⟩ := detaches true
  have hwork := Ensemble.goes_on [] hp
  have hwork' := Ensemble.goes_on [⟨order false, p⟩] hp'
  rw [hstore] at hwork
  rw [hstore'] at hwork'
  have hcancel : IsOutside (.requestCancel docs ⟨0, 0⟩) :=
    .cancel (c := docs) (.hear ⟨0, 0⟩ (.refl _))
  have hcancelled : Ensemble.Step rules ⟨store (planned false), [⟨order false, p⟩]⟩
      ⟨store cancelled, [⟨order false, p⟩]⟩ := .outside hcancel
  refine ⟨p, p', ⟨hfibers, hfibers'⟩, fun Sound hs => ?_, ?_⟩
  · have hempty : Ensemble.Reachable rules Sound (⟨.empty, []⟩ : Ensemble Memory.run) := .start _ hs
    have hfirst := hempty.step (launches false List.not_mem_nil rfl)
    exact (hfirst.trans hwork).step hcancelled
  · have hother : run true ≠ run false := by decide
    have hfresh : run true ∉ [run false] := fun h => hother (List.mem_singleton.mp h)
    have hsecond : Ensemble.Step rules ⟨store cancelled, [⟨order false, p⟩]⟩ _ :=
      launches true hfresh rfl
    exact .head hsecond hwork'

end Overlap

/-- Two runs of a collection may be at work, each with a call under way that detaches the same file;
and the call of the earlier one may be answered then. -/
theorem runs_overlap : ¬ OneAtWork Overlap.rules ∧ ¬ EffectsInTurn Overlap.rules := by
  obtain ⟨p, p', ⟨hfibers, hfibers'⟩, hreach, hsteps⟩ := Overlap.comes_about
  have hr := (hreach (· = .empty) rfl).trans hsteps
  have hwaits : ∀ later kind, kind (.within Overlap.rules.itemTimeout Overlap.call) →
      Fiber.Waits Overlap.rules (Overlap.order later) kind ⟨Overlap.task, [], .working⟩ := by
    intro later kind hkind
    obtain ⟨next, hf⟩ := Overlap.task_calls later
    exact ⟨rfl, _, next, hkind, hf⟩
  constructor
  · intro hone
    have hwork : Member.AtWork Overlap.rules ⟨Overlap.order false, p⟩ :=
      .inr (.inr ⟨_, hfibers ▸ List.mem_cons_self, hwaits false IsCall trivial⟩)
    have hwork' : Member.AtWork Overlap.rules ⟨Overlap.order true, p'⟩ :=
      .inr (.inr ⟨_, hfibers' ▸ List.mem_cons_self, hwaits true IsCall trivial⟩)
    cases hone _ 0 1 _ _ hr rfl rfl rfl hwork hwork'
  · intro hturn
    have hbegun : Member.HasBegun Overlap.rules ⟨Overlap.order true, p'⟩ :=
      ⟨_, hfibers' ▸ List.mem_cons_self, .inl (hwaits true IsItemCall trivial)⟩
    obtain ⟨next, hf⟩ := Overlap.task_calls false
    have hanswer := @Interleaving.Step.task _ Overlap.rules (Overlap.order false)
      (p.within (Overlap.store (Overlap.planned true))) [] [] _ _ _ next (some (.ok ())) _
        hfibers hf
      (.outward trivial rfl)
    have hstep : Ensemble.Step Overlap.rules ⟨Overlap.store (Overlap.planned true),
      [⟨Overlap.order false, p⟩, ⟨Overlap.order true, p'⟩]⟩ _ := .work (k := 0) rfl hanswer
    have hkept := hturn _ _ 0 1 _ _ _ hr hstep Nat.zero_lt_one rfl rfl rfl rfl hbegun _
      List.mem_cons_self trivial
    rw [hfibers] at hkept
    cases hkept

/-- However runs of a collection are admitted, cancelled and recovered, at most the last one owns
the record. A run that does not own it gets it back by no means, and winds down: it starts at most
the one task that it was about to start, and of each task at most the next step is an item
operation. -/
theorem lost_runs_wind_down {rules : RunRules} :
    (∀ e₀ e : Ensemble Memory.run, e₀.Reachable rules (fun _ => True) →
      ReflTransGen (Ensemble.Step rules) e₀ e → Superseded rules Memory.Owned e₀ e) ∧
    ∀ e₀ e : Ensemble Database.run, e₀.Reachable rules Database.Keyed →
      ReflTransGen (Ensemble.Step rules) e₀ e → Superseded rules Database.Owned e₀ e :=
  ⟨fun _ _ => superseded Memory.custody, fun _ _ => superseded Database.custody⟩

/-- A run that was cancelled while it was to detach a file, after another one has taken its
place. -/
theorem lost_runs_wind_down_replaced :
    ∃ p p' : Pool (.over Memory.run),
      let e₀ : Ensemble Memory.run := ⟨Overlap.store Overlap.cancelled, [⟨Overlap.order false, p⟩]⟩
      let e : Ensemble Memory.run :=
        ⟨Overlap.store (Overlap.planned true), [⟨Overlap.order false, p⟩, ⟨Overlap.order true, p'⟩]⟩
      (e₀.Reachable Overlap.rules (fun _ => True) ∧
        ReflTransGen (Ensemble.Step Overlap.rules) e₀ e) ∧
        Superseded Overlap.rules Memory.Owned e₀ e ∧
        ¬ Memory.Owned (Overlap.order false).identity e₀.store ∧
        Memory.Owned (Overlap.order true).identity e.store := by
  obtain ⟨p, p', -, hreach, hsteps⟩ := Overlap.comes_about
  have hr := hreach (fun _ => True) trivial
  have hcancelled : ¬ Memory.Owned (Overlap.order false).identity
      (Overlap.store Overlap.cancelled) := by
    intro howned
    cases howned
  exact ⟨p, p', ⟨hr, hsteps⟩, lost_runs_wind_down.1 _ _ hr hsteps, hcancelled, rfl⟩

end CollectionSync.Interleaving
