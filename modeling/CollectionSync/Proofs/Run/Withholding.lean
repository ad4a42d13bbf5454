import CollectionSync.Proofs.Run.Alone
import CollectionSync.Proofs.Run.Latching
import CollectionSync.Proofs.Run.Plans
import CollectionSync.Proofs.Run.Refusals

/-! # What becomes of the files of a run that is cancelled

A run that has lost its record, or is to stop, hands no content to the pipeline but of files that it
had downloaded before. Their tasks are counted once each: as cancelled, but for a download that
failed, or broke down, before the run had noticed. -/

namespace CollectionSync.Interleaving

open Program Relation

variable {env : Surroundings} {rules : RunRules} {order : RunOrder} {i : RunIdentity}
  {p₀ p : Pool env} {run₀ : RunState} {task : SyncTask} {item : Item} {h₀ h : List RunHeard}

/-! ## Checks that do not let a run go on -/

/-- Since then no check was heard that lets the run go on. -/
def Barred (i : RunIdentity) (h₀ h : List RunHeard) : Prop :=
  ∃ h₁, h = h₀ ++ h₁ ∧ ∀ h₂, h₂ <:+: h₁ → ¬ Yields i.observe h₂ (.ok false)

/-- Such a check would have found the record owned. -/
theorem Disowned.barred (hd : Disowned i h₀ h) : Barred i h₀ h := by
  obtain ⟨h₁, rfl, hnone⟩ := hd
  refine ⟨h₁, rfl, fun h₂ hin hy => ?_⟩
  obtain ⟨h', found, rfl, howns⟩ := observe_cleared hy
  exact hnone _ (hin.subset (List.mem_append_right _ List.mem_cons_self)) ⟨found, rfl, howns⟩

/-- Such a check would have been told of a run that is not to stop. -/
theorem Told.barred (ht : Told run₀ h₀ h) (hstop : run₀.stopping = true) : Barred i h₀ h := by
  obtain ⟨h₁, rfl, htold⟩ := ht
  refine ⟨h₁, rfl, fun h₂ hin hy => ?_⟩
  cases observe_told hy fun s hs => .inr ((htold s (hin.subset hs)).stopping hstop)

/-! ## One task -/

theorem not_downloaded_nil : ¬ Downloaded rules order task [] := by
  rintro ⟨item, h₁, bytes, -, hpre, hy⟩
  rw [List.prefix_nil.mp hpre] at hy
  unfold downloadOf callRemote RetryPolicy.retry at hy
  cases hretries : rules.retry.maxRetries <;> rw [hretries] at hy <;> cases hy

/-- The check after a download that had not come to its end before is among what was heard since. -/
theorem Barred.after_download {h₁ h₂ h₃ : List RunHeard} {bytes : List UInt8}
    (hb : Barred i h₀ (h₁ ++ (h₂ ++ h₃))) (hitem : task.action = .extract item)
    (hnot : ¬ Downloaded rules order task h₀)
    (hd : Yields (downloadOf rules order task.root item) h₁ (.ok bytes)) :
    ¬ Yields i.observe h₂ (.ok false) := by
  obtain ⟨l, heq, hbar⟩ := hb
  have hlater : h₀ <+: h₁ := by
    have hpre : h₁ <+: h₀ ++ l := heq ▸ List.prefix_append _ _
    rcases List.prefix_or_prefix_of_prefix hpre (List.prefix_append h₀ l) with hearlier | hlater
    · exact absurd ⟨item, h₁, bytes, hitem, hearlier, hd⟩ hnot
    · exact hlater
  obtain ⟨x, rfl⟩ := hlater
  rw [List.append_assoc] at heq
  refine hbar h₂ ?_
  rw [← List.append_cancel_left heq]
  exact ⟨x, h₃, List.append_assoc ..⟩

/-- How a task ends that is to extract a file, where the content was not there when the run had the
first state and the task had heard the first part. -/
inductive Fate (rules : RunRules) (order : RunOrder) (task : SyncTask) (item : Item)
    (run₀ : RunState) (h₀ h : List RunHeard) : TaskEnd → Prop
  | cancelled {result : Except RunError Unit} :
    CountsAs (.ofCancelled task.name) h → Fate rules order task item run₀ h₀ h (.settled result)
  /-- The download has failed, and the task was told that the waits of the run are not interrupted.
  If they were in the first state, it was told before. -/
  | failed {h₁ h₂ : List RunHeard} {e : RemoteError} {s : RunState}
      {result : Except RunError Unit} :
    h = h₁ ++ ⟨.state, s⟩ :: h₂ → Yields (downloadOf rules order task.root item) h₁ (.error e) →
    s.interrupted = false → (run₀.interrupted = true → h₁ ++ [⟨.state, s⟩] <+: h₀) →
    CountsAs (task.failureOf (.remote e)) h → Fate rules order task item run₀ h₀ h (.settled result)
  /-- The check could not read the record. -/
  | unread {result : Except RunError Unit} :
    (∃ x ∈ h, IsUnread order.identity x) → Fate rules order task item run₀ h₀ h (.settled result)
  /-- The task broke down and has counted nothing. -/
  | broken {message : String} :
    marks h = [] → Fate rules order task item run₀ h₀ h (.broken message)

/-- What was told before a state that falls behind was told before the first one. -/
theorem Told.of_behind {h₁ h₂ : List RunHeard} {s : RunState}
    (ht : Told run₀ h₀ (h₁ ++ ⟨.state, s⟩ :: h₂)) (hs : ¬ run₀.LeadsTo s) :
    h₁ ++ [⟨.state, s⟩] <+: h₀ := by
  obtain ⟨l, heq, htold⟩ := ht
  rcases List.append_eq_append_iff.mp heq with ⟨m, rfl, hm⟩ | ⟨m, rfl, hm⟩
  · cases m with
    | nil =>
      have hl : l = ⟨.state, s⟩ :: h₂ := hm.symm
      exact absurd (htold s (hl ▸ List.mem_cons_self)) hs
    | cons x m =>
      cases (List.cons.inj hm).1
      exact ⟨m, by simp only [List.append_assoc, List.cons_append, List.nil_append]⟩
  · exact absurd (htold s (hm ▸ List.mem_append_right _ List.mem_cons_self)) hs

theorem fate_of_ends {e : TaskEnd} (hitem : task.action = .extract item)
    (hnot : ¬ Downloaded rules order task h₀) (hends : Ends rules order task h e)
    (hb : Barred order.identity h₀ h) (ht : Told run₀ h₀ h) {run : RunState} (ho : InOrder run h) :
    Fate rules order task item run₀ h₀ h e := by
  cases e with
  | broken message =>
    obtain ⟨limit, call, next, hf⟩ := hends
    exact .broken (taskOf_broken hf).2
  | settled result =>
    cases extraction_of_yields hitem hends with
    | @failed h₁ h₂ e s hd hgoes hcounts =>
      refine .failed rfl hd hgoes (fun hrun => ht.of_behind fun hleads => ?_) hcounts
      rw [hleads.interrupted hrun] at hgoes
      cases hgoes
    | @checked h₁ h₂ h₃ observed hcheck hy hcounts =>
      cases observed with
      | error e =>
        obtain ⟨x, hx, hunread⟩ := observe_unread hy
        exact .unread ⟨x, List.mem_append_right _ (List.mem_append_left _ hx), hunread⟩
      | ok cancelled =>
        cases cancelled with
        | true => exact .cancelled (hcounts rfl)
        | false =>
          exfalso
          cases hcheck with
          | content hd => exact hb.after_download hitem hnot hd hy
          | @interrupted h₁ e s hd hinterrupted =>
            -- the check was told no less than the task before it
            have hfirst : (⟨.state, s⟩ : RunHeard) ∈ h₁ ++ [⟨.state, s⟩] :=
              List.mem_append_right _ List.mem_cons_self
            have hreason := (ho.read s (List.mem_append_left _ hfirst)).1 hinterrupted
            have hlater := (List.pairwise_append.mp ho.later).2.2 _ hfirst
            cases observe_told hy fun s' hs' =>
              have hprecedes := hlater _ (List.mem_append_left _ hs') s s' rfl rfl
              hreason.imp hprecedes.cancelled hprecedes.stopping

/-! ## One run -/

/-- The task makes the call, whether it is answered or not. -/
def Fiber.Makes (rules : RunRules) (order : RunOrder) (f : Fiber) (call : Call) : Prop :=
  ∃ h limit next, h <+: f.heard ∧
  Follows (taskOf rules order f.task) h (ask (.within limit call) next)

/-- A task of the run has the content of the file. -/
def Pool.HasDownloaded (rules : RunRules) (order : RunOrder) (p : Pool env)
    (file : FileId) : Prop :=
  ∃ f ∈ p.fibers, f.task.file = file ∧ Downloaded rules order f.task f.heard

/-- The task has come to its end so. -/
def Fiber.Ended (f : Fiber) (e : TaskEnd) : Prop := f.course = .ended e ∨ f.course = .joined e

/-- All that the run does before its terminal write is done. -/
def Pool.HasWorked (rules : RunRules) (order : RunOrder) (p : Pool env) : Prop :=
  ∃ l listing l', p.main = l ++ l' ∧ Yields (order.work rules) l listing

/-- Files that were not downloaded in the first pool are withheld from the pipeline. -/
structure Withheld (rules : RunRules) (order : RunOrder) (p₀ p : Pool env) : Prop where
  extracted : ∀ f ∈ p.fibers, ∀ request, f.Makes rules order (.extract request) →
    p₀.HasDownloaded rules order request.file
  /-- The tasks that were started for them are not counted otherwise than so. -/
  started : ∀ k f item e, p.fibers[k]? = some f → f.task.action = .extract item →
    ¬ Downloaded rules order f.task (p₀.begun k) → f.Ended e →
    Fate rules order f.task item p₀.shared.run (p₀.begun k) f.heard e
  /-- In the end no task is left that was neither started nor counted as cancelled, and no file is
  taken up by two of them. -/
  settled : p.HasWorked rules order → ¬ Faulted p.heard → ∃ plan missed skipped,
    Prepared rules order p.main plan missed ∧ Accounted p plan skipped ∧
      plan.tasks.Pairwise (fun t t' => t.TakesUp → t'.TakesUp → t.file ≠ t'.file) ∧
      ∀ f ∈ p.fibers, ∃ e, f.course = .joined e

theorem Prepared.pairwise {plan : RunPlan} {missed : Nat}
    (hp : Prepared rules order h plan missed) :
    plan.tasks.Pairwise fun t t' => t.TakesUp → t'.TakesUp → t.file ≠ t'.file := by
  cases hp with
  | mk _ _ hplan =>
    obtain ⟨h₁, known, h₂, rfl, -, hmake⟩ := yields_bind.mp hplan
    obtain ⟨-, rfl⟩ := yields_pure.mp hmake
    exact tasks_pairwise _ _ _

theorem Since.task_eq (hs : Since p₀ p) {k : Nat} {f f₀ : Fiber} (hk : p.fibers[k]? = some f)
    (hk₀ : p₀.fibers[k]? = some f₀) : f₀.task = f.task := by
  obtain ⟨late, htasks⟩ := hs.tasks
  have hlength : k < (p₀.fibers.map Fiber.task).length := by
    rw [List.length_map]
    exact (List.getElem?_eq_some_iff.mp hk₀).1
  have hsame := congrArg (fun l : List SyncTask => l[k]?) htasks
  simp only [List.getElem?_append_left hlength, List.getElem?_map, hk, hk₀,
    Option.map_some] at hsame
  exact Option.some.inj hsame

theorem withheld_of_barred (hr : Reachable rules order p) (hs : Since p₀ p)
    (hb : ∀ k f, p.fibers[k]? = some f → Barred order.identity (p₀.begun k) f.heard) :
    Withheld rules order p₀ p := by
  refine ⟨fun f hf request hmakes => ?_, fun k f item e hk hitem hnot hend => ?_,
    fun hworked hok => ?_⟩
  · obtain ⟨k, hk⟩ := List.mem_iff_getElem?.mp hf
    obtain ⟨h, limit, next, ⟨l, hheard⟩, hasked⟩ := hmakes
    obtain ⟨item, h₁, bytes, h₂, hitem, hfile, rfl, hd, hy⟩ := extract_asked hasked
    have hhad : Downloaded rules order f.task (p₀.begun k) := by
      by_contra hnot
      have hbarred := hb k f hk
      rw [← hheard, List.append_assoc] at hbarred
      exact hbarred.after_download hitem hnot hd hy
    cases hk₀ : p₀.fibers[k]? with
    | none =>
      rw [Pool.begun, hk₀] at hhad
      exact absurd hhad not_downloaded_nil
    | some f₀ =>
      rw [Pool.begun, hk₀] at hhad
      have htask := hs.task_eq hk hk₀
      refine ⟨f₀, List.mem_of_getElem? hk₀, ?_, htask ▸ hhad⟩
      rw [htask, hfile, SyncTask.file, hitem]
  · have hf := List.mem_of_getElem? hk
    have hends : Ends rules order f.task f.heard e := by
      have hfaithful := faithful_of_reachable hr f hf
      unfold Fiber.Faithful at hfaithful
      rcases hend with hcourse | hcourse <;> rw [hcourse] at hfaithful <;> exact hfaithful
    exact fate_of_ends hitem hnot hends (hb k f hk) (hs.heard k f hk)
      ((toldInOrder_of_reachable hr).tasks f hf)
  · obtain ⟨l, listing, l', hl, hy⟩ := hworked
    obtain ⟨plan, missed, skipped, hprepared, haccounted⟩ := accounted_of_worked hr hy hl hok
    refine ⟨plan, missed, skipped, hprepared, haccounted, hprepared.pairwise, fun f hf => ?_⟩
    have hjoined := (joined_of_worked hr hy hl).2 f hf
    cases hcourse : f.course with
    | joined e => exact ⟨e, rfl⟩
    | working | ended => rw [hcourse] at hjoined; cases hjoined

/-! ## Runs side by side -/

section

variable {σ : Type} {step : σ → (op : StoreOp) → Except StoreError op.Reply × σ} {Sound : σ → Prop}
  {Owned : RunIdentity → σ → Prop}

/-- The record is not the run's any more, or the host shuts down. -/
def Member.Forfeited (Owned : RunIdentity → σ → Prop) (m : Member step) (s : σ) : Prop :=
  ¬ Owned m.order.identity s ∨ m.pool.shared.run.stopping = true

/-- From the one ensemble to the other, the runs that were to end in the first one withhold what
they had not downloaded. -/
def Withholds (rules : RunRules) (Owned : RunIdentity → σ → Prop) (e₀ e : Ensemble step) : Prop :=
  ∀ (k : Nat) (m : Member step), e₀.members[k]? = some m → m.Forfeited Owned e₀.store →
    ∃ p, e.members[k]? = some { m with pool := p } ∧ Withheld rules m.order m.pool p

theorem withholds (hc : Custody step Sound Owned) {e₀ e : Ensemble step}
    (hr : e₀.Reachable rules Sound) (hs : ReflTransGen (Ensemble.Step rules) e₀ e) :
    Withholds rules Owned e₀ e := by
  intro k m hk hforfeited
  obtain ⟨p, hk', hl⟩ := Ensemble.leads_alone hs hk
  have hreach := Ensemble.reachable_alone (hr.trans hs) hk'
  have hsince := since_of_leads hl
  have hbarred : ∀ j f, p.fibers[j]? = some f →
      Barred m.order.identity (m.pool.begun j) f.heard := by
    intro j f hj
    rcases hforfeited with hlost | hstop
    · obtain ⟨p', hk'', -, ht⟩ := trails_of_lost hc hr hs hk hlost
      rw [hk'] at hk''
      cases hk''
      exact (ht.heard j f hj).barred
    · exact (hsince.heard j f hj).barred hstop
  -- what was shown of the run left alone is said again of the run among the others
  obtain ⟨hextracted, hstarted, hsettled⟩ := withheld_of_barred hreach hsince hbarred
  refine ⟨p, hk', hextracted, hstarted, fun hworked hok => ?_⟩
  obtain ⟨plan, missed, skipped, hprepared, ⟨htasks, hfailures⟩, hrest⟩ := hsettled hworked hok
  exact ⟨plan, missed, skipped, hprepared, ⟨htasks, hfailures⟩, hrest⟩

end

end CollectionSync.Interleaving
