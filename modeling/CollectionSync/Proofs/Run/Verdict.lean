import CollectionSync.Proofs.Run.Checkpoint
import CollectionSync.Proofs.Run.Ensemble
import CollectionSync.Proofs.Run.Observing
import CollectionSync.Proofs.Store.Ending

/-! # The status that a run ends in tells what has become of it

A run decides on its status when its work is done, by what it has noted till then. It asks to fail
exactly if the store has failed it, and to be cancelled if it has observed a cancellation. Else its
failure report has an entry, even if none is kept, exactly if an item or a root has failed. The
store has the last word only where its record was cancelled meanwhile. -/

namespace CollectionSync

namespace RunState

variable {s : RunState}

theorem outcome_eq_failed : s.outcome = .failed ↔ s.fatal.isSome = true := by
  cases hfatal : s.fatal.isSome with
  | true => simp [outcome, hfatal]
  | false => cases hc : s.cancelled <;> cases hf : s.hasFailures <;> simp [outcome, hfatal, hc, hf]

theorem outcome_eq_completed (h : s.outcome = .completed) :
    s.fatal = none ∧ s.cancelled = false ∧ s.hasFailures = false := by
  unfold outcome at h
  split at h
  · cases h
  · next hnone =>
    split at h
    · cases h
    · next hgoing =>
      split at h
      · cases h
      · next hflawless =>
        exact ⟨Option.not_isSome_iff_eq_none.mp hnone, eq_false_of_ne_true hgoing,
          eq_false_of_ne_true hflawless⟩

end RunState

namespace Interleaving

open Program Relation

section

variable {env : Surroundings} {rules : RunRules} {order : RunOrder} {d p : Pool env}
  {h h' h₁ : List RunHeard} {results : List (SourceRoot × Except RunError ChangeSet)}

/-! ## Listing without disturbance -/

/-- The store has worked, and no cancellation has shown. -/
structure Undisturbed (h : List RunHeard) : Prop where
  works : ¬ Faulted h
  unlatched : ¬ Has (fun q _ => IsLatch q) h
  read : ∀ run : RunState, (⟨.state, run⟩ : RunHeard) ∈ h → run.Coherent ∧ run.cancelled = false
  later : h.Pairwise fun e e' => ∀ run run' : RunState,
    (⟨.state, run⟩ : RunHeard) = e → (⟨.state, run'⟩ : RunHeard) = e' → run.Precedes run'

theorem Undisturbed.sublist (hu : Undisturbed h) (hs : h'.Sublist h) : Undisturbed h' := by
  have hhas : ∀ kind : (q : RunAsk) → q.Answer → Prop, Has kind h' → Has kind h := by
    intro kind hk
    obtain ⟨e, he, hk⟩ := hk
    exact ⟨e, hs.subset he, hk⟩
  exact ⟨mt (hhas _) hu.works, mt (hhas _) hu.unlatched,
    fun run hrun => hu.read run (hs.subset hrun), hu.later.sublist hs⟩

/-- A check that nothing disturbs lets the run go on, and has read that no host shuts down. -/
theorem Undisturbed.observe {observed : Except RunError Bool} (hu : Undisturbed h)
    (hy : Yields order.identity.observe h observed) :
    observed = .ok false ∧ ∃ run h', h = ⟨.state, run⟩ :: h' ∧ run.stopping = false := by
  have hworks : ∀ e, observed ≠ .error e := by
    rintro e rfl
    exact hu.works (observe_blames order.identity h e trivial hy)
  -- a check that finds the run cancelled latches it
  have hgoes : ∀ {h₃ : List RunHeard} {r : Except RunError Bool}, h₃.Sublist h →
      ¬ Yields (do
        let _ ← Run.change .cancelled
        pure (.ok true)) h₃ r := by
    intro h₃ r hs hy
    obtain ⟨h₄, s, h₅, rfl, hc, -⟩ := yields_bind.mp hy
    obtain rfl := yields_question.mp hc
    exact (hu.sublist hs).unlatched ⟨_, List.mem_cons_self, trivial⟩
  obtain ⟨h₁, run, h₂, rfl, hs, hy₂⟩ := yields_bind.mp hy
  obtain rfl := yields_question.mp hs
  have hrun : ¬ run.cancelled = true := by
    rw [(hu.read run List.mem_cons_self).2]
    exact Bool.false_ne_true
  rw [if_neg hrun] at hy₂
  split at hy₂
  · exact absurd hy₂ (hgoes (List.sublist_append_right _ _))
  · next hstopping =>
    refine ⟨?_, run, h₂, rfl, eq_false_of_ne_true hstopping⟩
    obtain ⟨h₃, found, h₄, rfl, -, hy₄⟩ := yields_bind.mp hy₂
    cases found with
    | error e => exact absurd (yields_pure.mp hy₄).2 (hworks e)
    | ok record =>
      dsimp only at hy₄
      split at hy₄
      · exact (yields_pure.mp hy₄).2
      · exact absurd hy₄ (hgoes
          ((List.sublist_append_right h₃ h₄).trans (List.sublist_append_right _ _)))

/-- The number of roots that could not be listed. -/
def misses (results : List (SourceRoot × Except RunError ChangeSet)) : Nat :=
  results.countP fun r => r.2 matches .error _

/-- A listing that nothing disturbs comes to all roots, and leaves a mark for each that it cannot
list. -/
theorem Enumerated.whole {roots : List SourceRoot} (he : Enumerated rules order roots h results)
    (hu : Undisturbed h) :
    results.map (·.1) = roots ∧ (marks h).count .uncounted = misses results := by
  have hobserved : ∀ {h observed}, Yields order.identity.observe h observed → marks h = [] :=
    (observe_routine _).marks_eq_nil
  induction he with
  | nil => exact ⟨rfl, rfl⟩
  | stopped ho hgo => exact absurd (hu.observe ho).1 hgo
  | @listed root rest h₁ h₂ h₃ set results ho hl _ ih =>
    obtain ⟨hroots, hcount⟩ := ih (hu.sublist
      ((List.sublist_append_right h₂ h₃).trans (List.sublist_append_right h₁ _)))
    refine ⟨congrArg (root :: ·) hroots, ?_⟩
    rw [marks_append, marks_append, hobserved ho, hl.marks_eq_nil]
    exact hcount
  | @failed root rest h₁ h₂ h₃ e s s' results ho hl _ _ ih =>
    obtain ⟨hroots, hcount⟩ := ih (hu.sublist (((List.sublist_append_right [_, _] h₃).trans
      (List.sublist_append_right h₂ _)).trans (List.sublist_append_right h₁ _)))
    refine ⟨congrArg (root :: ·) hroots, ?_⟩
    rw [marks_append, marks_append, hobserved ho, hl.marks_eq_nil, marks_cons, marks_cons]
    simp only [mark?, Option.toList_none, Option.toList_some, List.nil_append, List.cons_append,
      List.count_cons_self, hcount]
    exact (List.countP_cons_of_pos rfl).symm
  | @interrupted root rest h₁ h₂ h₃ e s observed ho hl hint ho' =>
    -- the check after it reads that the host shuts down, and latches it
    have hu' := hu.sublist ((List.sublist_append_right h₂ _).trans (List.sublist_append_right h₁ _))
    have hlast := hu'.sublist (List.sublist_cons_self _ h₃)
    obtain ⟨-, run, h', rfl, hgoing⟩ := hlast.observe ho'
    obtain ⟨hcoherent, hrun⟩ := hu'.read s List.mem_cons_self
    have hprecedes := List.rel_of_pairwise_cons hu'.later List.mem_cons_self s run rfl rfl
    rcases hcoherent hint with hcancelled | hstopping
    · rw [hrun] at hcancelled
      cases hcancelled
    · rw [hprecedes.stopping hstopping] at hgoing
      cases hgoing

theorem misses_pos : 0 < misses results ↔ ∃ root e, (root, Except.error e) ∈ results := by
  unfold misses
  rw [List.countP_pos_iff]
  constructor
  · rintro ⟨⟨root, result⟩, hmem, hfailed⟩
    cases result with
    | ok set => cases hfailed
    | error e => exact ⟨root, e, hmem⟩
  · rintro ⟨root, e, hmem⟩
    exact ⟨_, hmem, rfl⟩

/-! ## The decision -/

/-- A run has read its state here, before it asked for its terminal write. -/
theorem decided (hr : Reachable rules order p) {m m' : List RunHeard} {s : RunState}
    (hm : p.main = m ++ ⟨.state, s⟩ :: m') :
    ∃ d, Reachable rules order d ∧ ReflTransGen (Step rules order) d p ∧ d.main = m ∧
      d.shared.run = s := by
  induction hr generalizing m' with
  | start stopping w => cases m <;> cases hm
  | @step p p' hr hs ih =>
    have hlater : ∀ {m'' : List RunHeard}, p.main = m ++ ⟨.state, s⟩ :: m'' →
        ∃ d, Reachable rules order d ∧ ReflTransGen (Step rules order) d p' ∧ d.main = m ∧
          d.shared.run = s := by
      intro m'' hm
      obtain ⟨d, hd, hl, hread⟩ := ih hm
      exact ⟨d, hd, hl.tail hs, hread⟩
    cases hs with
    | main hf hserves =>
      rcases append_singleton_cases hm with ⟨rfl, he⟩ | ⟨m'', hm⟩
      · exact ⟨p, hr, .single (.main hf hserves), rfl, (hserves.of_state he.symm).symm⟩
      · exact hlater hm
    | spawn _ | join _ _ | startWatch _ | endWatch _ =>
      rcases append_singleton_cases hm with ⟨-, he⟩ | ⟨m'', hm⟩
      · cases he
      · exact hlater hm
    | task _ _ _ | taskEnds _ _ | taskBreaks _ _ | watch _ _ _ | watchRound _ _ | watchGone | stop
    | world _ => exact hlater hm

/-- A run that decides without having observed a cancellation has never been disturbed, if the store
has worked. -/
theorem undisturbed_of_reachable (hr : Reachable rules order d) (hworks : ¬ Faulted d.main)
    (hgoing : d.shared.run.cancelled = false) : Undisturbed d.main := by
  have horderly := orderly_of_reachable hr
  refine ⟨hworks, fun hlatch => ?_, fun run hrun => ?_, horderly.later⟩
  · rw [cancelled_of_latched hr (has_append.mpr (.inl (has_append.mpr (.inl hlatch))))] at hgoing
    cases hgoing
  · obtain ⟨hcoherent, hprecedes⟩ := horderly.read run hrun
    refine ⟨hcoherent, eq_false_of_ne_true fun hcancelled => ?_⟩
    rw [hprecedes.cancelled hcancelled] at hgoing
    cases hgoing

/-- The roots that a run has missed are those of its listing. -/
theorem Prepared.missed {plan : RunPlan} {missed : Nat} {listed : Except RunError Listing}
    (hp : Prepared rules order (⟨.startWatch, ()⟩ :: (h₁ ++ h')) plan missed)
    (hl : Yields (Listing.ofOrder rules order order.identity) h₁ listed) :
    (marks h₁).count .uncounted = missed := by
  generalize heq : (⟨.startWatch, ()⟩ :: (h₁ ++ h') : List RunHeard) = h at hp
  cases hp with
  | @mk h₁' _ _ listing _ _ _ hl' hu _ =>
    obtain ⟨rfl, -⟩ := hl.unique hl' (List.cons.inj heq).2
    rw [hu.marks_eq, List.count_replicate_self]

/-- Before the run asked for its terminal write in the pool `p`, it has done its work and has read
its state in the pool `d`; the roots that it has listed came out so. -/
structure Decides (rules : RunRules) (order : RunOrder) (p d : Pool env)
    (results : List (SourceRoot × Except RunError ChangeSet)) : Prop where
  reachable : Reachable rules order d
  leads : ReflTransGen (Step rules order) d p
  read : ∃ now : Instant, p.main = d.main ++ [⟨.state, d.shared.run⟩, ⟨.keeper .clock, now⟩]
  worked : ∃ listing, Yields (order.work rules) d.main listing
  listed : ∃ h₁ h₂ listed, d.main = ⟨.startWatch, ()⟩ :: (h₁ ++ h₂) ∧
    Yields (Listing.ofOrder rules order order.identity) h₁ listed ∧
    Enumerated rules order order.request.roots h₁ results

/-- Some item of the plan has failed, or some root could not be listed. -/
def Blemished (rules : RunRules) (order : RunOrder) (p : Pool env) (plan : RunPlan)
    (results : List (SourceRoot × Except RunError ChangeSet)) : Prop :=
  successes rules order p.fibers < plan.tasks.length ∨ ∃ root e, (root, Except.error e) ∈ results

/-- The status that a run has to end in, where its record had the status `before` at the end. What
the watch observes after the run has read its state comes too late for it; of a cancellation that is
stored by then, `before` still tells. -/
inductive Verdict (rules : RunRules) (order : RunOrder) (p d : Pool env)
    (results : List (SourceRoot × Except RunError ChangeSet)) (before : Status) : Status → Prop
  | failed : Faulted p.heard → Verdict rules order p d results before .failed
  | cancelled : ¬ Faulted p.heard → Observed rules order d ∨ before = .cancelled →
    Verdict rules order p d results before .cancelled
  | withErrors {plan : RunPlan} {missed : Nat} : ¬ Faulted p.heard →
    ¬ (Observed rules order d ∨ before = .cancelled) → Prepared rules order p.main plan missed →
    Blemished rules order p plan results →
    Verdict rules order p d results before .completedWithErrors
  | completed {plan : RunPlan} {missed : Nat} : ¬ Faulted p.heard →
    ¬ (Observed rules order d ∨ before = .cancelled) → Prepared rules order p.main plan missed →
    ¬ Blemished rules order p plan results → Verdict rules order p d results before .completed

/-- What was heard leads to one plan only. -/
theorem Prepared.unique {plan plan' : RunPlan} {missed missed' : Nat}
    (hp : Prepared rules order h plan missed) (hp' : Prepared rules order h plan' missed') :
    plan = plan' := by
  cases hp with
  | mk hl _ hplan =>
    generalize heq : (⟨.startWatch, ()⟩ :: _ : List RunHeard) = h at hp'
    cases hp' with
    | mk hl' _ hplan' =>
      obtain ⟨-, heq⟩ := List.cons.inj heq
      obtain ⟨rfl, hlisting⟩ := hl.unique hl' heq
      cases hlisting
      obtain ⟨-, heq⟩ := List.cons.inj (List.append_cancel_left heq)
      exact (hplan.unique hplan' heq).2

/-- There is one verdict on a run only. -/
theorem Verdict.unique {before status status' : Status}
    (hv : Verdict rules order p d results before status)
    (hv' : Verdict rules order p d results before status') : status = status' := by
  cases hv with
  | failed hfault => cases hv' <;> first | rfl | contradiction
  | cancelled hworks hcancelled => cases hv' <;> first | rfl | contradiction
  | withErrors hworks hgoing hp hb =>
    cases hv' with
    | failed | cancelled => contradiction
    | withErrors => rfl
    | completed _ _ hp' hb' =>
      rw [hp.unique hp'] at hb
      contradiction
  | completed hworks hgoing hp hb =>
    cases hv' with
    | failed | cancelled => contradiction
    | withErrors _ _ hp' hb' =>
      rw [hp.unique hp'] at hb
      contradiction
    | completed => rfl

variable {listing : Listing}

/-- A run that neither the store nor a cancellation has disturbed has come to all roots, and its
report accounts for those that it has missed. -/
theorem Decides.settled (hd : Decides rules order p d results) (hr : Reachable rules order p)
    (hy : Yields (order.work rules) d.main listing) (hworks : ¬ Faulted p.heard)
    (hgoing : d.shared.run.cancelled = false) :
    results.map (·.1) = order.request.roots ∧
      ∃ plan, Prepared rules order p.main plan (misses results) ∧
        Settled rules order p plan (misses results) (d.shared.run.report listing.tokens) := by
  obtain ⟨now, hm⟩ := hd.read
  obtain ⟨h₁, h₂, listed, hwork, hl, he⟩ := hd.listed
  have hmain : ¬ Faulted d.main := fun hfault => hworks (by
    rw [Pool.heard, hm]
    exact has_append.mpr (.inl (has_append.mpr (.inl hfault))))
  have hcalm := undisturbed_of_reachable hd.reachable hmain hgoing
  rw [hwork] at hcalm
  obtain ⟨hroots, hmissed⟩ := he.whole (hcalm.sublist
    ((List.sublist_append_left h₁ h₂).trans (List.sublist_cons_self _ _)))
  obtain ⟨plan, hprepared, hsettled⟩ := (settled_of_worked hr hy hm).2 hworks
  have hcount : (marks d.main).count .uncounted = misses results := by
    rw [← hmissed]
    rw [hm, hwork, List.cons_append, List.append_assoc] at hprepared
    rw [hprepared.missed hl, hwork]
  rw [hcount] at hprepared hsettled
  exact ⟨hroots, plan, hprepared, hsettled⟩

/-- The failure report has an entry exactly if an item or a root has failed, whether it lists it or
not. -/
theorem Decides.hasFailures_iff (hd : Decides rules order p d results)
    (hr : Reachable rules order p) (hy : Yields (order.work rules) d.main listing) {plan : RunPlan}
    (hsettled : Settled rules order p plan (misses results) (d.shared.run.report listing.tokens)) :
    d.shared.run.hasFailures = true ↔ Blemished rules order p plan results := by
  obtain ⟨now, hm⟩ := hd.read
  have hlog := (kept_after_work hr hy hm).2
  have hsize := hsettled.logged
  have hall := hsettled.settled
  rw [hsettled.total, hsettled.processed] at hall
  rw [← hlog] at hsize
  unfold RunState.hasFailures FailureLog.isEmpty Blemished
  rw [← misses_pos, Bool.not_eq_true', beq_eq_false_iff_ne, hsize]
  omega

/-- The state in which the run decides has noted an error exactly if the store has failed the
run. -/
theorem Decides.fatal_iff (hd : Decides rules order p d results) (hr : Reachable rules order p) :
    d.shared.run.fatal = firstFatal p.main ∧ ((firstFatal p.main).isSome = true ↔
      Faulted p.heard) := by
  obtain ⟨now, hm⟩ := hd.read
  obtain ⟨listing, hy⟩ := hd.worked
  have hlast : ¬ Faulted [⟨.state, d.shared.run⟩, ⟨.keeper .clock, now⟩] := by
    simp [Faulted, Has, IsStoreError]
  have hfirst : firstFatal p.main = firstFatal d.main := by
    rw [hm, firstFatal_append]
    exact Option.or_none
  rw [hfirst, fatal_of_reachable hd.reachable, firstFatal_isSome]
  exact ⟨rfl, noted_iff_faulted hr hy hm hlast⟩

/-- What becomes of the status that the run asks for is the verdict on it. -/
theorem Decides.verdict (hd : Decides rules order p d results) (hr : Reachable rules order p)
    {before : Status} (hopen : before = .syncing ∨ before = .cancelled) :
    Verdict rules order p d results before (before.resolve d.shared.run.outcome) := by
  obtain ⟨hfatal, hfaulted⟩ := hd.fatal_iff hr
  obtain ⟨listing, hy⟩ := hd.worked
  rw [← hfatal] at hfaulted
  have hobserved := cancelled_iff_observed hd.reachable
  unfold RunState.outcome
  by_cases hfault : Faulted p.heard
  · rw [if_pos (hfaulted.mpr hfault), Status.resolve_eq_failed.mpr rfl]
    exact .failed hfault
  rw [if_neg (mt hfaulted.mp hfault)]
  by_cases hcancelled : d.shared.run.cancelled = true
  · have hresolve : before.resolve .cancelled = .cancelled := by cases before <;> rfl
    rw [if_pos hcancelled, hresolve]
    exact .cancelled hfault (.inl (hobserved.mp hcancelled))
  rw [if_neg hcancelled]
  rcases hopen with rfl | rfl
  · -- the run asks for what it ends in
    have hfree : ¬ (Observed rules order d ∨ Status.syncing = .cancelled) := by
      simp [← hobserved, hcancelled]
    obtain ⟨-, plan, hprepared, hsettled⟩ :=
      hd.settled hr hy hfault (eq_false_of_ne_true hcancelled)
    have hflaws := hd.hasFailures_iff hr hy hsettled
    by_cases hblemished : Blemished rules order p plan results
    · rw [if_pos (hflaws.mpr hblemished)]
      exact .withErrors hfault hfree hprepared hblemished
    · rw [if_neg (mt hflaws.mp hblemished)]
      exact .completed hfault hfree hprepared hblemished
  · have hresolve : Status.cancelled.resolve
        (if d.shared.run.hasFailures = true then .completedWithErrors else .completed) =
          .cancelled := by
      split <;> rfl
    rw [hresolve]
    exact .cancelled hfault (.inr rfl)

/-- A run that ends as completed has left nothing out. -/
structure Complete (order : RunOrder) (results : List (SourceRoot × Except RunError ChangeSet))
    (written : Record) : Prop where
  roots : results.map (·.1) = order.request.roots
  listed : ∀ root result, (root, result) ∈ results → ∃ set, result = .ok set
  processed : written.progress.processed = written.progress.total
  failed : written.progress.failed = 0
  failures : written.failures = []

/-- What the record of a run tells once its end is written, where it had the status `before`. -/
structure Truthful (rules : RunRules) (order : RunOrder) (p d : Pool env)
    (results : List (SourceRoot × Except RunError ChangeSet)) (before : Status) (written : Record) :
    Prop where
  verdict : Verdict rules order p d results before written.status
  /-- The error text is that of the first error that was noted for the whole run, -/
  error : written.error = firstFatal p.main
  /-- and it is there exactly if the store has failed the run. -/
  fails : written.error.isSome = true ↔ Faulted p.heard
  complete : written.status = .completed → Complete order results written

theorem Decides.truthful (hd : Decides rules order p d results) (hr : Reachable rules order p)
    (hy : Yields (order.work rules) d.main listing) {before : Status} {written : Record}
    (hc : Closes before (d.shared.run.report listing.tokens) written) :
    Truthful rules order p d results before written := by
  obtain ⟨hopen, hstatus, herror, hfailures, cut, hzero, hprocessed, hfailed, htotal⟩ := hc
  obtain ⟨hfatal, hfaulted⟩ := hd.fatal_iff hr
  have hverdict := hd.verdict hr hopen
  have htext : written.error = firstFatal p.main := by
    have hasked : (d.shared.run.report listing.tokens).status = .failed ↔
        d.shared.run.fatal.isSome = true := RunState.outcome_eq_failed
    rw [herror, ← hfatal]
    cases htold : d.shared.run.fatal with
    | none =>
      rw [htold] at hasked
      rw [if_neg (mt hasked.mp Bool.false_ne_true)]
    | some reason =>
      rw [if_pos (hasked.mpr (by rw [htold]; rfl))]
      exact htold
  refine ⟨?_, htext, ?_, fun hcompleted => ?_⟩
  · rw [hstatus]
    exact hverdict
  · rw [htext]
    exact hfaulted
  · have hasked : d.shared.run.outcome = .completed :=
      Status.eq_completed_of_resolve (hstatus.symm.trans hcompleted)
    obtain ⟨hnone, hgoing, hflawless⟩ := RunState.outcome_eq_completed hasked
    have hworks : ¬ Faulted p.heard := by
      rw [← hfaulted, ← hfatal, hnone]
      exact Bool.false_ne_true
    obtain ⟨hroots, plan, hprepared, hsettled⟩ := hd.settled hr hy hworks hgoing
    have hunblemished : ¬ Blemished rules order p plan results := by
      rw [← hd.hasFailures_iff hr hy hsettled, hflawless]
      exact Bool.false_ne_true
    obtain ⟨hall, hlisted⟩ := not_or.mp hunblemished
    have hcount := hsettled.settled
    rw [hsettled.total] at hcount
    have hsuccesses := hsettled.processed
    have hnofailure : (d.shared.run.report listing.tokens).progress.failed = 0 := by omega
    refine ⟨hroots, fun root result hmem => ?_, ?_, ?_, ?_⟩
    · cases result with
      | ok set => exact ⟨set, rfl⟩
      | error e => exact absurd ⟨root, e, hmem⟩ hlisted
    · rw [hprocessed, htotal, ← hsettled.settled, hnofailure, Nat.add_zero]
    · rw [hfailed, hnofailure, hzero]
    · rw [hfailures]
      exact FailureLog.report_of_isEmpty (by simpa [RunState.hasFailures] using hflawless)

/-- Whatever a run is surrounded by: once its end is accepted, its status is the verdict on what the
store has done to it, on whether it has observed a cancellation, and on what has become of its items
and roots. Where it has failed, the record tells the first error; where it has completed, nothing
was left out. -/
theorem ended_truthfully {report : RunReport} (hr : Reachable rules order p)
    (hf : Reports rules order p report) :
    ∃ d results, Decides rules order p d results ∧
      (∀ m : Memory, EndsWith Memory.run order.request.collection order.admission.run report
        (Truthful rules order p d results) m) ∧
      (∀ db : Database, db.Keyed →
        EndsWith Database.run order.request.collection order.admission.run
        report (Truthful rules order p d results) db) := by
  obtain ⟨_, _, now, _, hf⟩ := hf
  obtain ⟨m, listing, s, hm, hy, -, -, rfl⟩ := of_finish_asked hf
  obtain ⟨d, hd, hleads, rfl, rfl⟩ := decided hr hm
  obtain ⟨h₁, h₂, listed, results, hwork, hl, hlisted⟩ := work_listedAs hy
  have hdecides : Decides rules order p d results :=
    ⟨hd, hleads, ⟨now, hm⟩, ⟨listing, hy⟩, h₁, h₂, listed, hwork, hl, hlisted.enumerated⟩
  exact ⟨d, results, hdecides,
    fun m => m.endsWith_closes.mono fun _ _ => hdecides.truthful hr hy,
    fun _ hkeyed => (Database.endsWith_closes hkeyed).mono fun _ _ => hdecides.truthful hr hy⟩

/-- A root that cannot be listed, in a run whose failure report may list nothing. -/
theorem ended_truthfully_unlisted :
    let rules : RunRules := ⟨1, ⟨1⟩, 0, ⟨0, ⟨1⟩⟩, ⟨1⟩⟩
    let claimed : Record :=
      { Record.idle ⟨"docs"⟩ ⟨0, 0⟩ with status := .syncing, run := some ⟨1⟩ }
    let order : RunOrder := ⟨⟨⟨"docs"⟩, [⟨⟨"root"⟩, none, none⟩]⟩, ⟨⟨1⟩, claimed⟩, ""⟩
    let m := Memory.empty.put claimed
    ∃ (p : Pool .anything) (report : RunReport),
      (Reachable rules order p ∧ Reports rules order p report) ∧
      ∃ d results before written,
        (m.run (.finish ⟨"docs"⟩ ⟨1⟩ report ⟨2, 0⟩)).1 = .ok written ∧
        (m.run (.status ⟨"docs"⟩)).1 = .ok (some before) ∧
        Truthful rules order p d results before written ∧
        written.status = .completedWithErrors ∧ written.failures = [] := by
  intro rules claimed order m
  have h : ComesTo rules order (.start .anything rules false ()) (order.run rules) :=
    ⟨.start false _, .refl _, not_has_nil⟩
  have h := h.goOn (.startWatch h.main) rfl id
  have h := (h.hear .state id).answer (Except.ok (some claimed)) trivial id
  have h := h.answer (some (Except.error (RemoteError.unauthorized ""))) trivial id
  have h := (h.hear .state id).hear .change id
  -- nothing is planned, and the run comes to its end
  have h := (h.hear .state id).answer [] trivial id
  have h := ((h.hear .change id).answer (⟨1, 0⟩ : Instant) trivial id).answer
    (Except.ok ProgressOutcome.discarded) trivial id
  have h := ((h.goOn (.endWatch h.main) rfl id).hear .state id).answer (⟨2, 0⟩ : Instant) trivial id
  have hreport := h.reports rfl
  obtain ⟨d, results, -, hmemory, -⟩ := ended_truthfully h.reachable hreport
  obtain ⟨before, hbefore, -, htruthful⟩ := hmemory m ⟨2, 0⟩ _ rfl
  exact ⟨_, _, ⟨h.reachable, hreport⟩, d, results, before, _, rfl, hbefore, htruthful, rfl, rfl⟩

end

namespace TooLate

def rules : RunRules := ⟨1, ⟨1⟩, 10, ⟨0, ⟨1⟩⟩, ⟨1⟩⟩

def docs : CollectionId := ⟨"docs"⟩

def claimed : Record := { Record.idle docs ⟨0, 0⟩ with status := .syncing, run := some ⟨1⟩ }

def order : RunOrder := ⟨⟨docs, [⟨⟨"drive"⟩, none, none⟩]⟩, ⟨⟨1⟩, claimed⟩, ""⟩

def store : Memory := Memory.empty.put claimed

theorem store_reads : Memory.run store (.get docs) = (.ok (some claimed), store) := rfl

theorem store_counts : Memory.run store (.updateProgress docs ⟨1⟩ ⟨0, 0, 0, ""⟩ ⟨0, 0⟩) =
    (.ok .applied, store) := rfl

end TooLate

/-- The host begins to shut down once the main program has read the state for its terminal write,
and the watch observes this at once. The run, which still owns its record, is accepted as completed
all the same. -/
theorem observed_too_late :
    ∃ (p : Pool (.over Memory.run)) (report : RunReport) (written : Record),
      Reachable TooLate.rules TooLate.order p ∧ Reports TooLate.rules TooLate.order p report ∧
      ¬ Faulted p.heard ∧ Observed TooLate.rules TooLate.order p ∧
      (p.shared.world.run (.status TooLate.docs)).1 = .ok (some .syncing) ∧
      (p.shared.world.run (.finish TooLate.docs ⟨1⟩ report ⟨1, 0⟩)).1 = .ok written ∧
      written.status = .completed := by
  have h : Arrives TooLate.rules TooLate.order
      (.start (.over Memory.run) TooLate.rules false TooLate.store) _
      (TooLate.order.run TooLate.rules) := ⟨.refl, .refl _⟩
  -- the root has no changes, and nothing is planned
  have h := ((h.goOn (.startWatch h.main)).hear .state).reply TooLate.store_reads
  have h := h.hear (a := some (.ok ⟨[], [], none⟩)) (.outward trivial rfl)
  have h := (h.hear .state).hear (a := []) (.outward trivial rfl)
  have h := (h.hear .change).hear (a := (⟨0, 0⟩ : Instant)) (.outward trivial rfl)
  have h := (h.reply TooLate.store_counts).hear (a := false) (.outward trivial rfl)
  have h := (h.goOn (.endWatch h.main)).hear .state
  -- the watch is served between this reading and the terminal write
  have h := h.aside .stop rfl
  have h := h.aside (.watch (a := false) rfl (.refl _) (.pause nofun)) rfl
  have h := h.aside (.watch rfl (.hear _ (.refl _)) .state) rfl
  have h := h.aside (.watch rfl (.hear _ (.hear _ (.refl _))) .change) rfl
  have h := h.hear (a := (⟨1, 0⟩ : Instant)) (.outward trivial rfl)
  have hstart : Reachable TooLate.rules TooLate.order
      (.start (.over Memory.run) TooLate.rules false TooLate.store) := .start false _
  have hr := hstart.leads h.steps
  refine ⟨_, _, _, hr, ⟨_, _, _, _, h.main⟩, ?_, ⟨_, hr, .refl, ?_⟩, rfl, rfl, rfl⟩
  · simp [Faulted, Has, Pool.heard, Pool.hear, IsStoreError]
  · exact .inr (.inr ⟨_, rfl, [⟨.pause ⟨1⟩, false⟩], [], _, _, rfl, .stopping rfl⟩)

end Interleaving

end CollectionSync
