import CollectionSync.Proofs.Dict
import CollectionSync.Proofs.Run.Overlap
import Mathlib.Data.List.Nodup

/-! # The account of the runs in work

Claiming the record, entering the run into the account, starting its worker and taking the run off
again are steps of their own, and the calls for runs and the workers take them in any order. A run
that was cancelled may so be entered, or taken off, after the run that has taken its place. What
keeps the account is that each entry is of a run whose worker has yet to take that very run off. -/

namespace CollectionSync.Interleaving

open Program Relation

/-! ## Calls and workers -/

/-- A call for a run, with what the program that starts it has heard. -/
structure Caller where
  request : RunRequest
  credentials : String
  heard : List (Heard HostAsk.Answer)

namespace Caller

abbrev program (c : Caller) : Hosting (Except RunError RunId) :=
  Host.startRun c.request c.credentials

def hear (c : Caller) (q : HostAsk) (a : q.Answer) : Caller :=
  { c with heard := c.heard ++ [⟨q, a⟩] }

end Caller

/-- The identifier that an answer gives to a new run. -/
def given? : Heard HostAsk.Answer → Option RunId
  | ⟨.freshRun, run⟩ => some run
  | _ => none

section

variable {σ : Type} (step : σ → (op : StoreOp) → Except StoreError op.Reply × σ)

/-- How far the worker of a run has come. -/
inductive Stage where
  /-- The run is entered, and the worker about to be started. -/
  | entered
  /-- The programs of the run are at work, or done and the run still to be taken off. -/
  | working (pool : Pool (.over step))
  /-- The run is taken off, and the worker has ended. -/
  | gone

structure Worker where
  order : RunOrder
  stage : Stage step

/-- A host with the calls for runs and the workers, in the order in which they came. -/
structure Workshop where
  store : σ
  host : Host
  callers : List Caller
  workers : List (Worker step)

end

namespace Workshop

variable {σ : Type} {step : σ → (op : StoreOp) → Except StoreError op.Reply × σ}

/-- The identifiers that were given to runs so far. -/
def issued (w : Workshop step) : List RunId := w.callers.flatMap fun c => c.heard.filterMap given?

/-- How a question of a caller is answered that starts no worker. -/
inductive Answers (w : Workshop step) : (q : HostAsk) → q.Answer → σ → Prop
  | keeper {k : KeeperAsk} {a : k.Answer} {s : σ} :
    (Surroundings.over step).answers (.keeper k) a w.store s → Answers w (.keeper k) a s
  | stopping : Answers w .stopping w.host.stopping w.store
  | freshRun {run : RunId} : run ∉ w.issued → Answers w .freshRun run w.store

/-- The worker of a run takes the run off and ends; its main program is done then. -/
inductive Leaves (rules : RunRules) (order : RunOrder) : Workshop step → Workshop step → Prop
  | mk {w : Workshop step} {before after : List (Worker step)} {pool : Pool (.over step)}
      {result : Except RunError Record} :
    w.workers = before ++ ⟨order, .working pool⟩ :: after →
    Yields (order.run rules) pool.main result →
    Leaves rules order w { w with
      host := w.host.ended order.request.collection order.admission.run
      workers := before ++ ⟨order, .gone⟩ :: after }

/-- What may happen next. A call that is given up, or a worker that breaks down, is not served
again. -/
inductive Step (rules : RunRules) : Workshop step → Workshop step → Prop
  | call {w : Workshop step} (request : RunRequest) (credentials : String) :
    Step rules w { w with callers := w.callers ++ [⟨request, credentials, []⟩] }
  | serve {w : Workshop step} {before after : List Caller} {caller : Caller} {q : HostAsk}
      {next : q.Answer → Hosting (Except RunError RunId)} {a : q.Answer} {s : σ} :
    w.callers = before ++ caller :: after → Follows caller.program caller.heard (ask q next) →
    Answers w q a s →
    Step rules w { w with store := s, callers := before ++ caller.hear q a :: after }
  | enter {w : Workshop step} {before after : List Caller} {caller : Caller} {order : RunOrder}
      {next : Unit → Hosting (Except RunError RunId)} :
    w.callers = before ++ caller :: after →
    Follows caller.program caller.heard (ask (.launch order) next) →
    Step rules w { w with
      host := w.host.launched order.request.collection order.admission.run
      callers := before ++ caller.hear (.launch order) () :: after
      workers := w.workers ++ [⟨order, .entered⟩] }
  | spawn {w : Workshop step} {before after : List (Worker step)} {order : RunOrder} :
    w.workers = before ++ ⟨order, .entered⟩ :: after →
    Step rules w { w with
      workers := before ++ ⟨order, .working (.start _ rules w.host.stopping w.store)⟩ :: after }
  | work {w : Workshop step} {before after : List (Worker step)} {order : RunOrder}
      {pool pool' : Pool (.over step)} :
    w.workers = before ++ ⟨order, .working pool⟩ :: after →
    Interleaving.Step rules order (pool.within w.store) pool' →
    Step rules w { w with
      store := pool'.shared.world, workers := before ++ ⟨order, .working pool'⟩ :: after }
  | leave {w w' : Workshop step} {order : RunOrder} : Leaves rules order w w' → Step rules w w'
  /-- Someone else asks something of the store. -/
  | outside {w : Workshop step} (op : StoreOp) :
    Step rules w { w with store := (step w.store op).2 }
  | stop {w : Workshop step} : Step rules w { w with host := { w.host with stopping := true } }

/-- What a host may come to that starts with any store. -/
inductive Reachable (rules : RunRules) : Workshop step → Prop
  | start (s : σ) : Reachable rules ⟨s, .idle, [], []⟩
  | step {w w' : Workshop step} : Reachable rules w → Step rules w w' → Reachable rules w'

/-- The store has given the collection to the run. -/
def Admitted (w : Workshop step) (c : CollectionId) (run : RunId) : Prop :=
  ∃ caller ∈ w.callers, ∃ now record,
    ⟨.keeper (.store (.claim c run now)), .ok (.claimed record)⟩ ∈ caller.heard

/-- The run was admitted, and its one worker has not ended. -/
structure Backed (w : Workshop step) (c : CollectionId) (run : RunId) : Prop where
  admitted : w.Admitted c run
  worker : ∃ before k after, w.workers = before ++ k :: after ∧ k.order.identity = ⟨c, run⟩ ∧
    k.stage ≠ .gone ∧ ∀ k' ∈ before ++ after, k'.order.admission.run ≠ run

end Workshop

/-! ## The account -/

/-- A worker that ends takes off the entry of its own run, and no other. -/
theorem entries_ended (h : Host) (c : CollectionId) (run : RunId) :
    (h.ended c run).active.entries = h.active.entries.filter (· ≠ (c, run)) := by
  unfold Host.ended
  split
  · next hown =>
    refine List.filter_congr fun e he => ?_
    have hiff : Key.text e.1 ≠ Key.text c ↔ e ≠ (c, run) := by
      refine not_congr ⟨fun heq => ?_, fun heq => heq ▸ rfl⟩
      obtain ⟨d, run'⟩ := e
      obtain rfl := Dict.text_inj.mp heq
      rw [Dict.get?_eq_some_iff.mpr he, Option.some.injEq] at hown
      rw [hown]
    rw [Bool.eq_iff_iff, bne_iff_ne, decide_eq_true_iff]
    exact hiff
  · next hother =>
    refine (List.filter_eq_self.mpr fun e he => decide_eq_true ?_).symm
    rintro rfl
    exact hother (Dict.get?_eq_some_iff.mpr he)

/-! ## Calls that have launched a run -/

namespace Caller

variable {c : Caller} {order : RunOrder} {q : HostAsk}

/-- The call has come to its end, and a worker was started for it on this order. -/
structure HasLaunched (c : Caller) (order : RunOrder) : Prop where
  request : order.request = c.request
  heard : ∃ now, c.heard =
    accepted c.request.collection order.admission.run now order.admission.record ++
      [⟨.launch order, ()⟩]
  done : Yields c.program c.heard (.ok order.admission.run)

theorem hasLaunched_hear {next : Unit → Hosting (Except RunError RunId)}
    (hf : Follows c.program c.heard (ask (.launch order) next)) :
    (c.hear (.launch order) ()).HasLaunched order := by
  obtain ⟨run, now, record, hheard, rfl, hnext⟩ := launch_of_follows hf
  refine ⟨rfl, ⟨now, congrArg (· ++ _) hheard⟩, ?_⟩
  exact follows_concat.mpr ⟨next, hf, hnext.symm⟩

/-- A call that has launched a run asks nothing more. -/
theorem HasLaunched.not_asks (hc : c.HasLaunched order)
    {next : q.Answer → Hosting (Except RunError RunId)} :
    ¬ Follows c.program c.heard (ask q next) :=
  fun hf => nomatch hf.det hc.done

theorem HasLaunched.issued (hc : c.HasLaunched order) :
    c.heard.filterMap given? = [order.admission.run] := by
  obtain ⟨now, hheard⟩ := hc.heard
  rw [hheard]
  rfl

end Caller

namespace Workshop

section

variable {σ : Type} {step : σ → (op : StoreOp) → Except StoreError op.Reply × σ} {rules : RunRules}
  {w w' : Workshop step}

/-! ## What every step keeps -/

/-- What holds of the calls, the workers and the account between any two steps. -/
structure Inv (w : Workshop step) : Prop where
  issued : w.issued.Nodup
  runs : (w.workers.map fun k => k.order.admission.run).Nodup
  launched : ∀ k ∈ w.workers, ∃ c ∈ w.callers, c.HasLaunched k.order
  active : ∀ e ∈ w.host.active.entries, ∃ k ∈ w.workers, k.order.identity = ⟨e.1, e.2⟩ ∧
  k.stage ≠ .gone

section

variable {before after : List Caller} {caller : Caller} {q : HostAsk} {a : q.Answer}
  {next : q.Answer → Hosting (Except RunError RunId)}

/-- A call hears an answer; no identifier is given twice. -/
theorem issued_hear (hw : w.issued.Nodup) (hc : w.callers = before ++ caller :: after)
    (hfresh : ∀ run ∈ given? ⟨q, a⟩, run ∉ w.issued) :
    ((before ++ caller.hear q a :: after).flatMap fun c => c.heard.filterMap given?).Nodup := by
  have hissued : w.issued = (before ++ caller :: after).flatMap fun c => c.heard.filterMap given? :=
    congrArg (List.flatMap _) hc
  rw [hissued] at hw hfresh
  simp only [Caller.hear, List.flatMap_append, List.flatMap_cons,
    List.filterMap_append] at hw hfresh ⊢
  cases hgiven : given? ⟨q, a⟩ with
  | none => simpa [hgiven] using hw
  | some run =>
    have hnew := hfresh run hgiven
    rw [← List.append_assoc] at hw hnew
    have hmiddle := List.nodup_middle.mpr (List.nodup_cons.mpr ⟨hnew, hw⟩)
    simpa [hgiven] using hmiddle

/-- The calls that have launched a run are not the one that hears an answer. -/
theorem launched_of_asks (hc : w.callers = before ++ caller :: after)
    (hf : Follows caller.program caller.heard (ask q next)) {order : RunOrder}
    (hl : ∃ c ∈ w.callers, c.HasLaunched order) : ∃ c ∈ before ++ after, c.HasLaunched order := by
  obtain ⟨c, hmem, hl⟩ := hl
  rw [hc] at hmem
  rcases List.mem_append.mp hmem with hmem | hmem
  · exact ⟨c, List.mem_append_left _ hmem, hl⟩
  · rcases List.mem_cons.mp hmem with rfl | hmem
    · exact absurd hf hl.not_asks
    · exact ⟨c, List.mem_append_right _ hmem, hl⟩

theorem launched_hear (hc : w.callers = before ++ caller :: after)
    (hf : Follows caller.program caller.heard (ask q next)) {order : RunOrder}
    (hl : ∃ c ∈ w.callers, c.HasLaunched order) :
    ∃ c ∈ before ++ caller.hear q a :: after, c.HasLaunched order := by
  obtain ⟨c, hmem, hl⟩ := launched_of_asks hc hf hl
  exact ⟨c, ((List.sublist_cons_self _ after).append_left before).subset hmem, hl⟩

end

/-- An identifier that was given to a call is not that of a worker that another call has
launched. -/
theorem run_not_mem_workers (hi : w.Inv) {before after : List Caller} {caller : Caller}
    {order : RunOrder}
    {next : Unit → Hosting (Except RunError RunId)} (hc : w.callers = before ++ caller :: after)
    (hf : Follows caller.program caller.heard (ask (.launch order) next)) :
    order.admission.run ∉ w.workers.map fun k => k.order.admission.run := by
  intro hmem
  obtain ⟨k, hk, hrun⟩ := List.mem_map.mp hmem
  obtain ⟨c, hcaller, hl⟩ := launched_of_asks hc hf (hi.launched k hk)
  obtain ⟨run, now, record, hheard, rfl, -⟩ := launch_of_follows hf
  have hgiven : caller.heard.filterMap given? = [run] := by
    rw [hheard]
    rfl
  have hissued := hi.issued
  rw [issued, hc, List.flatMap_append, List.flatMap_cons, hgiven, List.singleton_append,
    List.nodup_middle, ← List.flatMap_append, List.nodup_cons] at hissued
  refine hissued.1 (List.mem_flatMap.mpr ⟨c, hcaller, ?_⟩)
  rw [hl.issued, hrun]
  exact List.mem_singleton_self _

/-- A worker of the same order stands where one stood; if it is gone, the account has no entry of
its run. -/
theorem Inv.restage (hi : w.Inv) {before after : List (Worker step)} {order : RunOrder}
    {stage stage' : Stage step} {host : Host} (s : σ)
    (hk : w.workers = before ++ ⟨order, stage⟩ :: after)
    (hactive : ∀ e ∈ host.active.entries,
      e ∈ w.host.active.entries ∧ (order.identity = ⟨e.1, e.2⟩ → stage' ≠ .gone)) :
    Inv ⟨s, host, w.callers, before ++ ⟨order, stage'⟩ :: after⟩ := by
  refine ⟨hi.issued, ?_, fun k hmem => ?_, fun e he => ?_⟩
  · have hruns := hi.runs
    rw [hk] at hruns
    simpa using hruns
  · have hlaunched := hi.launched
    rw [hk, List.forall_mem_append, List.forall_mem_cons] at hlaunched
    revert k
    rw [List.forall_mem_append, List.forall_mem_cons]
    exact hlaunched
  · obtain ⟨hold, hstage⟩ := hactive e he
    obtain ⟨k, hmem, hidentity, hwork⟩ := hi.active e hold
    rw [hk] at hmem
    rcases List.mem_append.mp hmem with hmem | hmem
    · exact ⟨k, List.mem_append_left _ hmem, hidentity, hwork⟩
    · rcases List.mem_cons.mp hmem with rfl | hmem
      · exact ⟨⟨order, stage'⟩, List.mem_append_right _ List.mem_cons_self, hidentity,
          hstage hidentity⟩
      · exact ⟨k, List.mem_append_right _ (List.mem_cons_of_mem _ hmem), hidentity, hwork⟩

theorem Leaves.inv {order : RunOrder} (hi : w.Inv) (hs : Leaves rules order w w') : w'.Inv := by
  cases hs with
  | mk hk hy =>
    refine hi.restage w.store hk fun e he => ?_
    rw [entries_ended, List.mem_filter, decide_eq_true_iff] at he
    refine ⟨he.1, fun hidentity => absurd ?_ he.2⟩
    exact Prod.ext (congrArg RunIdentity.collection hidentity).symm
      (congrArg RunIdentity.run hidentity).symm

theorem Step.inv (hi : w.Inv) (hs : Step rules w w') : w'.Inv := by
  cases hs with
  | call request credentials =>
    refine ⟨?_, hi.runs, fun k hk => ?_, hi.active⟩
    · have hissued := hi.issued
      unfold issued at hissued ⊢
      simpa using hissued
    · obtain ⟨c, hc, hl⟩ := hi.launched k hk
      exact ⟨c, List.mem_append_left _ hc, hl⟩
  | @serve before after caller q next a s hc hf ha =>
    refine ⟨issued_hear hi.issued hc ?_, hi.runs,
      fun k hk => launched_hear hc hf (hi.launched k hk), hi.active⟩
    intro run hrun
    cases ha with
    | keeper | stopping => cases hrun
    | freshRun hfresh =>
      cases hrun
      exact hfresh
  | @enter before after caller order next hc hf =>
    refine ⟨issued_hear hi.issued hc nofun, ?_, fun k hk => ?_, fun e he => ?_⟩
    · rw [List.map_append, List.map_singleton, ← List.concat_eq_append]
      exact hi.runs.concat (run_not_mem_workers hi hc hf)
    · rcases List.mem_append.mp hk with hk | hk
      · exact launched_hear hc hf (hi.launched k hk)
      · cases List.mem_singleton.mp hk
        exact ⟨_, List.mem_append_right _ List.mem_cons_self, Caller.hasLaunched_hear hf⟩
    · rcases Dict.mem_place he with rfl | he
      · exact ⟨_, List.mem_append_right _ (List.mem_singleton_self _), rfl, nofun⟩
      · obtain ⟨k, hk, hidentity, hwork⟩ := hi.active e he
        exact ⟨k, List.mem_append_left _ hk, hidentity, hwork⟩
  | spawn hk => exact hi.restage w.store hk fun e he => ⟨he, nofun⟩
  | work hk hs => exact hi.restage _ hk fun e he => ⟨he, nofun⟩
  | leave hs => exact hs.inv hi
  | outside op => exact ⟨hi.issued, hi.runs, hi.launched, hi.active⟩
  | stop => exact ⟨hi.issued, hi.runs, hi.launched, hi.active⟩

theorem Reachable.inv (hr : w.Reachable rules) : w.Inv := by
  induction hr with
  | start s => exact ⟨.nil, .nil, List.forall_mem_nil _, List.forall_mem_nil _⟩
  | step _ hs ih => exact hs.inv ih

/-! ## The account between steps -/

/-- A run has one worker. -/
theorem Inv.alone (hi : w.Inv) {before after : List (Worker step)} {k : Worker step}
    (hk : w.workers = before ++ k :: after) :
    ∀ k' ∈ before ++ after, k'.order.admission.run ≠ k.order.admission.run := by
  have hruns := hi.runs
  rw [hk, List.map_append, List.map_cons, List.nodup_middle, ← List.map_append,
    List.nodup_cons] at hruns
  exact fun k' hk' heq => hruns.1 (List.mem_map.mpr ⟨k', hk', heq⟩)

theorem Inv.backed (hi : w.Inv) {e : CollectionId × RunId} (he : e ∈ w.host.active.entries) :
    w.Backed e.1 e.2 := by
  obtain ⟨c, run⟩ := e
  obtain ⟨k, hk, hidentity, hwork⟩ := hi.active _ he
  obtain ⟨caller, hcaller, hl⟩ := hi.launched k hk
  obtain ⟨now, hheard⟩ := hl.heard
  have hcollection : caller.request.collection = c := by
    rw [← hl.request]
    exact congrArg RunIdentity.collection hidentity
  have hrun : k.order.admission.run = run := congrArg RunIdentity.run hidentity
  constructor
  · refine ⟨caller, hcaller, now, k.order.admission.record, ?_⟩
    rw [hheard, hcollection, hrun]
    exact List.mem_append_left _ (List.mem_of_getElem? (i := 3) rfl)
  · obtain ⟨before, after, hworkers⟩ := List.append_of_mem hk
    exact ⟨before, k, after, hworkers, hidentity, hwork,
      fun k' hk' => hrun ▸ hi.alone hworkers k' hk'⟩

/-- In whatever order calls and workers go on, each entry of the account is of an admitted run whose
one worker has not ended. A worker that ends takes off its own run and no other, and once all
workers have ended the account is empty. -/
theorem active_runs_backed (hr : w.Reachable rules) :
    (∀ e ∈ w.host.active.entries, w.Backed e.1 e.2) ∧
    (∀ w' order, Leaves rules order w w' → w'.host.active.entries =
      w.host.active.entries.filter (· ≠ (order.request.collection, order.admission.run))) ∧
    ((∀ k ∈ w.workers, k.stage = .gone) → w.host.active.entries = []) := by
  refine ⟨fun e he => hr.inv.backed he, fun w' order hs => ?_, fun hgone => ?_⟩
  · cases hs
    exact entries_ended ..
  · refine List.eq_nil_iff_forall_not_mem.mpr fun e he => ?_
    obtain ⟨k, hk, -, hwork⟩ := hr.inv.active e he
    exact hwork (hgone k hk)

end

namespace Handover

open Overlap (rules docs request run claimed order)

/-- The call whose claim was accepted. -/
def claimant (later : Bool) : Caller :=
  ⟨request, "", accepted docs (run later) ⟨0, 0⟩ (claimed later)⟩

/-- The call by which the run was launched. -/
def launcher (later : Bool) : Caller := (claimant later).hear (.launch (order later)) ()

theorem asks_launch (later : Bool) : ∃ next,
    Follows (claimant later).program (claimant later).heard (ask (.launch (order later)) next) :=
  ⟨_, .hear _ (.hear _ (.hear _ (.hear _ (.refl _))))⟩

theorem claims (later : Bool) {m : Memory} {host : Host} {callers : List Caller}
    {workers : List (Worker Memory.run)} (hr : Reachable rules ⟨m, host, callers, workers⟩)
    (hworks : host.stopping = false)
    (hfresh : run later ∉ callers.flatMap fun c => c.heard.filterMap given?)
    (hclaim : Memory.run m (.claim docs (run later) ⟨0, 0⟩) =
      (.ok (.claimed (claimed later)), Overlap.store (claimed later))) :
    Reachable rules ⟨Overlap.store (claimed later), host, callers ++ [claimant later],
      workers⟩ := by
  have hcall := hr.step (.call request "")
  have hstopping := hcall.step (.serve rfl (.refl _) .stopping)
  rw [hworks] at hstopping
  have hgiven :=
    hstopping.step (.serve rfl (.hear _ (.refl _)) (@Answers.freshRun _ _ _ (run later) ?_))
  have htime := hgiven.step (.serve rfl (.hear _ (.hear _ (.refl _)))
    (.keeper (k := .clock) (a := (⟨0, 0⟩ : Instant)) rfl))
  have hclaimed :=
    htime.step (.serve rfl (.hear _ (.hear _ (.hear _ (.refl _)))) (.keeper (.inl hclaim)))
  · exact hclaimed
  · simpa [issued, Caller.hear, given?] using hfresh

/-- A worker goes on while nothing else does. -/
theorem works {s : Memory} {host : Host} {callers : List Caller}
    {before after : List (Worker Memory.run)} {order : RunOrder} {p p' : Pool (.over Memory.run)}
    (hr : Reachable rules ⟨s, host, callers, before ++ ⟨order, .working p⟩ :: after⟩)
    (hs : TransGen (Interleaving.Step rules order) (p.within s) p') :
    Reachable rules ⟨p'.shared.world, host, callers, before ++ ⟨order, .working p'⟩ :: after⟩ := by
  induction hs with
  | single hs => exact hr.step (.work rfl hs)
  | tail _ hs ih => exact ih.step (.work rfl hs)

/-- The first run does not get to read the record, and has lost it when it comes to write its
end. -/
theorem finishes : ∃ p : Pool (.over Memory.run),
    TransGen (Interleaving.Step rules (order false)) (Overlap.fresh true) p ∧
      ∃ result, Yields ((order false).run rules) p.main result := by
  have h : Arrives rules (order false) (Overlap.fresh true) (Overlap.fresh true)
      ((order false).run rules) :=
    ⟨.refl, .refl _⟩
  have hstarts := Interleaving.Step.startWatch h.main
  have h : Arrives rules (order false) _ _ _ := ⟨.refl, (h.goOn hstarts).main⟩
  have h := (h.hear .state).hear (a := Except.error (.unavailable "down"))
    (.outward trivial (.inr ⟨⟨"down", rfl⟩, .inl rfl⟩))
  have h := (h.hear .change).hear .state
  have h := h.goOn (.endWatch h.main)
  have h := (h.hear .state).hear (a := (⟨0, 0⟩ : Instant)) (.outward trivial rfl)
  have h := h.reply rfl
  exact ⟨_, .head' hstarts h.steps, _, h.main⟩

/-- The first run was cancelled and the second one has taken its place when the first one ends. -/
def handedOver (m : Memory) : Workshop Memory.run where
  store := m
  host := ⟨⟨[(docs, run true)], List.pairwise_singleton ..⟩, false⟩
  callers := [launcher false, launcher true]
  workers := [⟨order false, .gone⟩, ⟨order true, .entered⟩]

theorem comes_about : ∃ (w : Workshop Memory.run) (m : Memory), w.Reachable rules ∧
    Leaves rules (order false) w (handedOver m) := by
  obtain ⟨p, hsteps, result, hy⟩ := finishes
  obtain ⟨_, hfirst⟩ := asks_launch false
  obtain ⟨_, hsecond⟩ := asks_launch true
  have hother : run true ≠ run false := by decide
  have hclaimed := claims false (.start .empty) rfl List.not_mem_nil rfl
  have hentered := hclaimed.step (.enter (show _ = [] ++ _ :: _ from rfl) hfirst)
  have hspawned := hentered.step (.spawn (show _ = [] ++ _ :: _ from rfl))
  have hcancelled := hspawned.step (.outside (.requestCancel docs ⟨0, 0⟩))
  have hfresh : run true ∉ [run false] := fun h => hother (List.mem_singleton.mp h)
  have hagain := claims true hcancelled rfl hfresh rfl
  have hreplaced := hagain.step (.enter (show _ = [launcher false] ++ _ :: _ from rfl) hsecond)
  have hworked := @works _ _ _ [] _ _ _ _ hreplaced hsteps
  exact ⟨_, _, hworked, .mk (show _ = [] ++ _ :: _ from rfl) hy⟩

end Handover

/-- The worker of a run that was cancelled ends, and leaves the entry of the run that has taken its
place. -/
theorem active_runs_backed_handedOver : ∃ (w : Workshop Memory.run) (m : Memory),
    let w' := Handover.handedOver m
    (w.Reachable Overlap.rules ∧ Leaves Overlap.rules (Overlap.order false) w w') ∧
      w'.host.active.entries = [(Overlap.docs, Overlap.run true)] ∧
      w'.host.active.entries =
        w.host.active.entries.filter (· ≠ (Overlap.docs, Overlap.run false)) ∧
      w'.Backed Overlap.docs (Overlap.run true) := by
  obtain ⟨w, m, hr, hs⟩ := Handover.comes_about
  have hkept := (active_runs_backed hr).2.1 _ _ hs
  have hbacked := (active_runs_backed (hr.step (.leave hs))).1 _ (List.mem_singleton_self _)
  exact ⟨w, m, ⟨hr, hs⟩, rfl, hkept, hbacked⟩

end Workshop

end CollectionSync.Interleaving
