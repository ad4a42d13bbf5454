import CollectionSync.Host.Basic
import CollectionSync.Proofs.Run.Invariants
import CollectionSync.Proofs.Store.Custody
import Mathlib.Logic.Relation

/-! # Runs side by side over one record store

Runs are admitted by claims and share nothing but the store; meanwhile others cancel and recover
runs. Each run goes on by steps of its own, on the store as it is then. Whatever is asked of the
store after a run was admitted, it is no claim for that run. So of the runs of a collection only the
last one may own the record, and a run that has lost it does not get it back. -/

namespace CollectionSync.Interleaving

open Program Relation

section

variable {σ : Type} (step : σ → (op : StoreOp) → Except StoreError op.Reply × σ)

/-- What a run is surrounded by that works on the store: the store answers as it does, or fails
before or after it has done what it was asked, and the remote side and the pipeline may answer
anything. -/
def Surroundings.over : Surroundings where
  World := σ
  answers
    | .keeper (.store op), answer, s, s' =>
      step s op = (answer, s') ∨
        (∃ reason, answer = .error (.unavailable reason)) ∧ (s' = s ∨ s' = (step s op).2)
    | _, _, s, s' => s' = s
  moves _ _ := False

/-- A run that was admitted. -/
structure Member where
  order : RunOrder
  pool : Pool (.over step)

/-- A record store with the runs that were admitted on it, in the order in which they were. -/
structure Ensemble where
  store : σ
  members : List (Member step)

end

/-- The pool with another world around it. -/
def Pool.within {env : Surroundings} (p : Pool env) (w : env.World) : Pool env :=
  { p with shared := { p.shared with world := w } }

/-- What is asked of the store to cancel a run, and to recover runs whose program is gone. -/
inductive IsOutside : StoreOp → Prop
  | cancel {c : CollectionId} {h : List (Heard KeeperAsk.Answer)} {op : StoreOp}
      {next : Except StoreError op.Reply → Keeping (Except RunError CancelAnswer)} :
    Follows (cancelRun c) h (ask (.store op) next) → IsOutside op
  | recover {threshold : Span} {h : List (Heard KeeperAsk.Answer)} {op : StoreOp}
      {next : Except StoreError op.Reply → Keeping (Except RecoveryError (List CollectionId))} :
    Follows (recoverStale threshold) h (ask (.store op) next) → IsOutside op

namespace Ensemble

variable {σ : Type} {step : σ → (op : StoreOp) → Except StoreError op.Reply × σ}

/-- The runs that were admitted so far. -/
def ids (e : Ensemble step) : List RunId := e.members.map (·.order.admission.run)

/-- Someone asks for a run, something else is asked of the store from outside, or a run goes on. -/
inductive Step (rules : RunRules) : Ensemble step → Ensemble step → Prop
  /-- The claim is accepted and the run launched. None of its programs has been served then. -/
  | launch {e : Ensemble step} {request : RunRequest} {credentials : String} {run : RunId}
      {now : Instant} {answer : Except StoreError ClaimOutcome} {s : σ} {order : RunOrder}
      {next : Unit → Hosting (Except RunError RunId)} :
    run ∉ e.ids → step e.store (.claim request.collection run now) = (answer, s) →
    Follows (Host.startRun request credentials)
      [⟨.stopping, false⟩, ⟨.freshRun, run⟩, ⟨.keeper .clock, now⟩,
        ⟨.keeper (.store (.claim request.collection run now)), answer⟩]
      (ask (.launch order) next) →
    Step rules e ⟨s, e.members ++ [⟨order, .start _ rules false s⟩]⟩
  /-- The claim is refused, or what was claimed is never launched. -/
  | refuse {e : Ensemble step} {c : CollectionId} {run : RunId} {now : Instant} :
    run ∉ e.ids → Step rules e { e with store := (step e.store (.claim c run now)).2 }
  | outside {e : Ensemble step} {op : StoreOp} :
    IsOutside op → Step rules e { e with store := (step e.store op).2 }
  | work {e : Ensemble step} {k : Nat} {m : Member step} {p : Pool (.over step)} :
    e.members[k]? = some m →
    Interleaving.Step rules m.order (m.pool.within e.store) p →
    Step rules e ⟨p.shared.world, e.members.set k { m with pool := p }⟩

/-- The ensembles that may come about from a store without runs. -/
inductive Reachable (rules : RunRules) (Sound : σ → Prop) : Ensemble step → Prop
  | start (s : σ) : Sound s → Reachable rules Sound ⟨s, []⟩
  | step {e e' : Ensemble step} :
    Reachable rules Sound e → Step rules e e' → Reachable rules Sound e'

end Ensemble

/-! ## Runs that are followed step by step -/

section

variable {env : Surroundings} {rules : RunRules} {order : RunOrder} {p₀ p : Pool env}

theorem Reachable.leads (hr : Reachable rules order p₀)
    (hl : ReflTransGen (Step rules order) p₀ p) :
    Reachable rules order p := by
  induction hl with
  | refl => exact hr
  | tail _ hs ih => exact ih.step hs

/-- A pool that a run can come to, with what its main program is about to do. -/
structure Arrives (rules : RunRules) (order : RunOrder) (p₀ p : Pool env)
    (r : Running (Except RunError Record)) : Prop where
  steps : ReflTransGen (Step rules order) p₀ p
  main : Follows (order.run rules) p.main r

namespace Arrives

variable {q : RunAsk} {a : q.Answer} {s s' : Shared env} {main : List RunHeard}
  {fibers : List Fiber} {watch : Option (List RunHeard)}

theorem goOn {next : q.Answer → Running (Except RunError Record)} {fibers' : List Fiber}
    {watch' : Option (List RunHeard)}
    (hp : Arrives rules order p₀ ⟨s, main, fibers, watch⟩ (ask q next))
    (hs : Step rules order ⟨s, main, fibers, watch⟩ ⟨s', main ++ [⟨q, a⟩], fibers', watch'⟩) :
    Arrives rules order p₀ ⟨s', main ++ [⟨q, a⟩], fibers', watch'⟩ (next a) :=
  ⟨hp.steps.tail hs, follows_concat.mpr ⟨next, hp.main, rfl⟩⟩

theorem hear {next : q.Answer → Running (Except RunError Record)}
    (hp : Arrives rules order p₀ ⟨s, main, fibers, watch⟩ (ask q next)) (hs : Serves q a s s') :
    Arrives rules order p₀ ⟨s', main ++ [⟨q, a⟩], fibers, watch⟩ (next a) :=
  hp.goOn (.main hp.main hs)

/-- Something happens beside the main program. -/
theorem aside {r : Running (Except RunError Record)} {p' : Pool env}
    (hp : Arrives rules order p₀ p r)
    (hs : Step rules order p p') (hm : p'.main = p.main) : Arrives rules order p₀ p' r :=
  ⟨hp.steps.tail hs, hm ▸ hp.main⟩

theorem reply {σ : Type} {step : σ → (op : StoreOp) → Except StoreError op.Reply × σ}
    {p₀ : Pool (.over step)} {op : StoreOp} {answer : Except StoreError op.Reply}
    {s : Shared (.over step)} {w : σ}
    {next : Except StoreError op.Reply → Running (Except RunError Record)}
    (hp : Arrives rules order p₀ ⟨s, main, fibers, watch⟩ (ask (.keeper (.store op)) next))
    (h : step s.world op = (answer, w)) :
    Arrives rules order p₀
      ⟨{ s with world := w }, main ++ [⟨.keeper (.store op), answer⟩], fibers,
        watch⟩ (next answer) :=
  hp.hear (.outward trivial (.inl h))

end Arrives

end

/-! ## What is asked of the store -/

/-- An operation that hands no record to a run. -/
def StoreOp.IsMeek (op : StoreOp) : Prop := op.isOfRuns = true ∧ ∀ c, op.claims? c = none

/-- A question that hands no record to a run. -/
def IsMeek : RunAsk → Prop
  | .keeper (.store op) => StoreOp.IsMeek op
  | _ => True

theorem IsWork.isMeek {q : RunAsk} (hq : IsWork q) : IsMeek q := by
  unfold IsWork at hq
  split at hq
  · exact ⟨rfl, fun _ => rfl⟩
  · exact ⟨rfl, fun _ => rfl⟩
  · cases hq
  · next h₁ h₂ h₃ =>
    unfold IsMeek
    split
    · exact absurd rfl (h₃ _)
    · trivial

variable {rules : RunRules} {order : RunOrder} {task : SyncTask}

section

variable {α : Type}

/-- A program of the keeper that hands no record to a run. -/
abbrev Meek (p : Keeping α) : Prop := p.Asks fun k => IsMeek (.keeper k)

theorem now_meek : Meek Keeper.now := Asks.question trivial

theorem announce_meek (kind : EventKind) (record : Record) : Meek (Keeper.announce kind record) :=
  Asks.question trivial

theorem perform_meek {op : StoreOp} (ho : StoreOp.IsMeek op) : Meek (Keeper.perform op) := by
  refine Asks.bind (Asks.question ?_) fun reply => Asks.pure _
  exact ho

theorem get_meek (c : CollectionId) : Meek (Keeper.get c) := perform_meek ⟨rfl, fun _ => rfl⟩

theorem finish_meek (c : CollectionId) (run : RunId) (report : RunReport) :
    Meek (Keeper.finish c run report) := by
  refine now_meek.bind fun now => (perform_meek ⟨rfl, fun _ => rfl⟩).bind fun written => ?_
  split
  · trivial
  · exact (announce_meek _ _).bind fun _ => Asks.pure _

theorem cancelRun_meek (c : CollectionId) : Meek (cancelRun c) := by
  have hrequest : Meek (Keeper.requestCancel c) :=
    now_meek.bind fun now => perform_meek ⟨rfl, fun _ => rfl⟩
  have hcurrent : Meek (Keeper.current c) := by
    refine (get_meek c).bind fun found => ?_
    split
    · trivial
    · trivial
    · exact now_meek.bind fun _ => Asks.pure _
  refine hrequest.bind fun done => ?_
  split
  · trivial
  · trivial
  · exact hcurrent.bind fun _ => Asks.pure _

theorem announceEnds_meek (l : List CollectionId) : Meek (Keeper.announceEnds l) := by
  induction l with
  | nil => trivial
  | cons c rest ih =>
    refine (get_meek c).bind fun found => ?_
    split
    · trivial
    · exact ih
    · exact (announce_meek _ _).bind fun _ => ih

theorem recoverStale_meek (threshold : Span) : Meek (recoverStale threshold) := by
  have hrecover : ∀ t reason, Meek (Keeper.recover t reason) := by
    intro t reason
    refine now_meek.bind fun now => (perform_meek ⟨rfl, fun _ => rfl⟩).bind fun recovered => ?_
    split
    · trivial
    · refine (announceEnds_meek _).bind fun announced => ?_
      split <;> trivial
  unfold recoverStale
  split
  · trivial
  · refine now_meek.bind fun now => ?_
    split
    · trivial
    · exact (hrecover _ _).bind fun _ => Asks.pure _

end

theorem IsOutside.isMeek {op : StoreOp} (ho : IsOutside op) : StoreOp.IsMeek op := by
  cases ho with
  | cancel hf => exact ((cancelRun_meek _).of_follows hf).2.1
  | recover hf => exact ((recoverStale_meek _).of_follows hf).2.1

theorem run_meek : (order.run rules).Asks IsMeek := by
  refine (work_working.mono fun _ hq => hq.isMeek).bind fun listing => ?_
  exact (Asks.question trivial).bind fun s => (finish_meek _ _ _).lift

theorem taskOf_meek : (taskOf rules order task).Asks IsMeek := by
  have hroutine : ∀ q, IsRoutine q → IsMeek q := fun _ hq => hq.isWork.isMeek
  refine ((perform_routine _ _ task).mono hroutine).bind fun done => ?_
  exact settle_asks (fun _ => trivial) (fun p => (publish_routine _ p).mono hroutine) done

theorem watchOf_meek : (watchOf rules order).Asks IsMeek :=
  watchOf_routine.mono fun _ hq => hq.isWork.isMeek

/-! ## What a step does to the store -/

section

variable {σ : Type} {step : σ → (op : StoreOp) → Except StoreError op.Reply × σ}

theorem Serves.store {q : RunAsk} {a : q.Answer} {s s' : Shared (.over step)} (hs : Serves q a s s')
    (hq : IsMeek q) :
    s'.world = s.world ∨ ∃ op, StoreOp.IsMeek op ∧ s'.world = (step s.world op).2 := by
  cases hs with
  | @outward q a s w hout hans =>
    cases q with
    | keeper k =>
      cases k with
      | store op =>
        rcases hans with heq | ⟨-, hw | hw⟩
        · exact .inr ⟨op, hq, (congrArg Prod.snd heq).symm⟩
        · exact .inl hw
        · exact .inr ⟨op, hq, hw⟩
      | clock | watched | announce => exact .inl hans
    | within | lookups => exact .inl hans
    | state | change | pause | acquire | release | spawn | join | startWatch | endWatch =>
      cases hout
  | state | change | pause | acquire | release => exact .inl rfl

/-- A read that finds a record has found it in the store. -/
theorem Serves.found {c : CollectionId} {found : Option Record} {s s' : Shared (.over step)}
    (hs : Serves (.keeper (.store (.get c))) (.ok found : Except StoreError _) s s') :
    (step s.world (.get c)).1 = .ok found := by
  cases hs with
  | outward _ hans =>
    rcases hans with heq | ⟨⟨reason, heq⟩, -⟩
    · exact congrArg Prod.fst heq
    · cases heq

theorem Step.store {p p' : Pool (.over step)} (hs : Step rules order p p') :
    p'.shared.world = p.shared.world ∨
      ∃ op, StoreOp.IsMeek op ∧ p'.shared.world = (step p.shared.world op).2 := by
  cases hs with
  | main hf hs => exact hs.store (run_meek.of_follows hf).2.1
  | task _ hf hs => exact hs.store (taskOf_meek.of_follows hf).2.1
  | watch _ hf hs => exact hs.store (watchOf_meek.of_follows hf).2.1
  | world hmoves => cases hmoves
  | spawn | join | startWatch | endWatch | taskEnds | taskBreaks | watchRound | watchGone | stop =>
    exact .inl rfl

/-! ## Calls that launch a run -/

/-- What a call for a run has heard whose claim was accepted. -/
def accepted (c : CollectionId) (run : RunId) (now : Instant) (record : Record) :
    List (Heard HostAsk.Answer) :=
  [⟨.stopping, false⟩, ⟨.freshRun, run⟩, ⟨.keeper .clock, now⟩,
    ⟨.keeper (.store (.claim c run now)), .ok (.claimed record)⟩]

theorem launch_of_follows {request : RunRequest} {credentials : String}
    {h : List (Heard HostAsk.Answer)}
    {order : RunOrder} {next : Unit → Hosting (Except RunError RunId)}
    (hf : Follows (Host.startRun request credentials) h (ask (.launch order) next)) :
    ∃ run now record, h = accepted request.collection run now record ∧
      order = ⟨request, ⟨run, record⟩, credentials⟩ ∧ next () = pure (.ok run) := by
  unfold Host.startRun Host.claimRun at hf
  obtain _ | @⟨_, _, stopping, _, _, hf⟩ := hf
  cases stopping with
  | true => cases hf
  | false =>
    cases hcheck : request.check with
    | error e =>
      rw [hcheck] at hf
      cases hf
    | ok =>
      rw [hcheck] at hf
      obtain _ | @⟨_, _, run, _, _, _ | @⟨_, _, now, _, _, _ | @⟨_, _, answer, _, _, hf⟩⟩⟩ := hf
      cases answer with
      | error e => cases hf
      | ok outcome =>
        cases outcome with
        | conflict record => cases hf
        | claimed record =>
          cases hf with
          | refl => exact ⟨run, now, record, rfl, rfl, rfl⟩
          | hear _ hf => cases hf

/-! ## Who owns the record -/

namespace Ensemble

variable {e e' : Ensemble step} {k : Nat} {m m' : Member step} {Sound : σ → Prop}
  {Owned : RunIdentity → σ → Prop}

theorem run_mem_ids (hk : e.members[k]? = some m) : m.order.admission.run ∈ e.ids :=
  List.mem_map_of_mem (List.mem_of_getElem? hk)

/-- The store changes by an operation that hands no record to a run that was admitted before. -/
theorem Step.store (hs : Step rules e e') :
    e'.store = e.store ∨ ∃ op, op.isOfRuns = true ∧
      (∀ c, ∀ run ∈ op.claims? c, run ∉ e.ids) ∧ e'.store = (step e.store op).2 := by
  have hclaim : ∀ {d : CollectionId} {run : RunId} {now : Instant}, run ∉ e.ids →
      ∀ c, ∀ run' ∈ StoreOp.claims? c (.claim d run now), run' ∉ e.ids := by
    intro d run now hfresh c run' hrun'
    obtain ⟨-, heq⟩ := Option.ite_none_right_eq_some.mp hrun'
    cases heq
    exact hfresh
  have hmeek : ∀ {op : StoreOp}, StoreOp.IsMeek op → ∀ c, ∀ run ∈ op.claims? c, run ∉ e.ids := by
    intro op ho c run hrun
    rw [ho.2 c] at hrun
    cases hrun
  cases hs with
  | launch hfresh heq _ => exact .inr ⟨_, rfl, hclaim hfresh, (congrArg Prod.snd heq).symm⟩
  | refuse hfresh => exact .inr ⟨_, rfl, hclaim hfresh, rfl⟩
  | outside ho => exact .inr ⟨_, ho.isMeek.1, hmeek ho.isMeek, rfl⟩
  | work _ hs =>
    rcases hs.store with hw | ⟨op, ho, hw⟩
    · exact .inl hw
    · exact .inr ⟨op, ho.1, hmeek ho, hw⟩

/-- A run that was admitted before goes on by a step of its own or stays as it is. -/
theorem Step.member (hs : Step rules e e') (hk : e.members[k]? = some m) :
    ∃ p, e'.members[k]? = some { m with pool := p } ∧
      (p = m.pool ∨ Interleaving.Step rules m.order (m.pool.within e.store) p) := by
  have hlength : k < e.members.length := (List.getElem?_eq_some_iff.mp hk).1
  cases hs with
  | launch => exact ⟨m.pool, (List.getElem?_append_left hlength).trans hk, .inl rfl⟩
  | refuse | outside => exact ⟨m.pool, hk, .inl rfl⟩
  | @work j _ p hj hs =>
    by_cases heq : j = k
    · subst heq
      rw [hk] at hj
      cases hj
      exact ⟨p, List.getElem?_set_self hlength, .inr hs⟩
    · exact ⟨m.pool, (List.getElem?_set_ne heq).trans hk, .inl rfl⟩

theorem Step.origin (hs : Step rules e e') (hk : e'.members[k]? = some m)
    (hold : k < e.members.length) : ∃ m₀, e.members[k]? = some m₀ ∧ m₀.order = m.order := by
  obtain ⟨p, hk', -⟩ := hs.member (List.getElem?_eq_getElem hold)
  rw [hk] at hk'
  cases hk'
  exact ⟨_, List.getElem?_eq_getElem hold, rfl⟩

/-- A run is launched with the record that was answered to its claim. -/
theorem order_of_launched {request : RunRequest} {credentials : String} {run : RunId}
    {now : Instant} {answer : Except StoreError ClaimOutcome} {order : RunOrder}
    {next : Unit → Hosting (Except RunError RunId)}
    (hf : Follows (Host.startRun request credentials)
      [⟨.stopping, false⟩, ⟨.freshRun, run⟩, ⟨.keeper .clock, now⟩,
        ⟨.keeper (.store (.claim request.collection run now)),
          answer⟩] (ask (.launch order) next)) :
    ∃ record, answer = .ok (.claimed record) ∧ order = ⟨request, ⟨run, record⟩, credentials⟩ := by
  obtain ⟨run', now', record, hheard, rfl, -⟩ := launch_of_follows hf
  cases hheard
  exact ⟨record, rfl, rfl⟩

section

variable (hc : Custody step Sound Owned)
include hc

theorem sound_of_reachable (hr : e.Reachable rules Sound) : Sound e.store := by
  induction hr with
  | start s hs => exact hs
  | step hr hs ih =>
    rcases hs.store with hsame | ⟨op, -, -, hop⟩
    · rwa [hsame]
    · rw [hop]
      exact hc.sound _ op ih

/-- A run that was admitted before comes to own the record by no step. -/
theorem Step.lost (hs : Step rules e e') (hr : e.Reachable rules Sound)
    (hk : e.members[k]? = some m)
    (hlost : ¬ Owned m.order.identity e.store) : ¬ Owned m.order.identity e'.store := by
  rcases hs.store with hsame | ⟨op, hop, hclaims, hstore⟩
  · rwa [hsame]
  · rw [hstore]
    refine hc.lost _ op _ (sound_of_reachable hc hr) hop (fun hclaim => ?_) hlost
    exact hclaims _ _ hclaim (run_mem_ids hk)

/-- A run that is admitted was not there before, and owns the record. -/
theorem Step.newcomer (hs : Step rules e e') (hr : e.Reachable rules Sound)
    (hk : e'.members[k]? = some m) (hnew : e.members.length ≤ k) :
    k = e.members.length ∧ m.order.admission.run ∉ e.ids ∧ Owned m.order.identity e'.store := by
  have hlength := (List.getElem?_eq_some_iff.mp hk).1
  have hgrown : ∀ {n : Nat}, n = e.members.length → ¬ k < n := by
    intro n hn
    omega
  cases hs with
  | @launch request credentials run now answer s order _ hfresh heq hf =>
    obtain ⟨record, rfl, rfl⟩ := order_of_launched hf
    have hclaimed := congrArg Prod.fst heq
    have howned := hc.given _ _ run now record (sound_of_reachable hc hr) hclaimed
    rw [heq] at howned
    rw [List.getElem?_append_right hnew] at hk
    cases List.mem_singleton.mp (List.mem_of_getElem? hk)
    refine ⟨?_, hfresh, howned⟩
    rw [List.length_append, List.length_singleton] at hlength
    omega
  | refuse | outside => exact absurd hlength (hgrown rfl)
  | work => exact absurd hlength (hgrown List.length_set)

/-- Of the runs of a collection, only the one that was admitted last may own the record. -/
theorem last_owns (hr : e.Reachable rules Sound) {j : Nat} (hlt : j < k)
    (hj : e.members[j]? = some m) (hk : e.members[k]? = some m')
    (hsame : m.order.request.collection = m'.order.request.collection) :
    ¬ Owned m.order.identity e.store := by
  induction hr generalizing m m' with
  | start s hs => cases hj
  | @step e e' hr hs ih =>
    rcases Nat.lt_or_ge k e.members.length with hold | hnew
    · obtain ⟨m₀, hj, horder⟩ := hs.origin hj (Nat.lt_trans hlt hold)
      obtain ⟨m₁, hk, horder'⟩ := hs.origin hk hold
      rw [← horder] at hsame ⊢
      rw [← horder'] at hsame
      exact hs.lost hc hr hj (ih hj hk hsame)
    · obtain ⟨rfl, hfresh, howned⟩ := hs.newcomer hc hr hk hnew
      obtain ⟨m₀, hj, horder⟩ := hs.origin hj hlt
      intro howned'
      have hrun : m.order.admission.run = m'.order.admission.run :=
        hc.one _ _ _ hsame howned' howned
      rw [← hrun, ← horder] at hfresh
      exact hfresh (run_mem_ids hj)

end

end Ensemble

end

end CollectionSync.Interleaving
