import CollectionSync.Proofs.Run.Listings

/-! # What a run takes for a cancellation

A check latches that the run is cancelled in the shared state. Whichever program of a run makes the
check, it does so right after an answer that calls the run off: that the host shuts down, or that
the stored record is not syncing for the run any more. -/

namespace CollectionSync.Interleaving

open Program

variable {rules : RunRules} {order : RunOrder} {i : RunIdentity} {q : RunAsk} {a : q.Answer}
  {h : List RunHeard} {α β : Type}

/-- A check has found the run cancelled. -/
def IsLatch : RunAsk → Prop
  | .change .cancelled => True
  | _ => False

theorem IsLatch.eq (hq : IsLatch q) : q = .change .cancelled := by
  unfold IsLatch at hq
  split at hq
  · rfl
  · exact hq.elim

/-- An answer that calls a run off: the host shuts down, or the stored record is not syncing for the
run any more. -/
inductive CallsOff (i : RunIdentity) : RunHeard → Prop
  | stopping {s : RunState} : s.stopping = true → CallsOff i ⟨.state, s⟩
  | disowned {found : Option Record} : i.owns found = false →
    CallsOff i ⟨.keeper (.store (.get i.collection)), .ok found⟩

/-- What was heard last calls the run off. -/
def CalledOff (i : RunIdentity) (h : List RunHeard) : Prop := ∃ h' e, h = h' ++ [e] ∧ CallsOff i e

/-- A program latches a cancellation right after an answer that calls the run off, and at no other
time. -/
def Grounded (i : RunIdentity) (m : Running α) : Prop :=
  ∀ h next, Follows m h (ask (.change .cancelled) next) → CalledOff i h

namespace Grounded

variable {m : Running α} {f : α → Running β}

theorem of_asks (hm : m.Asks fun q => ¬ IsLatch q) : Grounded i m :=
  fun _ _ hf => absurd trivial (hm.of_follows hf).2.1

theorem pure (a : α) : Grounded i (Pure.pure a : Running α) := of_asks (Asks.pure a)

theorem question (hq : ¬ IsLatch q) : Grounded i (question q) := of_asks (Asks.question hq)

theorem bind (hm : Grounded i m) (hf : ∀ a, Grounded i (f a)) : Grounded i (m >>= f) := by
  intro h next hfollows
  rcases follows_bind_ask.mp hfollows with ⟨next', hm', -⟩ | ⟨h₁, a, h₂, rfl, -, hrest⟩
  · exact hm h next' hm'
  · obtain ⟨h', e, rfl, he⟩ := hf a h₂ next hrest
    exact ⟨h₁ ++ h', e, (List.append_assoc ..).symm, he⟩

theorem observe (i : RunIdentity) : Grounded i i.observe := by
  -- the latch is the first question of what is left
  have hlatch : ∀ {h : List RunHeard} {next : RunState → Running (Except RunError Bool)},
      Follows (do
        let _ ← Run.change .cancelled
        Pure.pure (.ok true)) h (ask (.change .cancelled) next) → h = [] := by
    intro h next hf
    cases hf with
    | refl => rfl
    | hear a hf => cases (follows_done.mp hf).2
  intro h next hf
  have hstate : Run.state.Asks fun q => ¬ IsLatch q := Asks.question id
  rcases follows_bind_ask.mp hf with ⟨_, hs, -⟩ | ⟨h₁, s, h₂, rfl, hs, hf₂⟩
  · exact absurd trivial (hstate.of_follows hs).2.1
  obtain rfl := yields_question.mp hs
  split at hf₂
  · cases (follows_done.mp hf₂).2
  split at hf₂
  · next hstopping =>
    obtain rfl := hlatch hf₂
    exact ⟨[], _, rfl, .stopping hstopping⟩
  have hget : (Run.keeping (Keeper.get i.collection)).Asks fun q => ¬ IsLatch q :=
    (keeping_asks _).mono fun _ ⟨_, hq⟩ => hq ▸ id
  rcases follows_bind_ask.mp hf₂ with ⟨_, hg, -⟩ | ⟨h₃, found, h₄, rfl, hg, hf₄⟩
  · exact absurd trivial (hget.of_follows hg).2.1
  split at hf₄
  · cases (follows_done.mp hf₄).2
  next found =>
  split at hf₄
  · cases (follows_done.mp hf₄).2
  next hdisowned =>
  obtain rfl := hlatch hf₄
  cases hg with
  | hear reply hg =>
    obtain ⟨rfl, heq⟩ := follows_done.mp hg
    cases reply with
    | error e => cases heq
    | ok found' =>
      cases heq
      exact ⟨[⟨.state, s⟩], _, rfl, .disowned (eq_false_of_ne_true hdisowned)⟩

theorem publish (p : Progress) : Grounded i (i.publish p) := of_asks (publish_asks fun _ => id)

theorem noteFatal (e : RunError) : Grounded i (RunIdentity.noteFatal e) :=
  .bind (.question id) fun _ => .pure _

theorem publishOrFail (p : Progress) : Grounded i (i.publishOrFail p) := by
  refine .bind (.publish p) fun published => ?_
  split
  · exact .pure _
  · exact .noteFatal _

theorem failure (item : FailedItem) : Grounded i (do
    let s ← Run.change (.failure item)
    i.publishOrFail s.progress) :=
  .bind (.question id) fun _ => .publishOrFail _

theorem callPipeline {γ : Type} (what : String) {call : Running (Option (Except PipelineError γ))}
    (hcall : Grounded i call) : Grounded i (callPipeline rules what call) := by
  refine .bind hcall fun result => ?_
  cases result <;> exact .pure _

theorem perform (credentials : String) (task : SyncTask) :
    Grounded i (task.perform rules i credentials) := by
  unfold SyncTask.perform
  split
  · refine .bind (.of_asks (callRemote_asks (fun _ => id) _ (Asks.question id))) fun fetched => ?_
    split
    · refine .bind (.observe i) fun observed => ?_
      split
      · exact .pure _
      · exact .pure _
      · exact .bind (.callPipeline _ (.question id)) fun _ => .pure _
    · refine .bind (.question id) fun s => ?_
      split
      · refine .bind (.observe i) fun observed => ?_
        split <;> exact .pure _
      · exact .pure _
  · exact .bind (.callPipeline _ (.question id)) fun _ => .pure _
  · exact .bind (.callPipeline _ (.question id)) fun _ => .pure _

theorem extend (roots : List SourceRoot) (l : Listing) :
    Grounded order.identity (Listing.extend rules order order.identity roots l) := by
  induction roots generalizing l with
  | nil => exact .pure _
  | cons root rest ih =>
    refine .bind (.observe _) fun observed => ?_
    split
    · exact .pure _
    · exact .pure _
    refine .bind (.of_asks (listingOf_asks (fun _ => id) fun _ _ => id)) fun listed => ?_
    split
    · exact ih _
    refine .bind (.question id) fun s => ?_
    split
    · refine .bind (.observe _) fun observed => ?_
      split <;> exact .pure _
    · exact .bind (.question id) fun _ => ih _

theorem startEach (tasks : List SyncTask) (n : Nat) :
    Grounded i (Dispatch.startEach i tasks n) := by
  induction tasks generalizing n with
  | nil => exact .pure n
  | cons task rest ih =>
    refine .bind (.question id) fun s => ?_
    split
    · exact .pure n
    refine .bind (.observe i) fun observed => ?_
    split
    · exact .bind (.noteFatal _) fun _ => .pure n
    · exact .bind (.failure _) fun _ => ih n
    refine .bind (.question id) fun _ => .bind (.observe i) fun observed => ?_
    split
    · exact .bind (.noteFatal _) fun _ => .bind (.question id) fun _ => .pure n
    · exact .bind (.question id) fun _ => .bind (.failure _) fun _ => ih n
    · exact .bind (.question id) fun _ => ih (n + 1)

theorem settle (n : Nat) : Grounded i (Dispatch.settle i n) := by
  induction n with
  | zero => exact .pure _
  | succ n ih =>
    refine .bind (.question id) fun e => ?_
    split
    · exact ih
    · exact .bind (.noteFatal _) fun _ => ih
    · exact .bind (.question id) fun s => .bind (.publishOrFail _) fun _ => ih

theorem run : Grounded order.identity (order.run rules) := by
  have hlist : Grounded order.identity (order.listRoots rules) := by
    refine .bind (.extend _ _) fun listed => ?_
    split
    · exact .pure _
    · exact .bind (.noteFatal _) fun _ => .pure _
  have hall : ∀ tasks, Grounded order.identity (Dispatch.all order.identity tasks) := by
    intro tasks
    refine .bind (.question id) fun s => .bind (.publish _) fun published => ?_
    split
    · exact .noteFatal _
    · exact .bind (.startEach tasks 0) fun n => .settle n
  have hcarry : ∀ listing, Grounded order.identity (order.carryOut rules listing) := by
    intro listing
    refine .bind (.question id) fun s => ?_
    split
    · exact .bind (.bind (.question id) fun _ => .pure _) fun plan => hall plan.tasks
    · exact .pure _
  have hwork : Grounded order.identity (order.work rules) :=
    .bind (.question id) fun _ => .bind hlist fun listing => .bind (hcarry listing) fun _ =>
      .bind (.question id) fun _ => .pure listing
  refine .bind hwork fun listing => .bind (.question id) fun s => .of_asks ?_
  exact (keeping_asks _).mono fun _ ⟨_, hq⟩ => hq ▸ id

theorem task (task : SyncTask) : Grounded order.identity (taskOf rules order task) :=
  .bind (.perform _ task) fun done =>
    .of_asks (settle_asks (fun done => by cases done <;> exact id)
      (fun _ => publish_asks fun _ => id) done)

theorem watch : Grounded order.identity (watchOf rules order) := by
  refine .bind (.question id) fun cut => ?_
  split
  · exact .pure _
  · refine .bind (.observe _) fun observed => ?_
    split <;> exact .pure _

end Grounded

/-- A check of the program has found the run called off, and has latched this. -/
def Latched (i : RunIdentity) (h : List RunHeard) : Prop :=
  ∃ h₁ h₂ e, ∃ s : RunState, h = h₁ ++ e :: ⟨.change .cancelled, s⟩ :: h₂ ∧ CallsOff i e

theorem Latched.has (hl : Latched i h) : Has (fun q _ => IsLatch q) h := by
  obtain ⟨h₁, h₂, e, s, rfl, -⟩ := hl
  exact ⟨_, List.mem_append_right _ (.tail _ (.head _)), trivial⟩

theorem Grounded.latched {m : Running α} {next : q.Answer → Running α} (hm : Grounded i m)
    (hf : Follows m h (ask q next)) (hq : IsLatch q) : Latched i (h ++ [⟨q, a⟩]) := by
  obtain rfl := hq.eq
  obtain ⟨h', e, rfl, he⟩ := hm h next hf
  exact ⟨h', [], e, a, List.append_assoc .., he⟩

end CollectionSync.Interleaving
