import CollectionSync.Proofs.Run.Work

/-! # A run looks at its record before it begins anything

The main program starts a task only right after a read that has found the record owned by the run,
and a task hands content to the pipeline only right after such a read. A task that has nothing to
download makes its call at once. -/

namespace CollectionSync.Interleaving

open Program

variable {rules : RunRules} {order : RunOrder} {task : SyncTask} {i : RunIdentity}
  {h h₁ h₂ : List RunHeard} {kind : RunAsk → Prop} {armed : Prop} {α β : Type}

/-- What was heard last is a read that has found the record owned by the run. -/
def Cleared (i : RunIdentity) (h : List RunHeard) : Prop :=
  ∃ h' found, h = h' ++ [⟨.keeper (.store (.get i.collection)), .ok found⟩] ∧ i.owns found = true

/-- The program comes to a question of the kind right after such a read only, or right at its start,
where that is allowed. -/
def Heeds (i : RunIdentity) (kind : RunAsk → Prop) (armed : Prop) (p : Running α) : Prop :=
  ∀ h q next, kind q → Follows p h (ask q next) → h = [] ∧ armed ∨ Cleared i h

theorem Cleared.append (hc : Cleared i h₂) : Cleared i (h₁ ++ h₂) := by
  obtain ⟨h', found, rfl, howns⟩ := hc
  exact ⟨h₁ ++ h', found, (List.append_assoc ..).symm, howns⟩

namespace Heeds

theorem of_asks {p : Running α} (hp : p.Asks fun q => ¬ kind q) : Heeds i kind armed p :=
  fun _ _ _ hkind hf => absurd hkind (hp.of_follows hf).2.1

theorem pure (a : α) : Heeds i kind armed (Pure.pure a : Running α) := of_asks (Asks.pure a)

theorem question {q : RunAsk} (harmed : armed) : Heeds i kind armed (question q) := by
  intro h q' next hkind hf
  cases hf with
  | refl => exact .inl ⟨rfl, harmed⟩
  | hear a hf => cases (follows_done.mp hf).2

/-- The next program may begin with such a question where the first one has ended in such a read. -/
theorem bind {p : Running α} {f : α → Running β} (hp : Heeds i kind armed p)
    (hf : ∀ h a, Yields p h a → Heeds i kind (h = [] ∧ armed ∨ Cleared i h) (f a)) :
    Heeds i kind armed (p >>= f) := by
  intro h q next hkind hfollows
  rcases follows_bind_ask.mp hfollows with ⟨next', hp', -⟩ | ⟨h₁, a, h₂, rfl, hy, hrest⟩
  · exact hp h q next' hkind hp'
  · rcases hf h₁ a hy h₂ q next hkind hrest with ⟨rfl, hfirst⟩ | hcleared
    · rwa [List.append_nil]
    · exact .inr hcleared.append

/-- Where the next program begins with no such question, it does not matter how the first one
ends. -/
theorem bind_any {p : Running α} {f : α → Running β} (hp : Heeds i kind armed p)
    (hf : ∀ a, Heeds i kind False (f a)) : Heeds i kind armed (p >>= f) := by
  refine hp.bind fun h a _ h' q next hkind hfollows => ?_
  rcases hf a h' q next hkind hfollows with ⟨-, hfalse⟩ | hcleared
  · cases hfalse
  · exact .inr hcleared

end Heeds

/-- A check that lets the run go on has found the record owned. -/
theorem observe_cleared (hy : Yields i.observe h (.ok false)) : Cleared i h := by
  obtain ⟨s, found, rfl, -, -, howns⟩ := observe_goesOn hy
  exact ⟨[⟨.state, s⟩], found, rfl, howns⟩

/-! ## Starting a task -/

theorem observe_startsNone (i : RunIdentity) : StartsNone i.observe :=
  (observe_routine i).startsNone

theorem StartsNone.heeds {p : Running α} (hp : StartsNone p) : Heeds i IsSpawn armed p :=
  .of_asks (hp.mono fun _ hq => hq.2)

theorem startEach_heeds (tasks : List SyncTask) (n : Nat) :
    Heeds i IsSpawn False (Dispatch.startEach i tasks n) := by
  induction tasks generalizing n with
  | nil => exact .pure n
  | cons task rest ih =>
    refine .bind_any state_routine.startsNone.heeds fun s => ?_
    split
    · exact .pure n
    refine .bind_any (observe_startsNone i).heeds fun observed => ?_
    split
    · exact .bind_any (noteFatal_startsNone _).heeds fun _ => .pure n
    · exact .bind_any (failure_startsNone _).heeds fun _ => ih n
    refine .bind_any (.of_asks (Asks.question id)) fun _ => ?_
    have hrelease : StartsNone Run.release := Asks.question ⟨trivial, id⟩
    -- of the two checks, it is the second one that clears the way
    refine .bind (observe_startsNone i).heeds fun h observed hy => ?_
    split
    · exact .bind_any (noteFatal_startsNone _).heeds fun _ =>
        .bind_any hrelease.heeds fun _ => .pure n
    · exact .bind_any hrelease.heeds fun _ =>
        .bind_any (failure_startsNone _).heeds fun _ => ih n
    · exact .bind_any (.question (.inr (observe_cleared hy))) fun _ => ih (n + 1)

theorem all_heeds (tasks : List SyncTask) : Heeds i IsSpawn False (Dispatch.all i tasks) := by
  refine .bind_any (.of_asks (Asks.question id)) fun s => ?_
  refine .bind_any (publish_routine i _).startsNone.heeds fun published => ?_
  split
  · exact (noteFatal_startsNone _).heeds
  · exact .bind_any (startEach_heeds tasks 0) fun n => (settle_startsNone n).heeds

/-- The main program starts a task only right after a read that has found the record owned. -/
theorem run_heeds : Heeds order.identity IsSpawn False (order.run rules) := by
  have hlist : StartsNone (order.listRoots rules) := by
    refine (extend_asks (fun _ hq => ⟨hq.isWork, hq.not_isSpawn⟩) (fun _ => ⟨trivial, id⟩) _ _).bind
      fun listed => ?_
    split
    · trivial
    · exact (noteFatal_startsNone _).bind fun _ => Asks.pure _
  have hcarry : ∀ listing, Heeds order.identity IsSpawn False (order.carryOut rules listing) := by
    intro listing
    refine .bind_any state_routine.startsNone.heeds fun s => ?_
    split
    · refine .bind_any (.of_asks ?_) fun plan => all_heeds plan.tasks
      exact (Asks.question id).bind fun _ => Asks.pure _
    · exact .pure ()
  have hask : ∀ q, ¬ IsSpawn q → Heeds order.identity IsSpawn False (question q) := fun _ hq =>
    .of_asks (Asks.question hq)
  have hwork : Heeds order.identity IsSpawn False (order.work rules) :=
    .bind_any (hask .startWatch id) fun _ => .bind_any hlist.heeds fun listing =>
      .bind_any (hcarry listing) fun _ => .bind_any (hask .endWatch id) fun _ => .pure listing
  refine hwork.bind_any fun listing => .of_asks ?_
  refine (Asks.question id).bind fun s => (keeping_asks _).mono ?_
  rintro q ⟨k, rfl⟩
  exact id

/-! ## Item operations -/

theorem callPipeline_heeds (what : String) {call : Running (Option (Except PipelineError α))}
    (hc : Heeds i kind armed call) : Heeds i kind armed (callPipeline rules what call) := by
  refine hc.bind_any fun result => ?_
  cases result <;> exact .pure _

theorem process_heeds (item : Item) (bytes : List UInt8) :
    Heeds i IsItemCall False (SyncTask.process rules i item bytes) := by
  refine .bind (.of_asks (observe_calls_nothing i)) fun h observed hy => ?_
  split
  · exact .pure _
  · exact .pure _
  · exact .bind_any (callPipeline_heeds _ (.question (.inr (observe_cleared hy)))) fun _ => .pure _

theorem perform_heeds (credentials : String) :
    Heeds i IsItemCall True (task.perform rules i credentials) := by
  unfold SyncTask.perform
  split
  · refine .bind_any (.of_asks (callRemote_asks (fun _ => id) _ (Asks.question id)))
      fun fetched => ?_
    split
    · exact process_heeds _ _
    · refine .bind_any (.of_asks (Asks.question id)) fun s => ?_
      split
      · refine .bind_any (.of_asks (observe_calls_nothing i)) fun observed => ?_
        split <;> exact .pure _
      · exact .pure _
  · exact .bind_any (callPipeline_heeds _ (.question trivial)) fun _ => .pure _
  · exact .bind_any (callPipeline_heeds _ (.question trivial)) fun _ => .pure _

/-- A task hands an item to the pipeline right after a read that has found the record owned, or as
the first thing that it does. -/
theorem taskOf_heeds : Heeds order.identity IsItemCall True (taskOf rules order task) :=
  (perform_heeds _).bind_any fun done =>
    .of_asks (settle_asks (fun _ => id) (fun _ => publish_asks fun _ => id) done)

end CollectionSync.Interleaving
