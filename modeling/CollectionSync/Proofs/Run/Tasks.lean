import CollectionSync.Proofs.Run.Actions

/-! # What one task of a run comes to

A task that comes to its end is counted once, as a success exactly if its action succeeded. Only a
failing store keeps it from being counted, and only a failing store makes it end in an error. A task
that breaks down has not been counted. -/

namespace CollectionSync.Interleaving

open Program

variable {rules : RunRules} {order : RunOrder} {task : SyncTask} {h : List RunHeard}

/-! ## The errors of an action -/

/-- Errors of a kind that an item never fails with by itself. -/
structure NotOfItems (kind : RunError → Prop) : Prop where
  remote : ∀ e, ¬ kind (.remote e)
  timeout : ∀ detail, ¬ kind (.timeout detail)
  processing : ∀ e, ¬ kind (.processing e)
  cancelled : ¬ kind .cancelled

theorem fatal_notOfItems : NotOfItems fun e => e.isFatal = true where
  remote _ := Bool.false_ne_true
  timeout _ := Bool.false_ne_true
  processing _ := Bool.false_ne_true
  cancelled := Bool.false_ne_true

section

variable {kind : RunError → Prop} (hk : NotOfItems kind)

include hk

/-- A pipeline call may fail, or take too long. -/
theorem pipeline_blames {α : Type} (what : String) (harmless : PipelineError → Bool)
    (call : Running (Option (Except PipelineError α))) :
    Blames kind (callPipeline rules what call >>= fun result =>
      pure (settled harmless result)) := by
  intro h e he hy
  obtain ⟨h₁, result, h₂, rfl, hy₁, hy₂⟩ := yields_bind.mp hy
  obtain ⟨h₃, answer, h₄, -, -, hy₃⟩ := yields_bind.mp hy₁
  have hsettled := (yields_pure.mp hy₂).2
  cases answer with
  | none =>
    rw [(yields_pure.mp hy₃).2] at hsettled
    cases hsettled
    exact absurd he (hk.timeout _)
  | some answer =>
    rw [(yields_pure.mp hy₃).2] at hsettled
    cases answer with
    | ok a => cases hsettled
    | error e' =>
      simp only [settled] at hsettled
      split at hsettled
      · cases hsettled
      · cases hsettled
        exact absurd he (hk.processing _)

theorem process_blames (i : RunIdentity) (item : Item) (bytes : List UInt8) :
    Blames kind (SyncTask.process rules i item bytes) := by
  refine (observe_blames i).bind_ok fun cancelled => ?_
  cases cancelled with
  | true => exact .pure fun e h => by cases h; exact hk.cancelled
  | false => exact pipeline_blames hk _ _ _

theorem action_blames (i : RunIdentity) (credentials : String) (task : SyncTask) :
    Blames kind (task.perform rules i credentials) := by
  unfold SyncTask.perform
  split
  · refine .bind fun fetched => ?_
    cases fetched with
    | ok bytes => exact process_blames hk i _ bytes
    | error e =>
      refine .bind fun s => ?_
      split
      · refine (observe_blames i).bind_ok fun cancelled => ?_
        cases cancelled with
        | true => exact .pure fun e h => by cases h; exact hk.cancelled
        | false => exact .pure fun e h => by cases h; exact hk.remote _
      · exact .pure fun e h => by cases h; exact hk.remote _
  · exact pipeline_blames hk _ _ _
  · exact pipeline_blames hk _ _ _

end

/-! ## The whole task -/

/-- What counts as the outcome of a task. -/
def counted (task : SyncTask) : Except RunError Unit → RunChange
  | .ok () => .success task.name
  | .error e => .failure (task.failureOf e)

theorem settle_asks {P : RunAsk → Prop} {i : RunIdentity}
    (hc : ∀ done, P (.change (counted task done)))
    (hp : ∀ p, (i.publish p).Asks P) (done : Except RunError Unit) :
    (task.settle i done).Asks P := by
  have hcount : ∀ c, P (.change c) → Program.Asks P (do
      let s ← Run.change c
      return (← i.publish s.progress).map fun _ => ()) := fun c hc =>
    (Asks.question hc).bind fun s => (hp s.progress).bind fun _ => Asks.pure _
  unfold SyncTask.settle
  cases done with
  | ok u => exact hcount _ (hc (.ok ()))
  | error e =>
    dsimp only
    split
    · next heq =>
      split at heq <;> cases heq
      trivial
    · next heq =>
      split at heq <;> cases heq
      exact hcount _ (hc (.error e))

/-- A result that is not fatal is counted, and the counters are written. -/
theorem settle_yields {i : RunIdentity} {done result : Except RunError Unit}
    (hy : Yields (task.settle i done) h result) :
    (∃ e, done = .error e ∧ e.isFatal = true ∧ h = [] ∧ result = .error e) ∨
      ∃ (s : RunState) (h' : List RunHeard) (published : Except RunError ProgressOutcome),
        h = ⟨.change (counted task done), s⟩ :: h' ∧ Yields (i.publish s.progress) h' published ∧
        result = published.map fun _ => () := by
  have hcount : ∀ c, Yields (do
      let s ← Run.change c
      return (← i.publish s.progress).map fun _ => ()) h result →
      ∃ (s : RunState) (h' : List RunHeard) (published : Except RunError ProgressOutcome),
        h = ⟨.change c, s⟩ :: h' ∧ Yields (i.publish s.progress) h' published ∧
        result = published.map fun _ => () := by
    intro c hc
    obtain ⟨h₁, s, h₂, rfl, hs, hrest⟩ := yields_bind.mp hc
    obtain rfl := yields_question.mp hs
    obtain ⟨h₃, published, h₄, rfl, hp, hr⟩ := yields_bind.mp hrest
    obtain ⟨rfl, rfl⟩ := yields_pure.mp hr
    exact ⟨s, h₃, published, by rw [List.append_nil]; rfl, hp, rfl⟩
  cases done with
  | ok u => exact .inr (hcount _ hy)
  | error e =>
    by_cases hfatal : e.isFatal = true
    · simp only [SyncTask.settle, hfatal, if_true] at hy
      obtain ⟨rfl, rfl⟩ := yields_pure.mp hy
      exact .inl ⟨e, rfl, hfatal, rfl, rfl⟩
    · simp only [SyncTask.settle, hfatal] at hy
      exact .inr (hcount _ hy)

/-- Once its action is over, a task makes no more calls. -/
theorem settle_calls_nothing (i : RunIdentity) (done : Except RunError Unit) :
    (task.settle i done).Asks fun q => ∀ limit call, q ≠ .within limit call :=
  settle_asks (fun _ _ _ => (by cases ·)) (fun _ => publish_asks fun _ _ _ => (by cases ·)) done

theorem not_isItemCall {q : RunAsk} (hq : ∀ limit call, q ≠ .within limit call) :
    ¬ IsItemCall q := by
  intro hcall
  unfold IsItemCall at hcall
  split at hcall
  · exact hq _ _ rfl
  · exact hq _ _ rfl
  · exact hq _ _ rfl
  · exact hcall

theorem taskOf_blames : Blames (fun _ => True) (taskOf rules order task) := by
  intro h e _ hy
  obtain ⟨h₁, done, h₂, rfl, hy₁, hy₂⟩ := yields_bind.mp hy
  rcases settle_yields hy₂ with ⟨e', rfl, hfatal, rfl, -⟩ | ⟨s, h', published, rfl, hp, hr⟩
  · exact has_append.mpr (.inl (action_blames fatal_notOfItems _ _ _ h₁ e' hfatal hy₁))
  · cases published with
    | ok outcome => cases hr
    | error e' =>
      exact has_append.mpr (.inr (has_cons.mpr (.inr (publish_blames _ _ h' e' trivial hp))))

/-- A task that has come to its end is counted once, unless the store has failed it. -/
theorem taskOf_marks {result : Except RunError Unit}
    (hy : Yields (taskOf rules order task) h result) :
    (Succeeded rules order task h ∧ marks h = [.success]) ∨
      (¬ Succeeded rules order task h ∧
        (marks h = [.failure] ∨ marks h = [] ∧ Faulted h)) := by
  obtain ⟨h₁, done, h₂, rfl, hy₁, hy₂⟩ := yields_bind.mp hy
  have hnone : marks h₁ = [] := (perform_routine _ _ task).marks_eq_nil hy₁
  have hquiet := ((settle_calls_nothing _ done).of_follows hy₂).1
  rw [succeeded_iff hy₁ fun e he => not_isItemCall (hquiet e he), marks_append, hnone,
    List.nil_append]
  rcases settle_yields hy₂ with ⟨e, rfl, hfatal, rfl, -⟩ | ⟨s, h', published, rfl, hp, -⟩
  · refine .inr ⟨(by cases ·), .inr ⟨rfl, has_append.mpr (.inl ?_)⟩⟩
    exact action_blames fatal_notOfItems _ _ _ h₁ e hfatal hy₁
  · rw [marks_cons, (publish_routine _ _).marks_eq_nil hp]
    cases done with
    | ok u => exact .inl ⟨rfl, rfl⟩
    | error e => exact .inr ⟨(by cases ·), .inl rfl⟩

/-- A task that breaks down does so in its action, before it is counted. -/
theorem taskOf_broken {limit : Span} {call : Call}
    {next : Option call.Result → Running (Except RunError Unit)}
    (hf : Follows (taskOf rules order task) h (ask (.within limit call) next)) :
    ¬ Succeeded rules order task h ∧ marks h = [] := by
  rcases follows_bind_ask.mp hf with ⟨next', hp, -⟩ | ⟨h₁, done, h₂, rfl, -, hrest⟩
  · refine ⟨fun hs => ?_, (perform_routine _ _ task).marks_eq_nil hp⟩
    obtain ⟨e, he, hcall⟩ := hs.called
    exact perform_calls_last hp e he hcall
  · exact absurd rfl (((settle_calls_nothing _ done).of_follows hrest).2.1 limit call)

/-- A question of a task at most counts an item. -/
def IsTaskQuestion (q : RunAsk) : Prop :=
  ¬ IsFatal q ∧ ∀ a, mark? q a = none ∨ mark? q a = some .success ∨ mark? q a = some .failure

theorem taskOf_asks : (taskOf rules order task).Asks IsTaskQuestion := by
  have hroutine : ∀ q, IsRoutine q → IsTaskQuestion q := fun q hq =>
    ⟨hq.not_isFatal, fun a => .inl (hq.isQuiet a)⟩
  refine ((perform_routine _ _ task).mono hroutine).bind fun done => ?_
  refine settle_asks (fun done => ?_) (fun p => (publish_routine _ p).mono hroutine) done
  cases done with
  | ok u => exact ⟨id, fun a => .inr (.inl rfl)⟩
  | error e => exact ⟨id, fun a => .inr (.inr rfl)⟩

end CollectionSync.Interleaving
