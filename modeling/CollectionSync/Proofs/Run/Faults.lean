import CollectionSync.Proofs.Run.Invariants

/-! # A failing store does not go unnoticed

A program that asks the store and is told of an error ends in an error that the run cannot survive,
and the main program notes such an error for the whole run, whether it was told itself or hears of
it from a task. -/

namespace CollectionSync.Interleaving

open Program

variable {rules : RunRules} {order : RunOrder} {i : RunIdentity} {task : SyncTask}
  {h : List RunHeard} {α β : Type}

def IsStore : RunAsk → Prop
  | .keeper (.store _) => True
  | _ => False

def IsJoin : RunAsk → Prop
  | .join => True
  | _ => False

theorem IsStoreError.isStore {q : RunAsk} {a : q.Answer} (hfault : IsStoreError q a) :
    IsStore q := by
  unfold IsStoreError at hfault
  split at hfault
  · trivial
  · cases hfault

theorem IsFatal.not_isStore {q : RunAsk} (hq : IsFatal q) : ¬ IsStore q := by
  unfold IsFatal at hq
  split at hq
  · exact id
  · exact hq.elim

theorem not_faulted_of_asks {p p' : Running α} (hp : p.Asks fun q => ¬ IsStore q)
    (hf : Follows p h p') : ¬ Faulted h := by
  intro hfault
  obtain ⟨⟨q, a⟩, he, hfault⟩ := hfault
  exact (hp.of_follows hf).1 _ he hfault.isStore

/-! ## Programs that are told -/

/-- Where the store fails, the program is at its end, in an error that the run cannot survive. -/
def Admits (p : Running (Except RunError α)) : Prop :=
  ∀ h p', Follows p h p' → Faulted h → ∃ e : RunError, p' = pure (.error e) ∧ e.isFatal = true

namespace Admits

theorem of_yields {p : Running (Except RunError α)} (hp : Admits p) {result : Except RunError α}
    (hy : Yields p h result) (hfault : Faulted h) :
    ∃ e, result = .error e ∧ e.isFatal = true := by
  obtain ⟨e, heq, hfatal⟩ := hp h _ hy hfault
  exact ⟨e, Program.done.inj heq, hfatal⟩

theorem pure (result : Except RunError α) : Admits (Pure.pure result) := by
  intro h p' hf hfault
  obtain ⟨rfl, -⟩ := follows_done.mp hf
  exact absurd hfault not_has_nil

theorem bind {p : Running α} {f : α → Running (Except RunError β)}
    (hp : p.Asks fun q => ¬ IsStore q) (hf : ∀ a, Admits (f a)) : Admits (p >>= f) := by
  intro h p' hfollows hfault
  rcases follows_bind.mp hfollows with ⟨p₀, hp₀, -⟩ | ⟨h₁, a, h₂, rfl, hy, hrest⟩
  · exact absurd hfault (not_faulted_of_asks hp hp₀)
  · rcases has_append.mp hfault with hfault | hfault
    · exact absurd hfault (not_faulted_of_asks hp hy)
    · exact hf a h₂ p' hrest hfault

/-- An error that the run cannot survive is passed on. -/
theorem bind_result {p : Running (Except RunError α)}
    {f : Except RunError α → Running (Except RunError β)} (hp : Admits p)
    (herror : ∀ e : RunError, e.isFatal = true → f (.error e) = Pure.pure (.error e))
    (hf : ∀ result, Admits (f result)) : Admits (p >>= f) := by
  intro h p' hfollows hfault
  rcases follows_bind.mp hfollows with ⟨p₀, hp₀, rfl⟩ | ⟨h₁, result, h₂, rfl, hy, hrest⟩
  · obtain ⟨e, rfl, hfatal⟩ := hp h p₀ hp₀ hfault
    exact ⟨e, herror e hfatal, hfatal⟩
  · rcases has_append.mp hfault with hfault | hfault
    · obtain ⟨e, rfl, hfatal⟩ := hp.of_yields hy hfault
      rw [herror e hfatal] at hrest
      exact ⟨e, (follows_done.mp hrest).2, hfatal⟩
    · exact hf result h₂ p' hrest hfault

theorem bind_error {p : Running (Except RunError α)}
    {f : Except RunError α → Running (Except RunError β)} (hp : Admits p)
    (herror : ∀ e, f (.error e) = Pure.pure (.error e)) (hok : ∀ a, Admits (f (.ok a))) :
    Admits (p >>= f) := by
  refine hp.bind_result (fun e _ => herror e) fun result => ?_
  cases result with
  | error e =>
    rw [herror]
    exact pure _
  | ok a => exact hok a

end Admits

theorem keeper_asks {P : RunAsk → Prop} (k : KeeperAsk) (hk : P (.keeper k)) :
    (Run.keeping (question k)).Asks P := ⟨hk, fun _ => trivial⟩

theorem perform_admits (op : StoreOp) : Admits (Run.keeping (Keeper.perform op)) := by
  intro h p' hf hfault
  cases hf with
  | refl => exact absurd hfault not_has_nil
  | hear reply hf =>
    obtain ⟨rfl, rfl⟩ := follows_done.mp hf
    cases reply with
    | error e => exact ⟨RunError.ofStore e, rfl, rfl⟩
    | ok a =>
      rcases has_cons.mp hfault with hfault | hfault
      · cases hfault
      · exact absurd hfault not_has_nil

theorem publish_admits (i : RunIdentity) (p : Progress) : Admits (i.publish p) := by
  rw [RunIdentity.publish, Keeper.writeProgress, keeping_bind]
  refine .bind (keeper_asks _ id) fun t => ?_
  rw [keeping_bind]
  refine (perform_admits _).bind_error (fun _ => rfl) fun outcome => ?_
  cases outcome with
  | discarded => exact .pure _
  | applied =>
    rw [keeping_bind]
    refine .bind (keeper_asks _ id) fun watched => ?_
    cases watched with
    | false => exact .pure _
    | true =>
      rw [if_pos rfl, keeping_bind]
      refine (perform_admits _).bind_error (fun _ => rfl) fun found => ?_
      cases found with
      | none => exact .pure _
      | some record =>
        rw [keeping_bind]
        exact .bind (keeper_asks _ id) fun _ => .pure _

theorem observe_admits (i : RunIdentity) : Admits i.observe := by
  have hlatch : (Run.change .cancelled).Asks fun q => ¬ IsStore q := Asks.question id
  refine .bind (Asks.question id) fun s => ?_
  split
  · exact .pure _
  · split
    · exact .bind hlatch fun _ => .pure _
    · refine (perform_admits _).bind_error (fun _ => rfl) fun found => ?_
      dsimp only
      split
      · exact .pure _
      · exact .bind hlatch fun _ => .pure _

theorem process_admits (i : RunIdentity) (item : Item) (bytes : List UInt8) :
    Admits (SyncTask.process rules i item bytes) := by
  refine (observe_admits i).bind_error (fun _ => rfl) fun cancelled => ?_
  cases cancelled with
  | true => exact .pure _
  | false => exact .bind (callPipeline_asks _ (Asks.question id)) fun _ => .pure _

theorem action_admits (i : RunIdentity) (credentials : String) (task : SyncTask) :
    Admits (task.perform rules i credentials) := by
  unfold SyncTask.perform
  split
  · refine .bind (callRemote_asks (fun _ => id) _ (Asks.question id)) fun fetched => ?_
    cases fetched with
    | ok bytes => exact process_admits i _ bytes
    | error e =>
      refine .bind (Asks.question id) fun s => ?_
      split
      · refine (observe_admits i).bind_error (fun _ => rfl) fun cancelled => ?_
        cases cancelled <;> exact .pure _
      · exact .pure _
  · exact .bind (callPipeline_asks _ (Asks.question id)) fun _ => .pure _
  · exact .bind (callPipeline_asks _ (Asks.question id)) fun _ => .pure _

theorem settle_admits (done : Except RunError Unit) : Admits (task.settle i done) := by
  have hcount : ∀ c : RunChange, Admits (do
      let s ← Run.change c
      return (← i.publish s.progress).map fun _ => ()) := fun c =>
    .bind (Asks.question id) fun s =>
      (publish_admits i _).bind_error (fun _ => rfl) fun _ => .pure _
  unfold SyncTask.settle
  cases done with
  | ok u => exact hcount _
  | error e =>
    by_cases hfatal : e.isFatal = true
    · simp only [hfatal, if_true]
      exact .pure _
    · simp only [hfatal]
      exact hcount _

/-- A task that is told of an error of the store ends in it. -/
theorem taskOf_admits : Admits (taskOf rules order task) := by
  refine (action_admits _ _ task).bind_result (fun e hfatal => ?_) settle_admits
  simp only [SyncTask.settle, hfatal, if_true]

theorem extend_admits (roots : List SourceRoot) (l : Listing) :
    Admits (Listing.extend rules order order.identity roots l) := by
  induction roots generalizing l with
  | nil => exact .pure _
  | cons root rest ih =>
    refine (observe_admits _).bind_error (fun _ => rfl) fun cancelled => ?_
    cases cancelled with
    | true => exact .pure _
    | false =>
      refine .bind (listingOf_asks (fun _ => id) fun _ _ => id) fun listed => ?_
      cases listed with
      | ok set => exact ih _
      | error e =>
        refine .bind (Asks.question id) fun s => ?_
        split
        · exact (observe_admits _).bind_error (fun _ => rfl) fun _ => .pure _
        · exact .bind (Asks.question id) fun _ => ih _

/-! ## Programs that note it for the whole run -/

/-- A question that may be answered with trouble. -/
def MayTrouble : RunAsk → Prop
  | .keeper (.store _) | .join => True
  | _ => False

theorem IsStore.mayTrouble {q : RunAsk} (hq : IsStore q) : MayTrouble q := by
  unfold IsStore at hq
  split at hq
  · trivial
  · cases hq

theorem IsJoin.mayTrouble {q : RunAsk} (hq : IsJoin q) : MayTrouble q := by
  unfold IsJoin at hq
  split at hq
  · trivial
  · cases hq

/-- Where there is trouble, the program notes an error for the whole run. -/
def Confesses (p : Running α) : Prop :=
  ∀ h a, Yields p h a → Has Troubles h → Has (fun q _ => IsFatal q) h

/-- Only who waits for tasks can hear of other troubles than those of the store. -/
theorem faulted_of_troubles {p p' : Running α} (hp : p.Asks fun q => ¬ IsJoin q)
    (hf : Follows p h p') (ht : Has Troubles h) : Faulted h := by
  obtain ⟨⟨q, a⟩, he, hfault | ⟨e, hjoin⟩⟩ := ht
  · exact ⟨_, he, hfault⟩
  · rw [hjoin] at he
    exact absurd trivial ((hp.of_follows hf).1 _ he)

theorem IsRoutine.not_isJoin {q : RunAsk} (hq : IsRoutine q) : ¬ IsJoin q := by
  intro hjoin
  unfold IsJoin at hjoin
  split at hjoin
  · exact hq
  · exact hjoin

theorem Routine.not_joins {p : Running α} (hp : Routine p) : p.Asks fun q => ¬ IsJoin q :=
  hp.mono fun _ hq => hq.not_isJoin

namespace Confesses

theorem of_asks {p : Running α} (hp : p.Asks fun q => ¬ MayTrouble q) : Confesses p := by
  intro h a hy ht
  have hfault := faulted_of_troubles (hp.mono fun _ hq h => hq h.mayTrouble) hy ht
  exact absurd hfault (not_faulted_of_asks (hp.mono fun _ hq h => hq h.mayTrouble) hy)

theorem pure (a : α) : Confesses (Pure.pure a : Running α) := of_asks (Asks.pure a)

theorem question {q : RunAsk} (hq : ¬ MayTrouble q) : Confesses (question q) :=
  of_asks (Asks.question hq)

theorem bind {p : Running α} {f : α → Running β} (hp : Confesses p) (hf : ∀ a, Confesses (f a)) :
    Confesses (p >>= f) := by
  intro h b hy ht
  obtain ⟨h₁, a, h₂, rfl, hy₁, hy₂⟩ := yields_bind.mp hy
  rcases has_append.mp ht with ht | ht
  · exact has_append.mpr (.inl (hp h₁ a hy₁ ht))
  · exact has_append.mpr (.inr (hf a h₂ b hy₂ ht))

/-- A program that is told of an error leaves it to the next one to note it. -/
theorem bind_result {p : Running (Except RunError α)} {f : Except RunError α → Running β}
    (hp : Admits p) (hj : p.Asks fun q => ¬ IsJoin q)
    (herror : ∀ e h b, Yields (f (.error e)) h b → Has (fun q _ => IsFatal q) h)
    (hok : ∀ a, Confesses (f (.ok a))) : Confesses (p >>= f) := by
  intro h b hy ht
  obtain ⟨h₁, result, h₂, rfl, hy₁, hy₂⟩ := yields_bind.mp hy
  cases result with
  | error e => exact has_append.mpr (.inr (herror e h₂ b hy₂))
  | ok a =>
    rcases has_append.mp ht with ht | ht
    · obtain ⟨e, he, -⟩ := hp.of_yields hy₁ (faulted_of_troubles hj hy₁ ht)
      cases he
    · exact has_append.mpr (.inr (hok a h₂ b hy₂ ht))

theorem join {f : TaskEnd → Running α}
    (herror : ∀ e h a, Yields (f (.settled (.error e))) h a → Has (fun q _ => IsFatal q) h)
    (hok : Confesses (f (.settled (.ok ()))))
    (hbroken : ∀ message, Confesses (f (.broken message))) :
    Confesses (Run.join >>= f) := by
  intro h a hy ht
  obtain ⟨h₁, e, h₂, rfl, hj, hy₂⟩ := yields_bind.mp hy
  obtain rfl := yields_question.mp hj
  have hrest : Confesses (f e) → (∀ e', e ≠ .settled (.error e')) →
      Has (fun q _ => IsFatal q) ([⟨.join, e⟩] ++ h₂) := by
    intro hf hne
    rcases has_append.mp ht with ⟨x, hx, ht⟩ | ht
    · rw [List.mem_singleton.mp hx] at ht
      rcases ht with ht | ⟨e', heq⟩
      · cases ht
      · cases heq
        exact absurd rfl (hne e')
    · exact has_append.mpr (.inr (hf h₂ a hy₂ ht))
  cases e with
  | settled result =>
    cases result with
    | error e => exact has_append.mpr (.inr (herror e h₂ a hy₂))
    | ok u => exact hrest hok nofun
  | broken message => exact hrest (hbroken message) nofun

end Confesses

theorem noteFatal_fatal {e : RunError} {u : Unit} (hy : Yields (RunIdentity.noteFatal e) h u) :
    Has (fun q _ => IsFatal q) h := by
  obtain ⟨h₁, s, h₂, rfl, hc, -⟩ := yields_bind.mp hy
  obtain rfl := yields_question.mp hc
  exact ⟨_, List.mem_cons_self, trivial⟩

/-- An error that was noted stays noted, whatever comes after it. -/
theorem fatal_of_noteFatal_bind {e : RunError} {f : Unit → Running α} {a : α}
    (hy : Yields (RunIdentity.noteFatal e >>= f) h a) : Has (fun q _ => IsFatal q) h := by
  obtain ⟨h₁, u, h₂, rfl, hn, -⟩ := yields_bind.mp hy
  exact has_append.mpr (.inl (noteFatal_fatal hn))

theorem publishOrFail_confesses (p : Progress) : Confesses (i.publishOrFail p) :=
  .bind_result (publish_admits i p) (publish_routine i p).not_joins
    (fun _ _ _ hy => noteFatal_fatal hy) fun _ => .pure _

theorem failure_confesses (item : FailedItem) : Confesses (do
    let s ← Run.change (.failure item)
    i.publishOrFail s.progress) :=
  (Confesses.question id).bind fun _ => publishOrFail_confesses _

theorem startEach_confesses (tasks : List SyncTask) (n : Nat) :
    Confesses (Dispatch.startEach i tasks n) := by
  induction tasks generalizing n with
  | nil => exact .pure n
  | cons task rest ih =>
    have hask : ∀ q, ¬ MayTrouble q → Confesses (question q) := fun _ => Confesses.question
    refine (hask .state id).bind fun s => ?_
    split
    · exact .pure n
    · refine .bind_result (observe_admits i) (observe_routine i).not_joins
        (fun _ _ _ hy => fatal_of_noteFatal_bind hy) fun cancelled => ?_
      cases cancelled with
      | true => exact (failure_confesses _).bind fun _ => ih n
      | false =>
        refine (hask .acquire id).bind fun _ => ?_
        refine .bind_result (observe_admits i) (observe_routine i).not_joins
          (fun _ _ _ hy => fatal_of_noteFatal_bind hy) fun cancelled => ?_
        cases cancelled with
        | true =>
          exact (hask .release id).bind fun _ =>
            (failure_confesses _).bind fun _ => ih n
        | false => exact (hask (.spawn task) id).bind fun _ => ih (n + 1)

theorem settle_confesses (n : Nat) : Confesses (Dispatch.settle i n) := by
  induction n with
  | zero => exact .pure ()
  | succ n ih =>
    refine .join (fun _ _ _ hy => fatal_of_noteFatal_bind hy) ih fun message => ?_
    exact (Confesses.question id).bind fun _ =>
      (publishOrFail_confesses _).bind fun _ => ih

theorem all_confesses (tasks : List SyncTask) : Confesses (Dispatch.all i tasks) :=
  (Confesses.question id).bind fun _ =>
    .bind_result (publish_admits i _) (publish_routine i _).not_joins
      (fun _ _ _ hy => noteFatal_fatal hy) fun _ =>
        (startEach_confesses tasks 0).bind fun n => settle_confesses n

theorem work_confesses : Confesses (order.work rules) := by
  have hlist : Confesses (order.listRoots rules) :=
    .bind_result (extend_admits _ _)
      (extend_asks (fun _ hq => hq.not_isJoin) (fun _ => id) _ _)
      (fun _ _ _ hy => fatal_of_noteFatal_bind hy) fun listing => .pure listing
  have hcarry : ∀ listing, Confesses (order.carryOut rules listing) := by
    intro listing
    refine (Confesses.question (q := .state) id).bind fun s => ?_
    split
    · exact ((Confesses.question id).bind fun _ => .pure _).bind fun plan =>
        all_confesses plan.tasks
    · exact .pure ()
  exact (Confesses.question id).bind fun _ => hlist.bind fun listing =>
    (hcarry listing).bind fun _ => (Confesses.question id).bind fun _ => .pure _

/-! ## In every pool that a run can come to -/

variable {env : Surroundings} {p : Pool env} {m m' : List RunHeard} {listing : Listing}

/-- The reason that is given where an error is noted for the whole run. -/
def fatal? : (q : RunAsk) → q.Answer → Option String
  | .change (.fatal reason), _ => some reason
  | _, _ => none

/-- The reason of the first error that was noted for the whole run. -/
def firstFatal (h : List RunHeard) : Option String := h.findSome? fun e => fatal? e.1 e.2

theorem fatal?_isSome {q : RunAsk} {a : q.Answer} : (fatal? q a).isSome = true ↔ IsFatal q := by
  cases q with
  | change c => cases c <;> simp [fatal?, IsFatal]
  | _ => simp [fatal?, IsFatal]

theorem fatal?_eq_none {q : RunAsk} {a : q.Answer} (hq : ¬ IsFatal q) : fatal? q a = none :=
  Option.not_isSome_iff_eq_none.mp (mt fatal?_isSome.mp hq)

theorem firstFatal_append {h₁ h₂ : List RunHeard} :
    firstFatal (h₁ ++ h₂) = (firstFatal h₁).or (firstFatal h₂) := List.findSome?_append

theorem firstFatal_isSome : (firstFatal h).isSome = true ↔ Has (fun q _ => IsFatal q) h := by
  simp only [firstFatal, List.isSome_findSome?, List.any_eq_true, Has, fatal?_isSome]

theorem firstFatal_hear (p : Pool env) (q : RunAsk) (a : q.Answer) :
    firstFatal (p.hear q a).main = (firstFatal p.main).or (fatal? q a) := by
  rw [Pool.hear, firstFatal_append]
  unfold firstFatal
  rw [List.findSome?_singleton]

theorem Serves.noted {s s' : Shared env} {q : RunAsk} {a : q.Answer} (hs : Serves q a s s') :
    s'.run.fatal = s.run.fatal.or (fatal? q a) := by
  by_cases hq : IsFatal q
  · cases hs with
    | @change c =>
      cases c with
      | fatal reason => rfl
      | total | success | failure | runFailure | cancelled | stopping => cases hq
    | outward hout => cases q <;> first | cases hq | cases hout
    | state | pause | acquire | release => cases hq
  · rw [hs.fatal hq, fatal?_eq_none hq, Option.or_none]

/-- The shared state keeps the first error that the main program has noted. -/
theorem fatal_of_reachable (hr : Reachable rules order p) :
    p.shared.run.fatal = firstFatal p.main := by
  induction hr with
  | start stopping w => rfl
  | step hr hs ih =>
    cases hs with
    | main _ hs =>
      rw [firstFatal_hear, ← ih]
      exact hs.noted
    | spawn _ | join _ _ | startWatch _ | endWatch _ =>
      rw [firstFatal_hear, ← ih]
      exact Option.or_none.symm
    | task _ hq hs => exact (hs.fatal (taskOf_asks.of_follows hq).2.1.1).trans ih
    | watch _ hq hs => exact (hs.fatal (watchOf_routine.of_follows hq).2.1.not_isFatal).trans ih
    | taskEnds _ _ | taskBreaks _ _ | watchRound _ _ | watchGone | stop | world _ => exact ih

/-- The main program has heard how each task ended that it has waited for. -/
theorem heard_of_joined (hr : Reachable rules order p) :
    ∀ f ∈ p.fibers, ∀ e, f.course = .joined e → (⟨.join, e⟩ : RunHeard) ∈ p.main := by
  induction hr with
  | start stopping w => exact fun f hf => by cases hf
  | step hr hs ih =>
    cases hs with
    | main _ _ | startWatch _ | endWatch _ =>
      exact fun f hf e he => List.mem_append_left _ (ih f hf e he)
    | spawn _ =>
      intro f hf e he
      rcases List.mem_append.mp hf with hf | hf
      · exact List.mem_append_left _ (ih f hf e he)
      · rw [List.mem_singleton.mp hf] at he
        cases he
    | join _ hf =>
      rw [hf] at ih
      refine forall_mem_replaced (fun f hf e he => List.mem_append_left _ (ih f hf e he)) ?_
      intro _ e he
      cases he
      exact List.mem_append_right _ List.mem_cons_self
    | task hf _ _ | taskEnds hf _ | taskBreaks hf _ =>
      rw [hf] at ih
      exact forall_mem_replaced ih fun _ e he => by cases he
    | watch _ _ _ | watchRound _ _ | watchGone | stop | world _ => exact ih

/-- An error is noted for the whole run only when the store has failed the main program or a
task. -/
theorem faulted_of_noted (hr : Reachable rules order p) (hy : Yields (order.work rules) m listing)
    (hm : p.main = m ++ m') (hnoted : Has (fun q _ => IsFatal q) m) : Faulted p.heard := by
  obtain ⟨⟨q, a⟩, he, hfault | ⟨e, hjoin⟩⟩ := work_excused m listing hy hnoted
  · refine ⟨_, List.mem_append_left _ ?_, hfault⟩
    rw [hm]
    exact List.mem_append_left _ he
  · obtain ⟨f, hf, hcourse⟩ := (tracked_of_reachable hr).errors e (by
      rw [hm, ← hjoin]
      exact List.mem_append_left _ he)
    have hend := faithful_of_reachable hr f hf
    rw [Fiber.Faithful, hcourse] at hend
    obtain ⟨x, hx, hfault⟩ := taskOf_blames f.heard e trivial hend
    exact ⟨x, List.mem_append_right _ (List.mem_flatMap.mpr ⟨f, hf, hx⟩), hfault⟩

/-- A task that the store has failed has come to its end, and the main program has heard of it. -/
theorem troubles_of_fiber (hr : Reachable rules order p) {f : Fiber} (hf : f ∈ p.fibers)
    (hj : f.course.isJoined = true) (hfault : Faulted f.heard) :
    ∃ e : RunError, (⟨.join, .settled (.error e)⟩ : RunHeard) ∈ p.main := by
  have hheard := heard_of_joined hr f hf
  have hend := faithful_of_reachable hr f hf
  obtain ⟨task, h, course⟩ := f
  cases course with
  | working | ended => cases hj
  | joined e =>
    cases e with
    | settled result =>
      obtain ⟨e, rfl, -⟩ := taskOf_admits.of_yields hend hfault
      exact ⟨e, hheard _ rfl⟩
    | broken message =>
      obtain ⟨limit, call, next, hq⟩ := hend
      obtain ⟨e, heq, -⟩ := taskOf_admits _ _ hq hfault
      cases heq

/-- When its work is done, a run has noted an error exactly if the store has failed its main program
or a task by then. -/
theorem noted_iff_faulted (hr : Reachable rules order p) (hy : Yields (order.work rules) m listing)
    (hm : p.main = m ++ m') (hlast : ¬ Faulted m') :
    Has (fun q _ => IsFatal q) m ↔ Faulted p.heard := by
  refine ⟨faulted_of_noted hr hy hm, fun hfault => work_confesses m listing hy ?_⟩
  rcases has_append.mp hfault with hmain | ⟨x, hx, hfault⟩
  · rw [hm] at hmain
    rcases has_append.mp hmain with hfault | hfault
    · exact hfault.mono fun _ _ => .inl
    · exact absurd hfault hlast
  · obtain ⟨f, hf, hx⟩ := List.mem_flatMap.mp hx
    have hj := (joined_of_worked hr hy hm).2 f hf
    obtain ⟨e, he⟩ := troubles_of_fiber hr hf hj ⟨x, hx, hfault⟩
    rw [hm] at he
    rcases List.mem_append.mp he with he | he
    · exact ⟨_, he, .inr ⟨e, rfl⟩⟩
    · -- after the work no task is waited for
      obtain ⟨r, hr⟩ := main_follows hr
      rw [hm] at hr
      cases ((finish_asks.of_follows (hy.after hr)).1 _ he).1 (.settled (.error e))

end CollectionSync.Interleaving
