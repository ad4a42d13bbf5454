import CollectionSync.Proofs.Run.Interleaving

/-! # What a program of a run has left behind

Of all that a program has heard, the counters and the failure report depend on its marks alone. Most
questions are routine and leave none. Errors of the store are looked for in what was heard: no
program makes one up. -/

namespace CollectionSync.Interleaving

open Program

/-- What matters to the counters of a run, and to the tasks that it waits for. -/
inductive Mark where
  | total (count : Nat)
  | success
  | failure
  /-- A failure that belongs to no counted item. -/
  | uncounted
  | spawned (task : SyncTask)
  /-- A task that came to its end was waited for. -/
  | joined
  /-- A task that broke down was waited for. -/
  | broken
  deriving DecidableEq

def mark? : (q : RunAsk) → q.Answer → Option Mark
  | .change (.total count), _ => some (.total count)
  | .change (.success _), _ => some .success
  | .change (.failure _), _ => some .failure
  | .change (.runFailure _), _ => some .uncounted
  | .spawn task, _ => some (.spawned task)
  | .join, .settled _ => some .joined
  | .join, .broken _ => some .broken
  | _, _ => none

def marks (h : List RunHeard) : List Mark := h.filterMap fun e => mark? e.1 e.2

/-- The tasks that were started, in order. -/
def spawned (l : List Mark) : List SyncTask :=
  l.filterMap fun
    | .spawned task => some task
    | _ => none

def total? : Mark → Option Nat
  | .total count => some count
  | _ => none

/-- The number of planned tasks, as it was noted last. -/
def totalOf (l : List Mark) : Nat := (l.filterMap total?).getLastD 0

/-- A question that leaves no mark. -/
def IsQuiet (q : RunAsk) : Prop := ∀ a, mark? q a = none

/-- An answer with which the store fails. -/
def IsStoreError : (q : RunAsk) → q.Answer → Prop
  | .keeper (.store _), .error _ => True
  | _, _ => False

/-- An answer of the kind was heard. -/
def Has (kind : (q : RunAsk) → q.Answer → Prop) (h : List RunHeard) : Prop := ∃ e ∈ h, kind e.1 e.2

/-- The store has failed. -/
abbrev Faulted : List RunHeard → Prop := Has IsStoreError

variable {h h₁ h₂ : List RunHeard} {q : RunAsk} {a : q.Answer}

@[simp] theorem marks_nil : marks [] = [] := rfl

@[simp] theorem marks_append : marks (h₁ ++ h₂) = marks h₁ ++ marks h₂ := List.filterMap_append

theorem marks_cons : marks (⟨q, a⟩ :: h) = (mark? q a).toList ++ marks h := by
  unfold marks
  rw [List.filterMap_cons]
  cases mark? q a <;> rfl

@[simp] theorem spawned_append {l l' : List Mark} : spawned (l ++ l') = spawned l ++ spawned l' :=
  List.filterMap_append

theorem marks_eq_nil (hq : ∀ e ∈ h, IsQuiet e.1) : marks h = [] :=
  List.filterMap_eq_nil_iff.mpr fun e he => hq e he e.2

section

variable {kind kind' : (q : RunAsk) → q.Answer → Prop}

theorem not_has_nil : ¬ Has kind [] := by
  intro hh
  obtain ⟨e, he, -⟩ := hh
  cases he

@[simp] theorem has_append : Has kind (h₁ ++ h₂) ↔ Has kind h₁ ∨ Has kind h₂ := by
  simp only [Has, List.mem_append, or_and_right, exists_or]

@[simp] theorem has_cons : Has kind (⟨q, a⟩ :: h) ↔ kind q a ∨ Has kind h := by
  simp only [Has, List.mem_cons, or_and_right, exists_or, exists_eq_left]

theorem Has.mono (hh : Has kind h) (hk : ∀ q a, kind q a → kind' q a) : Has kind' h := by
  obtain ⟨e, he, hke⟩ := hh
  exact ⟨e, he, hk e.1 e.2 hke⟩

end

/-! ## Routine questions -/

/-- What is asked over and over again: by a look at the record, by a progress write, by a call. -/
def IsRoutine : RunAsk → Prop
  | .keeper (.store (.get _)) | .keeper (.store (.updateProgress ..)) => True
  | .keeper .clock | .keeper .watched | .keeper (.announce _) => True
  | .state | .change .cancelled | .within .. | .pause _ => True
  | _ => False

theorem IsRoutine.isQuiet (hq : IsRoutine q) : IsQuiet q := by
  intro a
  unfold mark?
  split <;> first | rfl | cases hq

/-- An error that the run cannot survive is noted. -/
def IsFatal : RunAsk → Prop
  | .change (.fatal _) => True
  | _ => False

theorem IsFatal.isQuiet (hq : IsFatal q) : IsQuiet q := by
  intro a
  unfold mark?
  split <;> first | rfl | cases hq

/-- The terminal write. -/
def IsFinish : RunAsk → Prop
  | .keeper (.store (.finish ..)) => True
  | _ => False

/-- What a run may ask before its terminal write: of the store no more than to read a record and to
write counters. -/
def IsWork : RunAsk → Prop
  | .keeper (.store (.get _)) | .keeper (.store (.updateProgress ..)) => True
  | .keeper (.store _) => False
  | _ => True

theorem IsRoutine.not_isFatal (hq : IsRoutine q) : ¬ IsFatal q := by
  intro hfatal
  unfold IsFatal at hfatal
  split at hfatal
  · exact hq
  · exact hfatal

theorem IsRoutine.isWork (hq : IsRoutine q) : IsWork q := by
  unfold IsRoutine at hq
  split at hq <;> trivial

theorem IsWork.not_isFinish (hq : IsWork q) : ¬ IsFinish q := by
  intro hfinish
  unfold IsFinish at hfinish
  split at hfinish
  · exact hq
  · exact hfinish

variable {α β : Type}

/-- A program that asks routine questions only. -/
abbrev Routine (p : Running α) : Prop := p.Asks IsRoutine

theorem Routine.marks_eq_nil {p p' : Running α} (hp : Routine p) (hf : Follows p h p') :
    marks h = [] :=
  Interleaving.marks_eq_nil fun e he => ((hp.of_follows hf).1 e he).isQuiet

theorem keeping_asks (p : Keeping α) : (Run.keeping p).Asks fun q => ∃ k, q = .keeper k :=
  Asks.lift (Asks.of_forall p fun k => ⟨k, rfl⟩)

theorem state_routine : Routine Run.state := Asks.question trivial

theorem publish_asks {P : RunAsk → Prop} {i : RunIdentity} {p : Progress}
    (hk : ∀ k, P (.keeper k)) :
    (i.publish p).Asks P :=
  (keeping_asks _).mono fun _ ⟨k, hq⟩ => hq ▸ hk k

theorem publish_routine (i : RunIdentity) (p : Progress) : Routine (i.publish p) := by
  have hask : ∀ k : KeeperAsk, IsRoutine (.keeper k) →
      (question k : Keeping k.Answer).Asks fun k => IsRoutine (.keeper k) :=
    fun _ hk => Asks.question hk
  refine Asks.lift ((hask .clock trivial).bind fun now => ?_)
  refine ((hask (.store (.updateProgress ..)) trivial).bind fun _ => Asks.pure _).bind
    fun written => ?_
  split
  · trivial
  · trivial
  · refine (hask .watched trivial).bind fun watched => ?_
    split
    · refine ((hask (.store (.get _)) trivial).bind fun _ => Asks.pure _).bind fun found => ?_
      split
      · trivial
      · trivial
      · exact (hask (.announce _) trivial).bind fun _ => Asks.pure _
    · trivial

/-- A check reads the state and the record, and may latch a cancellation. -/
theorem observe_asks {P : RunAsk → Prop} {i : RunIdentity} (hstate : P .state)
    (hget : P (.keeper (.store (.get i.collection)))) (hlatch : P (.change .cancelled)) :
    i.observe.Asks P := by
  have hgives : (Run.change .cancelled).Asks P := Asks.question hlatch
  have hreads : (Run.keeping (Keeper.get i.collection)).Asks P := by
    refine Asks.lift (Asks.bind (Asks.question ?_) fun _ => Asks.pure _)
    exact hget
  refine (Asks.question hstate).bind fun s => ?_
  split
  · trivial
  · split
    · exact hgives.bind fun _ => trivial
    · refine hreads.bind fun found => ?_
      split
      · trivial
      · split
        · trivial
        · exact hgives.bind fun _ => trivial

theorem observe_routine (i : RunIdentity) : Routine i.observe :=
  observe_asks trivial trivial trivial

/-! ## Errors of the store -/

/-- Where the program comes back with an error of the kind, the store has failed. -/
def Blames (kind : RunError → Prop) (p : Running (Except RunError α)) : Prop :=
  ∀ h e, kind e → Yields p h (.error e) → Faulted h

theorem keeping_bind (p : Keeping α) (f : α → Keeping β) :
    Run.keeping (p >>= f) = Run.keeping p >>= fun a => Run.keeping (f a) := lift_bind _ _ p f

namespace Blames

variable {kind : RunError → Prop}

theorem bind {p : Running α} {f : α → Running (Except RunError β)}
    (hf : ∀ a, Blames kind (f a)) : Blames kind (p >>= f) := by
  intro h e he hy
  obtain ⟨h₁, a, h₂, rfl, -, hy⟩ := yields_bind.mp hy
  exact has_append.mpr (.inr (hf a h₂ e he hy))

/-- It is enough to look at where a program goes on without an error. -/
theorem bind_ok {p : Running (Except RunError α)}
    {f : Except RunError α → Running (Except RunError β)} (hp : Blames (fun _ => True) p)
    (hf : ∀ a, Blames kind (f (.ok a))) : Blames kind (p >>= f) := by
  intro h e he hy
  obtain ⟨h₁, result, h₂, rfl, hy₁, hy₂⟩ := yields_bind.mp hy
  cases result with
  | error e' => exact has_append.mpr (.inl (hp h₁ e' trivial hy₁))
  | ok a => exact has_append.mpr (.inr (hf a h₂ e he hy₂))

theorem pure {result : Except RunError α} (hr : ∀ e, result = .error e → ¬ kind e) :
    Blames kind (pure result) := by
  intro h e he hy
  exact absurd he (hr e (yields_pure.mp hy).2.symm)

theorem ok (a : α) : Blames kind (Pure.pure (.ok a)) := pure fun e h => by cases h

end Blames

theorem perform_blames (op : StoreOp) :
    Blames (fun _ => True) (Run.keeping (Keeper.perform op)) := by
  intro h e _ hy
  rw [Keeper.perform, keeping_bind] at hy
  obtain ⟨h₁, reply, h₂, rfl, hy₁, hy₂⟩ := yields_bind.mp hy
  have hy₁ : Yields (question (RunAsk.keeper (.store op))) h₁ reply := hy₁
  obtain rfl := yields_question.mp hy₁
  cases reply with
  | error e' => exact has_append.mpr (.inl (has_cons.mpr (.inl trivial)))
  | ok a => cases (yields_pure.mp hy₂).2

theorem publish_blames (i : RunIdentity) (p : Progress) :
    Blames (fun _ => True) (i.publish p) := by
  rw [RunIdentity.publish, Keeper.writeProgress, keeping_bind]
  refine .bind fun t => ?_
  rw [keeping_bind]
  refine (perform_blames _).bind_ok fun outcome => ?_
  cases outcome with
  | discarded => exact .ok _
  | applied =>
    rw [keeping_bind]
    refine .bind fun watched => ?_
    cases watched with
    | false => exact .ok _
    | true =>
      rw [if_pos rfl, keeping_bind]
      refine (perform_blames _).bind_ok fun found => ?_
      cases found with
      | none => exact .ok _
      | some record =>
        rw [keeping_bind]
        exact .bind fun _ => .ok _

theorem observe_blames (i : RunIdentity) : Blames (fun _ => True) i.observe := by
  refine .bind fun s => ?_
  split
  · exact .ok _
  · split
    · exact .bind fun _ => .ok _
    · refine (perform_blames _).bind_ok fun found => ?_
      dsimp only
      split
      · exact .ok _
      · exact .bind fun _ => .ok _

end CollectionSync.Interleaving
