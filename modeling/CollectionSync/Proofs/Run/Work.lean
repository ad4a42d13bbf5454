import CollectionSync.Proofs.Run.Dispatching

/-! # What the work of a run leaves behind, up to its terminal write

The marks of the work say how many tasks were planned, started, waited for and counted. An error
that the run cannot survive is noted only when the store has failed or a task has ended in an
error. -/

namespace CollectionSync.Interleaving

open Program

variable {rules : RunRules} {order : RunOrder} {i : RunIdentity} {h h₁ h₂ : List RunHeard}
  {α β : Type}

/-! ## No claim, and no terminal write before its time -/

/-- A program that asks nothing of the store but to read records and to write counters. -/
abbrev Working (p : Running α) : Prop := p.Asks IsWork

def IsSpawn : RunAsk → Prop
  | .spawn _ => True
  | _ => False

/-- A program that does not start a task either. -/
abbrev StartsNone (p : Running α) : Prop := p.Asks fun q => IsWork q ∧ ¬ IsSpawn q

theorem StartsNone.working {p : Running α} (hp : StartsNone p) : Working p :=
  hp.mono fun _ hq => hq.1

theorem IsRoutine.not_isSpawn {q : RunAsk} (hq : IsRoutine q) : ¬ IsSpawn q := by
  intro hspawn
  unfold IsSpawn at hspawn
  split at hspawn
  · exact hq
  · exact hspawn

theorem Routine.startsNone {p : Running α} (hp : Routine p) : StartsNone p :=
  hp.mono fun _ hq => ⟨hq.isWork, hq.not_isSpawn⟩

theorem noteFatal_startsNone (e : RunError) : StartsNone (RunIdentity.noteFatal e) :=
  (Asks.question ⟨trivial, id⟩).bind fun _ => Asks.pure _

theorem publishOrFail_startsNone (p : Progress) : StartsNone (i.publishOrFail p) := by
  refine (publish_routine i p).startsNone.bind fun published => ?_
  cases published with
  | ok outcome => trivial
  | error e => exact noteFatal_startsNone e

theorem failure_startsNone (item : FailedItem) : StartsNone (do
    let s ← Run.change (.failure item)
    i.publishOrFail s.progress) :=
  (Asks.question ⟨trivial, id⟩).bind fun _ => publishOrFail_startsNone _

theorem settle_startsNone (n : Nat) : StartsNone (Dispatch.settle i n) := by
  induction n with
  | zero => trivial
  | succ n ih =>
    refine (Asks.question ⟨trivial, id⟩).bind fun e => ?_
    split
    · exact ih
    · exact (noteFatal_startsNone _).bind fun _ => ih
    · exact (Asks.question ⟨trivial, id⟩).bind fun s =>
        (publishOrFail_startsNone _).bind fun _ => ih

/-- All that handing out the tasks of a run asks is of this kind. -/
structure CoversHandout (i : RunIdentity) (P : RunAsk → Prop) : Prop where
  look : i.observe.Asks P
  publish : ∀ p, (i.publish p).Asks P
  state : P .state
  total : ∀ count, P (.change (.total count))
  fatal : ∀ reason, P (.change (.fatal reason))
  withheld : ∀ name, P (.change (.failure (.ofCancelled name)))
  broken : ∀ message, P (.change (.failure (brokenTask message)))
  acquire : P .acquire
  release : P .release
  spawn : ∀ task, P (.spawn task)
  join : P .join

namespace CoversHandout

variable {P : RunAsk → Prop} (hP : CoversHandout i P)

include hP

theorem noteFatal (e : RunError) : (RunIdentity.noteFatal e).Asks P :=
  (Asks.question (hP.fatal _)).bind fun _ => Asks.pure _

theorem publishOrFail (p : Progress) : (i.publishOrFail p).Asks P := by
  refine (hP.publish p).bind fun published => ?_
  cases published with
  | ok outcome => trivial
  | error e => exact hP.noteFatal e

theorem settleCancelled (task : SyncTask) : (task.settleCancelled i).Asks P :=
  (Asks.question (hP.withheld _)).bind fun _ => hP.publishOrFail _

theorem startEach (tasks : List SyncTask) (n : Nat) : (Dispatch.startEach i tasks n).Asks P := by
  induction tasks generalizing n with
  | nil => trivial
  | cons task rest ih =>
    refine (Asks.question hP.state).bind fun s => ?_
    split
    · trivial
    · refine hP.look.bind fun observed => ?_
      split
      · exact (hP.noteFatal _).bind fun _ => Asks.pure _
      · exact (hP.settleCancelled task).bind fun _ => ih _
      · refine (Asks.question hP.acquire).bind fun _ => hP.look.bind fun observed => ?_
        have hrelease : Run.release.Asks P := Asks.question hP.release
        split
        · exact (hP.noteFatal _).bind fun _ => hrelease.bind fun _ => Asks.pure _
        · exact hrelease.bind fun _ => (hP.settleCancelled task).bind fun _ => ih _
        · exact (Asks.question (hP.spawn task)).bind fun _ => ih _

theorem settle (n : Nat) : (Dispatch.settle i n).Asks P := by
  induction n with
  | zero => trivial
  | succ n ih =>
    refine (Asks.question hP.join).bind fun e => ?_
    split
    · exact ih
    · exact (hP.noteFatal _).bind fun _ => ih
    · exact (Asks.question (hP.broken _)).bind fun s =>
        (hP.publishOrFail _).bind fun _ => ih

theorem all (tasks : List SyncTask) : (Dispatch.all i tasks).Asks P := by
  refine (Asks.question (hP.total _)).bind fun s => (hP.publish _).bind fun published => ?_
  split
  · exact hP.noteFatal _
  · exact (hP.startEach tasks 0).bind fun n => hP.settle n

end CoversHandout

theorem isWork_coversHandout : CoversHandout i IsWork where
  look := (observe_routine i).mono fun _ hq => hq.isWork
  publish p := (publish_routine i p).mono fun _ hq => hq.isWork
  state := trivial
  total _ := trivial
  fatal _ := trivial
  withheld _ := trivial
  broken _ := trivial
  acquire := trivial
  release := trivial
  spawn _ := trivial
  join := trivial

/-- All that listing the roots asks is of a kind that looks at the record, the listing of each root
and the notes on those that could not be listed are of. -/
theorem extend_asks_of {P : RunAsk → Prop} (hlook : order.identity.observe.Asks P)
    (hlist : ∀ root, (listingOf rules order root).Asks P) (hstate : P .state)
    (hchange : ∀ item, P (.change (.runFailure item))) (roots : List SourceRoot) (l : Listing) :
    (Listing.extend rules order order.identity roots l).Asks P := by
  induction roots generalizing l with
  | nil => trivial
  | cons root rest ih =>
    refine hlook.bind fun observed => ?_
    split
    · trivial
    · trivial
    · refine (hlist root).bind fun listed => ?_
      split
      · exact ih _
      · refine (Asks.question hstate).bind fun s => ?_
        split
        · refine hlook.bind fun observed => ?_
          split <;> trivial
        · exact (Asks.question (hchange _)).bind fun _ => ih _

theorem extend_asks {P : RunAsk → Prop} (hroutine : ∀ q, IsRoutine q → P q)
    (hchange : ∀ item, P (.change (.runFailure item))) (roots : List SourceRoot) (l : Listing) :
    (Listing.extend rules order order.identity roots l).Asks P :=
  extend_asks_of ((observe_routine _).mono hroutine) (fun root =>
    (listingOf_routine root).mono hroutine)
    (hroutine _ trivial) hchange roots l

theorem work_working : Working (order.work rules) := by
  have hlist : Working (order.listRoots rules) := by
    refine (extend_asks (fun _ hq => hq.isWork) (fun _ => trivial) _ _).bind fun listed => ?_
    split
    · trivial
    · exact (noteFatal_startsNone _).working.bind fun _ => Asks.pure _
  have hcarry : ∀ listing, Working (order.carryOut rules listing) := by
    intro listing
    refine state_routine.startsNone.working.bind fun s => ?_
    split
    · exact ((Asks.question trivial).bind fun _ => Asks.pure _).bind fun plan =>
        isWork_coversHandout.all plan.tasks
    · trivial
  exact (Asks.question trivial).bind fun _ => hlist.bind fun listing =>
    (hcarry listing).bind fun _ =>
      (Asks.question trivial).bind fun _ => Asks.pure _

/-! ## Errors that a run cannot survive -/

/-- The store fails, or a task has ended in an error. -/
def Troubles (q : RunAsk) (a : q.Answer) : Prop :=
  IsStoreError q a ∨ ∃ e : RunError, (⟨q, a⟩ : RunHeard) = ⟨.join, .settled (.error e)⟩

/-- The program notes an error for the whole run only when there is trouble. -/
def Excused (p : Running α) : Prop :=
  ∀ h a, Yields p h a → Has (fun q _ => IsFatal q) h → Has Troubles h

namespace Excused

theorem of_asks {p : Running α} (hp : p.Asks fun q => ¬ IsFatal q) : Excused p := by
  intro h a hy hfatal
  obtain ⟨e, he, hfatal⟩ := hfatal
  exact absurd hfatal ((hp.of_follows hy).1 e he)

theorem of_routine {p : Running α} (hp : Routine p) : Excused p :=
  of_asks (hp.mono fun _ hq => hq.not_isFatal)

theorem pure (a : α) : Excused (Pure.pure a : Running α) := of_routine (Asks.pure a)

theorem question {q : RunAsk} (hq : ¬ IsFatal q) : Excused (question q) :=
  of_asks (Asks.question hq)

theorem bind {p : Running α} {f : α → Running β} (hp : Excused p) (hf : ∀ a, Excused (f a)) :
    Excused (p >>= f) := by
  intro h b hy hfatal
  obtain ⟨h₁, a, h₂, rfl, hy₁, hy₂⟩ := yields_bind.mp hy
  rcases has_append.mp hfatal with hfatal | hfatal
  · exact has_append.mpr (.inl (hp h₁ a hy₁ hfatal))
  · exact has_append.mpr (.inr (hf a h₂ b hy₂ hfatal))

/-- What a program does after an error of the store needs no other excuse. -/
theorem bind_ok {p : Running (Except RunError α)} {f : Except RunError α → Running β}
    (hp : Excused p) (hb : Blames (fun _ => True) p) (hf : ∀ a, Excused (f (.ok a))) :
    Excused (p >>= f) := by
  intro h b hy hfatal
  obtain ⟨h₁, result, h₂, rfl, hy₁, hy₂⟩ := yields_bind.mp hy
  cases result with
  | error e => exact has_append.mpr (.inl ((hb h₁ e trivial hy₁).mono fun _ _ => .inl))
  | ok a =>
    rcases has_append.mp hfatal with hfatal | hfatal
    · exact has_append.mpr (.inl (hp h₁ _ hy₁ hfatal))
    · exact has_append.mpr (.inr (hf a h₂ b hy₂ hfatal))

theorem join {f : TaskEnd → Running α} (hok : Excused (f (.settled (.ok ()))))
    (hbroken : ∀ message, Excused (f (.broken message))) : Excused (Run.join >>= f) := by
  intro h a hy hfatal
  obtain ⟨h₁, e, h₂, rfl, hj, hy₂⟩ := yields_bind.mp hy
  obtain rfl := yields_question.mp hj
  have hrest : Excused (f e) → Has Troubles ([⟨.join, e⟩] ++ h₂) := by
    intro hf
    rcases has_append.mp hfatal with ⟨_, he, hnot⟩ | hfatal
    · cases List.mem_singleton.mp he
      exact hnot.elim
    · exact has_append.mpr (.inr (hf h₂ a hy₂ hfatal))
  cases e with
  | settled result =>
    cases result with
    | error e => exact ⟨_, List.mem_cons_self, .inr ⟨e, rfl⟩⟩
    | ok u => exact hrest hok
  | broken message => exact hrest (hbroken message)

end Excused

theorem publishOrFail_excused (p : Progress) : Excused (i.publishOrFail p) :=
  (Excused.of_routine (publish_routine i p)).bind_ok (publish_blames i p) fun _ => .pure _

theorem failure_excused (item : FailedItem) : Excused (do
    let s ← Run.change (.failure item)
    i.publishOrFail s.progress) :=
  (Excused.question id).bind fun _ => publishOrFail_excused _

theorem startEach_excused (tasks : List SyncTask) (n : Nat) :
    Excused (Dispatch.startEach i tasks n) := by
  induction tasks generalizing n with
  | nil => exact .pure n
  | cons task rest ih =>
    have hlook := Excused.of_routine (observe_routine i)
    have hask : ∀ q, ¬ IsFatal q → Excused (question q) := fun _ => Excused.question
    refine (Excused.of_routine state_routine).bind fun s => ?_
    split
    · exact .pure n
    · refine hlook.bind_ok (observe_blames i) fun cancelled => ?_
      cases cancelled with
      | true => exact (failure_excused _).bind fun _ => ih n
      | false =>
        refine (hask .acquire id).bind fun _ => ?_
        refine hlook.bind_ok (observe_blames i) fun cancelled => ?_
        cases cancelled with
        | true =>
          exact (hask .release id).bind fun _ =>
            (failure_excused _).bind fun _ => ih n
        | false => exact (hask (.spawn task) id).bind fun _ => ih (n + 1)

theorem settle_excused (n : Nat) : Excused (Dispatch.settle i n) := by
  induction n with
  | zero => exact .pure ()
  | succ n ih =>
    refine .join ih fun message => ?_
    exact (Excused.question id).bind fun _ =>
      (publishOrFail_excused _).bind fun _ => ih

theorem all_excused (tasks : List SyncTask) : Excused (Dispatch.all i tasks) :=
  (Excused.question id).bind fun _ =>
    (Excused.of_routine (publish_routine i _)).bind_ok (publish_blames i _) fun _ =>
      (startEach_excused tasks 0).bind fun n => settle_excused n

theorem work_excused : Excused (order.work rules) := by
  have hlist : Excused (order.listRoots rules) := by
    exact .bind_ok (.of_asks (extend_asks (fun _ hq => hq.not_isFatal) (fun _ => id) _ _))
      (extend_blames _ _) fun listing => .pure listing
  have hcarry : ∀ listing, Excused (order.carryOut rules listing) := by
    intro listing
    refine (Excused.of_routine state_routine).bind fun s => ?_
    split
    · exact ((Excused.question id).bind fun _ => .pure _).bind fun plan =>
        all_excused plan.tasks
    · exact .pure ()
  exact (Excused.question id).bind fun _ => hlist.bind fun listing =>
    (hcarry listing).bind fun _ => (Excused.question id).bind fun _ => .pure _

/-! ## What was planned, and what was done of it -/

/-- After the watch was started the roots were listed, all but `missed` of them and those after a
cancellation; then the state was read, and the plan made from their changes. -/
inductive Prepared (rules : RunRules) (order : RunOrder) : List RunHeard → RunPlan → Nat → Prop
  | mk {h₁ h₂ h₃ : List RunHeard} {listing : Listing} {s : RunState} {plan : RunPlan}
      {missed : Nat} :
    Yields (Listing.ofOrder rules order order.identity) h₁ (.ok listing) →
    Unlisted rules order order.request.roots h₁ missed →
    Yields (RunPlan.ofChanges rules.slots rules.itemTimeout order.identity.collection
      listing.changes) h₂ plan →
    Prepared rules order (⟨.startWatch, ()⟩ :: (h₁ ++ ⟨.state, s⟩ :: (h₂ ++ h₃))) plan missed

theorem Prepared.append {plan : RunPlan} {missed : Nat} (hp : Prepared rules order h plan missed)
    (h' : List RunHeard) : Prepared rules order (h ++ h') plan missed := by
  cases hp with
  | mk hl hu hplan =>
    simp only [List.cons_append, List.append_assoc]
    exact .mk hl hu hplan

theorem ofChanges_marks {width : Nat} {limit : Span} {c : CollectionId}
    {changes : List (SourceRoot × ChangeSet)} {plan : RunPlan}
    (hy : Yields (RunPlan.ofChanges width limit c changes) h plan) : marks h = [] := by
  obtain ⟨h₁, known, h₂, rfl, hq, hy₂⟩ := yields_bind.mp hy
  obtain rfl := yields_question.mp hq
  obtain ⟨rfl, -⟩ := yields_pure.mp hy₂
  rfl

/-- What the work on a listing leaves behind: nothing if the run is broken off before it, and else
what a dispatch leaves. -/
theorem carryOut_yields {listing : Listing} (hy : Yields (order.carryOut rules listing) h ()) :
    (marks h = [] ∧ Has BreaksOff h) ∨
      ∃ s h₁ h₂ plan, h = ⟨.state, s⟩ :: (h₁ ++ h₂) ∧
        Yields (RunPlan.ofChanges rules.slots rules.itemTimeout order.identity.collection
          listing.changes) h₁ plan ∧
        Dispatched plan.tasks (¬ Has BreaksOff h) (marks h) := by
  obtain ⟨h₁, s, h₂, rfl, hs, hy₂⟩ := yields_bind.mp hy
  obtain rfl := yields_question.mp hs
  split at hy₂
  · obtain ⟨h₃, plan, h₄, rfl, hp, hy₄⟩ := yields_bind.mp hy₂
    refine .inr ⟨s, h₃, h₄, plan, rfl, hp, ?_⟩
    rw [marks_append, marks_append, ofChanges_marks hp]
    refine (all_dispatches hy₄).mono fun hw hb => hw ?_
    exact has_append.mpr (.inr (has_append.mpr (.inr hb)))
  · next hgo =>
    obtain ⟨rfl, -⟩ := yields_pure.mp hy₂
    have hfatal : s.fatal.isSome = true := by
      cases hs : s.fatal with
      | none => exact absurd (by rw [hs]; rfl) hgo
      | some reason => rfl
    exact .inl ⟨rfl, _, List.mem_cons_self, .inr ⟨s, rfl, hfatal⟩⟩

/-- Where the store fails the listing of the roots, this is noted, and nothing counts as listed. -/
theorem listRoots_split {listing : Listing} (hy : Yields (order.listRoots rules) h listing) :
    ∃ h₁ h₂ listed, h = h₁ ++ h₂ ∧ Yields (Listing.ofOrder rules order order.identity) h₁ listed ∧
      (∀ e ∈ h₂, IsFatal e.1) ∧ (listed = .ok listing ∧ h₂ = [] ∨
        ∃ e, listed = .error e ∧ listing = ⟨[], order.admission.record.tokens⟩) := by
  obtain ⟨h₁, listed, h₂, rfl, hl, hy₂⟩ := yields_bind.mp hy
  cases listed with
  | ok listing =>
    obtain ⟨rfl, rfl⟩ := yields_pure.mp hy₂
    exact ⟨h₁, [], .ok listing, rfl, hl, List.forall_mem_nil _, .inl ⟨rfl, rfl⟩⟩
  | error e =>
    obtain ⟨h₃, ⟨⟩, h₄, rfl, hn, hy₄⟩ := yields_bind.mp hy₂
    obtain ⟨rfl, rfl⟩ := yields_pure.mp hy₄
    have hfatal : (RunIdentity.noteFatal e).Asks IsFatal :=
      (Asks.question trivial).bind fun _ => Asks.pure _
    rw [List.append_nil]
    exact ⟨h₁, h₃, .error e, rfl, hl, (hfatal.of_follows hn).1, .inr ⟨e, rfl, rfl⟩⟩

/-- The listing of a run leaves a mark for each root that it missed; only an error of the store
makes the run go on with another listing than it came to. -/
theorem listRoots_yields {listing : Listing} (hy : Yields (order.listRoots rules) h listing) :
    ∃ missed, marks h = List.replicate missed .uncounted ∧
      (¬ Faulted h → Unlisted rules order order.request.roots h missed ∧
        Yields (Listing.ofOrder rules order order.identity) h (.ok listing)) := by
  obtain ⟨h₁, h₂, listed, rfl, hl, hfatal, hend⟩ := listRoots_split hy
  obtain ⟨missed, hu⟩ := extend_unlisted hl
  have hmarks : marks (h₁ ++ h₂) = List.replicate missed .uncounted := by
    rw [marks_append, hu.marks_eq, marks_eq_nil fun e he => (hfatal e he).isQuiet, List.append_nil]
  refine ⟨missed, hmarks, fun hok => ?_⟩
  rcases hend with ⟨rfl, rfl⟩ | ⟨e, rfl, -⟩
  · rw [List.append_nil]
    exact ⟨hu, hl⟩
  · exact absurd (has_append.mpr (.inl (extend_blames _ _ h₁ e trivial hl))) hok

/-- The work of a run: under watch, the roots are listed, and then what they call for is done. -/
theorem work_split {listing : Listing} (hy : Yields (order.work rules) h listing) :
    ∃ h₁ h₂, h = ⟨.startWatch, ()⟩ :: (h₁ ++ (h₂ ++ [⟨.endWatch, ()⟩])) ∧
      Yields (order.listRoots rules) h₁ listing ∧ Yields (order.carryOut rules listing) h₂ () := by
  obtain ⟨h₁, ⟨⟩, h₂, rfl, hw, hy₂⟩ := yields_bind.mp hy
  obtain rfl := yields_question.mp hw
  obtain ⟨h₃, listing', h₄, rfl, hl, hy₄⟩ := yields_bind.mp hy₂
  obtain ⟨h₅, ⟨⟩, h₆, rfl, hc, hy₆⟩ := yields_bind.mp hy₄
  obtain ⟨h₇, ⟨⟩, h₈, rfl, he, hy₈⟩ := yields_bind.mp hy₆
  obtain rfl := yields_question.mp he
  obtain ⟨rfl, rfl⟩ := yields_pure.mp hy₈
  exact ⟨h₃, h₅, rfl, hl, hc⟩

theorem work_yields {listing : Listing} (hy : Yields (order.work rules) h listing) :
    ∃ missed l, marks h = List.replicate missed .uncounted ++ l ∧
      (l = [] ∨ ∃ tasks, Dispatched tasks (¬ Has BreaksOff h) l) ∧
      (¬ Has BreaksOff h →
        ∃ plan, Prepared rules order h plan missed ∧ Dispatched plan.tasks True l) := by
  obtain ⟨h₃, h₅, rfl, hl, hc⟩ := work_split hy
  obtain ⟨missed, hm, hlisted⟩ := listRoots_yields hl
  refine ⟨missed, marks h₅, ?_, ?_, ?_⟩
  · have hends : marks [⟨.endWatch, ()⟩] = [] ∧ mark? .startWatch () = none := ⟨rfl, rfl⟩
    simp only [marks_cons, marks_append, hm, hends, Option.toList_none, List.append_nil,
      List.nil_append]
  · rcases carryOut_yields hc with ⟨hnone, -⟩ | ⟨_, _, _, plan, -, -, hd⟩
    · exact .inl hnone
    · exact .inr ⟨plan.tasks, hd.mono fun hw hb =>
        hw (has_cons.mpr (.inr (has_append.mpr (.inr (has_append.mpr (.inl hb))))))⟩
  · intro hwhole
    simp only [has_cons, has_append, not_or] at hwhole
    obtain ⟨-, hlist, hcarry, -⟩ := hwhole
    obtain ⟨hu, hroots⟩ := hlisted fun hf => hlist (hf.mono fun _ _ => .inl)
    rcases carryOut_yields hc with ⟨-, hb⟩ | ⟨s, h₁, h₂, plan, rfl, hp, hd⟩
    · exact absurd hb hcarry
    · refine ⟨plan, ?_, hd.mono fun _ => hcarry⟩
      have hprepared := (Prepared.mk hroots hu hp : Prepared rules order
        (⟨.startWatch, ()⟩ :: (h₃ ++ ⟨.state, s⟩ :: (h₁ ++ h₂))) plan missed)
      have happend := hprepared.append [⟨.endWatch, ()⟩]
      simpa only [List.cons_append, List.append_assoc] using happend

theorem Balance.nothing {whole : Prop} : Balance [] whole [] :=
  ⟨rfl, .slnil, rfl, Nat.le_refl 0, fun _ => rfl, rfl⟩

theorem Balance.listed {tasks : List SyncTask} {whole : Prop} {l : List Mark}
    (hb : Balance tasks whole l) (missed : Nat) :
    Balance tasks whole (List.replicate missed .uncounted ++ l) := by
  induction missed with
  | zero => exact hb
  | succ missed ih =>
    rw [List.replicate_succ, List.cons_append]
    obtain ⟨hplanned, hstarted, hawaited, hbounded, hsettled, hsuccess⟩ := ih
    have hcount : ∀ m, m ≠ .uncounted → ∀ l : List Mark,
        (Mark.uncounted :: l).count m = l.count m := fun m hm l => List.count_cons_of_ne hm.symm
    refine ⟨hplanned, hstarted, ?_, ?_, ?_, ?_⟩
    · rwa [hcount .joined (by simp), hcount .broken (by simp)]
    · rwa [hcount .failure (by simp), hcount .broken (by simp)]
    · rwa [hcount .failure (by simp), hcount .broken (by simp)]
    · rwa [hcount .success (by simp)]

/-- The work of a run balances. If nothing has broken it off, it does so for the tasks of the
plan. -/
theorem work_balance {listing : Listing} (hy : Yields (order.work rules) h listing) :
    ∃ tasks, Balance tasks (¬ Has BreaksOff h) (marks h) ∧
      (¬ Has BreaksOff h → ∃ plan, plan.tasks = tasks ∧
        Prepared rules order h plan ((marks h).count .uncounted)) := by
  obtain ⟨missed, l, hmarks, hl, hplan⟩ := work_yields hy
  have huncounted : ∀ l : List Mark, l.count .uncounted = 0 →
      (List.replicate missed Mark.uncounted ++ l).count Mark.uncounted = missed := by
    intro l hzero
    rw [List.count_append, List.count_replicate_self, hzero, Nat.add_zero]
  rw [hmarks]
  by_cases hb : Has BreaksOff h
  · rcases hl with rfl | ⟨tasks, hd⟩
    · exact ⟨[], Balance.nothing.listed missed, fun hw => absurd hb hw⟩
    · exact ⟨tasks, hd.balance.1.listed missed, fun hw => absurd hb hw⟩
  · obtain ⟨plan, hp, hd⟩ := hplan hb
    refine ⟨plan.tasks, (hd.mono fun _ => trivial).balance.1.listed missed,
      fun _ => ⟨plan, rfl, ?_⟩⟩
    rwa [huncounted l hd.balance.2]

end CollectionSync.Interleaving
