import CollectionSync.Proofs.Run.Extractions
import CollectionSync.Proofs.Run.Settlement

/-! # What becomes of the tasks that are not started

The main program counts a task either never, because it has started it, or once, as cancelled.
Besides those it counts the tasks that broke down after they were started. So when the work of a run
is done and the store has not failed, each planned task was started or was counted as cancelled. -/

namespace CollectionSync.Interleaving

open Program

variable {env : Surroundings} {rules : RunRules} {order : RunOrder} {i : RunIdentity}
  {p p' : Pool env}
  {tasks : List SyncTask} {task : SyncTask} {q : RunAsk} {a : q.Answer} {n m : Nat}
  {h h₁ h₂ : List RunHeard}

/-! ## Tasks that broke down -/

def breakdown? : (q : RunAsk) → q.Answer → Option String
  | .join, .broken message => some message
  | _, _ => none

/-- The messages of the tasks that broke down, as they were waited for. -/
def breakdowns (h : List RunHeard) : List String := h.filterMap fun e => breakdown? e.1 e.2

@[simp] theorem breakdowns_append : breakdowns (h₁ ++ h₂) = breakdowns h₁ ++ breakdowns h₂ :=
  List.filterMap_append

theorem breakdowns_cons : breakdowns (⟨q, a⟩ :: h) = (breakdown? q a).toList ++ breakdowns h := by
  unfold breakdowns
  rw [List.filterMap_cons]
  cases breakdown? q a <;> rfl

theorem breakdown?_eq_none (hm : mark? q a ≠ some .broken) : breakdown? q a = none := by
  unfold breakdown?
  split
  · exact absurd rfl hm
  · rfl

theorem breakdowns_eq_nil (hm : marks h = []) : breakdowns h = [] := by
  refine List.filterMap_eq_nil_iff.mpr fun e he => breakdown?_eq_none ?_
  rw [List.filterMap_eq_nil_iff.mp hm e he]
  exact nofun

/-- Each failure, and each task that broke down, has left its mark. -/
theorem entries_of_mark : (failure? q a).toList.length = (mark? q a).toList.count .failure ∧
    (breakdown? q a).toList.length = (mark? q a).toList.count .broken := by
  cases q with
  | change c => cases c <;> exact ⟨rfl, rfl⟩
  | join => cases a <;> exact ⟨rfl, rfl⟩
  | keeper | state | within | lookups | pause | acquire | release | spawn | startWatch | endWatch =>
    exact ⟨rfl, rfl⟩

theorem entries_of_marks (h : List RunHeard) : (failures h).length = (marks h).count .failure ∧
    (breakdowns h).length = (marks h).count .broken := by
  induction h with
  | nil => exact ⟨rfl, rfl⟩
  | cons e h ih =>
    obtain ⟨q, a⟩ := e
    obtain ⟨hfailure, hbroken⟩ := entries_of_mark (q := q) (a := a)
    rw [failures_cons, breakdowns_cons, marks_cons]
    simp only [List.length_append, List.count_append]
    omega

/-- The message of a task that broke down and was waited for. -/
def Fiber.breakdown? (f : Fiber) : Option String :=
  match f.course with
  | .joined (.broken message) => some message
  | _ => none

/-- What the main program has heard of tasks that broke down is so. -/
def ToldOfBreakdowns (p : Pool env) : Prop :=
  (breakdowns p.main).Perm (p.fibers.filterMap Fiber.breakdown?)

theorem ToldOfBreakdowns.goOn (ht : ToldOfBreakdowns p)
    (hm : breakdowns p'.main = breakdowns p.main)
    (hf : p'.fibers.filterMap Fiber.breakdown? = p.fibers.filterMap Fiber.breakdown?) :
    ToldOfBreakdowns p' := by
  rw [ToldOfBreakdowns, hm, hf]
  exact ht

theorem breakdowns_hear (hq : breakdown? q a = none) :
    breakdowns (p.hear q a).main = breakdowns p.main := by
  rw [Pool.hear, breakdowns_append, breakdowns_cons, hq]
  exact List.append_nil _

theorem filterMap_breakdown?_replaced {before after : List Fiber} {f g : Fiber}
    (heq : g.breakdown? = f.breakdown?) :
    (before ++ g :: after).filterMap Fiber.breakdown? =
      (before ++ f :: after).filterMap Fiber.breakdown? := by
  simp only [List.filterMap_append, List.filterMap_cons, heq]

theorem toldOfBreakdowns_of_reachable (hr : Reachable rules order p) : ToldOfBreakdowns p := by
  induction hr with
  | start stopping w => exact .nil
  | @step p p' hr hs ih =>
    cases hs with
    | @main q _ a _ _ hserves =>
      refine ih.goOn (breakdowns_hear ?_) rfl
      unfold breakdown?
      split
      · cases hserves with
        | outward hq => cases hq
      · rfl
    | spawn _ =>
      refine ih.goOn (breakdowns_hear rfl) ?_
      rw [List.filterMap_append]
      exact List.append_nil _
    | startWatch _ | endWatch _ => exact ih.goOn (breakdowns_hear rfl) rfl
    | @join _ before after task h e _ hf =>
      cases e with
      | settled result =>
        exact ih.goOn (breakdowns_hear rfl) (hf ▸ filterMap_breakdown?_replaced rfl)
      | broken message =>
        rw [ToldOfBreakdowns, hf] at ih
        -- the task that is waited for goes where it stands among the tasks
        have hlast : (breakdowns p.main ++ [message]).Perm (message :: breakdowns p.main) :=
          List.perm_append_singleton message _
        have hmiddle :
            (message :: (before ++ ⟨task, h, .ended (.broken message)⟩ :: after).filterMap
            Fiber.breakdown?).Perm
            ((before ++ ⟨task, h, .joined (.broken message)⟩ :: after).filterMap
              Fiber.breakdown?) := by
          simp only [List.filterMap_append, List.filterMap_cons, Fiber.breakdown?]
          exact List.perm_middle.symm
        rw [ToldOfBreakdowns, Pool.hear, breakdowns_append]
        exact hlast.trans ((ih.cons message).trans hmiddle)
    | task hf _ _ | taskEnds hf _ | taskBreaks hf _ =>
      exact ih.goOn rfl (hf ▸ filterMap_breakdown?_replaced rfl)
    | watch | watchRound | watchGone | stop | world => exact ih

/-! ## Starting the tasks -/

/-- The entry of a task that is not started. -/
def refusal (task : SyncTask) : FailedItem := .ofCancelled task.name

/-- These tasks were started and these failures counted, and none was waited for. -/
structure Tally (started : List SyncTask) (failed : List FailedItem)
    (h : List RunHeard) : Prop where
  started : spawned (marks h) = started
  failed : failures h = failed
  unbroken : breakdowns h = []

namespace Tally

variable {started started' : List SyncTask} {failed failed' : List FailedItem}

theorem quiet (hm : marks h = []) : Tally [] [] h :=
  ⟨by rw [hm]; rfl, failures_eq_nil hm, breakdowns_eq_nil hm⟩

theorem append (ht : Tally started failed h₁) (ht' : Tally started' failed' h₂) :
    Tally (started ++ started') (failed ++ failed') (h₁ ++ h₂) := by
  refine ⟨?_, ?_, ?_⟩
  · rw [marks_append, spawned_append, ht.started, ht'.started]
  · rw [failures_append, ht.failed, ht'.failed]
  · rw [breakdowns_append, ht.unbroken, ht'.unbroken]
    rfl

end Tally

/-- A failure is counted, and the counters are written. -/
theorem failure_tally {item : FailedItem} (hy : Yields (do
      let s ← Run.change (.failure item)
      i.publishOrFail s.progress) h ()) : Tally [] [item] h := by
  obtain ⟨h₁, s, h₂, rfl, hc, hy₂⟩ := yields_bind.mp hy
  obtain rfl := yields_question.mp hc
  have hcounted : Tally [] [item] [⟨.change (.failure item), s⟩] := ⟨rfl, rfl, rfl⟩
  exact hcounted.append (.quiet (publishOrFail_yields hy₂))

/-- The tasks up to some point were started, or else counted as cancelled. -/
def Sifted (tasks : List SyncTask) (h : List RunHeard) : Prop :=
  ∃ done rest started skipped, tasks = done ++ rest ∧ (started ++ skipped).Perm done ∧
    Tally started (skipped.map refusal) h

namespace Sifted

theorem givenUp (hm : marks h = []) : Sifted tasks h := ⟨[], tasks, [], [], rfl, .nil, .quiet hm⟩

theorem skip (hm : marks h₁ = []) (hs : Sifted tasks h₂) : Sifted tasks (h₁ ++ h₂) := by
  obtain ⟨done, rest, started, skipped, htasks, hperm, ht⟩ := hs
  exact ⟨done, rest, started, skipped, htasks, hperm, (Tally.quiet hm).append ht⟩

theorem refused (ht : Tally [] [refusal task] h₁) (hs : Sifted tasks h₂) :
    Sifted (task :: tasks) (h₁ ++ h₂) := by
  obtain ⟨done, rest, started, skipped, rfl, hperm, ht'⟩ := hs
  exact ⟨task :: done, rest, started, task :: skipped, rfl,
    List.perm_middle.trans (hperm.cons task), ht.append ht'⟩

theorem started (ht : Tally [task] [] h₁) (hs : Sifted tasks h₂) :
    Sifted (task :: tasks) (h₁ ++ h₂) := by
  obtain ⟨done, rest, started, skipped, rfl, hperm, ht'⟩ := hs
  exact ⟨task :: done, rest, task :: started, skipped, rfl, hperm.cons task, ht.append ht'⟩

/-- The record is looked at before it is decided what becomes of a task. -/
theorem look {f : Except RunError Bool → Running Nat} (hy : Yields (i.observe >>= f) h m)
    (hf : ∀ observed h, Yields (f observed) h m → Sifted tasks h) : Sifted tasks h := by
  obtain ⟨h₁, observed, h₂, rfl, ho, hy₂⟩ := yields_bind.mp hy
  exact skip ((observe_routine i).marks_eq_nil ho) (hf observed h₂ hy₂)

end Sifted

theorem startEach_sifts (hy : Yields (Dispatch.startEach i tasks n) h m) : Sifted tasks h := by
  induction tasks generalizing n h with
  | nil =>
    obtain ⟨rfl, -⟩ := yields_pure.mp hy
    exact .givenUp rfl
  | cons task rest ih =>
    have hrefused : ∀ {h}, Yields (task.settleCancelled i >>= fun _ =>
        Dispatch.startEach i rest n) h m →
        Sifted (task :: rest) h := by
      intro h hy
      obtain ⟨h₁, ⟨⟩, h₂, rfl, hk, hy₂⟩ := yields_bind.mp hy
      exact .refused (failure_tally hk) (ih hy₂)
    obtain ⟨h₁, s, h₂, rfl, hs, hy₂⟩ := yields_bind.mp hy
    obtain rfl := yields_question.mp hs
    split at hy₂
    · obtain ⟨rfl, -⟩ := yields_pure.mp hy₂
      exact .givenUp rfl
    refine .skip rfl (.look hy₂ fun observed h hy => ?_)
    split at hy
    · obtain ⟨h₃, ⟨⟩, h₄, rfl, hn, hy₄⟩ := yields_bind.mp hy
      obtain ⟨rfl, -⟩ := yields_pure.mp hy₄
      rw [List.append_nil]
      exact .givenUp (noteFatal_yields hn)
    · exact hrefused hy
    -- a slot is waited for, and the record looked at again
    obtain ⟨h₃, ⟨⟩, h₄, rfl, ha, hy₄⟩ := yields_bind.mp hy
    obtain rfl := yields_question.mp ha
    refine .skip rfl (.look hy₄ fun observed h hy => ?_)
    split at hy
    · obtain ⟨h₅, ⟨⟩, h₆, rfl, hn, hy₆⟩ := yields_bind.mp hy
      obtain ⟨h₇, ⟨⟩, h₈, rfl, hr, hy₈⟩ := yields_bind.mp hy₆
      obtain rfl := yields_question.mp hr
      obtain ⟨rfl, -⟩ := yields_pure.mp hy₈
      refine .givenUp ?_
      rw [marks_append, noteFatal_yields hn]
      rfl
    · obtain ⟨h₅, ⟨⟩, h₆, rfl, hr, hy₆⟩ := yields_bind.mp hy
      obtain rfl := yields_question.mp hr
      exact .skip rfl (hrefused hy₆)
    · obtain ⟨h₅, ⟨⟩, h₆, rfl, hs, hy₆⟩ := yields_bind.mp hy
      obtain rfl := yields_question.mp hs
      exact .started ⟨rfl, rfl, rfl⟩ (ih hy₆)

/-! ## Waiting for them -/

/-- While tasks are waited for, those that broke down are counted, and nothing is started. -/
theorem settle_breakdowns (hy : Yields (Dispatch.settle i n) h ()) :
    failures h = (breakdowns h).map brokenTask ∧ spawned (marks h) = [] := by
  have hquiet : ∀ {h₁ h₂ : List RunHeard}, marks h₁ = [] →
      failures h₂ = (breakdowns h₂).map brokenTask ∧ spawned (marks h₂) = [] →
      failures (h₁ ++ h₂) = (breakdowns (h₁ ++ h₂)).map brokenTask ∧
        spawned (marks (h₁ ++ h₂)) = [] := by
    intro h₁ h₂ hm hrest
    rw [failures_append, breakdowns_append, marks_append, failures_eq_nil hm,
      breakdowns_eq_nil hm, hm]
    exact hrest
  induction n generalizing h with
  | zero =>
    obtain ⟨rfl, -⟩ := yields_pure.mp hy
    exact ⟨rfl, rfl⟩
  | succ n ih =>
    obtain ⟨h₁, e, h₂, rfl, hj, hy₂⟩ := yields_bind.mp hy
    obtain rfl := yields_question.mp hj
    cases e with
    | settled result =>
      have hjoined : failures h₂ = (breakdowns h₂).map brokenTask ∧ spawned (marks h₂) = [] := by
        cases result with
        | ok u => exact ih hy₂
        | error e =>
          obtain ⟨h₃, ⟨⟩, h₄, rfl, hn, hy₄⟩ := yields_bind.mp hy₂
          exact hquiet (noteFatal_yields hn) (ih hy₄)
      exact hjoined
    | broken message =>
      obtain ⟨h₃, s, h₄, rfl, hc, hy₄⟩ := yields_bind.mp hy₂
      obtain rfl := yields_question.mp hc
      obtain ⟨h₅, ⟨⟩, h₆, rfl, hp, hy₆⟩ := yields_bind.mp hy₄
      obtain ⟨hfailures, hspawned⟩ := hquiet (publishOrFail_yields hp) (ih hy₆)
      exact ⟨congrArg (brokenTask message :: ·) hfailures, hspawned⟩

/-- What a dispatch has made of the tasks: it has started some of them, counted some as cancelled,
and counted those that broke down later. -/
structure Refused (tasks started skipped : List SyncTask) (h : List RunHeard) : Prop where
  spawned : spawned (marks h) = started
  failures : failures h = skipped.map refusal ++ (breakdowns h).map brokenTask
  tasks : ∃ rest, (started ++ skipped ++ rest).Perm tasks

theorem all_refuses (hy : Yields (Dispatch.all i tasks) h ()) :
    ∃ started skipped, Refused tasks started skipped h := by
  obtain ⟨h₁, s, h₂, rfl, hc, hy₂⟩ := yields_bind.mp hy
  obtain rfl := yields_question.mp hc
  obtain ⟨h₃, published, h₄, rfl, hp, hy₄⟩ := yields_bind.mp hy₂
  have hquiet := (publish_routine i _).marks_eq_nil hp
  have htotal : Tally [] [] [⟨.change (.total tasks.length), s⟩] := ⟨rfl, rfl, rfl⟩
  have hbefore := htotal.append (.quiet hquiet)
  rw [← List.append_assoc]
  cases published with
  | error e =>
    have hnothing := hbefore.append (.quiet (noteFatal_yields hy₄))
    exact ⟨[], [], hnothing.started, by rw [hnothing.failed, hnothing.unbroken]; rfl,
      tasks, .refl _⟩
  | ok outcome =>
    obtain ⟨h₅, m, h₆, rfl, hs, hy₆⟩ := yields_bind.mp hy₄
    obtain ⟨done, rest, started, skipped, rfl, hperm, ht⟩ := startEach_sifts hs
    obtain ⟨hfailures, hspawned⟩ := settle_breakdowns hy₆
    have htally := hbefore.append ht
    rw [← List.append_assoc]
    refine ⟨started, skipped, ?_, ?_, rest, hperm.append_right rest⟩
    · rw [marks_append, spawned_append, htally.started, hspawned]
      exact List.append_nil _
    · rw [failures_append, breakdowns_append, htally.failed, htally.unbroken, hfailures]
      rfl

/-! ## The work of a run -/

theorem Tally.of_uncounted (hm : marks h = List.replicate n .uncounted) : Tally [] [] h := by
  obtain ⟨hfailures, hbreakdowns⟩ := entries_of_marks h
  rw [hm, List.count_replicate] at hfailures hbreakdowns
  refine ⟨?_, List.length_eq_zero_iff.mp hfailures, List.length_eq_zero_iff.mp hbreakdowns⟩
  rw [hm]
  refine List.filterMap_eq_nil_iff.mpr fun m hmark => ?_
  rw [List.eq_of_mem_replicate hmark]

/-- Once the plan is made, its tasks are handed out. -/
theorem Prepared.dispatches {plan : RunPlan} {missed : Nat} {listing : Listing}
    (hp : Prepared rules order h plan missed) (hy : Yields (order.work rules) h listing) :
    ∃ h₁ h₂, h = h₁ ++ (h₂ ++ [⟨.endWatch, ()⟩]) ∧ Tally [] [] h₁ ∧
      Yields (Dispatch.all order.identity plan.tasks) h₂ () := by
  cases hp with
  | @mk h₁ h₂ h₃ listed s plan missed hl hu hplan =>
    have hroots : Yields (order.listRoots rules) h₁ listed :=
      yields_bind.mpr ⟨h₁, .ok listed, [], (List.append_nil h₁).symm, hl, .refl _⟩
    cases hy with
    | hear _ hy =>
      obtain ⟨h₅, ⟨⟩, h₆, heq, hcarry, hend⟩ := yields_bind.mp (hroots.after hy)
      obtain ⟨h₇, ⟨⟩, h₈, rfl, he, hlisting⟩ := yields_bind.mp hend
      obtain rfl := yields_question.mp he
      obtain ⟨rfl, -⟩ := yields_pure.mp hlisting
      obtain ⟨h₉, s', h₁₀, rfl, hs, hplanned⟩ := yields_bind.mp hcarry
      obtain rfl := yields_question.mp hs
      have htail : h₂ ++ h₃ = h₁₀ ++ [⟨.endWatch, ()⟩] := (List.cons.inj heq).2
      cases (List.cons.inj heq).1
      split at hplanned
      · obtain ⟨h₁₁, plan', h₁₂, rfl, hplan', hall⟩ := yields_bind.mp hplanned
        rw [List.append_assoc] at htail
        obtain ⟨rfl, rfl⟩ := hplan.unique hplan' htail
        rw [List.append_cancel_left htail]
        refine ⟨⟨.startWatch, ()⟩ :: (h₁ ++ ⟨.state, s⟩ :: h₂), h₁₂, ?_, ?_, hall⟩
        · simp only [List.cons_append, List.append_assoc]
        · have hlisted : Tally [] [] h₁ := .of_uncounted hu.marks_eq
          have hplanned : Tally [] [] (⟨.state, s⟩ :: h₂) :=
            .quiet (by rw [marks_cons, ofChanges_marks hplan]; rfl)
          have hwatched : Tally [] [] [⟨.startWatch, ()⟩] := ⟨rfl, rfl, rfl⟩
          exact hwatched.append (hlisted.append hplanned)
      · -- a run that is broken off does not look any files up
        obtain ⟨rfl, -⟩ := yields_pure.mp hplanned
        obtain ⟨h₁₁, known, h₁₂, rfl, hlookups, -⟩ := yields_bind.mp hplan
        obtain rfl := yields_question.mp hlookups
        cases htail

/-- All planned tasks are accounted for: each was started, or counted as cancelled; besides, the
main program has counted the tasks that broke down. -/
structure Accounted (p : Pool env) (plan : RunPlan) (skipped : List SyncTask) : Prop where
  tasks : (p.fibers.map Fiber.task ++ skipped).Perm plan.tasks
  failures : (failures p.main).Perm
    (skipped.map refusal ++ (p.fibers.filterMap Fiber.breakdown?).map brokenTask)

theorem accounted_of_worked {l l' : List RunHeard} {listing : Listing}
    (hr : Reachable rules order p)
    (hy : Yields (order.work rules) l listing) (hl : p.main = l ++ l') (hok : ¬ Faulted p.heard) :
    ∃ plan missed skipped, Prepared rules order p.main plan missed ∧ Accounted p plan skipped := by
  have hmarks := (joined_of_worked hr hy hl).1
  have hquiet : marks l' = [] := by
    rw [hl, marks_append] at hmarks
    exact List.append_right_eq_self.mp hmarks
  obtain ⟨tasks, hbalance, hplan⟩ := work_balance hy
  have hwhole := not_breaksOff hr hy hl hok
  obtain ⟨plan, rfl, hprepared⟩ := hplan hwhole
  obtain ⟨l₁, l₂, rfl, hbefore, hall⟩ := hprepared.dispatches hy
  obtain ⟨started, skipped, hspawned, hfailures, rest, hperm⟩ := all_refuses hall
  have hend : Tally [] [] [⟨.endWatch, ()⟩] := ⟨rfl, rfl, rfl⟩
  have hstarted : spawned (marks (l₁ ++ (l₂ ++ [⟨.endWatch, ()⟩]))) = started := by
    rw [marks_append, marks_append, spawned_append, spawned_append, hbefore.started, hspawned,
      hend.started]
    exact List.append_nil _
  have hfailed : failures p.main = skipped.map refusal ++ (breakdowns l₂).map brokenTask := by
    rw [hl, failures_append, failures_append, failures_append, hbefore.failed, hfailures,
      hend.failed, failures_eq_nil hquiet]
    simp only [List.append_nil, List.nil_append]
  have hbroken : breakdowns p.main = breakdowns l₂ := by
    rw [hl, breakdowns_append, breakdowns_append, breakdowns_append, hbefore.unbroken,
      hend.unbroken, breakdowns_eq_nil hquiet]
    simp only [List.append_nil, List.nil_append]
  -- nothing is left over, since the marks of the work balance
  have hrest : rest = [] := by
    have hsettled := hbalance.settled hwhole
    rw [hstarted, ← hmarks, ← (entries_of_marks p.main).1, ← (entries_of_marks p.main).2, hfailed,
      hbroken, ← hperm.length_eq] at hsettled
    simp only [List.length_append, List.length_map] at hsettled
    exact List.length_eq_zero_iff.mp (by omega)
  subst hrest
  rw [List.append_nil] at hperm
  refine ⟨plan, _, skipped, hl ▸ hprepared.append l', ?_, ?_⟩
  · rw [(tracked_of_reachable hr).tasks, hmarks, hstarted]
    exact hperm
  · rw [hfailed, ← hbroken]
    exact ((toldOfBreakdowns_of_reachable hr).map brokenTask).append_left _

end CollectionSync.Interleaving
