import CollectionSync.Proofs.Run.Listings

/-! # What the dispatch of tasks leaves behind

Every task in turn is started or counted as a failure, up to the last one unless the run is broken
off; each task that was started is waited for, and counted then if it broke down. -/

namespace CollectionSync.Interleaving

open Program

variable {i : RunIdentity} {h h₁ h₂ : List RunHeard} {tasks done rest : List SyncTask}
  {task : SyncTask} {n m : Nat}

/-! ## The marks -/

/-- Every task in turn is counted as a failure or started. -/
inductive Admitted : List SyncTask → List Mark → Prop
  | nil : Admitted [] []
  | kept {task : SyncTask} {rest : List SyncTask} {l : List Mark} :
    Admitted rest l → Admitted (task :: rest) (.failure :: l)
  | started {task : SyncTask} {rest : List SyncTask} {l : List Mark} :
    Admitted rest l → Admitted (task :: rest) (.spawned task :: l)

/-- So many tasks are waited for; those that broke down are counted as failures. -/
inductive Awaited : Nat → List Mark → Prop
  | nil : Awaited 0 []
  | joined {n : Nat} {l : List Mark} : Awaited n l → Awaited (n + 1) (.joined :: l)
  | broken {n : Nat} {l : List Mark} : Awaited n l → Awaited (n + 1) (.broken :: .failure :: l)

/-- What a dispatch has left behind; `whole` says that it was not broken off. -/
inductive Dispatched (tasks : List SyncTask) (whole : Prop) : List Mark → Prop
  | mk {done rest : List SyncTask} {l l' : List Mark} : tasks = done ++ rest → Admitted done l →
    Awaited (spawned l).length l' → (whole → rest = []) →
    Dispatched tasks whole (.total tasks.length :: (l ++ l'))

theorem Dispatched.mono {whole whole' : Prop} {l : List Mark} (hd : Dispatched tasks whole l)
    (hw : whole' → whole) : Dispatched tasks whole' l := by
  cases hd with
  | mk htasks hd ha hrest => exact .mk htasks hd ha fun h => hrest (hw h)

theorem Admitted.spawned_sublist {l : List Mark} (ha : Admitted done l) :
    (spawned l).Sublist done := by
  induction ha with
  | nil => exact .slnil
  | kept _ ih => exact ih.cons _
  | started _ ih => exact ih.cons_cons _

theorem Admitted.counts {l : List Mark} (ha : Admitted done l) :
    l.count .failure + (spawned l).length = done.length ∧ l.count .joined = 0 ∧
      l.count .broken = 0 ∧ l.count .success = 0 ∧ l.count .uncounted = 0 := by
  induction ha with
  | nil => exact ⟨rfl, rfl, rfl, rfl, rfl⟩
  | @kept task rest l _ ih =>
    have hspawned : spawned (.failure :: l) = spawned l := rfl
    simp only [List.count_cons_self, hspawned, List.length_cons, ne_eq, reduceCtorEq,
      not_false_eq_true, List.count_cons_of_ne]
    omega
  | @started task rest l _ ih =>
    have hspawned : spawned (.spawned task :: l) = task :: spawned l := rfl
    simp only [ne_eq, reduceCtorEq, not_false_eq_true, List.count_cons_of_ne, hspawned,
      List.length_cons]
    omega

theorem Admitted.totals {l : List Mark} (ha : Admitted done l) : l.filterMap total? = [] := by
  induction ha with
  | nil => rfl
  | kept _ ih => exact ih
  | started _ ih => exact ih

theorem Awaited.counts {l : List Mark} (ha : Awaited n l) :
    l.count .joined + l.count .broken = n ∧ l.count .failure = l.count .broken ∧
      l.count .success = 0 ∧ l.count .uncounted = 0 := by
  induction ha with
  | nil => exact ⟨rfl, rfl, rfl, rfl⟩
  | joined _ ih =>
    simp only [List.count_cons_self, ne_eq, reduceCtorEq, not_false_eq_true, List.count_cons_of_ne]
    omega
  | broken _ ih =>
    simp only [List.count_cons_self, ne_eq, reduceCtorEq, not_false_eq_true, List.count_cons_of_ne]
    omega

theorem Awaited.totals {l : List Mark} (ha : Awaited n l) :
    spawned l = [] ∧ l.filterMap total? = [] := by
  induction ha with
  | nil => exact ⟨rfl, rfl⟩
  | joined _ ih => exact ih
  | broken _ ih => exact ih

/-- What the marks of the main program come to once it has waited for all tasks. -/
structure Balance (tasks : List SyncTask) (whole : Prop) (l : List Mark) : Prop where
  planned : totalOf l = tasks.length
  started : (spawned l).Sublist tasks
  awaited : l.count .joined + l.count .broken = (spawned l).length
  /-- No task is counted twice. -/
  bounded : l.count .failure + (spawned l).length ≤ tasks.length + l.count .broken
  /-- Every task that was not started is counted, and every one that broke down. -/
  settled : whole → l.count .failure + (spawned l).length = tasks.length + l.count .broken
  success : l.count .success = 0

theorem Dispatched.balance {whole : Prop} {l : List Mark} (hd : Dispatched tasks whole l) :
    Balance tasks whole l ∧ l.count .uncounted = 0 := by
  cases hd with
  | @mk done rest l l' htasks hd ha hrest =>
    have hlen : tasks.length = done.length + rest.length := by
      rw [htasks, List.length_append]
    obtain ⟨hfail, hjoin, hbroken, hsuccess, huncounted⟩ := hd.counts
    obtain ⟨hjoin', hfail', hsuccess', huncounted'⟩ := ha.counts
    obtain ⟨hspawned', htotals'⟩ := ha.totals
    have hspawned : spawned (.total tasks.length :: (l ++ l')) = spawned l := by
      have hcons : spawned (.total tasks.length :: (l ++ l')) = spawned (l ++ l') := rfl
      rw [hcons, spawned_append, hspawned', List.append_nil]
    have hcount : ∀ m, m ≠ .total tasks.length →
        (Mark.total tasks.length :: (l ++ l')).count m = l.count m + l'.count m := fun m hm => by
      rw [List.count_cons_of_ne hm.symm, List.count_append]
    rw [hcount .uncounted (by simp)]
    refine ⟨⟨?_, ?_, ?_, ?_, ?_, ?_⟩, by omega⟩
    · simp only [totalOf, List.filterMap_cons, total?, List.filterMap_append, hd.totals, htotals']
      rfl
    · rw [hspawned, htasks]
      exact hd.spawned_sublist.trans (List.sublist_append_left done rest)
    · rw [hspawned, hcount .joined (by simp), hcount .broken (by simp)]
      omega
    · rw [hspawned, hcount .failure (by simp), hcount .broken (by simp)]
      omega
    · intro hw
      have hnone : rest.length = 0 := congrArg List.length (hrest hw)
      rw [hspawned, hcount .failure (by simp), hcount .broken (by simp)]
      omega
    · rw [hcount .success (by simp)]
      omega

/-- An answer with which a run is broken off: the store fails, or an error was noted before. -/
def BreaksOff (q : RunAsk) (a : q.Answer) : Prop :=
  IsStoreError q a ∨ ∃ s : RunState, (⟨q, a⟩ : RunHeard) = ⟨.state, s⟩ ∧ s.fatal.isSome = true

/-! ## Starting the tasks -/

theorem noteFatal_yields {e : RunError} (hy : Yields (RunIdentity.noteFatal e) h ()) :
    marks h = [] := by
  obtain ⟨h₁, s, h₂, rfl, hc, hy₂⟩ := yields_bind.mp hy
  obtain rfl := yields_question.mp hc
  obtain ⟨rfl, -⟩ := yields_pure.mp hy₂
  rfl

theorem publishOrFail_yields {p : Progress} (hy : Yields (i.publishOrFail p) h ()) :
    marks h = [] := by
  obtain ⟨h₁, published, h₂, rfl, hp, hy₂⟩ := yields_bind.mp hy
  rw [marks_append, (publish_routine i p).marks_eq_nil hp]
  cases published with
  | ok outcome =>
    obtain ⟨rfl, -⟩ := yields_pure.mp hy₂
    rfl
  | error e => exact noteFatal_yields hy₂

/-- A failure is counted, and the counters are written. -/
theorem failure_yields {item : FailedItem} (hy : Yields (do
      let s ← Run.change (.failure item)
      i.publishOrFail s.progress) h ()) : marks h = [.failure] := by
  obtain ⟨h₁, s, h₂, rfl, hc, hy₂⟩ := yields_bind.mp hy
  obtain rfl := yields_question.mp hc
  rw [marks_append, publishOrFail_yields hy₂]
  rfl

/-- The tasks up to some point were admitted, and `m` counts on from `n` those that were started. -/
def StartsEach (tasks : List SyncTask) (n : Nat) (h : List RunHeard) (m : Nat) : Prop :=
  ∃ done rest, tasks = done ++ rest ∧ Admitted done (marks h) ∧
    m = n + (spawned (marks h)).length ∧ (rest ≠ [] → Has BreaksOff h)

namespace StartsEach

theorem givenUp (hm : marks h = []) (hb : Has BreaksOff h) : StartsEach tasks n h n := by
  refine ⟨[], tasks, rfl, ?_, ?_, fun _ => hb⟩
  · rw [hm]
    exact .nil
  · rw [hm]
    rfl

theorem skip (hm : marks h₁ = []) (hs : StartsEach tasks n h₂ m) :
    StartsEach tasks n (h₁ ++ h₂) m := by
  obtain ⟨done, rest, htasks, hd, hcount, hb⟩ := hs
  have hmarks : marks (h₁ ++ h₂) = marks h₂ := by
    rw [marks_append, hm, List.nil_append]
  refine ⟨done, rest, htasks, ?_, ?_, fun hne => has_append.mpr (.inr (hb hne))⟩
  · rwa [hmarks]
  · rwa [hmarks]

/-- The record is looked at, which the store may fail; a program that starts no task then is broken
off. -/
theorem look {f : Except RunError Bool → Running Nat} (hy : Yields (i.observe >>= f) h m)
    (herror : ∀ e h, Yields (f (.error e)) h m → marks h = [] ∧ m = n)
    (hok : ∀ cancelled h, Yields (f (.ok cancelled)) h m → StartsEach tasks n h m) :
    StartsEach tasks n h m := by
  obtain ⟨h₁, observed, h₂, rfl, ho, hy₂⟩ := yields_bind.mp hy
  have hquiet : marks h₁ = [] := (observe_routine i).marks_eq_nil ho
  cases observed with
  | error e =>
    obtain ⟨hm, rfl⟩ := herror e h₂ hy₂
    have hfault : Has BreaksOff h₁ := (observe_blames i h₁ e trivial ho).mono fun _ _ => .inl
    refine givenUp ?_ (has_append.mpr (.inl hfault))
    rw [marks_append, hquiet, hm, List.append_nil]
  | ok cancelled => exact skip hquiet (hok cancelled h₂ hy₂)

theorem kept (hm : marks h₁ = [.failure]) (hs : StartsEach rest n h₂ m) :
    StartsEach (task :: rest) n (h₁ ++ h₂) m := by
  obtain ⟨done, rest, rfl, hd, hcount, hb⟩ := hs
  have hmarks : marks (h₁ ++ h₂) = .failure :: marks h₂ := by
    rw [marks_append, hm]
    rfl
  refine ⟨task :: done, rest, rfl, ?_, ?_, fun hne => has_append.mpr (.inr (hb hne))⟩
  · rw [hmarks]
    exact .kept hd
  · rw [hmarks]
    exact hcount

theorem started (hm : marks h₁ = [.spawned task]) (hs : StartsEach rest (n + 1) h₂ m) :
    StartsEach (task :: rest) n (h₁ ++ h₂) m := by
  obtain ⟨done, rest, rfl, hd, hcount, hb⟩ := hs
  have hmarks : marks (h₁ ++ h₂) = .spawned task :: marks h₂ := by
    rw [marks_append, hm]
    rfl
  refine ⟨task :: done, rest, rfl, ?_, ?_, fun hne => has_append.mpr (.inr (hb hne))⟩
  · rw [hmarks]
    exact .started hd
  · have hlen :
        (spawned (.spawned task :: marks h₂)).length = (spawned (marks h₂)).length + 1 := rfl
    rw [hmarks, hlen, hcount]
    omega

end StartsEach

theorem startEach_yields (hy : Yields (Dispatch.startEach i tasks n) h m) :
    StartsEach tasks n h m := by
  induction tasks generalizing n h with
  | nil =>
    obtain ⟨rfl, rfl⟩ := yields_pure.mp hy
    exact ⟨[], [], rfl, .nil, rfl, fun hne => absurd rfl hne⟩
  | cons task rest ih =>
    obtain ⟨h₁, s, h₂, rfl, hs, hy₂⟩ := yields_bind.mp hy
    obtain rfl := yields_question.mp hs
    split at hy₂
    · next hfatal =>
      obtain ⟨rfl, rfl⟩ := yields_pure.mp hy₂
      exact .givenUp rfl ⟨_, List.mem_cons_self, .inr ⟨s, rfl, hfatal⟩⟩
    refine .skip rfl (.look hy₂ (fun e h hy => ?_) fun cancelled h hy => ?_)
    · obtain ⟨h₃, ⟨⟩, h₄, rfl, hn, hy₄⟩ := yields_bind.mp hy
      obtain ⟨rfl, rfl⟩ := yields_pure.mp hy₄
      rw [List.append_nil]
      exact ⟨noteFatal_yields hn, rfl⟩
    cases cancelled with
    | true =>
      obtain ⟨h₃, ⟨⟩, h₄, rfl, hk, hy₄⟩ := yields_bind.mp hy
      exact .kept (failure_yields hk) (ih hy₄)
    | false =>
      -- a slot is waited for, and the record looked at again
      obtain ⟨h₃, ⟨⟩, h₄, rfl, ha, hy₄⟩ := yields_bind.mp hy
      obtain rfl := yields_question.mp ha
      refine .skip rfl (.look hy₄ (fun e h hy => ?_) fun cancelled h hy => ?_)
      · obtain ⟨h₅, ⟨⟩, h₆, rfl, hn, hy₆⟩ := yields_bind.mp hy
        obtain ⟨h₇, ⟨⟩, h₈, rfl, hr, hy₈⟩ := yields_bind.mp hy₆
        obtain rfl := yields_question.mp hr
        obtain ⟨rfl, rfl⟩ := yields_pure.mp hy₈
        rw [marks_append, noteFatal_yields hn]
        exact ⟨rfl, rfl⟩
      cases cancelled with
      | true =>
        obtain ⟨h₅, ⟨⟩, h₆, rfl, hr, hy₆⟩ := yields_bind.mp hy
        obtain rfl := yields_question.mp hr
        obtain ⟨h₇, ⟨⟩, h₈, rfl, hk, hy₈⟩ := yields_bind.mp hy₆
        exact .skip rfl (.kept (failure_yields hk) (ih hy₈))
      | false =>
        obtain ⟨h₅, ⟨⟩, h₆, rfl, hs, hy₆⟩ := yields_bind.mp hy
        obtain rfl := yields_question.mp hs
        exact .started rfl (ih hy₆)

/-! ## Waiting for them -/

theorem settle_awaits (hy : Yields (Dispatch.settle i n) h ()) : Awaited n (marks h) := by
  induction n generalizing h with
  | zero =>
    obtain ⟨rfl, -⟩ := yields_pure.mp hy
    exact .nil
  | succ n ih =>
    obtain ⟨h₁, e, h₂, rfl, hj, hy₂⟩ := yields_bind.mp hy
    obtain rfl := yields_question.mp hj
    rw [marks_append]
    cases e with
    | settled result =>
      cases result with
      | ok u => exact .joined (ih hy₂)
      | error e =>
        obtain ⟨h₃, ⟨⟩, h₄, rfl, hn, hy₄⟩ := yields_bind.mp hy₂
        rw [marks_append, noteFatal_yields hn]
        exact .joined (ih hy₄)
    | broken message =>
      obtain ⟨h₃, s, h₄, rfl, hc, hy₄⟩ := yields_bind.mp hy₂
      obtain rfl := yields_question.mp hc
      obtain ⟨h₅, ⟨⟩, h₆, rfl, hp, hy₆⟩ := yields_bind.mp hy₄
      rw [marks_append, marks_append, publishOrFail_yields hp]
      exact .broken (ih hy₆)

theorem all_dispatches (hy : Yields (Dispatch.all i tasks) h ()) :
    Dispatched tasks (¬ Has BreaksOff h) (marks h) := by
  obtain ⟨h₁, s, h₂, rfl, hc, hy₂⟩ := yields_bind.mp hy
  obtain rfl := yields_question.mp hc
  obtain ⟨h₃, published, h₄, rfl, hp, hy₄⟩ := yields_bind.mp hy₂
  rw [marks_append, marks_append, (publish_routine i _).marks_eq_nil hp]
  cases published with
  | error e =>
    rw [noteFatal_yields hy₄]
    have hb : Has BreaksOff h₃ := (publish_blames i _ h₃ e trivial hp).mono fun _ _ => .inl
    refine @Dispatched.mk _ _ [] tasks [] [] rfl .nil .nil fun hw => ?_
    exact absurd (has_append.mpr (.inr (has_append.mpr (.inl hb)))) hw
  | ok outcome =>
    obtain ⟨h₅, m, h₆, rfl, hs, hy₆⟩ := yields_bind.mp hy₄
    obtain ⟨done, rest, rfl, hd, hm, hb⟩ := startEach_yields hs
    rw [marks_append]
    refine .mk (l := marks h₅) rfl hd ?_ ?_
    · have hw := settle_awaits hy₆
      rwa [hm, Nat.zero_add] at hw
    · intro hw
      cases rest with
      | nil => rfl
      | cons task rest =>
        have hb := hb (List.cons_ne_nil task rest)
        exact absurd (has_append.mpr (.inr (has_append.mpr (.inr (has_append.mpr (.inl hb)))))) hw

end CollectionSync.Interleaving
