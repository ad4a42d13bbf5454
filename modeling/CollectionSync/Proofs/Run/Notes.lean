import CollectionSync.Proofs.Run.Checkpoint

/-! # The failures that a run notes

The failure report of a run is made of what its programs have noted, in the order in which it came.
That a root could not be listed is noted by the listing alone: no task fails in such a way, and
nothing else that the main program notes is of this kind. -/

namespace CollectionSync.Interleaving

open Program

variable {env : Surroundings} {rules : RunRules} {order : RunOrder} {p p' : Pool env}
  {s s' : Shared env} {q : RunAsk} {a : q.Answer} {h h₁ h₂ : List RunHeard}

def note? : (q : RunAsk) → q.Answer → Option FailedItem
  | .change (.failure item), _ | .change (.runFailure item), _ => some item
  | _, _ => none

/-- The failures that were noted, in order. -/
def notes (h : List RunHeard) : List FailedItem := h.filterMap fun e => note? e.1 e.2

@[simp] theorem notes_nil : notes [] = [] := rfl

@[simp] theorem notes_append : notes (h₁ ++ h₂) = notes h₁ ++ notes h₂ := List.filterMap_append

theorem notes_cons : notes (⟨q, a⟩ :: h) = (note? q a).toList ++ notes h := by
  unfold notes
  rw [List.filterMap_cons]
  cases note? q a <;> rfl

theorem note?_eq_none (hq : ∀ c, q ≠ .change c) : note? q a = none := by
  unfold note?
  split
  all_goals first
    | rfl
    | exact absurd rfl (hq _)

/-! ## The failure report -/

/-- The log keeps these failures, in some order of their coming. -/
def Logs (cap : Nat) (log : FailureLog) (items : List FailedItem) : Prop :=
  ∃ came : List FailedItem, came.Perm items ∧ log = came.foldl FailureLog.push (.empty cap)

variable {cap : Nat} {log : FailureLog} {items items' : List FailedItem}

theorem Logs.perm (hl : Logs cap log items) (hp : items.Perm items') : Logs cap log items' := by
  obtain ⟨came, hcame, rfl⟩ := hl
  exact ⟨came, hcame.trans hp, rfl⟩

theorem Logs.push (hl : Logs cap log items) (item : FailedItem) :
    Logs cap (log.push item) (items ++ [item]) := by
  obtain ⟨came, hcame, rfl⟩ := hl
  exact ⟨came ++ [item], hcame.append_right _, by rw [List.foldl_append]; rfl⟩

theorem Serves.logs (hs : Serves q a s s') (hl : Logs cap s.run.log items) :
    Logs cap s'.run.log (items ++ (note? q a).toList) := by
  have hsame : Logs cap s.run.log (items ++ []) := hl.perm (.of_eq (List.append_nil _).symm)
  cases hs with
  | @change c =>
    cases c with
    | failure item | runFailure item => exact hl.push item
    | total | success | fatal | cancelled | stopping => exact hsame
  | outward hq =>
    rw [note?_eq_none fun c hc => by rw [hc] at hq; cases hq]
    exact hsame
  | state | pause | acquire | release => exact hsame

theorem logs_of_reachable (hr : Reachable rules order p) :
    Logs rules.failuresCap p.shared.run.log (notes p.heard) := by
  have hlast : ∀ {h h' : List RunHeard} {q : RunAsk} {a : q.Answer}, h'.Perm (h ++ [⟨q, a⟩]) →
      (notes h ++ (note? q a).toList).Perm (notes h') := by
    intro h h' q a hp
    have hnotes : notes (h ++ [⟨q, a⟩]) = notes h ++ (note? q a).toList := by
      rw [notes_append, notes_cons, notes_nil, List.append_nil]
    rw [← hnotes]
    exact (hp.filterMap _).symm
  induction hr with
  | start stopping w => exact ⟨[], .refl _, rfl⟩
  | step hr hs ih =>
    cases hs.hears with
    | served hs hheard => exact (hs.logs ih).perm (hlast hheard)
    | told hq hrun hheard =>
      rw [hrun]
      refine ih.perm (.trans (.of_eq ?_) (hlast hheard))
      rw [note?_eq_none hq]
      exact (List.append_nil _).symm
    | nothing _ hlog hheard =>
      rw [hlog, hheard]
      exact ih

/-! ## What the tasks note -/

theorem note?_eq_none_of_quiet (hm : mark? q a = none) : note? q a = none := by
  cases q with
  | change c =>
    cases c with
    | failure item | runFailure item => cases hm
    | _ => rfl
  | _ => rfl

theorem notes_eq_nil_of_marks (hm : marks h = []) : notes h = [] :=
  List.filterMap_eq_nil_iff.mpr fun e he =>
    note?_eq_none_of_quiet (List.filterMap_eq_nil_iff.mp hm e he)

theorem failureKind_of_isFatal {e : RunError} (he : e.isFatal = true) :
    e.failureKind = .processing := by
  cases e with
  | storeUnavailable | aborted => rfl
  | _ => cases he

theorem enumeration_notOfItems : NotOfItems fun e => e.failureKind = .enumeration where
  remote e := by cases e <;> nofun
  timeout _ := nofun
  processing _ := nofun
  cancelled := nofun

/-- An error that a task counts does not tell that a root could not be listed. -/
theorem action_failureKind {task : SyncTask} {i : RunIdentity} {credentials : String} {e : RunError}
    (hy : Yields (task.perform rules i credentials) h (.error e)) :
    e.failureKind ≠ .enumeration := by
  intro hkind
  have hfault := action_blames enumeration_notOfItems i credentials task h e hkind hy
  obtain ⟨e', he, hfatal⟩ := (action_admits i credentials task).of_yields hy hfault
  cases he
  rw [failureKind_of_isFatal hfatal] at hkind
  cases hkind

theorem kind_of_taskOf {task : SyncTask} {result : Except RunError Unit}
    (hy : Yields (taskOf rules order task) h result) {item : FailedItem} (hitem : item ∈ notes h) :
    item.kind ≠ .enumeration := by
  obtain ⟨h₁, done, h₂, rfl, hy₁, hy₂⟩ := yields_bind.mp hy
  rw [notes_append, notes_eq_nil_of_marks ((perform_routine _ _ task).marks_eq_nil hy₁)] at hitem
  rcases settle_yields hy₂ with ⟨e, rfl, -, rfl, -⟩ | ⟨s, h', published, rfl, hp, -⟩
  · cases hitem
  rw [notes_cons, notes_eq_nil_of_marks ((publish_routine _ _).marks_eq_nil hp),
    List.append_nil] at hitem
  cases done with
  | ok u => cases hitem
  | error e =>
    obtain rfl := List.mem_singleton.mp hitem
    have hkind := action_failureKind hy₁
    cases e <;> exact hkind

/-- No task that was waited for has noted that a root could not be listed. -/
theorem kind_of_fiber {f : Fiber} (hf : f.Faithful rules order) (hj : f.course.isJoined = true)
    {item : FailedItem} (hitem : item ∈ notes f.heard) : item.kind ≠ .enumeration := by
  obtain ⟨task, h, course⟩ := f
  cases course with
  | working | ended => cases hj
  | joined e =>
    cases e with
    | settled result => exact kind_of_taskOf hf hitem
    | broken message =>
      obtain ⟨limit, call, next, hq⟩ := hf
      rw [notes_eq_nil_of_marks (taskOf_broken hq).2] at hitem
      cases hitem

/-! ## What the main program notes -/

/-- What a run may ask once its roots were listed: no call, and no failure that is one of a root. -/
def IsLater : RunAsk → Prop
  | .within .. | .change (.runFailure _) => False
  | .change (.failure item) => item.kind ≠ .enumeration
  | _ => True

theorem IsFatal.isLater (hq : IsFatal q) : IsLater q := by
  unfold IsFatal at hq
  split at hq
  · trivial
  · exact hq.elim

theorem isLater_coversHandout {i : RunIdentity} : CoversHandout i IsLater where
  look := observe_asks trivial trivial trivial
  publish _ := publish_asks fun _ => trivial
  state := trivial
  total _ := trivial
  fatal _ := trivial
  withheld _ := nofun
  broken _ := nofun
  acquire := trivial
  release := trivial
  spawn _ := trivial
  join := trivial

theorem carryOut_later (listing : Listing) : (order.carryOut rules listing).Asks IsLater := by
  refine (Asks.question trivial).bind fun s => ?_
  split
  · exact ((Asks.question trivial).bind fun _ => Asks.pure _).bind fun plan =>
      isLater_coversHandout.all plan.tasks
  · trivial

theorem finish_later (listing : Listing) : (order.finish listing).Asks IsLater :=
  (Asks.question trivial).bind fun _ => (keeping_asks _).mono fun _ ⟨_, hq⟩ => hq ▸ trivial

theorem watchOf_later : (watchOf rules order).Asks IsLater := by
  refine (Asks.question trivial).bind fun cut => ?_
  split
  · trivial
  · refine (observe_asks trivial trivial trivial).bind fun observed => ?_
    split <;> trivial

theorem IsLater.kind {item : FailedItem} (hq : IsLater q) (hnote : note? q a = some item) :
    item.kind ≠ .enumeration := by
  cases q with
  | change c =>
    cases c with
    | failure item' =>
      cases hnote
      exact hq
    | runFailure item' => exact hq.elim
    | _ => cases hnote
  | _ => cases hnote

/-! ## Roots that could not be listed -/

/-- The entry of a root that could not be listed. -/
def rootNote (root : RootId) (e : RunError) : FailedItem := ⟨root.text, .enumeration, e.message⟩

/-- The notes that a root could not be listed. -/
def complaints (root : RootId) (items : List FailedItem) : List FailedItem :=
  items.filter fun item => item.kind = .enumeration ∧ item.name = root.text

@[simp] theorem complaints_append {root : RootId} {items items' : List FailedItem} :
    complaints root (items ++ items') = complaints root items ++ complaints root items' :=
  List.filter_append _ _

theorem complaints_eq_nil {root : RootId} {items : List FailedItem}
    (hkind : ∀ item ∈ items, item.kind ≠ .enumeration) : complaints root items = [] :=
  List.filter_eq_nil_iff.mpr fun item hitem hblames =>
    hkind item hitem (of_decide_eq_true hblames).1

theorem complaints_of_later {root : RootId} (hl : ∀ e ∈ h, IsLater e.1) :
    complaints root (notes h) = [] :=
  complaints_eq_nil fun _ hitem => by
    obtain ⟨e, he, hnote⟩ := List.mem_filterMap.mp hitem
    exact (hl e he).kind hnote

/-- Once all tasks were waited for, only the main program has told of roots. -/
theorem complaints_of_joined {root : RootId} (hr : Reachable rules order p)
    (hj : ∀ f ∈ p.fibers, f.course.isJoined = true) :
    complaints root (notes p.heard) = complaints root (notes p.main) := by
  have htasks : complaints root (notes (p.fibers.flatMap Fiber.heard)) = [] := by
    refine complaints_eq_nil fun item hitem => ?_
    obtain ⟨e, he, hnote⟩ := List.mem_filterMap.mp hitem
    obtain ⟨f, hf, he⟩ := List.mem_flatMap.mp he
    exact kind_of_fiber (faithful_of_reachable hr f hf) (hj f hf)
      (List.mem_filterMap.mpr ⟨e, he, hnote⟩)
  rw [Pool.heard, notes_append, complaints_append, htasks, List.append_nil]

theorem complaints_cons {root root' : RootId} (e : RunError) (items : List FailedItem) :
    complaints root (rootNote root' e :: items) =
      if root' = root then rootNote root' e ::
        complaints root items else complaints root items := by
  obtain ⟨text⟩ := root
  obtain ⟨text'⟩ := root'
  simp only [complaints, rootNote, List.filter_cons, true_and, RootId.mk.injEq, decide_eq_true_eq]

end CollectionSync.Interleaving
