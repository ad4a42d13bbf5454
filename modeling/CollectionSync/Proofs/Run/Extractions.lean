import CollectionSync.Proofs.Run.Checks
import CollectionSync.Proofs.Run.Faults

/-! # What an extraction comes to

A task that is to extract a file downloads its content first, then looks at its record, and only
then hands the content to the pipeline. A task that is stopped by the check is counted as cancelled.
So is one whose download was given up because the waits of the run were interrupted; a download that
fails before the run has noticed anything is counted with its own failure. -/

namespace CollectionSync.Interleaving

open Program

variable {rules : RunRules} {order : RunOrder} {task : SyncTask} {item : Item} {root : SourceRoot}
  {i : RunIdentity} {q : RunAsk} {a : q.Answer} {h h₁ h₂ : List RunHeard} {α β : Type}

/-! ## The failures that are counted -/

/-- An item that is counted as failed, under its entry in the report. -/
def failure? : (q : RunAsk) → q.Answer → Option FailedItem
  | .change (.failure item), _ => some item
  | _, _ => none

def failures (h : List RunHeard) : List FailedItem := h.filterMap fun e => failure? e.1 e.2

@[simp] theorem failures_append : failures (h₁ ++ h₂) = failures h₁ ++ failures h₂ :=
  List.filterMap_append

theorem failures_cons : failures (⟨q, a⟩ :: h) = (failure? q a).toList ++ failures h := by
  unfold failures
  rw [List.filterMap_cons]
  cases failure? q a <;> rfl

theorem failure?_eq_none (hm : mark? q a = none) : failure? q a = none := by
  unfold failure?
  split
  · cases hm
  · rfl

theorem failures_eq_nil (hm : marks h = []) : failures h = [] :=
  List.filterMap_eq_nil_iff.mpr fun e he => failure?_eq_none (List.filterMap_eq_nil_iff.mp hm e he)

/-- One item is counted as failed, and nothing else is counted. -/
def CountsAs (failed : FailedItem) (h : List RunHeard) : Prop :=
  marks h = [.failure] ∧ failures h = [failed]

theorem CountsAs.after {failed : FailedItem} (hc : CountsAs failed h₂) (hm : marks h₁ = []) :
    CountsAs failed (h₁ ++ h₂) := by
  refine ⟨?_, ?_⟩
  · rw [marks_append, hm, hc.1, List.nil_append]
  · rw [failures_append, failures_eq_nil hm, hc.2, List.nil_append]

/-! ## The parts of an extraction -/

/-- The download of a file, with its retries. -/
abbrev downloadOf (rules : RunRules) (order : RunOrder) (root : SourceRoot) (item : Item) :
    Running (Except RemoteError (List UInt8)) :=
  callRemote rules ("download of " ++ item.id.text)
    (Run.within rules.itemTimeout (.fetch root item.id order.credentials))

/-- The task is to extract a file, and has its content. -/
def Downloaded (rules : RunRules) (order : RunOrder) (task : SyncTask) (h : List RunHeard) : Prop :=
  ∃ item h₁ bytes, task.action = .extract item ∧ h₁ <+: h ∧
    Yields (downloadOf rules order task.root item) h₁ (.ok bytes)

/-- Content is handed to the pipeline. -/
def IsExtract : RunAsk → Prop
  | .within _ (.extract _) => True
  | _ => False

theorem downloadOf_extracts_nothing :
    (downloadOf rules order root item).Asks fun q => ¬ IsExtract q :=
  callRemote_asks (fun _ => id) _ (Asks.question id)

theorem observe_extracts_nothing (i : RunIdentity) : i.observe.Asks fun q => ¬ IsExtract q :=
  observe_asks id id id

/-- A program that asks no such question does not come to one; the next one does. -/
theorem asked_after {p : Running α} {f : α → Running β} {kind : RunAsk → Prop}
    {next : q.Answer → Running β} (hp : p.Asks fun q => ¬ kind q) (hq : kind q)
    (hf : Follows (p >>= f) h (ask q next)) :
    ∃ h₁ a h₂, h = h₁ ++ h₂ ∧ Yields p h₁ a ∧ Follows (f a) h₂ (ask q next) := by
  rcases follows_bind_ask.mp hf with ⟨next', hp', -⟩ | hsplit
  · exact absurd hq (hp.of_follows hp').2.1
  · exact hsplit

theorem process_asked {bytes : List UInt8} {limit : Span} {request : ExtractRequest}
    {next : Option (Except PipelineError PipelineOutcome) → Running (Except RunError Unit)}
    (hf : Follows (SyncTask.process rules i item bytes) h
      (ask (.within limit (.extract request)) next)) :
    request.file = item.file ∧ Yields i.observe h (.ok false) := by
  have hextract : IsExtract (.within limit (.extract request)) := trivial
  obtain ⟨h₁, observed, h₂, rfl, hy, hrest⟩ := asked_after (observe_extracts_nothing i) hextract hf
  split at hrest
  · cases (follows_done.mp hrest).2
  · cases (follows_done.mp hrest).2
  · obtain ⟨rfl, heq⟩ := asked_first (fun a => by cases a <;> trivial) hrest
    cases heq
    exact ⟨rfl, by rwa [List.append_nil]⟩

/-- Content is handed to the pipeline once it was downloaded and a check has let it through. -/
theorem extract_asked {limit : Span} {request : ExtractRequest}
    {next : Option (Except PipelineError PipelineOutcome) → Running (Except RunError Unit)}
    (hf : Follows (taskOf rules order task) h (ask (.within limit (.extract request)) next)) :
    ∃ item h₁ bytes h₂, task.action = .extract item ∧ request.file = item.file ∧ h = h₁ ++ h₂ ∧
      Yields (downloadOf rules order task.root item) h₁ (.ok bytes) ∧
      Yields order.identity.observe h₂ (.ok false) := by
  have hperform : ∃ next, Follows (task.perform rules order.identity order.credentials) h
      (ask (.within limit (.extract request)) next) := by
    rcases follows_bind_ask.mp hf with ⟨next', hp, -⟩ | ⟨h₁, done, h₂, rfl, -, hrest⟩
    · exact ⟨next', hp⟩
    · have hasks : (task.settle order.identity done).Asks fun q => ¬ IsExtract q :=
        settle_asks (fun _ => id) (fun _ => publish_asks fun _ => id) done
      exact absurd trivial (hasks.of_follows hrest).2.1
  obtain ⟨next, hf⟩ := hperform
  obtain ⟨root, action⟩ := task
  cases action with
  | extract item =>
    have hextract : IsExtract (.within limit (.extract request)) := trivial
    obtain ⟨h₁, fetched, h₂, rfl, hy, hrest⟩ := asked_after downloadOf_extracts_nothing hextract hf
    cases fetched with
    | ok bytes =>
      obtain ⟨hfile, hobserve⟩ := process_asked hrest
      exact ⟨item, h₁, bytes, h₂, rfl, hfile, rfl, hy, hobserve⟩
    | error e =>
      -- nothing is extracted after a download that failed
      refine absurd trivial ((?_ : Asks (fun q => ¬ IsExtract q) _).of_follows hrest).2.1
      refine Asks.bind (Asks.question id) fun s => ?_
      split
      · refine (observe_extracts_nothing _).bind fun observed => ?_
        split <;> trivial
      · trivial
  | attach item =>
    obtain ⟨-, heq⟩ := asked_first (fun a => by cases a <;> trivial) hf
    cases heq
  | detach id =>
    obtain ⟨-, heq⟩ := asked_first (fun a => by cases a <;> trivial) hf
    cases heq

/-! ## How an extraction comes to its end -/

/-- An answer by which the run does not come to read its record. -/
def IsUnread (i : RunIdentity) (e : RunHeard) : Prop :=
  ∃ reason, e = ⟨.keeper (.store (.get i.collection)), .error reason⟩

/-- A check fails only where the record cannot be read. -/
theorem observe_unread {e : RunError} (hy : Yields i.observe h (.error e)) :
    ∃ x ∈ h, IsUnread i x := by
  obtain ⟨⟨q, a⟩, hx, hfault⟩ := observe_blames i h e trivial hy
  have hasks : i.observe.Asks fun q => IsStore q → q = .keeper (.store (.get i.collection)) :=
    observe_asks (by simp [IsStore]) (fun _ => rfl) (by simp [IsStore])
  have hread := (hasks.of_follows hy).1 _ hx hfault.isStore
  simp only at hread
  subst hread
  cases a with
  | ok found => cases hfault
  | error reason => exact ⟨_, hx, reason, rfl⟩

/-- The download is over, and the task goes on to look at its record: it has the content, or it was
told that the waits of the run are interrupted when the download had failed. -/
inductive GoesToCheck (rules : RunRules) (order : RunOrder) (root : SourceRoot) (item : Item) :
    List RunHeard → Prop
  | content {h : List RunHeard} {bytes : List UInt8} :
    Yields (downloadOf rules order root item) h (.ok bytes) → GoesToCheck rules order root item h
  | interrupted {h : List RunHeard} {e : RemoteError} {s : RunState} :
    Yields (downloadOf rules order root item) h (.error e) → s.interrupted = true →
    GoesToCheck rules order root item (h ++ [⟨.state, s⟩])

/-- What a task that extracts a file has heard when it comes to its end. -/
inductive Extraction (rules : RunRules) (order : RunOrder) (task : SyncTask) (item : Item) :
    List RunHeard → Prop
  /-- A task that finds the run cancelled is counted so. -/
  | checked {h₁ h₂ h₃ : List RunHeard} {observed : Except RunError Bool} :
    GoesToCheck rules order task.root item h₁ → Yields order.identity.observe h₂ observed →
    (observed = .ok true → CountsAs (.ofCancelled task.name) (h₁ ++ (h₂ ++ h₃))) →
    Extraction rules order task item (h₁ ++ (h₂ ++ h₃))
  /-- A download that failed while the waits were not interrupted is counted with its own
  failure. -/
  | failed {h₁ h₂ : List RunHeard} {e : RemoteError} {s : RunState} :
    Yields (downloadOf rules order task.root item) h₁ (.error e) → s.interrupted = false →
    CountsAs (task.failureOf (.remote e)) (h₁ ++ ⟨.state, s⟩ :: h₂) →
    Extraction rules order task item (h₁ ++ ⟨.state, s⟩ :: h₂)

/-- An error that is not fatal is counted. -/
theorem settle_counts {e : RunError} {result : Except RunError Unit}
    (hy : Yields (task.settle i (.error e)) h result) (he : e.isFatal = false) :
    CountsAs (task.failureOf e) h := by
  rcases settle_yields hy with ⟨e', heq, hfatal, -⟩ | ⟨s, h', published, rfl, hp, -⟩
  · cases heq
    rw [he] at hfatal
    cases hfatal
  · have hquiet := (publish_routine _ _).marks_eq_nil hp
    refine ⟨?_, ?_⟩
    · rw [marks_cons, hquiet]
      rfl
    · rw [failures_cons, failures_eq_nil hquiet]
      rfl

theorem extraction_of_yields {result : Except RunError Unit} (hitem : task.action = .extract item)
    (hy : Yields (taskOf rules order task) h result) : Extraction rules order task item h := by
  obtain ⟨h₁, done, h₂, rfl, hp, hs⟩ := yields_bind.mp hy
  have hquiet : marks h₁ = [] := (perform_routine _ _ task).marks_eq_nil hp
  obtain ⟨root, action⟩ := task
  cases hitem
  obtain ⟨h₃, fetched, h₄, rfl, hd, hrest⟩ := yields_bind.mp hp
  cases fetched with
  | ok bytes =>
    obtain ⟨h₅, observed, h₆, rfl, ho, hdone⟩ := yields_bind.mp hrest
    have hregroup : h₃ ++ (h₅ ++ h₆) ++ h₂ = h₃ ++ (h₅ ++ (h₆ ++ h₂)) := by
      simp only [List.append_assoc]
    rw [hregroup]
    refine .checked (.content hd) ho fun heq => ?_
    subst heq
    obtain ⟨rfl, rfl⟩ := yields_pure.mp hdone
    rw [← hregroup]
    exact (settle_counts hs rfl).after hquiet
  | error e =>
    obtain ⟨h₅, s, h₆, rfl, hstate, hdone⟩ := yields_bind.mp hrest
    obtain rfl := yields_question.mp hstate
    split at hdone
    · next hinterrupted =>
      obtain ⟨h₇, observed, h₈, rfl, ho, hdone⟩ := yields_bind.mp hdone
      have hregroup : h₃ ++ ([⟨.state, s⟩] ++ (h₇ ++ h₈)) ++ h₂ =
          (h₃ ++ [⟨.state, s⟩]) ++ (h₇ ++ (h₈ ++ h₂)) := by simp only [List.append_assoc]
      rw [hregroup]
      refine .checked (.interrupted hd hinterrupted) ho fun heq => ?_
      subst heq
      obtain ⟨rfl, rfl⟩ := yields_pure.mp hdone
      rw [← hregroup]
      exact (settle_counts hs rfl).after hquiet
    · next hgoes =>
      obtain ⟨rfl, rfl⟩ := yields_pure.mp hdone
      have hregroup : h₃ ++ ([⟨.state, s⟩] ++ []) ++ h₂ = h₃ ++ ⟨.state, s⟩ :: h₂ := by
        simp only [List.append_nil, List.append_assoc, List.cons_append, List.nil_append]
      have hcounts := (settle_counts hs rfl).after hquiet
      rw [hregroup] at hcounts ⊢
      exact .failed hd (Bool.eq_false_iff.mpr hgoes) hcounts

end CollectionSync.Interleaving
