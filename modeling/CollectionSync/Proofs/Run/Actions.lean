import CollectionSync.Proofs.Run.Marks

/-! # What the action of a task comes to

A task downloads what it is to extract and looks at its record before it hands the content over. To
attach or to detach a file, it makes its call at once. The call to the pipeline is the last of its
action, and the action succeeds exactly if the answer says that the item is done with. -/

namespace CollectionSync.Interleaving

open Program

variable {rules : RunRules} {order : RunOrder} {task : SyncTask} {item : Item} {root : SourceRoot}
  {i : RunIdentity} {credentials : String} {q : RunAsk} {h h₁ h₂ : List RunHeard} {α : Type}
  {done : Except RunError Unit}

/-! ## What a task asks -/

theorem attempts_asks {Ask : Type} {Answer : Ask → Type} {P : Ask → Prop} {policy : RetryPolicy}
    {pause : Span → Program Ask Answer Bool} {call : Program Ask Answer (Except RemoteError α)}
    (hp : ∀ s, (pause s).Asks P) (hc : call.Asks P) (left attempt : Nat) :
    (policy.attempts pause call left attempt).Asks P := by
  induction left generalizing attempt with
  | zero => exact hc
  | succ left ih =>
    refine hc.bind fun result => ?_
    cases result with
    | ok a => trivial
    | error e =>
      dsimp only
      split
      · refine (hp _).bind fun cut => ?_
        split
        · trivial
        · exact ih _
      · trivial

/-- A call of a task: it lists no root. -/
def IsTaskCall : Call → Prop
  | .list .. => False
  | _ => True

theorem callRemote_asks {P : RunAsk → Prop} (hp : ∀ s, P (.pause s)) (what : String)
    {call : Running (Option (Except RemoteError α))} (hc : call.Asks P) :
    (callRemote rules what call).Asks P :=
  attempts_asks (fun s => Asks.question (hp s)) (hc.bind fun _ => Asks.pure _) _ _

theorem callPipeline_asks {P : RunAsk → Prop} (what : String)
    {call : Running (Option (Except PipelineError α))} (hc : call.Asks P) :
    (callPipeline rules what call).Asks P := by
  refine hc.bind fun result => ?_
  cases result <;> trivial

theorem process_asks {P : RunAsk → Prop} (hlook : i.observe.Asks P)
    (hc : ∀ limit call, IsTaskCall call → P (.within limit call)) (item : Item)
    (bytes : List UInt8) : (SyncTask.process rules i item bytes).Asks P := by
  refine hlook.bind fun observed => ?_
  split
  · trivial
  · trivial
  · exact (callPipeline_asks _ (Asks.question (hc _ _ (by trivial)))).bind fun _ => trivial

theorem perform_asks {P : RunAsk → Prop} (hlook : i.observe.Asks P) (hstate : P .state)
    (hp : ∀ s, P (.pause s)) (hc : ∀ limit call, IsTaskCall call → P (.within limit call))
    (credentials : String) (task : SyncTask) : (task.perform rules i credentials).Asks P := by
  unfold SyncTask.perform
  split
  · refine (callRemote_asks hp _ (Asks.question (hc _ _ (by trivial)))).bind fun fetched => ?_
    split
    · exact process_asks hlook hc _ _
    · refine (Asks.question hstate).bind fun s => ?_
      split
      · refine hlook.bind fun observed => ?_
        split <;> trivial
      · trivial
  · exact (callPipeline_asks _ (Asks.question (hc _ _ (by trivial)))).bind fun _ => trivial
  · exact (callPipeline_asks _ (Asks.question (hc _ _ (by trivial)))).bind fun _ => trivial

theorem perform_routine (i : RunIdentity) (credentials : String) (task : SyncTask) :
    Routine (task.perform rules i credentials) :=
  perform_asks (observe_routine i) trivial (fun _ => trivial) (fun _ _ _ => trivial)
    credentials task

/-- A call that changes what the pipeline holds of an item. -/
def IsItemCall : RunAsk → Prop
  | .within _ (.extract _) | .within _ (.attach ..) | .within _ (.detach ..) => True
  | _ => False

theorem observe_calls_nothing (i : RunIdentity) : i.observe.Asks fun q => ¬ IsItemCall q :=
  observe_asks id id id

theorem download_calls_nothing (rules : RunRules) (root : SourceRoot) (item : Item)
    (credentials : String) :
    (callRemote rules ("download of " ++ item.id.text)
      (Run.within rules.itemTimeout (.fetch root item.id credentials))).Asks
        fun q => ¬ IsItemCall q :=
  callRemote_asks (fun _ => id) _ (Asks.question id)

/-- A program that asks nothing but its first question comes to no other. -/
theorem asked_first {q₀ : RunAsk} {next₀ : q₀.Answer → Running α} {next : q.Answer → Running α}
    (hnone : ∀ a, (next₀ a).Asks fun _ => False) (hf : Follows (ask q₀ next₀) h (ask q next)) :
    h = [] ∧ q = q₀ := by
  cases hf with
  | refl => exact ⟨rfl, rfl⟩
  | hear a hf => exact ((hnone a).of_follows hf).2.1.elim

/-- Once a task has called the pipeline, its action asks nothing more. -/
theorem perform_calls_last {next : q.Answer → Running (Except RunError Unit)}
    (hf : Follows (task.perform rules i credentials) h (ask q next)) :
    ∀ e ∈ h, ¬ IsItemCall e.1 := by
  obtain ⟨root, action⟩ := task
  have hfirst : h = [] → ∀ e ∈ h, ¬ IsItemCall e.1 := by
    rintro rfl
    exact fun _ he => absurd he List.not_mem_nil
  cases action with
  | attach item => exact hfirst (asked_first (fun a => by cases a <;> trivial) hf).1
  | detach id => exact hfirst (asked_first (fun a => by cases a <;> trivial) hf).1
  | extract item =>
    rcases follows_bind_ask.mp hf with ⟨_, hd, -⟩ | ⟨h₁, fetched, h₂, rfl, hd, hrest⟩
    · exact ((download_calls_nothing _ _ _ _).of_follows hd).1
    have hdownload := ((download_calls_nothing _ _ _ _).of_follows hd).1
    suffices hcheck : ∀ e ∈ h₂, ¬ IsItemCall e.1 by
      exact fun e he => (List.mem_append.mp he).elim (hdownload e) (hcheck e)
    cases fetched with
    | ok bytes =>
      rcases follows_bind_ask.mp hrest with ⟨_, ho, -⟩ | ⟨h₃, observed, h₄, rfl, ho, hcall⟩
      · exact ((observe_calls_nothing _).of_follows ho).1
      have hobserve := ((observe_calls_nothing _).of_follows ho).1
      split at hcall
      · cases (follows_done.mp hcall).2
      · cases (follows_done.mp hcall).2
      · obtain ⟨rfl, -⟩ := asked_first (fun a => by cases a <;> trivial) hcall
        rwa [List.append_nil]
    | error e =>
      refine (Asks.of_follows (P := fun q => ¬ IsItemCall q) ?_ hrest).1
      refine Asks.bind (Asks.question id) fun s => ?_
      split
      · refine (observe_calls_nothing _).bind fun observed => ?_
        split <;> trivial
      · trivial

/-! ## Success -/

/-- The pipeline has taken the content, or had it already. -/
def Taken : Except PipelineError PipelineOutcome → Prop
  | .ok _ | .error (.duplicateContent _) => True
  | .error _ => False

/-- The file is in the collection, and may have been before. -/
def Attached : Except PipelineError PipelineOutcome → Prop
  | .ok _ | .error (.alreadyAttached _) => True
  | .error _ => False

/-- The file is not in the collection any more, or never was. -/
def Detached : Except PipelineError Unit → Prop
  | .ok _ | .error (.notFound _) => True
  | .error _ => False

/-- What the pipeline is asked to extract, once this content was downloaded. -/
abbrev extractionOf (c : CollectionId) (item : Item) (bytes : List UInt8) : ExtractRequest :=
  ⟨item.file, c, item.name, item.path, item.hash, bytes⟩

/-- By the answers that a task has heard, its item is done with. Content is handed over right after
a check that has found the run going on and the record its own, and the check is made right after
the download. -/
inductive Succeeded (rules : RunRules) (order : RunOrder) : SyncTask → List RunHeard → Prop
  | extracted {root : SourceRoot} {item : Item} {h h' : List RunHeard} {bytes : List UInt8}
      {s : RunState} {found : Option Record} {answer : Except PipelineError PipelineOutcome} :
    s.cancelled = false → s.stopping = false → order.identity.owns found = true → Taken answer →
    Succeeded rules order ⟨root, .extract item⟩ (h ++
      ⟨.within rules.itemTimeout (.fetch root item.id order.credentials), some (.ok bytes)⟩ ::
      ⟨.state, s⟩ :: ⟨.keeper (.store (.get order.request.collection)), .ok found⟩ ::
      ⟨.within rules.itemTimeout (.extract (extractionOf order.request.collection item bytes)),
        some answer⟩ :: h')
  | attached {root : SourceRoot} {item : Item} {h' : List RunHeard}
      {answer : Except PipelineError PipelineOutcome} :
    Attached answer → Succeeded rules order ⟨root, .attach item⟩
      (⟨.within rules.itemTimeout (.attach item.file order.request.collection), some answer⟩ :: h')
  | detached {root : SourceRoot} {id : RemoteId} {h' : List RunHeard}
      {answer : Except PipelineError Unit} :
    Detached answer → Succeeded rules order ⟨root, .detach id⟩
      (⟨.within rules.itemTimeout (.detach id.file order.request.collection), some answer⟩ :: h')

/-- An action does not succeed without a call to the pipeline. -/
theorem Succeeded.called (hs : Succeeded rules order task h) : ∃ e ∈ h, IsItemCall e.1 := by
  cases hs with
  | extracted =>
    exact ⟨_, List.mem_append_right _ (.tail _ (.tail _ (.tail _ (.head _)))), trivial⟩
  | attached | detached => exact ⟨_, List.mem_cons_self, trivial⟩

theorem Succeeded.taken (hs : Succeeded rules order ⟨root, .extract item⟩ h) :
    ∃ (bytes : List UInt8) (answer : Except PipelineError PipelineOutcome),
      ⟨.within rules.itemTimeout (.extract (extractionOf order.request.collection item bytes)),
        some answer⟩ ∈ h ∧ Taken answer := by
  cases hs with
  | extracted _ _ _ ha =>
    exact ⟨_, _, List.mem_append_right _ (.tail _ (.tail _ (.tail _ (.head _)))), ha⟩

/-- A download that succeeds does so with its last answer. -/
theorem fetched_last {what : String} {limit : Span} {id : RemoteId} {bytes : List UInt8}
    (hy : Yields (callRemote rules what (Run.within limit (.fetch root id credentials))) h
      (.ok bytes)) :
    ∃ h', h = h' ++ [⟨.within limit (.fetch root id credentials), some (.ok bytes)⟩] := by
  let call : Running (Except RemoteError (List UInt8)) := do
    return (← Run.within limit (.fetch root id credentials)).getD
      (.error (.timeout (exceeded what rules.itemTimeout)))
  have hcall : ∀ {h : List RunHeard}, Yields call h (.ok bytes) →
      h = [⟨.within limit (.fetch root id credentials), some (.ok bytes)⟩] := by
    intro h hy
    obtain ⟨h₁, answer, h₂, rfl, hq, hy₂⟩ := yields_bind.mp hy
    obtain rfl := yields_question.mp hq
    obtain ⟨rfl, hok⟩ := yields_pure.mp hy₂
    cases answer with
    | none => cases hok
    | some answer => rw [hok]; rfl
  suffices hattempts : ∀ left attempt,
      Yields (rules.retry.attempts Run.pause call left attempt) h (.ok bytes) →
      ∃ h', h = h' ++ [⟨.within limit (.fetch root id credentials), some (.ok bytes)⟩] from
    hattempts _ _ hy
  clear hy
  intro left
  induction left generalizing h with
  | zero => exact fun _ hy => ⟨[], hcall hy⟩
  | succ left ih =>
    intro attempt hy
    obtain ⟨h₁, result, h₂, rfl, hy₁, hy₂⟩ := yields_bind.mp hy
    cases result with
    | ok bytes' =>
      obtain ⟨rfl, heq⟩ := yields_pure.mp hy₂
      cases heq
      exact ⟨[], by rw [hcall hy₁]; rfl⟩
    | error e =>
      dsimp only at hy₂
      split at hy₂
      · obtain ⟨h₃, cut, h₄, rfl, -, hy₄⟩ := yields_bind.mp hy₂
        split at hy₄
        · cases (yields_pure.mp hy₄).2
        · obtain ⟨h', rfl⟩ := ih _ hy₄
          exact ⟨h₁ ++ (h₃ ++ h'), by simp only [List.append_assoc]⟩
      · cases (yields_pure.mp hy₂).2

/-- A check that lets the run go on has found nothing against it. -/
theorem observe_goesOn (hy : Yields i.observe h (.ok false)) :
    ∃ (s : RunState) (found : Option Record),
      h = [⟨.state, s⟩, ⟨.keeper (.store (.get i.collection)), .ok found⟩] ∧
      s.cancelled = false ∧ s.stopping = false ∧ i.owns found = true := by
  obtain ⟨h₁, s, h₂, rfl, hs, hy₂⟩ := yields_bind.mp hy
  obtain rfl := yields_question.mp hs
  split at hy₂
  · cases (yields_pure.mp hy₂).2
  next hgoing =>
  split at hy₂
  · obtain ⟨_, _, _, _, -, hy₃⟩ := yields_bind.mp hy₂
    cases (yields_pure.mp hy₃).2
  next hstaying =>
  obtain ⟨h₃, found, h₄, rfl, hget, hy₄⟩ := yields_bind.mp hy₂
  cases found with
  | error e => cases (yields_pure.mp hy₄).2
  | ok found =>
    dsimp only at hy₄
    split at hy₄
    · next howns =>
      obtain ⟨rfl, -⟩ := yields_pure.mp hy₄
      cases hget with
      | hear reply hget =>
        obtain ⟨rfl, heq⟩ := follows_done.mp hget
        cases reply with
        | error e => cases heq
        | ok found' =>
          cases heq
          exact ⟨s, found, rfl, eq_false_of_ne_true hgoing, eq_false_of_ne_true hstaying, howns⟩
    · obtain ⟨_, _, _, _, -, hy₅⟩ := yields_bind.mp hy₄
      cases (yields_pure.mp hy₅).2

section

variable {what : String} {limit : Span} {harmless : PipelineError → Bool}

/-- Pipeline work ends with the answer to its call, and succeeds exactly if the answer is one of
those that settle the item. -/
theorem pipeline_yields {call : Running (Option (Except PipelineError α))}
    {Settles : Except PipelineError α → Prop}
    (hsettles : ∀ a, settled harmless (.ok a) = .ok () ↔ Settles a)
    (hy : Yields (callPipeline rules what call >>= fun result => pure (settled harmless result)) h
      done) :
    ∃ answer, Yields call h answer ∧ (done = .ok () ↔ ∃ a, answer = some a ∧ Settles a) := by
  obtain ⟨h₁, result, h₂, rfl, hy₁, hy₂⟩ := yields_bind.mp hy
  obtain ⟨h₃, answer, h₄, rfl, hcall, hy₃⟩ := yields_bind.mp hy₁
  obtain ⟨rfl, rfl⟩ := yields_pure.mp hy₂
  refine ⟨answer, ?_⟩
  cases answer with
  | none =>
    obtain ⟨rfl, rfl⟩ := yields_pure.mp hy₃
    exact ⟨by simpa using hcall, by simp [settled]⟩
  | some a =>
    obtain ⟨rfl, rfl⟩ := yields_pure.mp hy₃
    exact ⟨by simpa using hcall, by simp [hsettles]⟩

theorem settled_taken (a : Except PipelineError PipelineOutcome) :
    settled (fun e => e matches .duplicateContent _) (.ok a) = .ok () ↔ Taken a := by
  rcases a with (_ | _ | _ | _ | _) | _ <;> simp [settled, Taken]

theorem settled_attached (a : Except PipelineError PipelineOutcome) :
    settled (fun e => e matches .alreadyAttached _) (.ok a) = .ok () ↔ Attached a := by
  rcases a with (_ | _ | _ | _ | _) | _ <;> simp [settled, Attached]

theorem settled_detached (a : Except PipelineError Unit) :
    settled (fun e => e matches .notFound _) (.ok a) = .ok () ↔ Detached a := by
  rcases a with (_ | _ | _ | _ | _) | _ <;> simp [settled, Detached]

end

theorem attach_yields (hy : Yields (SyncTask.attach rules i item) h done) :
    ∃ answer : Option (Except PipelineError PipelineOutcome),
      h = [⟨.within rules.itemTimeout (.attach item.file i.collection), answer⟩] ∧
      (done = .ok () ↔ ∃ a, answer = some a ∧ Attached a) := by
  obtain ⟨answer, hcall, hdone⟩ := pipeline_yields settled_attached hy
  exact ⟨answer, yields_question.mp hcall, hdone⟩

theorem detach_yields {id : RemoteId} (hy : Yields (SyncTask.detach rules i id) h done) :
    ∃ answer : Option (Except PipelineError Unit),
      h = [⟨.within rules.itemTimeout (.detach id.file i.collection), answer⟩] ∧
      (done = .ok () ↔ ∃ a, answer = some a ∧ Detached a) := by
  obtain ⟨answer, hcall, hdone⟩ := pipeline_yields settled_detached hy
  exact ⟨answer, yields_question.mp hcall, hdone⟩

/-- What a task that extracts a file has heard when it hands the content over. -/
structure HandsOver (rules : RunRules) (i : RunIdentity) (credentials : String) (root : SourceRoot)
    (item : Item) (bytes : List UInt8) (h : List RunHeard) : Prop where
  checked : ∃ (h' : List RunHeard) (s : RunState) (found : Option Record),
    h = h' ++ [⟨.within rules.itemTimeout (.fetch root item.id credentials), some (.ok bytes)⟩,
      ⟨.state, s⟩, ⟨.keeper (.store (.get i.collection)), .ok found⟩] ∧
    s.cancelled = false ∧ s.stopping = false ∧ i.owns found = true
  uncalled : ∀ e ∈ h, ¬ IsItemCall e.1

/-- An extraction fails before it calls the pipeline, or ends with the answer to this call. -/
theorem extract_yields (hy : Yields (SyncTask.extract rules i credentials root item) h done) :
    (done ≠ .ok () ∧ ∀ e ∈ h, ¬ IsItemCall e.1) ∨
      ∃ (h' : List RunHeard) (bytes : List UInt8)
        (answer : Option (Except PipelineError PipelineOutcome)),
        h = h' ++ [⟨.within rules.itemTimeout (.extract (extractionOf i.collection item bytes)),
          answer⟩] ∧
        HandsOver rules i credentials root item bytes h' ∧
        (done = .ok () ↔ ∃ a, answer = some a ∧ Taken a) := by
  obtain ⟨h₁, fetched, h₂, rfl, hd, hrest⟩ := yields_bind.mp hy
  have hdownload := ((download_calls_nothing _ _ _ _).of_follows hd).1
  have hjoin : ∀ {h : List RunHeard}, (∀ e ∈ h, ¬ IsItemCall e.1) →
      ∀ e ∈ h₁ ++ h, ¬ IsItemCall e.1 :=
    fun hq e he => (List.mem_append.mp he).elim (hdownload e) (hq e)
  cases fetched with
  | ok bytes =>
    obtain ⟨h₃, observed, h₄, rfl, ho, hcall⟩ := yields_bind.mp hrest
    have hobserve := ((observe_calls_nothing _).of_follows ho).1
    split at hcall
    · obtain ⟨rfl, rfl⟩ := yields_pure.mp hcall
      rw [List.append_nil]
      exact .inl ⟨nofun, hjoin hobserve⟩
    · obtain ⟨rfl, rfl⟩ := yields_pure.mp hcall
      rw [List.append_nil]
      exact .inl ⟨nofun, hjoin hobserve⟩
    · obtain ⟨answer, hanswer, hdone⟩ := pipeline_yields settled_taken hcall
      obtain rfl := yields_question.mp hanswer
      obtain ⟨h', rfl⟩ := fetched_last hd
      obtain ⟨s, found, rfl, hs⟩ := observe_goesOn ho
      refine .inr ⟨_, bytes, answer, (List.append_assoc ..).symm,
        ⟨⟨h', s, found, ?_, hs⟩, ?_⟩, hdone⟩
      · rw [List.append_assoc]
        rfl
      · exact hjoin hobserve
  | error e =>
    -- a download that failed is not turned into a success any more
    obtain ⟨h₃, s, h₄, rfl, hstate, hfailed⟩ := yields_bind.mp hrest
    obtain rfl := yields_question.mp hstate
    have hread : ∀ {h : List RunHeard}, (∀ e ∈ h, ¬ IsItemCall e.1) →
        ∀ e ∈ [(⟨.state, s⟩ : RunHeard)] ++ h, ¬ IsItemCall e.1 :=
      fun hq e he => (List.mem_cons.mp he).elim (fun heq => heq ▸ id) (hq e)
    split at hfailed
    · obtain ⟨h₅, observed, h₆, rfl, ho, hend⟩ := yields_bind.mp hfailed
      have hobserve := ((observe_calls_nothing _).of_follows ho).1
      have hends : h₆ = [] ∧ done ≠ .ok () := by
        split at hend <;> obtain ⟨rfl, rfl⟩ := yields_pure.mp hend <;> exact ⟨rfl, nofun⟩
      obtain ⟨rfl, hfails⟩ := hends
      rw [List.append_nil]
      exact .inl ⟨hfails, hjoin (hread hobserve)⟩
    · obtain ⟨rfl, rfl⟩ := yields_pure.mp hfailed
      exact .inl ⟨nofun, hjoin (hread fun _ he => absurd he List.not_mem_nil)⟩

/-- Whether an action has succeeded shows once it has come to its end, by what was answered to
it. -/
theorem succeeded_iff
    (hy : Yields (task.perform rules order.identity order.credentials) h₁ done)
    (hquiet : ∀ e ∈ h₂, ¬ IsItemCall e.1) :
    Succeeded rules order task (h₁ ++ h₂) ↔ done = .ok () := by
  obtain ⟨root, action⟩ := task
  cases action with
  | attach item =>
    obtain ⟨answer, rfl, hdone⟩ := attach_yields hy
    rw [hdone]
    constructor
    · intro hs
      cases hs with
      | attached ha => exact ⟨_, rfl, ha⟩
    · rintro ⟨a, rfl, ha⟩
      exact .attached ha
  | detach id =>
    obtain ⟨answer, rfl, hdone⟩ := detach_yields hy
    rw [hdone]
    constructor
    · intro hs
      cases hs with
      | detached ha => exact ⟨_, rfl, ha⟩
    · rintro ⟨a, rfl, ha⟩
      exact .detached ha
  | extract item =>
    rcases extract_yields hy with ⟨hfails, hnone⟩ | ⟨h', bytes, answer, rfl,
      ⟨hchecked, hnone⟩, hdone⟩
    · refine ⟨fun hs => ?_, fun hok => absurd hok hfails⟩
      obtain ⟨e, he, hcall⟩ := hs.called
      exact absurd hcall ((List.mem_append.mp he).elim (hnone e) (hquiet e))
    · rw [hdone]
      constructor
      · intro hs
        -- the one call of the action is the one that was answered so
        obtain ⟨bytes', a, hmem, ha⟩ := hs.taken
        rcases List.mem_append.mp hmem with hmem | hmem
        · rcases List.mem_append.mp hmem with hmem | hmem
          · exact absurd trivial (hnone _ hmem)
          · cases List.mem_singleton.mp hmem
            exact ⟨a, rfl, ha⟩
        · exact absurd trivial (hquiet _ hmem)
      · rintro ⟨a, rfl, ha⟩
        obtain ⟨h₃, s, found, rfl, hcancelled, hstopping, howns⟩ := hchecked
        simp only [List.append_assoc, List.cons_append, List.nil_append]
        exact .extracted hcancelled hstopping howns ha

end CollectionSync.Interleaving
