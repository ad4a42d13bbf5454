import CollectionSync.Proofs.Run.Replanning

/-! # A plan leaves nothing out

Of several reports of a file the first one counts. Every file that is reported is looked up once,
and what the answer calls for is planned in the order of the reports; the removals of all other
files follow. The answers are taken one by one: a file is extracted where its lookup fails, whatever
is heard of the others. -/

namespace CollectionSync.Planning

open Program Replanning

/-- What is heard when a file is looked up; none where that takes too long. -/
abbrev Lookup := FileId → Option (Except PipelineError (Option ContentRecord))

/-- The reports of added and changed files, root by root and in the order of each feed. -/
def reports (changes : List (SourceRoot × ChangeSet)) : List (SourceRoot × Item) :=
  changes.flatMap fun x => x.2.items.map fun item => (x.1, item)

/-- The removals, in the same order. -/
def removals (changes : List (SourceRoot × ChangeSet)) : List (SourceRoot × RemoteId) :=
  changes.flatMap fun x => x.2.removed.map fun id => (x.1, id)

/-- The members of a list that pass a test, given what stands before them. -/
def pick {α : Type} (p : List α → α → Bool) (l : List α) : List α :=
  (l.zipIdx.filter fun x => p (l.take x.2) x.1).map (·.1)

/-- The reports that no report of the same file comes before. -/
def firstReported (changes : List (SourceRoot × ChangeSet)) : List (SourceRoot × Item) :=
  pick (fun before x => ∀ y ∈ before, y.2.file ≠ x.2.file) (reports changes)

/-- The lookup succeeds and finds the file as it was reported, in collections of this kind. -/
def Holds (item : Item) (P : List CollectionId → Prop)
    (answer : Option (Except PipelineError (Option ContentRecord))) : Prop :=
  ∃ r, answer = some (.ok (some r)) ∧ item.hash = some r.hash ∧ P r.collections

instance {item : Item} {P : List CollectionId → Prop} [DecidablePred P]
    {answer : Option (Except PipelineError (Option ContentRecord))} :
    Decidable (Holds item P answer) :=
  match answer with
  | some (.ok (some r)) => decidable_of_iff (item.hash = some r.hash ∧ P r.collections) <| by
    simp [Holds]
  | some (.ok none) | some (.error _) | none => isFalse fun ⟨_, h, _⟩ => by cases h

/-- What a lookup calls for: nothing for a file in place, an attachment for one that only other
collections hold, and an extraction in every other case. -/
def due (c : CollectionId) (item : Item)
    (answer : Option (Except PipelineError (Option ContentRecord))) :
    Option TaskAction :=
  if Holds item (c ∈ ·) answer then none
  else if Holds item (fun collections => c ∉ collections ∧
    collections ≠ []) answer then some (.attach item)
  else some (.extract item)

/-- The task of a reported file, under the root that reports it. -/
def taskDue (c : CollectionId) (lookup : Lookup) (x : SourceRoot × Item) : Option SyncTask :=
  (due c x.2 (lookup x.2.file)).map fun action => ⟨x.1, action⟩

/-- The removals of files that nobody reports. -/
def detachments (changes : List (SourceRoot × ChangeSet)) : List SyncTask :=
  ((removals changes).filter fun x => ∀ y ∈ firstReported changes, y.2.file ≠ x.2.file).map
    fun x => ⟨x.1, .detach x.2⟩

/-- A root reports what the task is about. -/
def ReportedFor (changes : List (SourceRoot × ChangeSet)) (task : SyncTask) : Prop :=
  match task.action with
  | .extract item | .attach item => (task.root, item) ∈ reports changes
  | .detach id => (task.root, id) ∈ removals changes

instance (task : SyncTask) : Decidable task.TakesUp :=
  decidable_of_iff (∀ id ∈ (match task.action with | .detach id => some id | _ => none),
    False) <| by
    unfold SyncTask.TakesUp
    cases task.action <;> simp

/-- The plan settles what is to be done with all that was reported, and only with that. -/
structure Covers (c : CollectionId) (changes : List (SourceRoot × ChangeSet)) (lookup : Lookup)
    (plan : RunPlan) : Prop where
  tasks : plan.tasks = (firstReported changes).filterMap (taskDue c lookup) ++ detachments changes
  reported : ∀ task ∈ plan.tasks, ReportedFor changes task
  skipped : plan.skipped = (firstReported changes).countP fun x => (taskDue c lookup x).isNone
  counted : plan.skipped + plan.tasks.countP SyncTask.TakesUp = (firstReported changes).length
  /-- No file is taken out that is taken up, or left in its place. -/
  apart : ∀ task ∈ plan.tasks, ∀ id, task.action = .detach id →
    (∀ other ∈ plan.tasks, other.TakesUp → other.file ≠ id.file) ∧
      ∀ x ∈ firstReported changes, taskDue c lookup x = none → x.2.file ≠ id.file

variable {c : CollectionId} {changes : List (SourceRoot × ChangeSet)} {lookup : Lookup}
  {task : SyncTask} {x : SourceRoot × Item}

/-! ## First reports -/

theorem pick_cons {α : Type} (p : List α → α → Bool) (a : α) (l : List α) :
    pick p (a :: l) = if p [] a then a :: pick (fun before => p (a :: before)) l
      else pick (fun before => p (a :: before)) l := by
  simp only [pick, List.zipIdx_cons, List.zipIdx_succ, List.filter_cons, List.filter_map,
    Function.comp_def, List.take_succ_cons, List.take_zero]
  split
  · simp [Function.comp_def]
  · simp [Function.comp_def]

/-- Of files that were not seen before, the first reports are kept. -/
theorem firstReports_eq (seen : List FileId) (l : List (SourceRoot × Item)) : firstReports seen l =
    pick (fun before x => x.2.file ∉ seen ∧ ∀ y ∈ before, y.2.file ≠ x.2.file) l := by
  induction l generalizing seen with
  | nil => rfl
  | cons x l ih =>
    obtain ⟨root, item⟩ := x
    simp only [firstReports, pick_cons, List.forall_mem_cons]
    by_cases hseen : item.file ∈ seen
    · rw [if_pos hseen, ih, if_neg (by simp [hseen])]
      congr 1
      funext before x
      refine decide_eq_decide.mpr (and_congr_right fun hx => ?_)
      exact (and_iff_right fun heq : item.file = x.2.file => hx (heq ▸ hseen)).symm
    · rw [if_neg hseen, ih, if_pos (by simp [hseen])]
      congr 2
      funext before x
      refine decide_eq_decide.mpr ?_
      rw [List.mem_cons, not_or, and_assoc, and_left_comm, ← ne_eq, ne_comm]

theorem reportedItems_eq (changes : List (SourceRoot × ChangeSet)) :
    reportedItems changes = firstReported changes := by
  rw [reportedItems, firstReports_eq, firstReported]
  simp only [List.not_mem_nil, not_false_eq_true, true_and]
  rfl

theorem reportedRemovals_eq (changes : List (SourceRoot × ChangeSet)) : reportedRemovals changes =
    (removals changes).filter fun x => ∀ y ∈ firstReported changes, y.2.file ≠ x.2.file := by
  simp only [reportedRemovals, reportedItems_eq]
  refine List.filter_congr fun x _ => decide_eq_decide.mpr ?_
  simp only [List.mem_map, not_exists, not_and]

theorem firstReported_subset : firstReported changes ⊆ reports changes := by
  rw [← reportedItems_eq]
  exact firstReports_subset

/-! ## Decisions -/

theorem classify_knownOf (c : CollectionId) (item : Item)
    (answer : Option (Except PipelineError (Option ContentRecord))) :
    classify item (knownOf answer) c = due c item answer := by
  rcases answer with _ | _ | _ | r
  · rfl
  · rfl
  · rfl
  · have hholds : ∀ P, Holds item P (some (.ok (some r))) ↔
        item.hash = some r.hash ∧ P r.collections := by
      simp [Holds]
    simp only [knownOf, classify, due, hholds]
    by_cases hhash : item.hash = some r.hash
    · by_cases hin : c ∈ r.collections
      · simp [hhash, hin]
      · simp [hhash, hin]
    · simp [hhash]

theorem taskFor_knownOf (c : CollectionId) (lookup : Lookup) (x : SourceRoot × Item) :
    taskFor c (x, knownOf (lookup x.2.file)) = taskDue c lookup x := by
  rw [taskFor, classify_knownOf, taskDue]

/-- A reported file is taken up under its root. -/
theorem of_taskDue (h : taskDue c lookup x = some task) :
    task.root = x.1 ∧ (task.action = .extract x.2 ∨ task.action = .attach x.2) := by
  obtain ⟨action, haction, rfl⟩ := Option.map_eq_some_iff.mp h
  rw [← classify_knownOf] at haction
  exact ⟨rfl, (classify_eq_some haction).imp_right And.left⟩

theorem takesUp_of_taskDue (h : taskDue c lookup x = some task) : task.TakesUp := by
  rcases (of_taskDue h).2 with haction | haction <;> simp [SyncTask.TakesUp, haction]

theorem file_of_taskDue (h : taskDue c lookup x = some task) : task.file = x.2.file := by
  rw [← taskFor_knownOf] at h
  exact file_of_taskFor h

theorem of_mem_detachments (h : task ∈ detachments changes) :
    ∃ id, task.action = .detach id ∧ (task.root, id) ∈ removals changes ∧
      ∀ y ∈ firstReported changes, y.2.file ≠ id.file := by
  obtain ⟨⟨root, id⟩, hmem, rfl⟩ := List.mem_map.mp h
  obtain ⟨hremoved, hfile⟩ := List.mem_filter.mp hmem
  exact ⟨id, rfl, hremoved, of_decide_eq_true hfile⟩

/-! ## Plans -/

/-- The answers to the lookups of all reported files. -/
def answers (lookup : Lookup) (changes : List (SourceRoot × ChangeSet)) :
    List (Option (Except PipelineError (Option ContentRecord))) :=
  (firstReported changes).map fun x => lookup x.2.file

/-- The plan that is made with these answers. -/
def planOf (c : CollectionId) (lookup : Lookup) (changes : List (SourceRoot × ChangeSet)) :
    RunPlan :=
  RunPlan.make c changes ((answers lookup changes).map knownOf)

theorem findings_answers (lookup : Lookup) (changes : List (SourceRoot × ChangeSet)) :
    Findings changes ((answers lookup changes).map knownOf) =
      (firstReported changes).map fun x => (x, knownOf (lookup x.2.file)) := by
  rw [Findings, reportedItems_eq, answers, List.map_map, List.map_prod_left_eq_zip]
  rfl

theorem tasks_planOf (c : CollectionId) (lookup : Lookup)
    (changes : List (SourceRoot × ChangeSet)) :
    (planOf c lookup changes).tasks =
      (firstReported changes).filterMap (taskDue c lookup) ++ detachments changes := by
  rw [planOf, tasks_make, findings_answers, List.filterMap_map, reportedRemovals_eq, detachments]
  congr 2
  funext x
  exact taskFor_knownOf c lookup x

theorem skipped_planOf (c : CollectionId) (lookup : Lookup)
    (changes : List (SourceRoot × ChangeSet)) :
    (planOf c lookup changes).skipped =
      (firstReported changes).countP fun x => (taskDue c lookup x).isNone := by
  have hskipped : (planOf c lookup changes).skipped =
      (((Findings changes ((answers lookup changes).map knownOf)).map (taskFor c)).filter
        Option.isNone).length := rfl
  rw [hskipped, findings_answers, List.map_map, ← List.countP_eq_length_filter, List.countP_map]
  congr 1
  funext x
  exact congrArg Option.isNone (taskFor_knownOf c lookup x)

theorem mem_tasks_planOf : task ∈ (planOf c lookup changes).tasks ↔
    (∃ x ∈ firstReported changes, taskDue c lookup x = some task) ∨ task ∈ detachments changes := by
  rw [tasks_planOf, List.mem_append, List.mem_filterMap]

theorem countP_takesUp_planOf (c : CollectionId) (lookup : Lookup)
    (changes : List (SourceRoot × ChangeSet)) :
    (planOf c lookup changes).tasks.countP SyncTask.TakesUp =
      (firstReported changes).countP fun x => (taskDue c lookup x).isSome := by
  have hup : ((firstReported changes).filterMap (taskDue c lookup)).countP SyncTask.TakesUp =
      ((firstReported changes).filterMap (taskDue c lookup)).length := by
    refine List.countP_eq_length.mpr fun task htask => decide_eq_true ?_
    obtain ⟨x, -, hx⟩ := List.mem_filterMap.mp htask
    exact takesUp_of_taskDue hx
  have hout : (detachments changes).countP SyncTask.TakesUp = 0 := by
    refine List.countP_eq_zero.mpr fun task htask htakes => ?_
    obtain ⟨id, haction, -⟩ := of_mem_detachments htask
    exact of_decide_eq_true htakes id haction
  rw [tasks_planOf, List.countP_append, hup, hout, Nat.add_zero, List.length_filterMap_eq_countP]

theorem reportedFor_of_mem (h : task ∈ (planOf c lookup changes).tasks) :
    ReportedFor changes task := by
  rcases mem_tasks_planOf.mp h with ⟨x, hx, hdue⟩ | hdetached
  · obtain ⟨hroot, haction⟩ := of_taskDue hdue
    have hreport : (task.root, x.2) ∈ reports changes := hroot ▸ firstReported_subset hx
    unfold ReportedFor
    rcases haction with haction | haction <;> rwa [haction]
  · obtain ⟨id, haction, hremoved, -⟩ := of_mem_detachments hdetached
    unfold ReportedFor
    rwa [haction]

theorem covers_planOf (c : CollectionId) (lookup : Lookup)
    (changes : List (SourceRoot × ChangeSet)) :
    Covers c changes lookup (planOf c lookup changes) where
  tasks := tasks_planOf c lookup changes
  reported _ := reportedFor_of_mem
  skipped := skipped_planOf c lookup changes
  counted := by
    rw [skipped_planOf, countP_takesUp_planOf, Nat.add_comm,
      List.length_eq_countP_add_countP fun x => (taskDue c lookup x).isSome]
    simp only [Bool.not_eq_true, Option.isSome_eq_false_iff, Bool.decide_eq_true]
  apart task htask id haction := by
    have hfresh : ∀ y ∈ firstReported changes, y.2.file ≠ id.file := by
      rcases mem_tasks_planOf.mp htask with ⟨x, -, hdue⟩ | hdetached
      · exact absurd haction (takesUp_of_taskDue hdue id)
      · obtain ⟨id', haction', -, hfile⟩ := of_mem_detachments hdetached
        rw [haction] at haction'
        cases haction'
        exact hfile
    refine ⟨fun other hother htakes => ?_, fun x hx _ => hfresh x hx⟩
    rcases mem_tasks_planOf.mp hother with ⟨x, hx, hdue⟩ | hdetached
    · rw [file_of_taskDue hdue]
      exact hfresh x hx
    · obtain ⟨id', haction', -⟩ := of_mem_detachments hdetached
      exact absurd haction' (htakes id')

/-- Whatever the lookups answer, a plan is made, and it covers all that was reported: each reported
file is looked up once and in order, and each file that is only removed is detached. -/
theorem planned_in_full (c : CollectionId) (changes : List (SourceRoot × ChangeSet))
    (lookup : Lookup) (width : Nat) (limit : Span) :
    let files := (firstReported changes).map (·.2.file)
    files.Nodup ∧ ∃ plan, Covers c changes lookup plan ∧
      Yields (RunPlan.ofChanges width limit c changes)
        [⟨.lookups files width limit, files.map lookup⟩] plan := by
  intro files
  refine ⟨?_, planOf c lookup changes, covers_planOf c lookup changes, ?_⟩
  · have hdistinct : (firstReported changes).Pairwise fun x y => x.2.file ≠ y.2.file :=
      reportedItems_eq changes ▸ firstReports_pairwise
    exact List.pairwise_map.mpr hdistinct
  · have hanswers : files.map lookup = answers lookup changes := List.map_map
    have hfiles : files = (reportedItems changes).map (·.2.file) := by rw [reportedItems_eq]
    rw [hanswers, hfiles]
    exact .hear _ (.refl _)

end CollectionSync.Planning
