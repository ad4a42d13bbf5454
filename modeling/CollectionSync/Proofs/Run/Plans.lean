import CollectionSync.Proofs.Program
import CollectionSync.Run.Basic
import Mathlib.Data.Finset.Card
import Mathlib.Data.List.Forall2

/-! # What a plan holds

Every reported file is decided on once, so no two tasks of a plan extract or attach the same
file. -/

namespace CollectionSync

variable {c : CollectionId} {changes : List (SourceRoot × ChangeSet)}
  {known : List (Option ContentRecord)} {item : Item} {root : SourceRoot} {task : SyncTask}

/-! ## The reported files -/

section

variable {seen : List FileId} {l : List (SourceRoot × Item)}

theorem mem_firstReports_file {f : FileId} :
    f ∈ (firstReports seen l).map (·.2.file) ↔ f ∈ l.map (·.2.file) ∧ f ∉ seen := by
  induction l generalizing seen with
  | nil => simp [firstReports]
  | cons x l ih =>
    obtain ⟨root, item⟩ := x
    simp only [firstReports, List.map_cons, List.mem_cons]
    split
    · next hseen =>
      rw [ih]
      refine ⟨fun ⟨hl, hnew⟩ => ⟨.inr hl, hnew⟩, ?_⟩
      rintro ⟨rfl | hl, hnew⟩
      · exact absurd hseen hnew
      · exact ⟨hl, hnew⟩
    · next hseen =>
      simp only [List.map_cons, List.mem_cons, ih]
      by_cases hf : f = item.file
      · subst hf
        simp [hseen]
      · simp [hf]

theorem firstReports_subset : firstReports seen l ⊆ l := by
  induction l generalizing seen with
  | nil => exact List.Subset.refl _
  | cons x l ih =>
    simp only [firstReports]
    split
    · exact List.subset_cons_of_subset x ih
    · exact List.cons_subset_cons x ih

theorem firstReports_pairwise : (firstReports seen l).Pairwise fun x y => x.2.file ≠ y.2.file := by
  induction l generalizing seen with
  | nil => exact .nil
  | cons x l ih =>
    simp only [firstReports]
    split
    · exact ih
    · refine .cons (fun y hy heq => ?_) ih
      have hnew := (mem_firstReports_file.mp (List.mem_map_of_mem hy)).2
      exact hnew (heq ▸ List.mem_cons_self)

end

theorem mem_reportedItems {x : SourceRoot × Item} (hx : x ∈ reportedItems changes) :
    ∃ set, (x.1, set) ∈ changes ∧ x.2 ∈ set.items := by
  obtain ⟨⟨root, set⟩, hset, hmem⟩ := List.mem_flatMap.mp (firstReports_subset hx)
  obtain ⟨item, hitem, rfl⟩ := List.mem_map.mp hmem
  exact ⟨set, hset, hitem⟩

/-- Of the reported files, each is decided on once. -/
theorem reportedItems_length (changes : List (SourceRoot × ChangeSet)) :
    (reportedItems changes).length =
      (changes.flatMap fun x => x.2.items.map Item.file).toFinset.card := by
  have hnodup : ((reportedItems changes).map (·.2.file)).Nodup :=
    List.pairwise_map.mpr firstReports_pairwise
  have hlength : ((reportedItems changes).map (·.2.file)).length = (reportedItems changes).length :=
    List.length_map _
  rw [← hlength, ← List.toFinset_card_of_nodup hnodup]
  congr 1
  ext f
  rw [List.mem_toFinset, List.mem_toFinset, reportedItems, mem_firstReports_file]
  simp [List.map_flatMap, Function.comp_def]

/-! ## Decisions -/

theorem classify_eq_none {record : Option ContentRecord} : classify item record c = none ↔
    ∃ r, record = some r ∧ item.hash = some r.hash ∧ c ∈ r.collections := by
  cases record with
  | none => simp [classify]
  | some r =>
    simp only [classify, Option.some.injEq, exists_eq_left']
    split
    · next hhash =>
      split
      · next hmem => simp [hhash, hmem]
      · next hmem => split <;> simp [hmem]
    · next hhash => simp [hhash]

/-- A file is extracted, or attached where the pipeline holds it as reported. -/
theorem classify_eq_some {record : Option ContentRecord} {action : TaskAction}
    (h : classify item record c = some action) :
    action = .extract item ∨
      action = .attach item ∧ ∃ r, record = some r ∧ item.hash = some r.hash := by
  cases record with
  | none => exact .inl (Option.some.inj h).symm
  | some r =>
    simp only [classify] at h
    split at h
    · next hhash =>
      split at h
      · cases h
      · split at h
        · exact .inl (Option.some.inj h).symm
        · exact .inr ⟨(Option.some.inj h).symm, r, rfl, hhash⟩
    · exact .inl (Option.some.inj h).symm

theorem file_of_classify {record : Option ContentRecord} {action : TaskAction}
    (h : classify item record c = some action) : SyncTask.file ⟨root, action⟩ = item.file := by
  rcases classify_eq_some h with rfl | ⟨rfl, -⟩ <;> rfl

/-! ## Plans -/

/-- The reported files, each with what was known of it. -/
abbrev Findings (changes : List (SourceRoot × ChangeSet)) (known : List (Option ContentRecord)) :
    List ((SourceRoot × Item) × Option ContentRecord) := (reportedItems changes).zip known

/-- The task of a reported file, if there is one. -/
def taskFor (c : CollectionId) (x : (SourceRoot × Item) × Option ContentRecord) : Option SyncTask :=
  (classify x.1.2 x.2 c).map fun action => ⟨x.1.1, action⟩

theorem tasks_make (c : CollectionId) (changes : List (SourceRoot × ChangeSet))
    (known : List (Option ContentRecord)) :
    (RunPlan.make c changes known).tasks = (Findings changes known).filterMap (taskFor c) ++
      (reportedRemovals changes).map fun x => ⟨x.1, .detach x.2⟩ := by
  simp only [RunPlan.make, List.filterMap_map]
  rfl

theorem reportedRemovals_eq_nil (h : ∀ x ∈ changes, x.2.removed = []) :
    reportedRemovals changes = [] := by
  have hnone : (changes.flatMap fun x => x.2.removed.map fun id => (x.1, id)) = [] :=
    List.flatMap_eq_nil_iff.mpr fun x hx => by rw [h x hx, List.map_nil]
  exact (congrArg (List.filter _) hnone).trans List.filter_nil

/-- Where nothing was removed, each task is that of a reported file. -/
theorem mem_tasks_make (h : ∀ x ∈ changes, x.2.removed = []) :
    task ∈ (RunPlan.make c changes known).tasks ↔
      ∃ x ∈ Findings changes known, taskFor c x = some task := by
  rw [tasks_make, reportedRemovals_eq_nil h, List.map_nil, List.append_nil, List.mem_filterMap]

/-- Where nothing is left to do, every reported file is skipped. -/
theorem skipped_make (h : ∀ x ∈ Findings changes known, taskFor c x = none) :
    (RunPlan.make c changes known).skipped = (Findings changes known).length := by
  simp only [RunPlan.make]
  rw [List.filter_eq_self.mpr, List.length_map]
  intro task htask
  obtain ⟨x, hx, rfl⟩ := List.mem_map.mp htask
  exact congrArg Option.isNone (h x hx)

theorem file_of_taskFor {x : (SourceRoot × Item) × Option ContentRecord}
    (h : taskFor c x = some task) :
    task.file = x.1.2.file := by
  obtain ⟨action, haction, rfl⟩ := Option.map_eq_some_iff.mp h
  exact file_of_classify haction

theorem findings_pairwise (changes : List (SourceRoot × ChangeSet))
    (known : List (Option ContentRecord)) :
    (Findings changes known).Pairwise fun x y => x.1.2.file ≠ y.1.2.file := by
  have hzip : ∀ {l : List (SourceRoot × Item)} (known : List (Option ContentRecord)),
      l.Pairwise (fun x y => x.2.file ≠ y.2.file) →
      (l.zip known).Pairwise fun x y => x.1.2.file ≠ y.1.2.file := by
    intro l known hl
    induction hl generalizing known with
    | nil => exact .nil
    | cons hx _ ih =>
      cases known with
      | nil => exact .nil
      | cons record known => exact .cons (fun y hy => hx y.1 (List.of_mem_zip hy).1) (ih known)
  exact hzip known firstReports_pairwise

/-- A file has one finding. -/
theorem finding_unique {x y : (SourceRoot × Item) × Option ContentRecord}
    (hx : x ∈ Findings changes known) (hy : y ∈ Findings changes known)
    (heq : x.1.2.file = y.1.2.file) : x = y :=
  List.inj_on_of_nodup_map (List.pairwise_map.mpr (findings_pairwise changes known)) hx hy heq

/-- A task that takes a file up, and not one that takes it out. -/
def SyncTask.TakesUp (task : SyncTask) : Prop := ∀ id, task.action ≠ .detach id

/-- No two tasks of a plan take up the same file. -/
theorem tasks_pairwise (c : CollectionId) (changes : List (SourceRoot × ChangeSet))
    (known : List (Option ContentRecord)) :
    (RunPlan.make c changes known).tasks.Pairwise fun t t' =>
      t.TakesUp → t'.TakesUp → t.file ≠ t'.file := by
  rw [tasks_make]
  have hremoval : ∀ t ∈ (reportedRemovals changes).map fun x => (⟨x.1, .detach x.2⟩ : SyncTask),
      ¬ t.TakesUp := by
    intro t ht
    obtain ⟨x, -, rfl⟩ := List.mem_map.mp ht
    exact fun h => h x.2 rfl
  refine List.pairwise_append.mpr ⟨?_, ?_, fun t _ t' ht' _ htakes =>
    absurd htakes (hremoval t' ht')⟩
  · refine List.pairwise_filterMap.mpr ((findings_pairwise changes known).imp ?_)
    intro x y hne t ht t' ht' _ _
    rwa [file_of_taskFor ht, file_of_taskFor ht']
  · exact List.pairwise_of_forall_mem_list fun t ht _ _ htakes => absurd htakes (hremoval t ht)

end CollectionSync
