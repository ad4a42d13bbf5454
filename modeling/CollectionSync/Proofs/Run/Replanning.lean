import CollectionSync.Proofs.Run.Checks
import CollectionSync.Proofs.Run.Plans
import Mathlib.Data.List.Forall2

/-! # Planning the same changes again

A pipeline is given by how it answers calls and what it holds after them. Where it keeps its
contract and every task of a plan has been done, a second plan for the same changes finds every file
in place. The tasks may be done in any order, and side by side. -/

namespace CollectionSync.Replanning

open Interleaving Program

/-- What the pipeline holds of each file. -/
abbrev Content := FileId → Option ContentRecord

/-- The file that a call may change. -/
def changedBy : Call → Option FileId
  | .extract request => some request.file
  | .attach file _ | .detach file _ => some file
  | .list .. | .fetch .. | .lookup _ => none

/-- The file that a question may change something of. -/
def changedIn : RunAsk → Option FileId
  | .within _ call => changedBy call
  | _ => none

/-- Nothing is lost of what is held of a file. -/
def Kept (file : FileId) (s s' : Content) : Prop :=
  ∀ r, s file = some r → ∃ r', s' file = some r' ∧ r'.hash = r.hash ∧ r.collections ⊆ r'.collections

/-- The file is held as it was reported, and by the collection. -/
def InPlace (c : CollectionId) (item : Item) (s : Content) : Prop :=
  ∃ r, s item.file = some r ∧ item.hash = some r.hash ∧ c ∈ r.collections

section

variable (serves : (call : Call) → Option call.Result → Content → Content → Prop)

/-- What a pipeline promises. It counts some answers to an extraction as a success, and leaves the
content in the collection then; it says of an attachment that it was made or had been made
before. -/
structure Contract (succeeds : Except PipelineError PipelineOutcome → Prop) : Prop where
  lookup {file : FileId} {found : Option ContentRecord} {s s' : Content} :
    serves (.lookup file) (some (.ok found)) s s' → found = s file
  extract {request : ExtractRequest} {answer : Except PipelineError PipelineOutcome}
    {s s' : Content} :
    serves (.extract request) (some answer) s s' → succeeds answer →
    ∃ r, s' request.file = some r ∧ (∀ hash ∈ request.hash, r.hash = hash) ∧
      request.collection ∈ r.collections
  attach {file : FileId} {c : CollectionId} {answer : Except PipelineError PipelineOutcome}
      {s s' : Content} {r : ContentRecord} :
    serves (.attach file c) (some answer) s s' →
    (∀ e, answer = .error e → ∃ other, e = .alreadyAttached other) → s file = some r →
    ∃ r', s' file = some r' ∧ r'.hash = r.hash ∧ c ∈ r'.collections
  apart {call : Call} {a : Option call.Result} {s s' : Content} {file : FileId} :
    serves call a s s' → changedBy call ≠ some file → Kept file s s'

/-- What a task hears may change what the pipeline holds. -/
inductive Hears : RunHeard → Content → Content → Prop
  | call {limit : Span} {call : Call} {a : Option call.Result} {s s' : Content} :
    serves call a s s' → Hears ⟨.within limit call, a⟩ s s'
  | other {q : RunAsk} {a : q.Answer} (s : Content) :
    (∀ limit call, q ≠ .within limit call) → Hears ⟨q, a⟩ s s

/-- Tasks hear these answers, the first of them first. -/
inductive Executes : Content → List (SyncTask × RunHeard) → Content → Prop
  | nil (s : Content) : Executes s [] s
  | cons {s s' s'' : Content} {x : SyncTask × RunHeard} {l : List (SyncTask × RunHeard)} :
    Hears serves x.2 s s' → Executes s' l s'' → Executes s (x :: l) s''

/-- What one task has heard of it. -/
def own (task : SyncTask) (l : List (SyncTask × RunHeard)) : List RunHeard :=
  l.filterMap fun x => if x.1 = task then some x.2 else none

/-- The work of all tasks is done with success, and nothing else. -/
structure Done (succeeds : Except PipelineError PipelineOutcome → Prop) (rules : RunRules)
    (i : RunIdentity) (credentials : String) (tasks : List SyncTask) (s s' : Content)
    (l : List (SyncTask × RunHeard)) : Prop where
  executes : Executes serves s l s'
  planned : ∀ x ∈ l, x.1 ∈ tasks
  done : ∀ task ∈ tasks, Yields (task.perform rules i credentials) (own task l) (.ok ())
  succeeds : ∀ x ∈ l, ∀ limit request answer,
    x.2 = ⟨.within limit (.extract request), some answer⟩ → succeeds answer

/-- What a plan takes for known of a file, given the answer to its lookup. -/
def knownOf : Option (Except PipelineError (Option ContentRecord)) → Option ContentRecord
  | some (.ok record) => record
  | _ => none

/-- The plan is made with these answers to the lookups of the reported files. -/
structure Planned (c : CollectionId) (changes : List (SourceRoot × ChangeSet)) (s : Content)
    (answers : List (Option (Except PipelineError (Option ContentRecord))))
    (plan : RunPlan) : Prop where
  lookups : List.Forall₂ (fun x a => serves (.lookup x.2.file) a s s)
    (reportedItems changes) answers
  plan : ∃ width limit, Yields (RunPlan.ofChanges width limit c changes)
    [⟨.lookups ((reportedItems changes).map (·.2.file)) width limit, answers⟩] plan

end

/-! ## The work of a task -/

section

variable {rules : RunRules} {i : RunIdentity} {item : Item} {h : List RunHeard}

/-- A question that changes nothing that the pipeline holds. -/
def IsIdle (q : RunAsk) : Prop := changedIn q = none

theorem isIdle_of_uncalled {q : RunAsk} (hq : ¬ IsItemCall q) : IsIdle q := by
  cases q with
  | within limit call =>
    cases call with
    | extract | attach | detach => exact absurd trivial hq
    | list | fetch | lookup => rfl
  | _ => rfl

/-- A task changes what the pipeline holds of its own file only. -/
theorem perform_asks_own (rules : RunRules) (i : RunIdentity) (credentials : String)
    (task : SyncTask) :
    (task.perform rules i credentials).Asks fun q => ∀ file ∈ changedIn q, file = task.file := by
  have hidle : ∀ q, ¬ IsItemCall q → ∀ file ∈ changedIn q, file = task.file := by
    intro q hq file hfile
    rw [isIdle_of_uncalled hq] at hfile
    cases hfile
  have hcall : ∀ {call : Call}, changedBy call = some task.file →
      (Run.within rules.itemTimeout call).Asks fun q => ∀ file ∈ changedIn q, file = task.file := by
    intro call hcall
    refine Asks.question fun file hfile => ?_
    rw [changedIn, hcall] at hfile
    exact (Option.some.inj hfile).symm
  obtain ⟨root, action⟩ := task
  cases action with
  | extract item =>
    refine ((download_calls_nothing rules root item credentials).mono hidle).bind fun fetched => ?_
    split
    · refine ((observe_calls_nothing i).mono hidle).bind fun observed => ?_
      split
      · trivial
      · trivial
      · exact (callPipeline_asks _ (hcall rfl)).bind fun _ => trivial
    · refine Asks.bind (Asks.question nofun) fun s => ?_
      split
      · refine ((observe_calls_nothing i).mono hidle).bind fun observed => ?_
        split <;> trivial
      · trivial
  | attach item => exact (callPipeline_asks _ (hcall rfl)).bind fun _ => trivial
  | detach id => exact (callPipeline_asks _ (hcall rfl)).bind fun _ => trivial

end

/-! ## What becomes of the content -/

section

variable {serves : (call : Call) → Option call.Result → Content → Content → Prop}
  {succeeds : Except PipelineError PipelineOutcome → Prop} {rules : RunRules} {i : RunIdentity}
  {credentials : String} {tasks : List SyncTask} {task : SyncTask} {item : Item} {root : SourceRoot}
  {file : FileId} {c : CollectionId} {s s' s'' : Content} {l l₁ l₂ : List (SyncTask × RunHeard)}
  {e : RunHeard} {h : List RunHeard}

theorem Kept.refl (file : FileId) (s : Content) : Kept file s s :=
  fun r hr => ⟨r, hr, rfl, List.Subset.refl _⟩

theorem Kept.trans (hk : Kept file s s') (hk' : Kept file s' s'') : Kept file s s'' := by
  intro r hr
  obtain ⟨r', hr', hhash, hsub⟩ := hk r hr
  obtain ⟨r'', hr'', hhash', hsub'⟩ := hk' r' hr'
  exact ⟨r'', hr'', hhash'.trans hhash, List.Subset.trans hsub hsub'⟩

theorem InPlace.kept (hp : InPlace c item s) (hk : Kept item.file s s') : InPlace c item s' := by
  obtain ⟨r, hr, hhash, hc⟩ := hp
  obtain ⟨r', hr', hsame, hsub⟩ := hk r hr
  exact ⟨r', hr', by rw [hhash, hsame], hsub hc⟩

theorem Hears.kept (hc : Contract serves succeeds) (hh : Hears serves e s s')
    (hne : changedIn e.1 ≠ some file) : Kept file s s' := by
  cases hh with
  | call hserves => exact hc.apart hserves hne
  | other => exact .refl file s

theorem Executes.kept (hc : Contract serves succeeds) (he : Executes serves s l s')
    (hne : ∀ x ∈ l, changedIn x.2.1 ≠ some file) : Kept file s s' := by
  induction he with
  | nil s => exact .refl file s
  | cons hh _ ih =>
    have hfirst := hh.kept hc (hne _ List.mem_cons_self)
    exact hfirst.trans (ih fun x hx => hne x (List.mem_cons_of_mem _ hx))

theorem Executes.split (he : Executes serves s (l₁ ++ l₂) s') :
    ∃ s₁, Executes serves s l₁ s₁ ∧ Executes serves s₁ l₂ s' := by
  induction l₁ generalizing s with
  | nil => exact ⟨s, .nil s, he⟩
  | cons x l₁ ih =>
    cases he with
    | cons hh he =>
      obtain ⟨s₁, hfirst, hrest⟩ := ih he
      exact ⟨s₁, .cons hh hfirst, hrest⟩

theorem mem_own {x : SyncTask × RunHeard} (hx : x ∈ l) : x.2 ∈ own x.1 l :=
  List.mem_filterMap.mpr ⟨x, hx, if_pos rfl⟩

/-- What a task has heard last stands in the list, with what it heard before in front of it. -/
theorem own_concat (hown : own task l = h ++ [e]) :
    ∃ l₁ l₂, l = l₁ ++ (task, e) :: l₂ ∧ own task l₁ = h ∧ own task l₂ = [] := by
  obtain ⟨l₁, l₂, rfl, hfirst, hlast⟩ := List.filterMap_eq_append_iff.mp hown
  obtain ⟨l₃, x, l₄, rfl, hnone, hx, hrest⟩ := List.filterMap_eq_cons_iff.mp hlast
  obtain ⟨htask, heq⟩ := Option.ite_none_right_eq_some.mp hx
  obtain rfl : x = (task, e) := Prod.ext htask (Option.some.inj heq)
  refine ⟨l₁ ++ l₃, l₄, (List.append_assoc ..).symm, ?_, hrest⟩
  rw [own, List.filterMap_append, List.filterMap_eq_nil_iff.mpr hnone, List.append_nil]
  exact hfirst

variable (hc : Contract serves succeeds)
  (hd : Done serves succeeds rules i credentials tasks s s' l)
include hc hd

/-- What no task is about is kept. -/
theorem Done.kept (hfile : ∀ t ∈ tasks, t.file ≠ file) : Kept file s s' := by
  refine hd.executes.kept hc fun x hx hchanged => ?_
  have hasks :=
    (perform_asks_own rules i credentials x.1).of_follows (hd.done x.1 (hd.planned x hx))
  exact hfile x.1 (hd.planned x hx) (hasks.1 x.2 (mem_own hx) file hchanged).symm

/-- The one call of a task changes what is held of its file, and nothing else does. -/
theorem Done.called (hothers : ∀ t ∈ tasks, t.file = task.file → t = task)
    (hown : own task l = h ++ [e]) (hidle : ∀ x ∈ h, IsIdle x.1) :
    ∃ s₁ s₂, Kept task.file s s₁ ∧ Hears serves e s₁ s₂ ∧ Kept task.file s₂ s' := by
  obtain ⟨l₁, l₂, rfl, hbefore, hafter⟩ := own_concat hown
  have hne : ∀ x ∈ l₁ ++ (task, e) :: l₂, (x.1 = task → IsIdle x.2.1) →
      changedIn x.2.1 ≠ some task.file := by
    intro x hx hsame hchanged
    have hmem := hd.planned x hx
    have hasks := (perform_asks_own rules i credentials x.1).of_follows (hd.done x.1 hmem)
    have hfile := hasks.1 x.2 (mem_own hx) task.file hchanged
    have hnone := hsame (hothers x.1 hmem hfile.symm)
    rw [hnone] at hchanged
    cases hchanged
  obtain ⟨s₁, hfirst, hrest⟩ := hd.executes.split
  cases hrest with
  | @cons _ s₂ _ _ _ hh hlast =>
    refine ⟨s₁, s₂, hfirst.kept hc fun x hx => ?_, hh, hlast.kept hc fun x hx => ?_⟩
    · refine hne x (List.mem_append_left _ hx) fun heq => hidle x.2 ?_
      rw [← hbefore, ← heq]
      exact mem_own hx
    · refine hne x (List.mem_append_right _ (List.mem_cons_of_mem _ hx)) fun heq => ?_
      have hmem := mem_own hx
      rw [heq, hafter] at hmem
      cases hmem

theorem Done.extracted (htask : ⟨root, .extract item⟩ ∈ tasks)
    (hothers : ∀ t ∈ tasks, t.file = SyncTask.file ⟨root, .extract item⟩ →
      t = ⟨root, .extract item⟩)
    (hhash : item.hash.isSome = true) : InPlace i.collection item s' := by
  rcases extract_yields (hd.done _ htask) with ⟨hfails, -⟩ | ⟨h, bytes, answer, hown, hhands, hdone⟩
  · exact absurd rfl hfails
  obtain ⟨answer, rfl, -⟩ := hdone.mp rfl
  obtain ⟨s₁, s₂, -, hh, hk⟩ :=
    hd.called hc hothers hown fun x hx => isIdle_of_uncalled (hhands.uncalled x hx)
  obtain ⟨hash, hhash⟩ := Option.isSome_iff_exists.mp hhash
  have hsucceeds : succeeds answer := by
    obtain ⟨l₁, l₂, heq, -⟩ := own_concat hown
    have hmem := heq ▸ List.mem_append_right l₁ List.mem_cons_self
    exact hd.succeeds (⟨root, .extract item⟩, _) hmem _ _ _ rfl
  cases hh with
  | call hserves =>
    obtain ⟨r, hr, hheld, hin⟩ := hc.extract hserves hsucceeds
    refine InPlace.kept ⟨r, hr, ?_, hin⟩ hk
    rw [hhash, hheld hash hhash]
  | other _ hno => exact absurd rfl (hno _ _)

theorem Done.attached (htask : ⟨root, .attach item⟩ ∈ tasks)
    (hothers : ∀ t ∈ tasks, t.file = SyncTask.file ⟨root, .attach item⟩ → t = ⟨root, .attach item⟩)
    {r : ContentRecord} (hr : s item.file = some r) (hhash : item.hash = some r.hash) :
    InPlace i.collection item s' := by
  obtain ⟨_, hown, hdone⟩ := attach_yields (hd.done _ htask)
  obtain ⟨answer, rfl, hattached⟩ := hdone.mp rfl
  have hanswer : ∀ e, answer = .error e → ∃ other, e = .alreadyAttached other := by
    rintro e rfl
    cases e with
    | alreadyAttached file => exact ⟨file, rfl⟩
    | duplicateContent | notFound | rejected | unavailable => exact hattached.elim
  have hidle : ∀ x ∈ ([] : List RunHeard), IsIdle x.1 := fun x hx => by cases hx
  obtain ⟨s₁, s₂, hbefore, hh, hk⟩ := hd.called hc hothers (h := []) hown hidle
  obtain ⟨r₁, hr₁, hsame, -⟩ := hbefore r hr
  cases hh with
  | call hserves =>
    obtain ⟨r₂, hr₂, hsame', hin⟩ := hc.attach hserves hanswer hr₁
    exact InPlace.kept ⟨r₂, hr₂, by rw [hhash, hsame', hsame], hin⟩ hk
  | other _ hno => exact absurd rfl (hno _ _)

end

/-! ## Two plans -/

section

variable {serves : (call : Call) → Option call.Result → Content → Content → Prop}
  {succeeds : Except PipelineError PipelineOutcome → Prop} {c : CollectionId}
  {changes : List (SourceRoot × ChangeSet)} {s : Content}
  {answers : List (Option (Except PipelineError (Option ContentRecord)))} {plan : RunPlan}

theorem Planned.plan_eq (hp : Planned serves c changes s answers plan) :
    plan = RunPlan.make c changes (answers.map knownOf) := by
  obtain ⟨width, limit, hy⟩ := hp.plan
  obtain ⟨h₁, known, h₂, heq, hquestion, hy₂⟩ := yields_bind.mp hy
  obtain rfl := yields_question.mp hquestion
  cases heq
  exact (yields_pure.mp hy₂).2

/-- What a plan goes by is what the pipeline holds, or nothing where the lookup has failed. -/
theorem Planned.finding (hc : Contract serves succeeds)
    (hp : Planned serves c changes s answers plan)
    {x : (SourceRoot × Item) × Option ContentRecord}
    (hx : x ∈ Findings changes (answers.map knownOf)) :
    (x.2 = none ∨ x.2 = s x.1.2.file) ∧
      ((∀ a ∈ answers, ∃ found, a = some (.ok found)) → x.2 = s x.1.2.file) := by
  rw [Findings, List.zip_map_right] at hx
  obtain ⟨⟨y, a⟩, hy, rfl⟩ := List.mem_map.mp hx
  have hserves := (List.forall₂_iff_zip.mp hp.lookups).2 hy
  have hknown : ∀ found, a = some (.ok found) → knownOf a = s y.2.file := by
    rintro found rfl
    exact hc.lookup hserves
  refine ⟨?_, fun hall => ?_⟩
  · rcases a with _ | _ | found
    · exact .inl rfl
    · exact .inl rfl
    · exact .inr (hknown found rfl)
  · obtain ⟨found, ha⟩ := hall a (List.of_mem_zip hy).2
    exact hknown found ha

theorem Planned.length_eq (hp : Planned serves c changes s answers plan) :
    (Findings changes (answers.map knownOf)).length = (reportedItems changes).length := by
  rw [Findings, List.length_zip, List.length_map, ← hp.lookups.length_eq, Nat.min_self]

theorem Planned.finding_of_reported (hp : Planned serves c changes s answers plan)
    {x : SourceRoot × Item}
    (hx : x ∈ reportedItems changes) :
    ∃ record, (x, record) ∈ Findings changes (answers.map knownOf) := by
  have hlength : (reportedItems changes).length ≤ (answers.map knownOf).length := by
    rw [List.length_map, hp.lookups.length_eq]
  rw [← List.map_fst_zip hlength] at hx
  obtain ⟨⟨_, record⟩, hmem, rfl⟩ := List.mem_map.mp hx
  exact ⟨record, hmem⟩

variable {rules : RunRules} {i : RunIdentity} {credentials : String} {s' : Content}
  {l : List (SyncTask × RunHeard)}

/-- Once the tasks of a plan are done, every reported file is in place. -/
theorem Planned.inPlace (hc : Contract serves succeeds)
    (hhash : ∀ x ∈ changes, ∀ item ∈ x.2.items, item.hash.isSome = true)
    (hremoved : ∀ x ∈ changes, x.2.removed = [])
    (hp : Planned serves i.collection changes s answers plan)
    (hd : Done serves succeeds rules i credentials plan.tasks s s' l)
    {x : SourceRoot × Item} (hx : x ∈ reportedItems changes) : InPlace i.collection x.2 s' := by
  obtain ⟨root, item⟩ := x
  obtain ⟨record, hfinding⟩ := hp.finding_of_reported hx
  have hknown := (hp.finding hc hfinding).1
  obtain rfl := hp.plan_eq
  -- the task of a file is the only one that is about it
  have hunique : ∀ t ∈ (RunPlan.make i.collection changes (answers.map knownOf)).tasks,
      t.file = item.file → taskFor i.collection ((root, item), record) = some t := by
    intro t ht hfile
    obtain ⟨y, hy, hyt⟩ := (mem_tasks_make hremoved).mp ht
    rw [file_of_taskFor hyt] at hfile
    rwa [← finding_unique hy hfinding hfile]
  cases htask : taskFor i.collection ((root, item), record) with
  | none =>
    obtain ⟨r, rfl, hr, hin⟩ := classify_eq_none.mp (Option.map_eq_none_iff.mp htask)
    have hheld : s item.file = some r := (hknown.resolve_left nofun).symm
    refine InPlace.kept ⟨r, hheld, hr, hin⟩ (hd.kept hc fun t ht hfile => ?_)
    cases htask.symm.trans (hunique t ht hfile)
  | some task =>
    have hmem := (mem_tasks_make hremoved).mpr ⟨_, hfinding, htask⟩
    have hothers : ∀ t ∈ (RunPlan.make i.collection changes (answers.map knownOf)).tasks,
        t.file = item.file → t = task := fun t ht hfile =>
      Option.some.inj ((hunique t ht hfile).symm.trans htask)
    obtain ⟨action, haction, rfl⟩ := Option.map_eq_some_iff.mp htask
    rcases classify_eq_some haction with rfl | ⟨rfl, r, rfl, hr⟩
    · obtain ⟨set, hset, hitem⟩ := mem_reportedItems hx
      exact hd.extracted hc hmem hothers (hhash _ hset item hitem)
    · exact hd.attached hc hmem hothers (hknown.resolve_left nofun).symm hr

/-- Whatever a pipeline held at first and in whatever order the tasks were done: if the remote side
reports the same changes again, all of them with hashes and none of them removals, there is nothing
to do, and every file counts as skipped. -/
theorem planned_again (hc : Contract serves succeeds)
    (hhash : ∀ x ∈ changes, ∀ item ∈ x.2.items, item.hash.isSome = true)
    (hremoved : ∀ x ∈ changes, x.2.removed = [])
    (hp : Planned serves i.collection changes s answers plan)
    (hd : Done serves succeeds rules i credentials plan.tasks s s' l)
    {answers' : List (Option (Except PipelineError (Option ContentRecord)))} {plan' : RunPlan}
    (hagain : Planned serves i.collection changes s' answers' plan')
    (hanswered : ∀ a ∈ answers', ∃ found, a = some (.ok found)) :
    plan'.tasks = [] ∧
      plan'.skipped = (changes.flatMap fun x => x.2.items.map Item.file).toFinset.card := by
  have hnone : ∀ x ∈ Findings changes (answers'.map knownOf), taskFor i.collection x = none := by
    intro x hx
    obtain ⟨r, hr, hsame, hin⟩ := hp.inPlace hc hhash hremoved hd (List.of_mem_zip hx).1
    have hknown := (hagain.finding hc hx).2 hanswered
    have hclassify := classify_eq_none.mpr ⟨r, hknown.trans hr, hsame, hin⟩
    exact Option.map_eq_none_iff.mpr hclassify
  obtain rfl := hagain.plan_eq
  constructor
  · refine List.eq_nil_iff_forall_not_mem.mpr fun task htask => ?_
    obtain ⟨x, hx, htask⟩ := (mem_tasks_make hremoved).mp htask
    cases (hnone x hx).symm.trans htask
  · rw [skipped_make hnone, hagain.length_eq, reportedItems_length]

end

/-! ## A pipeline that keeps its contract -/

namespace Ideal

def set (s : Content) (file : FileId) (r : ContentRecord) : Content :=
  fun other => if other = file then some r else s other

def collectionsOf (s : Content) (file : FileId) : List CollectionId :=
  (s file).elim [] ContentRecord.collections

/-- Answers a call and gives the content afterwards. -/
def run : (call : Call) → Content → Option call.Result × Content
  | .lookup file, s => (some (.ok (s file)), s)
  | .extract request, s =>
    (some (.ok .processed), set s request.file
      ⟨request.hash.getD ⟨""⟩, request.collection :: collectionsOf s request.file⟩)
  | .attach file c, s =>
    match s file with
    | none => (some (.error (.notFound file)), s)
    | some r =>
      if c ∈ r.collections then (some (.error (.alreadyAttached file)), s)
      else (some (.ok .processed), set s file { r with collections := c :: r.collections })
  | .detach file c, s =>
    match s file with
    | none => (some (.error (.notFound file)), s)
    | some r => (some (.ok ()), set s file { r with collections := r.collections.erase c })
  | .list .., s => (none, s)
  | .fetch .., s => (some (.ok []), s)

def serves (call : Call) (a : Option call.Result) (s s' : Content) : Prop := run call s = (a, s')

def Processed (answer : Except PipelineError PipelineOutcome) : Prop :=
  ∃ outcome, answer = .ok outcome

variable {s : Content} {file other : FileId} {r : ContentRecord}

@[simp] theorem set_self : set s file r file = some r := if_pos rfl

theorem kept_set (hne : file ≠ other) : Kept other s (set s file r) :=
  fun r' hr' => ⟨r', (if_neg hne.symm).trans hr', rfl, List.Subset.refl _⟩

theorem contract : Contract serves Processed where
  lookup h := by
    obtain ⟨ha, -⟩ := Prod.mk.inj h
    cases ha
    rfl
  extract h _ := by
    obtain ⟨-, rfl⟩ := Prod.mk.inj h
    exact ⟨_, set_self, fun hash hhash => by rw [hhash]; rfl, List.mem_cons_self⟩
  attach {file c answer s s' r} h hanswer hr := by
    simp only [serves, run, hr] at h
    split at h
    · next hmem =>
      obtain ⟨-, rfl⟩ := Prod.mk.inj h
      exact ⟨r, hr, rfl, hmem⟩
    · obtain ⟨-, rfl⟩ := Prod.mk.inj h
      exact ⟨_, set_self, rfl, List.mem_cons_self⟩
  apart {call a s s' other} h hne := by
    have hset : ∀ {file : FileId} (r : ContentRecord), changedBy call = some file →
        Kept other s (set s file r) := fun r hfile => kept_set fun heq => hne (heq ▸ hfile)
    cases call with
    | list | fetch | lookup =>
      obtain ⟨-, rfl⟩ := Prod.mk.inj h
      exact .refl _ _
    | extract request =>
      obtain ⟨-, rfl⟩ := Prod.mk.inj h
      exact hset _ rfl
    | attach file c =>
      simp only [serves, run] at h
      split at h
      · obtain ⟨-, rfl⟩ := Prod.mk.inj h
        exact .refl _ _
      · split at h
        · obtain ⟨-, rfl⟩ := Prod.mk.inj h
          exact .refl _ _
        · obtain ⟨-, rfl⟩ := Prod.mk.inj h
          exact hset _ rfl
    | detach file c =>
      simp only [serves, run] at h
      split at h
      · obtain ⟨-, rfl⟩ := Prod.mk.inj h
        exact .refl _ _
      · obtain ⟨-, rfl⟩ := Prod.mk.inj h
        exact hset _ rfl

/-- A plan made with every lookup answered. -/
theorem planned (c : CollectionId) (changes : List (SourceRoot × ChangeSet)) (s : Content) :
    let answers : List (Option (Except PipelineError (Option ContentRecord))) :=
      (reportedItems changes).map fun x => some (.ok (s x.2.file))
    Planned serves c changes s answers (RunPlan.make c changes (answers.map knownOf)) := by
  intro answers
  refine ⟨List.forall₂_map_right_iff.mpr (List.forall₂_same.mpr fun x _ => rfl), 1, ⟨1⟩, ?_⟩
  exact .hear _ (.refl _)

def docs : CollectionId := ⟨"docs"⟩

def root (name : String) : SourceRoot := ⟨⟨name⟩, none, none⟩

/-- A file that the pipeline does not hold. -/
def fresh : Item := ⟨⟨"a"⟩, ⟨"drive"⟩, "a", none, some ⟨"h1"⟩, none, 0⟩

/-- A file that it holds for another collection. -/
def sibling : Item := ⟨⟨"b"⟩, ⟨"drive"⟩, "b", none, some ⟨"h2"⟩, none, 0⟩

/-- Two roots report the one file. -/
def changes : List (SourceRoot × ChangeSet) :=
  [(root "drive", ⟨[fresh, sibling], [], none⟩), (root "share", ⟨[fresh], [], none⟩)]

def before : Content := set (fun _ => none) sibling.file ⟨⟨"h2"⟩, [⟨"notes"⟩]⟩

def extraction : SyncTask := ⟨root "drive", .extract fresh⟩

def attachment : SyncTask := ⟨root "drive", .attach sibling⟩

def rules : RunRules := ⟨2, ⟨1⟩, 10, ⟨0, ⟨1⟩⟩, ⟨1⟩⟩

def identity : RunIdentity := ⟨docs, ⟨1⟩⟩

def request : ExtractRequest := ⟨fresh.file, docs, "a", none, some ⟨"h1"⟩, []⟩

def owned : Record := { Record.idle docs ⟨0, 0⟩ with status := .syncing, run := some ⟨1⟩ }

/-- The one file is attached while the other is downloaded. -/
def heard : List (SyncTask × RunHeard) :=
  [(extraction, ⟨.within ⟨1⟩ (.fetch (root "drive") ⟨"a"⟩ ""), some (.ok [])⟩),
    (attachment, ⟨.within ⟨1⟩ (.attach sibling.file docs), some (.ok .processed)⟩),
    (extraction, ⟨.state, .start 10 false⟩),
    (extraction, ⟨.keeper (.store (.get docs)), .ok (some owned)⟩),
    (extraction, ⟨.within ⟨1⟩ (.extract request), some (.ok .processed)⟩)]

def after : Content := (run (.extract request) (run (.attach sibling.file docs) before).2).2

theorem done :
    Done serves Processed rules identity "" [extraction, attachment] before after heard where
  executes :=
    .cons (.call rfl) <| .cons (.call rfl) <| .cons (.other _ nofun) <| .cons (.other _ nofun) <|
      .cons (.call rfl) <| .nil after
  planned := by simp [heard]
  done := by
    have hne : extraction ≠ attachment := by decide
    intro task htask
    rcases List.mem_cons.mp htask with rfl | htask
    · simp only [own, heard, List.filterMap_cons, List.filterMap_nil, hne.symm, if_true, if_false]
      exact .hear _ (.hear _ (.hear _ (.hear _ (.refl _))))
    · obtain rfl := List.mem_singleton.mp htask
      simp only [own, heard, List.filterMap_cons, List.filterMap_nil, hne, if_true, if_false]
      exact .hear _ (.refl _)
  succeeds x hx limit request' answer heq := by
    simp only [heard, List.mem_cons, List.not_mem_nil, or_false] at hx
    rcases hx with rfl | rfl | rfl | rfl | rfl <;> cases heq
    exact ⟨_, rfl⟩

theorem planned_tasks : (RunPlan.make docs changes
    (((reportedItems changes).map fun x => some (.ok (before x.2.file))).map knownOf)).tasks =
      [extraction, attachment] := by decide +kernel

end Ideal

/-- A file that two roots report as new and one that another collection has: they are taken up side
by side, and found in place the second time. -/
theorem planned_again_ideal :
    let answers (s : Content) : List (Option (Except PipelineError (Option ContentRecord))) :=
      (reportedItems Ideal.changes).map fun x => some (.ok (s x.2.file))
    let plan (s : Content) : RunPlan :=
      RunPlan.make Ideal.docs Ideal.changes ((answers s).map knownOf)
    (Contract Ideal.serves Ideal.Processed ∧
      (∀ x ∈ Ideal.changes, ∀ item ∈ x.2.items, item.hash.isSome = true) ∧
      (∀ x ∈ Ideal.changes, x.2.removed = []) ∧
      Planned Ideal.serves Ideal.docs Ideal.changes Ideal.before (answers Ideal.before)
        (plan Ideal.before) ∧
      Done Ideal.serves Ideal.Processed Ideal.rules Ideal.identity "" (plan Ideal.before).tasks
        Ideal.before Ideal.after Ideal.heard ∧
      Planned Ideal.serves Ideal.docs Ideal.changes Ideal.after (answers Ideal.after)
        (plan Ideal.after) ∧
      ∀ a ∈ answers Ideal.after, ∃ found, a = some (.ok found)) ∧
    (plan Ideal.before).tasks = [Ideal.extraction, Ideal.attachment] ∧
    (plan Ideal.after).tasks = [] ∧ (plan Ideal.after).skipped = 2 := by
  intro answers plan
  have hhash : ∀ x ∈ Ideal.changes, ∀ item ∈ x.2.items, item.hash.isSome = true := by decide
  have hremoved : ∀ x ∈ Ideal.changes, x.2.removed = [] := by decide
  have hp := Ideal.planned Ideal.docs Ideal.changes Ideal.before
  have hagain := Ideal.planned Ideal.docs Ideal.changes Ideal.after
  have hd : Done Ideal.serves Ideal.Processed Ideal.rules Ideal.identity ""
      (plan Ideal.before).tasks
      Ideal.before Ideal.after Ideal.heard := by
    rw [Ideal.planned_tasks]
    exact Ideal.done
  have hanswered : ∀ a ∈ answers Ideal.after, ∃ found, a = some (.ok found) := by
    intro a ha
    obtain ⟨x, -, rfl⟩ := List.mem_map.mp ha
    exact ⟨_, rfl⟩
  obtain ⟨htasks, hskipped⟩ :=
    planned_again Ideal.contract hhash hremoved hp hd hagain hanswered
  refine ⟨⟨Ideal.contract, hhash, hremoved, hp, hd, hagain, hanswered⟩, Ideal.planned_tasks,
    htasks, ?_⟩
  rw [hskipped]
  decide +kernel

end CollectionSync.Replanning
