import CollectionSync.Proofs.Store.History
import CollectionSync.Proofs.Store.Moves

/-! # A run that has lost its record

Runs take the record of a collection from one another, and a run that lost it may go on writing for
a while. What it writes then has no effect, whatever cancellations, recoveries and new runs come in
between. -/

namespace CollectionSync

/-- The run that an operation would hand the record of the collection to. -/
def StoreOp.claims? (c : CollectionId) : StoreOp → Option RunId
  | .claim d run _ => if d = c then some run else none
  | _ => none

/-- An operation of a run, of whoever cancels it or of a recovery. Only a compare-and-set is
neither: it moves the status past every rule but that of the state machine. -/
def StoreOp.isOfRuns : StoreOp → Bool
  | .compareAndSet .. => false
  | _ => true

/-- The run to which an operation has handed the record of the collection. -/
def History.Answered.owner? (c : CollectionId) : History.Answered → Option RunId
  | ⟨.claim d run _, .ok (.claimed _)⟩ => if d = c then some run else none
  | _ => none

/-- A status in which nothing is left to do for the run that owns the record. -/
def Status.isEnded : Status → Bool
  | .completed | .completedWithErrors | .failed => true
  | _ => false

namespace Fencing

open History

variable (c : CollectionId)

/-- The memory after operations on an empty one. -/
def memoryAfter (ops : List StoreOp) : Memory := after Memory.run .empty ops

/-- The answer to an operation after others. -/
def answerAfter (ops : List StoreOp) (op : StoreOp) : Except StoreError op.Reply :=
  ((memoryAfter ops).run op).1

/-- The runs that the record was handed to, the last one last. -/
def owners (ops : List StoreOp) : List RunId :=
  (answers Memory.run .empty ops).filterMap (Answered.owner? c)

def Syncing (m : Memory) : Prop := ∃ r, m.get c = some r ∧ r.status = .syncing

/-- Between two claims that succeed, an operation takes the record out of `syncing`. -/
def Exclusive (ops : List StoreOp) : Prop :=
  ∀ {before mid rest : List StoreOp} {run run' : RunId} {now now' : Instant} {r r' : Record},
    ops = before ++ .claim c run now :: (mid ++ .claim c run' now' :: rest) →
    answerAfter before (.claim c run now) = .ok (.claimed r) →
    answerAfter (before ++ .claim c run now :: mid) (.claim c run' now') = .ok (.claimed r') →
    ∃ mid₁ op mid₂, mid = mid₁ ++ op :: mid₂ ∧
      Syncing c (memoryAfter (before ++ .claim c run now :: mid₁)) ∧
      ¬ Syncing c (memoryAfter (before ++ .claim c run now :: (mid₁ ++ [op])))

/-- Progress is applied, and an end accepted, for the run that claimed last. -/
def OwnerOnly (ops : List StoreOp) : Prop :=
  ∀ {before rest : List StoreOp} {op : StoreOp} {run : RunId}, ops = before ++ op :: rest →
    ((∃ p now, op = .updateProgress c run p now) ∨ ∃ report now, op = .finish c run report now) →
    op.Wrote c (answerAfter before op) → (owners c before).getLast? = some run

/-- Once another run has claimed the record, or the run has ended, its progress is discarded, its
end is refused, and neither changes a record. -/
def LateWritesFenced (ops : List StoreOp) : Prop :=
  ∀ {before mid rest : List StoreOp} {op : StoreOp} {run : RunId},
    ops = before ++ (mid ++ op :: rest) → run ∈ owners c before →
    ((owners c before).getLast? ≠ some run ∨
      ∃ r, (memoryAfter before).get c = some r ∧ r.status.isEnded = true) →
    (∀ p now, op = .updateProgress c run p now →
      answerAfter (before ++ mid) (.updateProgress c run p now) = .ok .discarded ∧
        memoryAfter (before ++ mid ++ [op]) = memoryAfter (before ++ mid)) ∧
    (∀ report now, op = .finish c run report now →
      (∃ refusal, answerAfter (before ++ mid) (.finish c run report now) =
        .error (.refused refusal)) ∧
        memoryAfter (before ++ mid ++ [op]) = memoryAfter (before ++ mid))

variable {c}

theorem memoryAfter_append (ops more : List StoreOp) :
    memoryAfter (ops ++ more) = after Memory.run (memoryAfter ops) more :=
  after_append Memory.run .empty ops more

theorem memoryAfter_concat (ops : List StoreOp) (op : StoreOp) :
    memoryAfter (ops ++ [op]) = ((memoryAfter ops).run op).2 :=
  memoryAfter_append ops [op]

/-! ## Claims -/

theorem syncing_of_claimed {m : Memory} {run : RunId} {now : Instant} {r : Record}
    (h : (m.run (.claim c run now)).1 = .ok (.claimed r)) :
    ¬ Syncing c m ∧ Syncing c (m.run (.claim c run now)).2 := by
  have hmoves := m.moves_run (.claim c run now) c
  rw [h] at hmoves
  obtain ⟨hfree, hfound, hr⟩ := hmoves.of_claimed
  refine ⟨?_, r, hfound, by rw [hr]; rfl⟩
  rintro ⟨stored, hstored, hs⟩
  exact hfree stored hstored hs

theorem exclusive (ops : List StoreOp) : Exclusive c ops := by
  intro before mid rest run run' now now' r r' _ hfirst hsecond
  have hstart := (syncing_of_claimed hfirst).2
  have hend := (syncing_of_claimed hsecond).1
  rw [memoryAfter_append, after_cons] at hend
  obtain ⟨mid₁, op, mid₂, hmid, hin, hout⟩ := exists_ending Memory.run hstart hend
  refine ⟨mid₁, op, mid₂, hmid, ?_, ?_⟩
  · rwa [memoryAfter_append, after_cons]
  · rwa [memoryAfter_append, after_cons, after_append]

/-! ## Owners -/

theorem owner?_eq_none {op : StoreOp} {answer : Except StoreError op.Reply}
    (h : ¬ op.Wrote c answer) : Answered.owner? c ⟨op, answer⟩ = none := by
  unfold Answered.owner?
  split
  · next d run now r heq =>
    cases heq
    exact if_neg fun hd => h ⟨hd, r, rfl⟩
  · rfl

/-- A record changes hands by a claim and by nothing else. -/
theorem run_of_moves {op : StoreOp} {answer : Except StoreError op.Reply}
    {found found' : Option Record} (h : Moves c op answer found found') :
    found'.bind (·.run) = (Answered.owner? c ⟨op, answer⟩).or (found.bind (·.run)) := by
  cases h with
  | kept _ hno => rw [owner?_eq_none hno, Option.none_or]
  | claimed hfree => simp [Answered.owner?, Record.begun]
  | moved | counted | cancelled | closed | interrupted => rfl

/-- After operations on any memory, the record belongs to the run that it was handed to last. -/
theorem run_after (m : Memory) (ops : List StoreOp) :
    ((after Memory.run m ops).get c).bind (·.run) =
      (((answers Memory.run m ops).filterMap (Answered.owner? c)).getLast?).or
        ((m.get c).bind (·.run)) := by
  induction ops generalizing m with
  | nil => rfl
  | cons op ops ih =>
    rw [after_cons, ih, run_of_moves (m.moves_run op c), answers, List.filterMap_cons]
    cases Answered.owner? c ⟨op, (m.run op).1⟩ with
    | none => rfl
    | some run => simp [List.getLast?_cons]

theorem run_eq_getLast? (ops : List StoreOp) :
    ((memoryAfter ops).get c).bind (·.run) = (owners c ops).getLast? :=
  (run_after .empty ops).trans (Option.or_none ..)

theorem ownerOnly (ops : List StoreOp) : OwnerOnly c ops := by
  intro before rest op run _ hop hwrote
  rw [← run_eq_getLast?]
  have hmoves := (memoryAfter before).moves_run op c
  rcases hop with ⟨p, now, rfl⟩ | ⟨report, now, rfl⟩
  · rw [show ((memoryAfter before).run _).1 = _ from hwrote.2] at hmoves
    obtain ⟨r, hr, -, hrun, -⟩ := hmoves.of_applied
    rw [hr, Option.bind_some, hrun]
  · obtain ⟨-, r', hr'⟩ := hwrote
    rw [show ((memoryAfter before).run _).1 = _ from hr'] at hmoves
    obtain ⟨r, hr, hrun, -⟩ := hmoves.of_finished
    rw [hr, Option.bind_some, hrun]

/-! ## Late writes -/

/-- The record is there, and if it is the run's then the run has ended. -/
def Retired (c : CollectionId) (run : RunId) (m : Memory) : Prop :=
  ∃ r, m.get c = some r ∧ (r.run = some run → r.status.isEnded = true)

/-- Only a claim of its own could bring a retired run back. -/
theorem Retired.step {run : RunId} {m : Memory} (h : Retired c run m) {op : StoreOp}
    (hop : op.isOfRuns = true) (hclaim : op.claims? c ≠ some run) : Retired c run (m.run op).2 := by
  obtain ⟨r, hr, hended⟩ := h
  have hmoves := m.moves_run op c
  rw [hr] at hmoves
  generalize hm : (m.run op).2.get c = found at hmoves
  generalize (m.run op).1 = answer at hmoves
  -- a write to a record of the run needs a status that an ended run does not have
  have hopen {status : Status} (hs : r.status = status) (hnot : status.isEnded = false) :
      r.run ≠ some run := fun hrun => by
    have := hended hrun
    rw [hs, hnot] at this
    cases this
  cases hmoves with
  | kept => exact ⟨r, hm, hended⟩
  | moved => cases hop
  | claimed => exact ⟨_, hm, fun hrun => absurd ((if_pos rfl).trans hrun) hclaim⟩
  | counted hs => exact ⟨_, hm, fun hrun => absurd hrun (hopen hs rfl)⟩
  | cancelled hs => exact ⟨_, hm, fun hrun => absurd hrun (hopen hs rfl)⟩
  | closed _ _ hs =>
    refine ⟨_, hm, fun hrun => absurd hrun ?_⟩
    rcases hs with hs | hs
    · exact hopen hs rfl
    · exact hopen hs rfl
  | interrupted hs => exact ⟨_, hm, fun hrun => absurd hrun (hopen hs rfl)⟩

theorem Retired.after {run : RunId} {m : Memory} (h : Retired c run m) {ops : List StoreOp}
    (hops : ∀ op ∈ ops, op.isOfRuns = true) (hclaims : run ∉ ops.filterMap (·.claims? c)) :
    Retired c run (after Memory.run m ops) :=
  after_induction Memory.run h fun op hmem _ hm =>
    hm.step (hops op hmem) fun hc => hclaims (List.mem_filterMap.mpr ⟨op, hmem, hc⟩)

theorem Retired.updateProgress {run : RunId} {m : Memory} (h : Retired c run m) (p : Progress)
    (now : Instant) : m.updateProgress c run p now = (.ok .discarded, m) := by
  obtain ⟨r, hr, hended⟩ := h
  have hno : ¬ (r.status = .syncing ∧ r.run = some run) := fun ⟨hs, hrun⟩ => by
    have := hended hrun
    rw [hs] at this
    cases this
  simp only [Memory.updateProgress, hr, Record.applyProgress?, if_neg hno, Memory.set_self hr]

theorem Retired.finish {run : RunId} {m : Memory} (h : Retired c run m) (report : RunReport)
    (now : Instant) : ∃ refusal, m.finish c run report now = (.error (.refused refusal), m) := by
  obtain ⟨r, hr, hended⟩ := h
  simp only [Memory.finish, hr, Record.finish_eq]
  by_cases hrun : r.run = some run
  · have hno : ¬ (report.status.isTerminal = true ∧
        (r.status = .syncing ∨ r.status = .cancelled)) := fun ⟨_, hs⟩ => by
      have := hended hrun
      rcases hs with hs | hs <;> (rw [hs] at this; cases this)
    exact ⟨_, by rw [if_pos hrun, if_neg hno]⟩
  · exact ⟨_, by rw [if_neg hrun]⟩

theorem claims?_of_owner? {a : Answered} {run : RunId} (h : a.owner? c = some run) :
    a.1.claims? c = some run := by
  unfold Answered.owner? at h
  split at h
  · exact h
  · cases h

/-- Whoever was handed the record has claimed it. -/
theorem owners_sublist (ops : List StoreOp) :
    (owners c ops).Sublist (ops.filterMap (·.claims? c)) := by
  suffices h : ∀ m : Memory, ((answers Memory.run m ops).filterMap (Answered.owner? c)).Sublist
      (ops.filterMap (·.claims? c)) from h .empty
  intro m
  induction ops generalizing m with
  | nil => exact .slnil
  | cons op ops ih =>
    rw [answers, List.filterMap_cons, List.filterMap_cons]
    cases howner : Answered.owner? c ⟨op, (m.run op).1⟩ with
    | some run =>
      rw [claims?_of_owner? howner]
      exact (ih _).cons_cons run
    | none =>
      cases op.claims? c with
      | none => exact ih _
      | some run => exact (ih _).cons run

theorem retired_of_owner {ops : List StoreOp} {run : RunId} (howner : run ∈ owners c ops)
    (h : (owners c ops).getLast? ≠ some run ∨
      ∃ r, (memoryAfter ops).get c = some r ∧ r.status.isEnded = true) :
    Retired c run (memoryAfter ops) := by
  have hlast := run_eq_getLast? (c := c) ops
  cases hr : (memoryAfter ops).get c with
  | none =>
    rw [hr] at hlast
    rw [List.getLast?_eq_none_iff.mp hlast.symm] at howner
    cases howner
  | some r =>
    rw [hr, Option.bind_some] at hlast
    refine ⟨r, hr, fun hrun => ?_⟩
    rcases h with hne | ⟨r', hr', hended⟩
    · exact absurd (hlast.symm.trans hrun) hne
    · rw [hr, Option.some.injEq] at hr'
      exact hr' ▸ hended

theorem lateWritesFenced {ops : List StoreOp} (hfresh : (ops.filterMap (·.claims? c)).Nodup)
    (hops : ∀ op ∈ ops, op.isOfRuns = true) : LateWritesFenced c ops := by
  rintro before mid rest op run rfl howner hlost
  have hclaims : run ∉ mid.filterMap (·.claims? c) := by
    rw [List.filterMap_append, List.filterMap_append] at hfresh
    have hdisjoint := (List.nodup_append.mp hfresh).2.2
    exact fun hmem => hdisjoint run ((owners_sublist before).subset howner) run
      (List.mem_append_left _ hmem) rfl
  have hretired : Retired c run (memoryAfter (before ++ mid)) := by
    rw [memoryAfter_append]
    exact (retired_of_owner howner hlost).after
      (fun op' hmem => hops op' (List.mem_append_right _ (List.mem_append_left _ hmem))) hclaims
  constructor
  · rintro p now rfl
    have hrun := hretired.updateProgress p now
    exact ⟨congrArg Prod.fst hrun, by rw [memoryAfter_concat]; exact congrArg Prod.snd hrun⟩
  · rintro report now rfl
    obtain ⟨refusal, hrun⟩ := hretired.finish report now
    exact ⟨⟨refusal, congrArg Prod.fst hrun⟩,
      by rw [memoryAfter_concat]; exact congrArg Prod.snd hrun⟩

/-- Ownership of a record, whatever runs, cancellations and recoveries do and in whatever order:
claims exclude each other, only the last owner writes, and whoever lost the record or has ended its
run has no effect on it any more. -/
theorem runs_fenced (c : CollectionId) {ops : List StoreOp}
    (hfresh : (ops.filterMap (·.claims? c)).Nodup) (hops : ∀ op ∈ ops, op.isOfRuns = true) :
    Exclusive c ops ∧ OwnerOnly c ops ∧ LateWritesFenced c ops :=
  ⟨exclusive ops, ownerOnly ops, lateWritesFenced hfresh hops⟩

/-- A cancelled run that is replaced and then reports its progress and its end. -/
theorem runs_fenced_replaced :
    let docs : CollectionId := ⟨"docs"⟩
    let ops : List StoreOp :=
      [.claim docs ⟨1⟩ ⟨60, 0⟩, .requestCancel docs ⟨61, 0⟩, .claim docs ⟨2⟩ ⟨62, 0⟩,
        .updateProgress docs ⟨1⟩ ⟨2, 1, 4, "item"⟩ ⟨63, 0⟩,
        .finish docs ⟨1⟩ ⟨.completed, .empty, [], ⟨3, 1, 4, ""⟩, none⟩ ⟨64, 0⟩]
    ((ops.filterMap (·.claims? docs)).Nodup ∧ ∀ op ∈ ops, op.isOfRuns = true) ∧
      Exclusive docs ops ∧ OwnerOnly docs ops ∧ LateWritesFenced docs ops :=
  ⟨by decide, runs_fenced ⟨"docs"⟩ (by decide) (by decide)⟩

end Fencing

end CollectionSync
