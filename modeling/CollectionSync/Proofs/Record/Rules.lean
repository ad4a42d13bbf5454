import CollectionSync.Record.Basic

/-! # What the rules of a record amount to

Each change of a record as one condition and one result. -/

namespace CollectionSync

/-! ## Moves between statuses -/

/-- A cancellation turns a terminal status into another one. -/
theorem Status.isTerminal_resolve (stored requested : Status) :
    (stored.resolve requested).isTerminal = requested.isTerminal := by
  cases stored <;> cases requested <;> rfl

/-- A run ends where its record is syncing or cancelled. -/
theorem Status.canMoveTo_resolve (stored : Status) {requested : Status}
    (h : requested.isTerminal = true) :
    stored.canMoveTo (stored.resolve requested) = (stored == .syncing || stored == .cancelled) := by
  revert h; cases stored <;> cases requested <;> decide

theorem Status.resolve_eq_failed {stored requested : Status} :
    stored.resolve requested = .failed ↔ requested = .failed := by
  cases stored <;> cases requested <;> decide

theorem Status.resolve_of_ne {stored : Status} (requested : Status) (h : stored ≠ .cancelled) :
    stored.resolve requested = requested := by
  cases stored <;> first | rfl | exact absurd rfl h

/-- A cancelled run ends as cancelled or failed. -/
theorem Status.cancelled_resolve {requested : Status} (h : requested.isTerminal = true) :
    resolve .cancelled requested = .cancelled ∨ resolve .cancelled requested = .failed := by
  revert h; cases requested <;> decide

/-- No run ends as syncing. -/
theorem Status.resolve_ne_syncing (stored : Status) {requested : Status}
    (h : requested.isTerminal = true) : stored.resolve requested ≠ .syncing := by
  intro heq
  have hended := (Status.isTerminal_resolve stored requested).trans h
  rw [heq] at hended
  cases hended

theorem Status.resolve_of_not_isTerminal (stored : Status) {requested : Status}
    (h : ¬ requested.isTerminal = true) : stored.resolve requested = requested := by
  cases requested <;> first | exact absurd rfl h | (cases stored <;> rfl)

theorem Status.eq_completed_of_resolve {stored requested : Status}
    (h : stored.resolve requested = .completed) : requested = .completed := by
  revert h; cases stored <;> cases requested <;> decide

theorem Status.canMoveTo_syncing (status : Status) :
    status.canMoveTo .syncing = true ↔ status ≠ .syncing := by
  cases status <;> decide

/-! ## Changes of a record -/

theorem Progress.settled?_eq_some {p : Progress} {n : Nat} (h : p.settled? = some n) :
    n < Progress.counterLimit ∧ n = p.processed + p.failed := by
  unfold Progress.settled? at h
  split at h
  · next hlt => exact ⟨by cases h; exact hlt, by cases h; rfl⟩
  · cases h

theorem Instant.later_self (a : Instant) : a.later a = a := by simp [Instant.later]

namespace Record

section

variable (r : Record) (now : Instant)

@[simp] theorem touch_collection : (r.touch now).collection = r.collection := rfl
@[simp] theorem touch_status : (r.touch now).status = r.status := rfl
@[simp] theorem touch_progress : (r.touch now).progress = r.progress := rfl
@[simp] theorem touch_run : (r.touch now).run = r.run := rfl

end

/-- A record as a new run finds it. -/
def begun (r : Record) (run : RunId) (now : Instant) : Record :=
  { r with
    status := .syncing
    progress := .zero
    failures := []
    run := some run
    error := none
    startedAt := some now
    finishedAt := none }

theorem beginRun_eq (r : Record) (run : RunId) (now : Instant) :
    r.beginRun run now =
      if r.status = .syncing then .error (.badMove .syncing .syncing)
      else .ok ((r.begun run now).touch now) := by
  by_cases hs : r.status = .syncing
  · rw [if_pos hs, beginRun, moveTo, hs]
    rfl
  · rw [if_neg hs, beginRun, moveTo, (Status.canMoveTo_syncing r.status).mpr hs]
    rfl

/-- A record as the end of its run leaves it. -/
def closed (r : Record) (report : RunReport) (now : Instant) : Record :=
  { r with
    status := r.status.resolve report.status
    tokens := report.tokens
    failures := report.failures
    progress := report.progress
    error := if report.status = .failed then report.error else none
    finishedAt := some now }

/-- The owner of a syncing or cancelled record may end its run, and nobody else. -/
theorem finish_eq (r : Record) (run : RunId) (report : RunReport) (now : Instant) :
    r.finish run report now =
      if r.run = some run then
        if report.status.isTerminal ∧ (r.status = .syncing ∨ r.status = .cancelled) then
          .ok ((r.closed report now).touch now)
        else .error (.badMove r.status report.status)
      else .error (.notOwner r.collection run) := by
  simp only [finish, Status.isTerminal_resolve, moveTo]
  by_cases hrun : r.run = some run
  · rw [if_pos hrun, if_pos hrun]
    by_cases ht : report.status.isTerminal = true
    · rw [if_pos ht, Status.canMoveTo_resolve r.status ht]
      simp only [ht, true_and, Bool.or_eq_true, beq_iff_eq, Status.resolve_eq_failed]
      by_cases hs : r.status = .syncing ∨ r.status = .cancelled
      · rw [if_pos hs, if_pos hs]
        rfl
      · rw [if_neg hs, if_neg hs, Status.resolve_of_ne report.status fun h => hs (.inr h)]
        rfl
    · rw [if_neg ht, if_neg fun h => ht h.1, Status.resolve_of_not_isTerminal r.status ht]
  · rw [if_neg hrun, if_neg hrun]

/-- A progress write is applied for the owner of a syncing record, and not where it goes back. -/
theorem applyProgress?_eq_some {r r' : Record} {run : RunId} {p : Progress} {now : Instant}
    {outcome : ProgressOutcome} (h : r.applyProgress? run p now = some (outcome, r')) :
    outcome = .discarded ∧ r' = r ∨
      outcome = .applied ∧ (r.status = .syncing ∧ r.run = some run) ∧
        ¬ p.processed + p.failed < r.progress.processed + r.progress.failed ∧
        r' = ({ r with progress := p } : Record).touch now := by
  unfold applyProgress? at h
  split at h
  · next hown =>
    obtain ⟨given, hgiven, h⟩ := Option.bind_eq_some_iff.mp h
    obtain ⟨stored, hstored, h⟩ := Option.bind_eq_some_iff.mp h
    obtain ⟨-, rfl⟩ := Progress.settled?_eq_some hgiven
    obtain ⟨-, rfl⟩ := Progress.settled?_eq_some hstored
    split at h
    · cases h
      exact .inl ⟨rfl, rfl⟩
    · next hlt =>
      cases h
      exact .inr ⟨rfl, hown, hlt, rfl⟩
  · cases h
    exact .inl ⟨rfl, rfl⟩

end Record

end CollectionSync
