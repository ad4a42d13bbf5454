import CollectionSync.Proofs.Store.Moves
import CollectionSync.Proofs.Store.Reading

/-! # What a store holds once it has accepted the end of a run

The end of a run is accepted where its record is syncing or cancelled. What is written then follows
from the status that was stored and from the report, in both stores. -/

namespace CollectionSync

/-- A record of the status is closed with the report, and this is written. A store may cut down the
counters to what it can hold. -/
structure Closes (before : Status) (report : RunReport) (written : Record) : Prop where
  unfinished : before = .syncing ∨ before = .cancelled
  status : written.status = before.resolve report.status
  error : written.error = if report.status = .failed then report.error else none
  failures : written.failures = report.failures
  counters : ∃ cut : Nat → Nat, cut 0 = 0 ∧
    written.progress.processed = cut report.progress.processed ∧
    written.progress.failed = cut report.progress.failed ∧
    written.progress.total = cut report.progress.total

/-- Where the store accepts the end of the run, it has held a record of a status, and holds another
record since, of which this is true. -/
def EndsWith {σ : Type} (step : σ → (op : StoreOp) → Except StoreError op.Reply × σ)
    (c : CollectionId) (run : RunId) (report : RunReport) (P : Status → Record → Prop)
    (s : σ) : Prop :=
  ∀ (now : Instant) (written : Record), (step s (.finish c run report now)).1 = .ok written →
    ∃ before : Status, (step s (.status c)).1 = .ok (some before) ∧
      (step (step s (.finish c run report now)).2 (.get c)).1 = .ok (some written) ∧
      P before written

section

variable {c : CollectionId} {run : RunId} {report : RunReport}

theorem EndsWith.mono {σ : Type} {step : σ → (op : StoreOp) → Except StoreError op.Reply × σ}
    {P Q : Status → Record → Prop} {s : σ} (h : EndsWith step c run report P s)
    (hPQ : ∀ before written, P before written → Q before written) :
    EndsWith step c run report Q s := by
  intro now written haccepted
  obtain ⟨before, hbefore, hafter, hP⟩ := h now written haccepted
  exact ⟨before, hbefore, hafter, hPQ before written hP⟩

theorem Memory.endsWith_closes (m : Memory) :
    EndsWith Memory.run c run report (Closes · report ·) m := by
  intro now written haccepted
  have hmoves := m.moves_run (.finish c run report now) c
  rw [haccepted] at hmoves
  obtain ⟨r, hr, -, hopen, hafter, rfl⟩ := hmoves.of_finished
  refine ⟨r.status, ?_, congrArg Except.ok hafter, hopen, rfl, rfl, rfl, id, rfl, rfl, rfl, rfl⟩
  exact congrArg (fun found => Except.ok (found.map Record.status)) hr

namespace Database

variable {db : Database} {row : Row} {r : Record}

theorem status_of_row? (hrow : db.row? c = some row) :
    (db.run (.status c)).1 = .ok (some row.status) := by
  obtain ⟨version, table⟩ := db
  cases table with
  | records rows =>
    have hfound : find? rows c = some row := hrow
    show Except.ok ((find? rows c).map Row.status) = Except.ok (some row.status)
    rw [hfound]
    rfl
  | foreign | absent => cases hrow

theorem get_of_row? (hrow : db.row? c = some row) (hmeans : row.Means r) :
    (db.run (.get c)).1 = .ok (some r) := by
  obtain ⟨version, table⟩ := db
  cases table with
  | records rows =>
    have hfound : find? rows c = some row := hrow
    show getRows c rows = Except.ok (some r)
    simp only [getRows, hfound, readRow_eq_ok.mpr hmeans]
    rfl
  | foreign | absent => cases hrow

theorem endsWith_closes (hkeyed : db.Keyed) :
    EndsWith Database.run c run report (Closes · report ·) db := by
  intro now written haccepted
  obtain ⟨row, hrow, -, hopen, hrow', hmeans⟩ := of_finished hkeyed haccepted
  have hfailures : some written.failures = some report.failures :=
    hmeans.failures.symm.trans (Row.readFailures?_failuresText report.failures)
  refine ⟨row.status, status_of_row? hrow, get_of_row? hrow' hmeans, hopen, hmeans.status,
    hmeans.error, Option.some.inj hfailures, Row.counter, rfl, ?_, ?_, ?_⟩
  · rw [hmeans.progress]
    rfl
  · rw [hmeans.progress]
    rfl
  · rw [hmeans.progress]
    rfl

end Database

end

end CollectionSync
