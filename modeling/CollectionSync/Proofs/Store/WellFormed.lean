import CollectionSync.Proofs.Store.Agreement
import CollectionSync.Proofs.Store.Fencing

/-! # Records are well formed

What is true of every record that runs, cancellations and recoveries make of an empty store. No two
of them need share a clock: a time may lie before every time that was written so far, and only the
time of the last write never goes back. -/

namespace CollectionSync

/-! ## Times -/

namespace Instant

theorem lt_iff {a b : Instant} :
    a < b ↔ a.seconds < b.seconds ∨ a.seconds = b.seconds ∧ a.nanos < b.nanos := Iff.rfl

/-- What is not after the first instant is not after the later one. -/
theorem not_later_lt {a t : Instant} (h : ¬ a < t) (b : Instant) : ¬ a.later b < t := by
  unfold later
  split
  · next hab =>
    rw [lt_iff] at h hab ⊢
    omega
  · exact h

theorem not_later_lt_right (a b : Instant) : ¬ a.later b < b := by
  unfold later
  split
  · rw [lt_iff]
    omega
  · assumption

theorem not_toMicros_lt {a t : Instant} (h : ¬ a < t) : ¬ a.toMicros < t.toMicros := by
  rw [lt_iff] at h ⊢
  simp only [toMicros]
  omega

end Instant

/-! ## Single records -/

/-- A record as runs leave it: some run has started, only a failed one left a reason, a run at work
has left nothing yet, and the last write is the last of its times. -/
structure Record.WellFormed (r : Record) : Prop where
  owned : ∃ run, r.run = some run
  started : ∃ t, r.startedAt = some t ∧ ¬ r.updatedAt < t
  error : ∀ reason ∈ r.error, r.status = .failed
  syncing : r.status = .syncing → r.finishedAt = none ∧ r.error = none ∧ r.failures = []
  ended : r.status.isEnded = true → ∃ t, r.finishedAt = some t
  finished : ∀ t ∈ r.finishedAt, ¬ r.updatedAt < t

namespace Record

section

variable {r : Record}

theorem begun_wellFormed (r : Record) (run : RunId) (now : Instant) :
    ((r.begun run now).touch now).WellFormed where
  owned := ⟨run, rfl⟩
  started := ⟨now, rfl, Instant.not_later_lt_right r.updatedAt now⟩
  error := nofun
  syncing _ := ⟨rfl, rfl, rfl⟩
  ended := nofun
  finished := nofun

theorem WellFormed.counted (h : r.WellFormed) (p : Progress) (now : Instant) :
    (({ r with progress := p } : Record).touch now).WellFormed where
  owned := h.owned
  started :=
    have ⟨t, ht, hle⟩ := h.started
    ⟨t, ht, Instant.not_later_lt hle now⟩
  error := h.error
  syncing := h.syncing
  ended := h.ended
  finished t ht := Instant.not_later_lt (h.finished t ht) now

/-- A cancellation leaves the end to the worker: there is no time of it yet. -/
theorem WellFormed.cancelled (h : r.WellFormed) (hs : r.status = .syncing) (now : Instant) :
    (({ r with status := .cancelled } : Record).touch now).WellFormed where
  owned := h.owned
  started :=
    have ⟨t, ht, hle⟩ := h.started
    ⟨t, ht, Instant.not_later_lt hle now⟩
  error reason he := by
    have hnone : r.error = none := (h.syncing hs).2.1
    cases hnone.symm.trans he
  syncing := nofun
  ended := nofun
  finished t ht := Instant.not_later_lt (h.finished t ht) now

theorem WellFormed.closed (h : r.WellFormed) {report : RunReport}
    (hterminal : report.status.isTerminal = true) (now : Instant) :
    ((r.closed report now).touch now).WellFormed where
  owned := h.owned
  started :=
    have ⟨t, ht, hle⟩ := h.started
    ⟨t, ht, Instant.not_later_lt hle now⟩
  error reason he := by
    have he : (if report.status = .failed then report.error else none) = some reason := he
    split at he
    · next hfailed => exact Status.resolve_eq_failed.mpr hfailed
    · cases he
  syncing hs := absurd hs (Status.resolve_ne_syncing r.status hterminal)
  ended _ := ⟨now, rfl⟩
  finished t ht := by
    cases ht
    exact Instant.not_later_lt_right r.updatedAt now

theorem WellFormed.interrupted (h : r.WellFormed) (reason : String) (now : Instant) :
    Record.WellFormed (({ r with
      status := .failed, error := some reason, finishedAt := some now } : Record).touch now) where
  owned := h.owned
  started :=
    have ⟨t, ht, hle⟩ := h.started
    ⟨t, ht, Instant.not_later_lt hle now⟩
  error _ _ := rfl
  syncing := nofun
  ended _ := ⟨now, rfl⟩
  finished t ht := by
    cases ht
    exact Instant.not_later_lt_right r.updatedAt now

/-- Cutting all times alike keeps their order. -/
theorem WellFormed.toMicros (h : r.WellFormed) : r.toMicros.WellFormed where
  owned := h.owned
  started :=
    have ⟨t, ht, hle⟩ := h.started
    ⟨t.toMicros, congrArg (Option.map Instant.toMicros) ht, Instant.not_toMicros_lt hle⟩
  error := h.error
  syncing hs :=
    have ⟨hfinished, herror, hfailures⟩ := h.syncing hs
    ⟨congrArg (Option.map Instant.toMicros) hfinished, herror, hfailures⟩
  ended hs :=
    have ⟨t, ht⟩ := h.ended hs
    ⟨t.toMicros, congrArg (Option.map Instant.toMicros) ht⟩
  finished t ht := by
    obtain ⟨t', ht', rfl⟩ := Option.map_eq_some_iff.mp ht
    exact Instant.not_toMicros_lt (h.finished t' ht')

end

end Record

/-! ## Whole histories -/

/-- An operation of a run, of a cancellation or of a recovery keeps a record well formed, and makes
a new one so. A compare-and-set may send a record back to `syncing` with the end of its last run in
it. -/
theorem Moves.wellFormed {c : CollectionId} {op : StoreOp} {answer : Except StoreError op.Reply}
    {found found' : Option Record} (hmoves : Moves c op answer found found')
    (hop : op.isOfRuns = true) (h : ∀ r ∈ found, r.WellFormed) : ∀ r ∈ found', r.WellFormed := by
  cases hmoves with
  | kept => exact h
  | moved => cases hop
  | @claimed _ run now _ =>
    rintro r ⟨⟩
    exact Record.begun_wellFormed _ run now
  | @counted r run p now _ _ _ =>
    rintro _ ⟨⟩
    exact (h r rfl).counted p now
  | @cancelled r now hs =>
    rintro _ ⟨⟩
    exact (h r rfl).cancelled hs now
  | @closed r run report now _ hterminal _ =>
    rintro _ ⟨⟩
    exact (h r rfl).closed hterminal now
  | @interrupted r staleBefore now reason recovered _ _ _ =>
    rintro _ ⟨⟩
    exact (h r rfl).interrupted reason now

open History

theorem Memory.wellFormed_after {ops : List StoreOp} (hops : ∀ op ∈ ops, op.isOfRuns = true) :
    ∀ c, ∀ r ∈ (after Memory.run .empty ops).get c, r.WellFormed :=
  after_induction Memory.run (P := fun m => ∀ c, ∀ r ∈ m.get c, r.WellFormed) (fun _ => nofun)
    fun op hop m h c => (m.moves_run op c).wellFormed (hops op hop) (h c)

/-- Whatever runs, cancellations and recoveries do to an empty store, its records are well formed:
in a memory at all times that the clocks may show, in a database at those that a row can hold. -/
theorem records_wellFormed {ops : List StoreOp} (hops : ∀ op ∈ ops, op.isOfRuns = true) :
    (∀ c, ∀ r ∈ (after Memory.run .empty ops).get c, r.WellFormed) ∧
      ((∀ op ∈ ops, op.Storable) → ∀ (v : Int) (c : CollectionId), ∃ found : Option Record,
        ((after Database.run ⟨v, .records []⟩ ops).get c).1 = .ok found ∧
          ∀ r ∈ found, r.WellFormed) := by
  have hmemory := Memory.wellFormed_after hops
  refine ⟨hmemory, fun hstorable v c => ?_⟩
  obtain ⟨-, rows, htable, hmirrors⟩ := Mirrors.empty.agree_history (v := v) hstorable
  obtain ⟨⟨w, _⟩, hdb⟩ : ∃ db, db = after Database.run ⟨v, .records []⟩ ops := ⟨_, rfl⟩
  rw [← hdb] at htable ⊢
  cases htable
  refine ⟨_, hmirrors.getRows_eq c, fun r hr => ?_⟩
  obtain ⟨r', hr', rfl⟩ := Option.map_eq_some_iff.mp hr
  exact (hmemory c r' hr').toMicros

/-- A cancelled run that reports success and a run that is recovered, each clock behind the one
before: the record has been started and finished at times long before its last write. -/
theorem records_wellFormed_backwards :
    let docs : CollectionId := ⟨"docs"⟩
    let ops : List StoreOp :=
      [.claim docs ⟨1⟩ ⟨100, 0⟩, .updateProgress docs ⟨1⟩ ⟨2, 1, 4, "item"⟩ ⟨90, 0⟩,
        .requestCancel docs ⟨80, 0⟩,
        .finish docs ⟨1⟩ ⟨.completed, .empty, [], ⟨3, 1, 4, ""⟩, some "late"⟩ ⟨70, 0⟩,
        .claim docs ⟨2⟩ ⟨60, 0⟩, .recover ⟨110, 0⟩ "interrupted" ⟨50, 0⟩]
    ((∀ op ∈ ops, op.isOfRuns = true) ∧ ∀ op ∈ ops, op.Storable) ∧
      ∃ r, (after Memory.run .empty ops).get docs = some r ∧ r.WellFormed ∧
        ((after Database.run ⟨1, .records []⟩ ops).get docs).1 = .ok (some r) ∧
        (r.status, r.startedAt, r.finishedAt, r.updatedAt) =
          (.failed, some ⟨60, 0⟩, some ⟨50, 0⟩, ⟨100, 0⟩) := by
  intro docs ops
  have hops : ∀ op ∈ ops, op.isOfRuns = true := by simp [ops, StoreOp.isOfRuns]
  have hstorable : ∀ op ∈ ops, op.Storable := by decide +kernel
  let last : Record :=
    { collection := docs
      status := .failed
      progress := .zero
      tokens := .empty
      failures := []
      run := some ⟨2⟩
      error := some "interrupted"
      startedAt := some ⟨60, 0⟩
      finishedAt := some ⟨50, 0⟩
      updatedAt := ⟨100, 0⟩ }
  have hlast : (after Memory.run .empty ops).get docs = some last := by decide +kernel
  have hwell := records_wellFormed hops
  refine ⟨⟨hops, hstorable⟩, last, hlast, hwell.1 docs last hlast, ?_, rfl⟩
  decide +kernel

end CollectionSync
