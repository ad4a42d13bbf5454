import CollectionSync.Proofs.Store.Moves

/-! # What a recovery makes of the records

A recovery fails every syncing record that was written last before a time, and names the collections
in the order of their texts. Its own write takes a record out of its reach, so a second recovery
finds nothing left to do, and the collections are free for new runs. -/

namespace CollectionSync.Memory

/-- Of these records, a recovery names the collections and leaves the other records. -/
structure Recovers (m : Memory) (staleBefore : Instant) (reason : String) (now : Instant)
    (recovered : List CollectionId) (m' : Memory) : Prop where
  ascending : recovered.Pairwise fun c d => c.text < d.text
  stale : ∀ c, c ∈ recovered ↔
    ∃ r, m.get c = some r ∧ r.status = .syncing ∧ r.updatedAt < staleBefore
  /-- The run, its start, its counters, its failure report and the tokens stay. -/
  failed : ∀ c ∈ recovered, ∃ r, m.get c = some r ∧ m'.get c = some
    { r with
      status := .failed
      error := some reason
      finishedAt := some now
      updatedAt := r.updatedAt.later now }
  untouched : ∀ c, c ∉ recovered → m'.get c = m.get c
  exhausted : ∀ reason' now', m'.run (.recover staleBefore reason' now') = (.ok [], m')
  /-- As long as nothing else becomes of its record, a new run may claim the collection. -/
  free : ∀ c ∈ recovered, ∀ later : Memory, later.get c = m'.get c → ∀ run now',
    ∃ r, (later.run (.claim c run now')).1 = .ok (.claimed r) ∧ r.status = .syncing ∧
    r.run = some run

variable {m : Memory} {c : CollectionId} {staleBefore now : Instant} {reason : String}

/-- What a recovery leaves is not stale. -/
theorem not_isStale_of_recover {r : Record}
    (h : (m.recover staleBefore reason now).2.get c = some r) :
    isStale staleBefore r = false := by
  rw [get_recover] at h
  obtain ⟨r', -, rfl⟩ := Option.map_eq_some_iff.mp h
  split
  · next hstale =>
    rw [Record.interrupt, if_pos (isStale_iff.mp hstale).1]
    rfl
  · next hfresh => exact Bool.eq_false_iff.mpr hfresh

/-- Where no record is stale, a recovery does nothing. -/
theorem recover_of_not_isStale (h : ∀ c r, m.get c = some r → isStale staleBefore r = false) :
    m.recover staleBefore reason now = (.ok [], m) := by
  have hnone : (m.records.entries.filter fun e => isStale staleBefore e.2).map (·.1) = [] := by
    refine List.eq_nil_iff_forall_not_mem.mpr fun c hc => ?_
    obtain ⟨r, hr, hstale⟩ := (mem_recovered m c).mp hc
    rw [h c r hr] at hstale
    cases hstale
  have hget : ∀ c, (m.recover staleBefore reason now).2.get c = m.get c := by
    intro c
    rw [get_recover]
    cases hr : m.get c with
    | none => rfl
    | some r => rw [Option.map_some, h c r hr, if_neg Bool.false_ne_true]
  exact Prod.ext (congrArg Except.ok hnone) (congrArg Memory.mk (Dict.ext_get? hget))

/-- A record that is not syncing is given to whoever claims it. -/
theorem claim_of_free {r : Record} (hr : m.get c = some r) (hs : r.status ≠ .syncing) (run : RunId)
    (now : Instant) : (m.claim c run now).1 = .ok (.claimed ((r.begun run now).touch now)) := by
  simp only [claim, hr, Option.getD_some, Record.beginRun_eq, if_neg hs]

/-- Whatever the records are, a recovery names those that are stale and no others. -/
theorem recovered_exactly (m : Memory) (staleBefore : Instant) (reason : String) (now : Instant) :
    ∃ recovered m', m.run (.recover staleBefore reason now) = (.ok recovered, m') ∧
      Recovers m staleBefore reason now recovered m' := by
  have hfailed : ∀ {c : CollectionId} {r : Record}, m.get c = some r →
      isStale staleBefore r = true →
      (m.recover staleBefore reason now).2.get c = some
        { r with
          status := .failed
          error := some reason
          finishedAt := some now
          updatedAt := r.updatedAt.later now } := by
    intro c r hr hstale
    rw [get_recover, hr, Option.map_some, if_pos hstale, Record.interrupt,
      if_pos (isStale_iff.mp hstale).1]
    rfl
  refine ⟨_, (m.recover staleBefore reason now).2, rfl, ?_, fun c => ?_, fun c hc => ?_,
    fun c hc => ?_, fun reason' now' => ?_, fun c hc later hkept run now' => ?_⟩
  · exact (m.records.ordered.filter _).map _ fun _ _ h => h
  · rw [mem_recovered]
    simp only [isStale_iff]
  · obtain ⟨r, hr, hstale⟩ := (mem_recovered m c).mp hc
    exact ⟨r, hr, hfailed hr hstale⟩
  · rw [get_recover]
    cases hr : m.get c with
    | none => rfl
    | some r =>
      rw [Option.map_some, if_neg fun hstale => hc ((mem_recovered m c).mpr ⟨r, hr, hstale⟩)]
  · exact recover_of_not_isStale fun _ _ => not_isStale_of_recover
  · obtain ⟨r, hr, hstale⟩ := (mem_recovered m c).mp hc
    have hfree : Status.failed ≠ .syncing := by decide
    exact ⟨_, claim_of_free (hkept.trans (hfailed hr hstale)) hfree run now', rfl, rfl⟩

end CollectionSync.Memory
