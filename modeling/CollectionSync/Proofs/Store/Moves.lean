import CollectionSync.Proofs.Dict
import CollectionSync.Proofs.Record.Rules
import CollectionSync.Store.Memory

/-! # What an operation makes of a record

`moves_run` lists every way in which an operation of the memory changes the record of a collection,
and what it answers then. All that is proved of records over time goes through this list. -/

namespace CollectionSync

/-- An answer that says that the record of the collection was written. -/
def StoreOp.Wrote (c : CollectionId) : (op : StoreOp) → Except StoreError op.Reply → Prop
  | .get _, _ | .status _, _ => False
  | .compareAndSet d _ _ _, answer => d = c ∧ answer = .ok true
  | .claim d _ _, answer => d = c ∧ ∃ r, answer = .ok (ClaimOutcome.claimed r)
  | .updateProgress d _ _ _, answer => d = c ∧ answer = .ok ProgressOutcome.applied
  | .requestCancel d _, answer => d = c ∧ answer = .ok true
  | .finish d _ _ _, answer => d = c ∧ ∃ r : Record, answer = .ok r
  | .recover .., answer => ∃ l : List CollectionId, answer = .ok l ∧ c ∈ l

/-- How an operation with its answer changes the record of a collection. -/
inductive Moves (c : CollectionId) : (op : StoreOp) → Except StoreError op.Reply →
    Option Record → Option Record → Prop
  | kept {op : StoreOp} {answer : Except StoreError op.Reply} (found : Option Record) :
    ¬ op.Wrote c answer → Moves c op answer found found
  | moved {r : Record} {expected : List Status} {next : Status} {now : Instant} :
    r.status ∈ expected → r.status.canMoveTo next = true →
    Moves c (.compareAndSet c expected next now) (.ok true) (some r)
      (some (({ r with status := next } : Record).touch now))
  | claimed {found : Option Record} {run : RunId} {now : Instant} :
    (∀ r ∈ found, r.status ≠ .syncing) →
    Moves c (.claim c run now)
      (.ok (.claimed (((found.getD (.idle c now)).begun run now).touch now))) found
      (some (((found.getD (.idle c now)).begun run now).touch now))
  | counted {r : Record} {run : RunId} {p : Progress} {now : Instant} :
    r.status = .syncing → r.run = some run →
    ¬ p.processed + p.failed < r.progress.processed + r.progress.failed →
    Moves c (.updateProgress c run p now) (.ok .applied) (some r)
      (some (({ r with progress := p } : Record).touch now))
  | cancelled {r : Record} {now : Instant} :
    r.status = .syncing →
    Moves c (.requestCancel c now) (.ok true) (some r)
      (some (({ r with status := .cancelled } : Record).touch now))
  | closed {r : Record} {run : RunId} {report : RunReport} {now : Instant} :
    r.run = some run → report.status.isTerminal = true →
    r.status = .syncing ∨ r.status = .cancelled →
    Moves c (.finish c run report now) (.ok ((r.closed report now).touch now)) (some r)
      (some ((r.closed report now).touch now))
  | interrupted {r : Record} {staleBefore now : Instant} {reason : String}
      {recovered : List CollectionId} :
    r.status = .syncing → r.updatedAt < staleBefore → c ∈ recovered →
    Moves c (.recover staleBefore reason now) (.ok recovered) (some r)
      (some (({ r with
        status := .failed, error := some reason, finishedAt := some now } : Record).touch now))

namespace Moves

variable {c : CollectionId} {found found' : Option Record} {run : RunId} {now : Instant}

/-! ## What an answer tells -/

/-- Whoever changes a record says so. -/
theorem unchanged {op : StoreOp} {answer : Except StoreError op.Reply}
    (h : Moves c op answer found found') (hno : ¬ op.Wrote c answer) : found' = found := by
  cases h with
  | kept => rfl
  | moved | counted | cancelled => exact absurd ⟨rfl, rfl⟩ hno
  | claimed | closed => exact absurd ⟨rfl, _, rfl⟩ hno
  | interrupted _ _ hmem => exact absurd ⟨_, rfl, hmem⟩ hno

theorem of_claimed {r : Record}
    (h : Moves c (.claim c run now) (.ok (ClaimOutcome.claimed r)) found found') :
    (∀ s ∈ found, s.status ≠ .syncing) ∧ found' = some r ∧
      r = ((found.getD (.idle c now)).begun run now).touch now := by
  cases h with
  | kept _ hno => exact absurd ⟨rfl, r, rfl⟩ hno
  | claimed hfree => exact ⟨hfree, rfl, rfl⟩

theorem of_applied {p : Progress}
    (h : Moves c (.updateProgress c run p now) (.ok ProgressOutcome.applied) found found') :
    ∃ r, found = some r ∧ r.status = .syncing ∧ r.run = some run ∧
      found' = some (({ r with progress := p } : Record).touch now) := by
  cases h with
  | kept _ hno => exact absurd ⟨rfl, rfl⟩ hno
  | counted hs hrun _ => exact ⟨_, rfl, hs, hrun, rfl⟩

theorem of_cancelled
    (h : Moves c (.requestCancel c now) (Except.ok true) found found') :
    ∃ r, found = some r ∧ r.status = .syncing ∧
      found' = some (({ r with status := .cancelled } : Record).touch now) := by
  cases h with
  | kept _ hno => exact absurd ⟨rfl, rfl⟩ hno
  | cancelled hs => exact ⟨_, rfl, hs, rfl⟩

theorem of_finished {report : RunReport} {r' : Record}
    (h : Moves c (.finish c run report now) (.ok r' : Except StoreError Record) found found') :
    ∃ r, found = some r ∧ r.run = some run ∧ (r.status = .syncing ∨ r.status = .cancelled) ∧
      found' = some r' ∧ r' = (r.closed report now).touch now := by
  cases h with
  | kept _ hno => exact absurd ⟨rfl, r', rfl⟩ hno
  | closed hrun _ hs => exact ⟨_, rfl, hrun, hs, rfl, rfl⟩

end Moves

namespace Memory

variable {m : Memory} {c d : CollectionId}

@[simp] theorem get_set (m : Memory) (c : CollectionId) (r : Record) :
    (m.set c r).get c = some r := Dict.get?_insert_self m.records c r

theorem get_set_of_ne (m : Memory) (r : Record) (h : d ≠ c) : (m.set d r).get c = m.get c :=
  Dict.get?_insert_of_ne m.records r h

theorem set_self {r : Record} (h : m.get c = some r) : m.set c r = m :=
  congrArg Memory.mk (Dict.insert_self h)

/-! ## The operations one by one -/

section

variable (m) (d) (c)

theorem moves_compareAndSet (expected : List Status) (next : Status) (now : Instant) :
    Moves c (.compareAndSet d expected next now) (m.compareAndSet d expected next now).1 (m.get c)
      ((m.compareAndSet d expected next now).2.get c) := by
  unfold compareAndSet
  cases hf : forbidden? expected next with
  | some stored => exact .kept _ fun h => by cases h.2
  | none =>
    cases hr : m.get d with
    | none => exact .kept _ fun h => by cases h.2
    | some r =>
      by_cases hex : expected.contains r.status = true
      · have hmem := List.contains_iff_mem.mp hex
        have hmove : r.status.canMoveTo next = true := by
          simpa using List.find?_eq_none.mp hf r.status hmem
        simp only [hex, if_true, Record.moveTo, hmove]
        by_cases hdc : d = c
        · subst hdc
          rw [get_set, hr]
          exact .moved hmem hmove
        · rw [get_set_of_ne m _ hdc]
          exact .kept _ fun h => hdc h.1
      · simp only [hex]
        exact .kept _ fun h => by cases h.2

theorem moves_claim (run : RunId) (now : Instant) :
    Moves c (.claim d run now) (m.claim d run now).1 (m.get c) ((m.claim d run now).2.get c) := by
  simp only [claim, Record.beginRun_eq]
  by_cases hs : ((m.get d).getD (.idle d now)).status = .syncing
  · rw [if_pos hs]
    exact .kept _ fun h => by cases h.2.choose_spec
  · rw [if_neg hs]
    by_cases hdc : d = c
    · subst hdc
      rw [get_set]
      refine .claimed fun r hr => ?_
      rwa [hr, Option.getD_some] at hs
    · rw [get_set_of_ne m _ hdc]
      exact .kept _ fun h => hdc h.1

theorem moves_updateProgress (run : RunId) (p : Progress) (now : Instant) :
    Moves c (.updateProgress d run p now) (m.updateProgress d run p now).1 (m.get c)
      ((m.updateProgress d run p now).2.get c) := by
  unfold updateProgress
  cases hr : m.get d with
  | none => exact .kept _ fun h => by cases h.2
  | some r =>
    cases ha : r.applyProgress? run p now with
    | none =>
      simp only [ha]
      exact .kept _ fun h => by cases h.2
    | some written =>
      obtain ⟨outcome, r'⟩ := written
      simp only [ha]
      by_cases hdc : d = c
      · subst hdc
        rw [get_set, hr]
        rcases Record.applyProgress?_eq_some ha with ⟨rfl, rfl⟩ | ⟨rfl, hown, hback, rfl⟩
        · exact .kept _ fun h => by cases h.2
        · exact .counted hown.1 hown.2 hback
      · rw [get_set_of_ne m _ hdc]
        exact .kept _ fun h => hdc h.1

theorem moves_requestCancel (now : Instant) :
    Moves c (.requestCancel d now) (m.requestCancel d now).1 (m.get c)
      ((m.requestCancel d now).2.get c) := by
  unfold requestCancel
  cases hr : m.get d with
  | none => exact .kept _ fun h => by cases h.2
  | some r =>
    by_cases hs : r.status = .syncing
    · simp only [Record.requestCancel, if_pos hs]
      by_cases hdc : d = c
      · subst hdc
        rw [get_set, hr]
        exact .cancelled hs
      · rw [get_set_of_ne m _ hdc]
        exact .kept _ fun h => hdc h.1
    · simp only [Record.requestCancel, if_neg hs, set_self hr]
      exact .kept _ fun h => by cases h.2

theorem moves_finish (run : RunId) (report : RunReport) (now : Instant) :
    Moves c (.finish d run report now) (m.finish d run report now).1 (m.get c)
      ((m.finish d run report now).2.get c) := by
  unfold finish
  cases hr : m.get d with
  | none => exact .kept _ fun h => by cases h.2.choose_spec
  | some r =>
    simp only [Record.finish_eq]
    by_cases hrun : r.run = some run
    · by_cases hends : report.status.isTerminal = true ∧
          (r.status = .syncing ∨ r.status = .cancelled)
      · rw [if_pos hrun, if_pos hends]
        by_cases hdc : d = c
        · subst hdc
          rw [get_set, hr]
          exact .closed hrun hends.1 hends.2
        · rw [get_set_of_ne m _ hdc]
          exact .kept _ fun h => hdc h.1
      · rw [if_pos hrun, if_neg hends]
        exact .kept _ fun h => by cases h.2.choose_spec
    · rw [if_neg hrun]
      exact .kept _ fun h => by cases h.2.choose_spec

theorem isStale_iff {staleBefore : Instant} {r : Record} :
    isStale staleBefore r = true ↔ r.status = .syncing ∧ r.updatedAt < staleBefore := by
  simp only [isStale, Bool.and_eq_true, beq_iff_eq, decide_eq_true_eq]

theorem get_recover (staleBefore : Instant) (reason : String) (now : Instant) :
    (m.recover staleBefore reason now).2.get c =
      (m.get c).map fun r => if isStale staleBefore r then (r.interrupt reason now).2 else r :=
  Dict.get?_map m.records _ c

/-- A recovery names the collections whose records it takes hold of. -/
theorem mem_recovered {staleBefore : Instant} :
    c ∈ (m.records.entries.filter fun e => isStale staleBefore e.2).map (·.1) ↔
      ∃ r, m.get c = some r ∧ isStale staleBefore r = true := by
  simp [Memory.get, Dict.get?_eq_some_iff]

theorem moves_recover (staleBefore : Instant) (reason : String) (now : Instant) :
    Moves c (.recover staleBefore reason now) (m.recover staleBefore reason now).1 (m.get c)
      ((m.recover staleBefore reason now).2.get c) := by
  rw [get_recover]
  cases hr : m.get c with
  | none =>
    refine .kept _ fun h => ?_
    obtain ⟨l, hl, hc⟩ := h
    cases hl
    obtain ⟨r, hr', -⟩ := (mem_recovered m c).mp hc
    rw [hr] at hr'
    cases hr'
  | some r =>
    by_cases hstale : isStale staleBefore r = true
    · obtain ⟨hs, hold⟩ := isStale_iff.mp hstale
      rw [Option.map_some, if_pos hstale, Record.interrupt, if_pos hs]
      exact .interrupted hs hold ((mem_recovered m c).mpr ⟨r, hr, hstale⟩)
    · rw [Option.map_some, if_neg hstale]
      refine .kept _ fun h => ?_
      obtain ⟨l, hl, hc⟩ := h
      cases hl
      obtain ⟨r', hr', hstale'⟩ := (mem_recovered m c).mp hc
      rw [hr, Option.some.injEq] at hr'
      exact hstale (hr' ▸ hstale')

end

/-- Every operation changes the record of a collection in one of these ways or leaves it. -/
theorem moves_run (m : Memory) (op : StoreOp) (c : CollectionId) :
    Moves c op (m.run op).1 (m.get c) ((m.run op).2.get c) := by
  cases op with
  | get d => exact .kept _ id
  | status d => exact .kept _ id
  | compareAndSet d expected next now => exact m.moves_compareAndSet c d expected next now
  | claim d run now => exact m.moves_claim c d run now
  | updateProgress d run p now => exact m.moves_updateProgress c d run p now
  | requestCancel d now => exact m.moves_requestCancel c d now
  | finish d run report now => exact m.moves_finish c d run report now
  | recover staleBefore reason now => exact m.moves_recover c staleBefore reason now

end Memory

end CollectionSync
