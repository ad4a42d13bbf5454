import CollectionSync.Proofs.Store.WellFormed

/-! # What an operation leaves alone

An operation changes the record that it is about, and of that record what it is there to change:
only the end of a run writes tokens, only a claim hands the record over, and no operation takes the
time of the last write back. Where the answer says that nothing was done, nothing was. -/

namespace CollectionSync

namespace StoreOp

variable (c : CollectionId)

/-- The answer says that nothing was done, or nothing was asked for. -/
def Declined : (op : StoreOp) → Except StoreError op.Reply → Prop
  | .get _, _ | .status _, _ => True
  | .compareAndSet .., answer => answer = .ok false ∨ ∃ e, answer = .error e
  | .claim .., answer => (∃ r, answer = .ok (ClaimOutcome.conflict r)) ∨ ∃ e, answer = .error e
  | .updateProgress .., answer => answer = .ok ProgressOutcome.discarded ∨ ∃ e, answer = .error e
  | .requestCancel .., answer => answer = .ok false ∨ ∃ e, answer = .error e
  | .finish .., answer | .recover .., answer => ∃ e, answer = .error e

/-- The operation is about the record of the collection; a recovery is about those that it names. -/
def Targets : (op : StoreOp) → Except StoreError op.Reply → Prop
  | .get d, _ | .status d, _ | .compareAndSet d .., _ | .claim d .., _ | .updateProgress d .., _
  | .requestCancel d _, _ | .finish d .., _ => d = c
  | .recover .., answer => ∃ l : List CollectionId, answer = .ok l ∧ c ∈ l

/-- A run is given the record of the collection. -/
def HandsOver : (op : StoreOp) → Except StoreError op.Reply → Prop
  | .claim d .., answer => d = c ∧ ∃ r, answer = .ok (ClaimOutcome.claimed r)
  | _, _ => False

/-- A run has its counters stored. -/
def Counts : (op : StoreOp) → Except StoreError op.Reply → Prop
  | .updateProgress d .., answer => d = c ∧ answer = .ok ProgressOutcome.applied
  | _, _ => False

/-- A run ends. -/
def Ends : (op : StoreOp) → Except StoreError op.Reply → Prop
  | .finish d .., answer => d = c ∧ ∃ r : Record, answer = .ok r
  | _, _ => False

/-- What an operation may make of the record of the collection. -/
structure Continues (op : StoreOp) (answer : Except StoreError op.Reply)
    (r r' : Record) : Prop where
  status : r'.status = r.status ∨ r.status.canMoveTo r'.status = true
  tokens : r'.tokens ≠ r.tokens → op.Ends c answer
  run : r'.run ≠ r.run → op.HandsOver c answer
  progress : r'.progress ≠ r.progress →
    op.Counts c answer ∨ (op.HandsOver c answer ∧ r'.progress = .zero) ∨ op.Ends c answer
  updatedAt : ¬ r'.updatedAt < r.updatedAt

end StoreOp

variable {c : CollectionId} {op : StoreOp} {answer : Except StoreError op.Reply}

theorem StoreOp.not_wrote_of_declined (h : op.Declined answer) : ¬ op.Wrote c answer := by
  intro hwrote
  cases op with
  | get | status => exact hwrote
  | compareAndSet => rcases h with rfl | ⟨e, rfl⟩ <;> cases hwrote.2
  | claim => rcases h with ⟨r, rfl⟩ | ⟨e, rfl⟩ <;> cases hwrote.2.choose_spec
  | updateProgress => rcases h with rfl | ⟨e, rfl⟩ <;> cases hwrote.2
  | requestCancel => rcases h with rfl | ⟨e, rfl⟩ <;> cases hwrote.2
  | finish =>
    obtain ⟨e, rfl⟩ := h
    cases hwrote.2.choose_spec
  | recover =>
    obtain ⟨e, rfl⟩ := h
    cases hwrote.choose_spec.1

theorem StoreOp.targets_of_wrote (h : op.Wrote c answer) : op.Targets c answer := by
  cases op with
  | get | status => exact h.elim
  | compareAndSet | claim | updateProgress | requestCancel | finish => exact h.1
  | recover => exact h

theorem Instant.not_lt_self (a : Instant) : ¬ a < a := by
  rw [Instant.lt_iff]
  omega

theorem Instant.not_later_lt_left (a b : Instant) : ¬ a.later b < a :=
  Instant.not_later_lt (Instant.not_lt_self a) b

/-- However an operation changes a record, it changes nothing that it does not own. -/
theorem Moves.continues {r : Record} {found' : Option Record}
    (hmoves : Moves c op answer (some r) found') :
    ∃ r', found' = some r' ∧ op.Continues c answer r r' := by
  have hlater : ∀ now, ¬ r.updatedAt.later now < r.updatedAt :=
    Instant.not_later_lt_left r.updatedAt
  cases hmoves with
  | kept =>
    exact ⟨r, rfl, .inl rfl, fun h => absurd rfl h, fun h => absurd rfl h, fun h => absurd rfl h,
      Instant.not_lt_self r.updatedAt⟩
  | moved _ hmove =>
    exact ⟨_, rfl, .inr hmove, fun h => absurd rfl h, fun h => absurd rfl h, fun h => absurd rfl h,
      hlater _⟩
  | claimed hfree =>
    have hmove := (Status.canMoveTo_syncing r.status).mpr (hfree r rfl)
    exact ⟨_, rfl, .inr hmove, fun h => absurd rfl h, fun _ => ⟨rfl, _, rfl⟩,
      fun _ => .inr (.inl ⟨⟨rfl, _, rfl⟩, rfl⟩), hlater _⟩
  | counted =>
    exact ⟨_, rfl, .inl rfl, fun h => absurd rfl h, fun h => absurd rfl h, fun _ => .inl ⟨rfl, rfl⟩,
      hlater _⟩
  | cancelled hs =>
    exact ⟨_, rfl, .inr (by rw [hs]; rfl), fun h => absurd rfl h, fun h => absurd rfl h,
      fun h => absurd rfl h, hlater _⟩
  | @closed _ _ report _ _ hterminal hopen =>
    have hmove : r.status.canMoveTo (r.status.resolve report.status) = true := by
      rw [Status.canMoveTo_resolve r.status hterminal]
      rcases hopen with hs | hs <;> rw [hs] <;> rfl
    exact ⟨_, rfl, .inr hmove, fun _ => ⟨rfl, _, rfl⟩, fun h => absurd rfl h,
      fun _ => .inr (.inr ⟨rfl, _, rfl⟩), hlater _⟩
  | interrupted hs =>
    exact ⟨_, rfl, .inr (by rw [hs]; rfl), fun h => absurd rfl h, fun h => absurd rfl h,
      fun h => absurd rfl h, hlater _⟩

/-- A record comes into being by the claim of a run. -/
theorem Moves.handsOver_of_none {r' : Record} (hmoves : Moves c op answer none (some r')) :
    op.HandsOver c answer ∧ Status.idle.canMoveTo r'.status = true := by
  cases hmoves with
  | claimed => exact ⟨⟨rfl, _, rfl⟩, rfl⟩

/-- An operation that has declined has left all records as they were. Any other changes no record
but the one it is about, moves its status as the state machine allows, and changes of it only what
it owns; a record that was not there before is one that a run has claimed. -/
theorem operations_keep_to_their_own (m : Memory) (op : StoreOp) :
    (op.Declined (m.run op).1 → (m.run op).2 = m) ∧
    (∀ c, ¬ op.Targets c (m.run op).1 → (m.run op).2.get c = m.get c) ∧
    (∀ c r, m.get c = some r → ∃ r', (m.run op).2.get c = some r' ∧
      op.Continues c (m.run op).1 r r') ∧
    ∀ c r', m.get c = none → (m.run op).2.get c = some r' →
      op.HandsOver c (m.run op).1 ∧ Status.idle.canMoveTo r'.status = true := by
  have hmoves := m.moves_run op
  refine ⟨fun hdeclined => ?_, fun c hno => ?_, fun c r hr => ?_, fun c r' hnone hr' => ?_⟩
  · exact congrArg Memory.mk (Dict.ext_get? fun c =>
      (hmoves c).unchanged (StoreOp.not_wrote_of_declined hdeclined))
  · exact (hmoves c).unchanged fun hwrote => hno (StoreOp.targets_of_wrote hwrote)
  · have h := hmoves c
    rw [hr] at h
    exact h.continues
  · have h := hmoves c
    rw [hnone, hr'] at h
    exact h.handsOver_of_none

end CollectionSync
