import CollectionSync.Proofs.Store.Fencing
import CollectionSync.Proofs.Store.Reading
import CollectionSync.Run.Watch

/-! # Whose record it is

A run owns the record of its collection while it is syncing for the run. At most one run owns it,
and a run that does not own it comes to own it by a claim only. Both stores keep to this, and a run
that reads its record is told so. -/

namespace CollectionSync

/-- What a store keeps to when it hands out records to runs. -/
structure Custody {σ : Type} (step : σ → (op : StoreOp) → Except StoreError op.Reply × σ)
    (Sound : σ → Prop) (Owned : RunIdentity → σ → Prop) : Prop where
  sound : ∀ s op, Sound s → Sound (step s op).2
  told : ∀ s (i : RunIdentity) (found : Option Record), Sound s →
    (step s (.get i.collection)).1 = .ok found → i.owns found = true → Owned i s
  given : ∀ s (c : CollectionId) (run : RunId) (now : Instant) (r : Record), Sound s →
    (step s (.claim c run now)).1 = .ok (.claimed r) → Owned ⟨c, run⟩ (step s (.claim c run now)).2
  one : ∀ s (i j : RunIdentity), i.collection = j.collection → Owned i s → Owned j s → i.run = j.run
  lost : ∀ s op (i : RunIdentity), Sound s → op.isOfRuns = true →
    op.claims? i.collection ≠ some i.run → ¬ Owned i s → ¬ Owned i (step s op).2

namespace RunIdentity

variable {i : RunIdentity} {found : Option Record}

theorem owns_iff : i.owns found = true ↔
    ∃ r, found = some r ∧ r.status = .syncing ∧ r.run = some i.run := by
  cases found with
  | none => exact ⟨nofun, fun ⟨_, h, _⟩ => by cases h⟩
  | some r =>
    unfold owns
    rw [Bool.and_eq_true, beq_iff_eq, beq_iff_eq]
    constructor
    · intro h
      exact ⟨r, rfl, h⟩
    · rintro ⟨r, heq, h⟩
      cases heq
      exact h

end RunIdentity

namespace Memory

/-- The record is syncing for the run. -/
def Owned (i : RunIdentity) (m : Memory) : Prop := i.owns (m.get i.collection) = true

theorem not_owned_of_moves {i : RunIdentity} {op : StoreOp} {answer : Except StoreError op.Reply}
    {found found' : Option Record} (hmoves : Moves i.collection op answer found found')
    (hop : op.isOfRuns = true) (hclaim : op.claims? i.collection ≠ some i.run)
    (hlost : ¬ i.owns found = true) : ¬ i.owns found' = true := by
  rw [RunIdentity.owns_iff] at hlost ⊢
  rintro ⟨r', hfound, hstatus, hrun⟩
  cases hmoves with
  | kept => exact hlost ⟨r', hfound, hstatus, hrun⟩
  | moved => cases hop
  | claimed =>
    cases hfound
    exact hclaim ((if_pos rfl).trans hrun)
  | counted hs _ _ =>
    cases hfound
    exact hlost ⟨_, rfl, hs, hrun⟩
  | cancelled => cases hfound; cases hstatus
  | interrupted => cases hfound; cases hstatus
  | closed _ hterminal _ =>
    cases hfound
    exact Status.resolve_ne_syncing _ hterminal hstatus

theorem custody : Custody Memory.run (fun _ => True) Memory.Owned where
  sound _ _ _ := trivial
  told m i found _ hget howns := by
    have hfound : m.get i.collection = found := Except.ok.inj hget
    rwa [Owned, hfound]
  given m c run now r _ hclaimed := by
    have hmoves := m.moves_run (.claim c run now) c
    rw [hclaimed] at hmoves
    obtain ⟨-, hfound, rfl⟩ := hmoves.of_claimed
    exact RunIdentity.owns_iff.mpr ⟨_, hfound, rfl, rfl⟩
  one m i j hc hi hj := by
    obtain ⟨r, hr, -, hrun⟩ := RunIdentity.owns_iff.mp hi
    obtain ⟨r', hr', -, hrun'⟩ := RunIdentity.owns_iff.mp hj
    rw [hc, hr'] at hr
    cases hr
    exact Option.some.inj (hrun.symm.trans hrun')
  lost m op i _ hop hclaim hlost :=
    not_owned_of_moves (m.moves_run op i.collection) hop hclaim hlost

end Memory

namespace Database

/-- There is a syncing row, and it is read as one of the run. -/
def Owned (i : RunIdentity) (db : Database) : Prop :=
  ∃ row, db.row? i.collection = some row ∧ row.status = .syncing ∧
    Row.readRun row.run = .ok (some i.run)

theorem owned_of_get {db : Database} {i : RunIdentity} {r : Record}
    (hget : (db.run (.get i.collection)).1 = .ok (some r)) (hstatus : r.status = .syncing)
    (hrun : r.run = some i.run) : Owned i db := by
  obtain ⟨version, table⟩ := db
  cases table with
  | foreign | absent => cases hget
  | records rows =>
    have hget : getRows i.collection rows = .ok (some r) := hget
    unfold getRows at hget
    cases hrow : find? rows i.collection with
    | none =>
      rw [hrow] at hget
      cases hget
    | some row =>
      rw [hrow] at hget
      obtain ⟨r', hread, heq⟩ := map_eq_ok.mp hget
      cases heq
      have hmeans := readRow_eq_ok.mp hread
      refine ⟨row, hrow, hmeans.status.symm.trans hstatus, ?_⟩
      rw [hmeans.run, hrun]

theorem not_owned_of_moves {i : RunIdentity} {op : StoreOp} {answer : Except StoreError op.Reply}
    {found found' : Option Row} (hmoves : Row.Moves i.collection op answer found found')
    (hop : op.isOfRuns = true) (hclaim : op.claims? i.collection ≠ some i.run)
    (hlost : ¬ ∃ row, found = some row ∧ row.status = .syncing ∧
      Row.readRun row.run = .ok (some i.run)) :
    ¬ ∃ row, found' = some row ∧ row.status = .syncing ∧
    Row.readRun row.run = .ok (some i.run) := by
  rintro ⟨row', hfound, hstatus, hrun⟩
  have hclaimed : ∀ {run : RunId} {now : Instant}, op = .claim i.collection run now →
      Row.readRun (some run.text) ≠ .ok (some i.run) := by
    rintro run now rfl hread
    have hsame := hread.symm.trans (Row.readRun_text (some run))
    exact hclaim ((if_pos rfl).trans (Except.ok.inj hsame).symm)
  cases hmoves with
  | kept => exact hlost ⟨row', hfound, hstatus, hrun⟩
  | moved => cases hop
  | first | claimed =>
    cases hfound
    exact hclaimed rfl hrun
  | counted hs _ _ _ =>
    cases hfound
    exact hlost ⟨_, rfl, hs, hrun⟩
  | cancelled => cases hfound; cases hstatus
  | interrupted => cases hfound; cases hstatus
  | closed _ hterminal _ =>
    cases hfound
    exact Status.resolve_ne_syncing _ hterminal hstatus

theorem custody : Custody Database.run Database.Keyed Database.Owned where
  sound _ op hkeyed := keyed_run hkeyed op
  told _ _ _ _ hget howns := by
    obtain ⟨r, rfl, hstatus, hrun⟩ := RunIdentity.owns_iff.mp howns
    exact owned_of_get hget hstatus hrun
  given db c run now r hkeyed hclaimed := by
    have hmoves := moves_run hkeyed (.claim c run now) c
    have hrow : ∃ row, (db.run (.claim c run now)).2.row? c = some row ∧ row.status = .syncing ∧
        row.run = some run.text := by
      generalize (db.run (.claim c run now)).2.row? c = found' at hmoves ⊢
      generalize db.row? c = found at hmoves
      generalize (db.run (.claim c run now)).1 = answer at hmoves hclaimed
      cases hmoves with
      | kept _ hno => exact absurd ⟨rfl, r, hclaimed⟩ hno
      | first | claimed => exact ⟨_, rfl, rfl, rfl⟩
    obtain ⟨row, hrow, hstatus, hrun⟩ := hrow
    refine ⟨row, hrow, hstatus, ?_⟩
    rw [hrun]
    exact Row.readRun_text (some run)
  one db i j hc hi hj := by
    obtain ⟨row, hrow, -, hrun⟩ := hi
    obtain ⟨row', hrow', -, hrun'⟩ := hj
    rw [hc, hrow'] at hrow
    cases hrow
    rw [hrun] at hrun'
    exact Option.some.inj (Except.ok.inj hrun')
  lost _ op i hkeyed hop hclaim hlost :=
    not_owned_of_moves (moves_run hkeyed op i.collection) hop hclaim hlost

end Database

end CollectionSync
