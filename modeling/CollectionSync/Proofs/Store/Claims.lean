import CollectionSync.Proofs.Store.Ending

/-! # What a claim comes to

A store that can read what it has of a collection gives the record to whoever claims it, unless a
run owns it; then it answers with the record of that run and changes nothing. -/

namespace CollectionSync

/-- No run owns what was found. -/
def IsFree (found : Option Record) : Prop := ∀ r ∈ found, r.status ≠ .syncing

/-- What is not free is owned by a run. -/
theorem exists_of_not_isFree {found : Option Record} (h : ¬ IsFree found) :
    ∃ r, found = some r ∧ r.status = .syncing := by
  cases found with
  | none => exact absurd nofun h
  | some r =>
    refine ⟨r, rfl, Decidable.byContradiction fun hs => h fun r' hr => ?_⟩
    exact Option.some.inj hr ▸ hs

/-- The record is the run's own, with nothing in it of the last run but the tokens. -/
structure Record.Begins (run : RunId) (found : Option Record) (r : Record) : Prop where
  status : r.status = .syncing
  run : r.run = some run
  progress : r.progress = .zero
  failures : r.failures = []
  tokens : r.tokens = (found.map (·.tokens)).getD .empty

/-- How a store answers the claim of a run, where it has found this of the collection. -/
structure Claims {σ : Type} (step : σ → (op : StoreOp) → Except StoreError op.Reply × σ) (s : σ)
    (c : CollectionId) (run : RunId) (now : Instant) (found : Option Record) : Prop where
  reads : (step s (.get c)).1 = .ok found
  free : IsFree found → ∃ r s', step s (.claim c run now) = (.ok (.claimed r), s') ∧
  r.Begins run found ∧
    (step s' (.get c)).1 = .ok (some r) ∧ ∀ d, d ≠ c → (step s' (.get d)).1 = (step s (.get d)).1
  taken : ∀ r, found = some r → r.status = .syncing →
  step s (.claim c run now) = (.ok (.conflict r), s)

variable {c d : CollectionId} {run : RunId} {now : Instant}

/-! ## Records in memory -/

theorem Memory.claims (m : Memory) (c : CollectionId) (run : RunId) (now : Instant) :
    Claims Memory.run m c run now (m.get c) where
  reads := rfl
  free hfree := by
    have hclaim : m.claim c run now =
        (.ok (.claimed ((((m.get c).getD (.idle c now)).begun run now).touch now)),
          m.set c ((((m.get c).getD (.idle c now)).begun run now).touch now)) := by
      have hs : ((m.get c).getD (.idle c now)).status ≠ .syncing := by
        cases hr : m.get c with
        | none => exact nofun
        | some r => exact hfree r hr
      simp only [Memory.claim, Record.beginRun_eq, if_neg hs]
    refine ⟨_, _, hclaim, ⟨rfl, rfl, rfl, rfl, ?_⟩, congrArg Except.ok (get_set ..), fun d hd => ?_⟩
    · cases m.get c <;> rfl
    · exact congrArg Except.ok (get_set_of_ne m _ (Ne.symm hd))
  taken r hr hs := by
    simp only [Memory.run, Memory.claim, hr, Option.getD_some, Record.beginRun_eq, if_pos hs]
    rfl

/-! ## Records in a table -/

namespace Database

variable {db db' : Database} {row : Row} {r old : Record} {found : Option Record}

/-- What a run reads of a collection is what its row says. -/
theorem get_eq (hkeyed : db.Keyed) (d : CollectionId) : (db.run (.get d)).1 =
    match db.row? d with
    | none => .ok none
    | some row => (readRow row).map some := by
  obtain ⟨version, table⟩ := db
  obtain ⟨rows, rfl, -⟩ := hkeyed
  rfl

theorem begins_firstClaim {text : String} (h : (firstClaim c run text).Means r) :
    r.Begins run none := by
  have htokens : Row.readTokens? "\x7b\x7d" = some .empty := Row.read_tokensText .empty
  have hfailures : Row.readFailures? "[]" = some [] := Row.readFailures?_failuresText []
  have hrun : Row.readRun (some run.text) = .ok (some run) := Row.readRun_text (some run)
  exact ⟨h.status, Except.ok.inj (h.run.symm.trans hrun), h.progress,
    Option.some.inj (h.failures.symm.trans hfailures),
    Option.some.inj (h.tokens.symm.trans htokens)⟩

theorem begins_nextClaim {text : String} (hold : row.Means old)
    (h : (nextClaim run text row).Means r) :
    r.Begins run (some old) := by
  have hfailures : Row.readFailures? "[]" = some [] := Row.readFailures?_failuresText []
  have hrun : Row.readRun (some run.text) = .ok (some run) := Row.readRun_text (some run)
  exact ⟨h.status, Except.ok.inj (h.run.symm.trans hrun), h.progress,
    Option.some.inj (h.failures.symm.trans hfailures),
    Option.some.inj (h.tokens.symm.trans hold.tokens)⟩

/-- What can be read of a collection is nothing, or what its row says. -/
theorem found_of_get (hkeyed : db.Keyed) (hread : (db.run (.get c)).1 = .ok found) :
    (db.row? c = none ∧ found = none) ∨ ∃ row r, db.row? c = some row ∧ row.Means r ∧
    found = some r := by
  rw [get_eq hkeyed] at hread
  cases hrow : db.row? c with
  | none =>
    rw [hrow] at hread
    exact .inl ⟨rfl, (Except.ok.inj hread).symm⟩
  | some row =>
    rw [hrow] at hread
    obtain ⟨r, hr, rfl⟩ := map_eq_ok.mp hread
    exact .inr ⟨row, r, rfl, readRow_eq_ok.mp hr, rfl⟩

/-- A free collection is claimed. -/
theorem exists_claimed (hkeyed : db.Keyed) (hc : c.Valid) (hnow : now.Storable)
    (hread : (db.run (.get c)).1 = .ok found) (hfree : IsFree found) (run : RunId) :
    ∃ r, (db.run (.claim c run now)).1 = .ok (.claimed r) ∧ r.Begins run found := by
  have hfound := found_of_get hkeyed hread
  obtain ⟨version, table⟩ := db
  obtain ⟨rows, rfl, hkeys⟩ := hkeyed
  rcases hfound with ⟨hrow, rfl⟩ | ⟨row, old, hrow, hmeans, rfl⟩
  · have hrow : find? rows c = none := hrow
    obtain ⟨r, hr⟩ := Row.firstClaim_legible hc hnow run
    have hmeans := Row.toRecord_eq_ok_iff.mp hr
    refine ⟨r, ?_, begins_firstClaim hmeans⟩
    simp only [Database.run, Database.claim, withRows, hrow, readRow_eq_ok.mpr hmeans]
    rfl
  · have hrow : find? rows c = some row := hrow
    have hs : row.status ≠ .syncing := hmeans.status ▸ hfree old rfl
    obtain ⟨r, hwritten⟩ := hmeans.exists_nextClaim hnow run
    refine ⟨r, ?_, begins_nextClaim hmeans hwritten⟩
    have hholds : mayClaim c row = true := (mayClaim_iff c row).mpr ⟨find?_collection hrow, hs⟩
    have hupdate := update_of_find? hkeys (fun row h => ((mayClaim_iff c row).mp h).1) hrow hholds
      (nextClaim run (Time.microsText now))
    simp only [Database.run, claim_eq version hrow, hupdate, readRow_eq_ok.mpr hwritten]
    rfl

/-- The collection of a run is not claimed, and its row stays. -/
theorem claim_of_taken (hkeyed : db.Keyed) (hread : (db.run (.get c)).1 = .ok (some r))
    (hs : r.status = .syncing) (run : RunId) (now : Instant) :
    db.run (.claim c run now) = (.ok (.conflict r), db) := by
  have hfound := found_of_get hkeyed hread
  obtain ⟨version, table⟩ := db
  obtain ⟨rows, rfl, hkeys⟩ := hkeyed
  rcases hfound with ⟨-, hnone⟩ | ⟨row, r', hrow, hmeans, hr⟩
  · cases hnone
  obtain rfl := Option.some.inj hr
  have hrow : find? rows c = some row := hrow
  have hno : ¬ mayClaim c row = true := fun h => ((mayClaim_iff c row).mp h).2 (hmeans.status ▸ hs)
  have hnil : (update rows (mayClaim c) (nextClaim run (Time.microsText now))).1 = [] := by
    rw [update_returns hkeys (fun row h => ((mayClaim_iff c row).mp h).1), hrow, Option.filter_some,
      if_neg hno]
    rfl
  have hexisting : existing c rows = .ok r := by
    simp only [existing, getRows, hrow, readRow_eq_ok.mpr hmeans]
    rfl
  simp only [Database.run, claim_eq version hrow, hnil, update_of_eq_nil hnil, hexisting]
  rfl

theorem claims (hkeyed : db.Keyed) (hc : c.Valid) (hnow : now.Storable)
    (hread : (db.run (.get c)).1 = .ok found)
    (run : RunId) : Claims Database.run db c run now found where
  reads := hread
  free hfree := by
    obtain ⟨r, hclaimed, hbegins⟩ := exists_claimed hkeyed hc hnow hread hfree run
    obtain ⟨row, hrow, -, hmeans⟩ := of_claimed hkeyed hclaimed
    refine ⟨r, _, Prod.ext hclaimed rfl, hbegins, get_of_row? hrow hmeans, fun d hd => ?_⟩
    have hmoves := moves_run hkeyed (.claim c run now) d
    have hrow : (db.run (.claim c run now)).2.row? d = db.row? d := by
      generalize (db.run (.claim c run now)).2.row? d = found' at hmoves ⊢
      generalize db.row? d = found at hmoves ⊢
      generalize (db.run (.claim c run now)).1 = answer at hmoves
      cases hmoves with
      | kept => rfl
      | first | claimed => exact absurd rfl hd
    rw [get_eq (keyed_run hkeyed _), get_eq hkeyed, hrow]
  taken r hr hs := claim_of_taken hkeyed (hr ▸ hread) hs run now

end Database

end CollectionSync
