import CollectionSync.Proofs.Store.Reading

/-! # What an operation that reports an error has done to the rows

A statement changes its rows first, and the rows that it returns are read afterwards. So an error
may come from a row that was written all the same: then the row holds what the statement wrote,
beside a column that the statement left alone and that nobody can read. -/

namespace CollectionSync.Database

/-- The statement of an operation writes a row that cannot be read back. -/
inductive WritesUnread (rows : List Row) : StoreOp → RowFault → Prop
  | first {c : CollectionId} {run : RunId} {now : Instant} {fault : RowFault} :
    find? rows c = none → (firstClaim c run (Time.microsText now)).toRecord = .error fault →
    WritesUnread rows (.claim c run now) fault
  | claimed {c : CollectionId} {run : RunId} {now : Instant} {row : Row} {fault : RowFault} :
    row ∈ rows → row.collection = c.text → row.status ≠ .syncing →
    (nextClaim run (Time.microsText now) row).toRecord = .error fault →
    WritesUnread rows (.claim c run now) fault
  | ended {c : CollectionId} {run : RunId} {report : RunReport} {now : Instant} {row : Row}
      {fault : RowFault} :
    report.status.isTerminal = true → row ∈ rows → row.collection = c.text →
    row.run = some run.text → row.status = .syncing ∨ row.status = .cancelled →
    (closed report (Time.microsText now) row).toRecord = .error fault →
    WritesUnread rows (.finish c run report now) fault
  | recovered {staleBefore now : Instant} {reason : String} {row : Row} {fault : RowFault} :
    row ∈ rows → isStale (Time.microsText staleBefore) row = true →
    Row.readCollection row.collection = .error fault →
    WritesUnread rows (.recover staleBefore reason now) fault

variable {rows : List Row} {condition : Row → Bool} {change : Row → Row}

theorem readRow_eq_error {row : Row} {e : StoreError} :
    readRow row = .error e ↔ ∃ fault, e = .corrupt fault ∧ row.toRecord = .error fault := by
  unfold readRow
  cases row.toRecord with
  | ok r => simp
  | error fault =>
    constructor
    · intro h
      cases h
      exact ⟨fault, rfl, rfl⟩
    · rintro ⟨fault', rfl, h⟩
      cases h
      rfl

theorem readCollection_eq_error {row : Row} {e : StoreError} :
    readCollection row = .error e ↔
      ∃ fault, e = .corrupt fault ∧ Row.readCollection row.collection = .error fault := by
  unfold readCollection
  cases Row.readCollection row.collection with
  | ok c => simp
  | error fault =>
    constructor
    · intro h
      cases h
      exact ⟨fault, rfl, rfl⟩
    · rintro ⟨fault', rfl, h⟩
      cases h
      rfl

/-! ## The operations one by one -/

section

variable (v : Int) (rows) (c : CollectionId) (run : RunId) (now : Instant)

/-- After an operation that answered with an error the rows are as before, unless the error tells of
a row that the statement has written. -/
def Excuses (op : StoreOp) : Prop :=
  ∀ e, (Database.run ⟨v, .records rows⟩ op).1 = .error e →
    (Database.run ⟨v, .records rows⟩ op).2 = ⟨v, .records rows⟩ ∨
      ∃ fault, e = .corrupt fault ∧ WritesUnread rows op fault

theorem compareAndSet_of_error {expected : List Status} {next : Status} {e : StoreError}
    (he : (Database.compareAndSet ⟨v, .records rows⟩ c expected next now).1 = .error e) :
    (Database.compareAndSet ⟨v, .records rows⟩ c expected next now).2 = ⟨v, .records rows⟩ := by
  unfold Database.compareAndSet at he ⊢
  split
  · rfl
  · next hsome =>
    rw [if_neg hsome] at he
    cases hf : forbidden? expected next with
    | some stored => rfl
    | none =>
      rw [hf] at he
      cases he

theorem excuses_claim : Excuses rows v (.claim c run now) := by
  intro e he
  simp only [Database.run] at he ⊢
  cases hfound : find? rows c with
  | none =>
    simp only [Database.claim, withRows, hfound] at he
    obtain ⟨fault, rfl, hfault⟩ := readRow_eq_error.mp (map_eq_error.mp he)
    exact .inr ⟨fault, rfl, .first hfound hfault⟩
  | some old =>
    rw [claim_eq v hfound] at he ⊢
    cases hchanged : (update rows (mayClaim c) (nextClaim run (Time.microsText now))).1 with
    | nil =>
      rw [update_of_eq_nil hchanged]
      exact .inl rfl
    | cons row rest =>
      rw [hchanged] at he
      obtain ⟨fault, rfl, hfault⟩ := readRow_eq_error.mp (map_eq_error.mp he)
      obtain ⟨found, hmem, hholds, rfl⟩ := exists_of_update_eq_cons hchanged
      obtain ⟨hc, hs⟩ := (mayClaim_iff c found).mp hholds
      exact .inr ⟨fault, rfl, .claimed hmem hc hs hfault⟩

theorem excuses_updateProgress (p : Progress) : Excuses rows v (.updateProgress c run p now) := by
  intro e he
  left
  simp only [Database.run, Database.updateProgress] at he ⊢
  cases hp : p.settled? with
  | none => rfl
  | some settled =>
    rw [hp] at he
    cases he

theorem excuses_finish (report : RunReport) : Excuses rows v (.finish c run report now) := by
  intro e he
  simp only [Database.run] at he ⊢
  by_cases hterminal : report.status.isTerminal = true
  · rw [finish_eq v rows c run hterminal now] at he ⊢
    cases hchanged : (update rows (mayEnd c run) (closed report (Time.microsText now))).1 with
    | nil =>
      rw [update_of_eq_nil hchanged]
      exact .inl rfl
    | cons row rest =>
      rw [hchanged] at he
      obtain ⟨fault, rfl, hfault⟩ := readRow_eq_error.mp he
      obtain ⟨found, hmem, hholds, rfl⟩ := exists_of_update_eq_cons hchanged
      obtain ⟨hc, hrun, hs⟩ := (mayEnd_iff c run found).mp hholds
      exact .inr ⟨fault, rfl, .ended hterminal hmem hc hrun hs hfault⟩
  · left
    simp only [Database.finish, if_neg hterminal]

theorem excuses_recover (staleBefore : Instant) (reason : String) :
    Excuses rows v (.recover staleBefore reason now) := by
  intro e he
  right
  simp only [Database.run, Database.recover, Database.withRows] at he
  obtain ⟨row, hrow, hread⟩ := exists_of_mapM_eq_error (map_eq_error.mp he)
  obtain ⟨hmem, hstale⟩ := List.mem_filter.mp (List.mem_mergeSort.mp hrow)
  obtain ⟨fault, rfl, hfault⟩ := readCollection_eq_error.mp hread
  exact ⟨fault, rfl, .recovered hmem hstale hfault⟩

/-- An error after which rows have changed is one of reading back what was written. -/
theorem excuses_run (op : StoreOp) : Excuses rows v op := by
  cases op with
  | get c => exact fun _ _ => .inl rfl
  | status c => exact fun _ _ => .inl rfl
  | compareAndSet c expected next now =>
    exact fun _ he => .inl (compareAndSet_of_error rows v c now he)
  | claim c run now => exact excuses_claim rows v c run now
  | updateProgress c run p now => exact excuses_updateProgress rows v c run now p
  | requestCancel c now => exact fun _ he => .inl (compareAndSet_of_error rows v c now he)
  | finish c run report now => exact excuses_finish rows v c run now report
  | recover staleBefore reason now => exact excuses_recover rows v now staleBefore reason

end

/-! ## The rows that cannot be read back -/

/-- An operation that writes such a row reports it. -/
theorem WritesUnread.reported {op : StoreOp} {fault : RowFault} (h : WritesUnread rows op fault)
    (v : Int) (hkeys : (rows.map (·.collection)).Nodup) :
    ∃ fault', (Database.run ⟨v, .records rows⟩ op).1 = .error (.corrupt fault') := by
  cases h with
  | @first c run now _ hnone hfault =>
    refine ⟨fault, ?_⟩
    have hread := readRow_eq_error.mpr ⟨fault, rfl, hfault⟩
    simp only [Database.run, Database.claim, withRows, hnone, hread]
    rfl
  | @claimed c run now row _ hmem hc hs hfault =>
    refine ⟨fault, ?_⟩
    have hfind := find?_of_mem hkeys hmem hc
    have hholds : mayClaim c row = true := (mayClaim_iff c row).mpr ⟨hc, hs⟩
    have hreturned :=
      update_of_find? hkeys (fun row h => ((mayClaim_iff c row).mp h).1) hfind hholds
      (nextClaim run (Time.microsText now))
    have hread := readRow_eq_error.mpr ⟨fault, rfl, hfault⟩
    simp only [Database.run, claim_eq v hfind, hreturned, hread]
    rfl
  | @ended c run report now row _ hterminal hmem hc hrun hs hfault =>
    refine ⟨fault, ?_⟩
    have hfind := find?_of_mem hkeys hmem hc
    have hholds : mayEnd c run row = true := (mayEnd_iff c run row).mpr ⟨hc, hrun, hs⟩
    have hreturned := update_of_find? hkeys (fun row h => ((mayEnd_iff c run row).mp h).1) hfind
      hholds (closed report (Time.microsText now))
    have hread := readRow_eq_error.mpr ⟨fault, rfl, hfault⟩
    simp only [Database.run, finish_eq v rows c run hterminal, hreturned, hread]
    rfl
  | @recovered staleBefore now reason row _ hmem hstale hfault =>
    have hread := readCollection_eq_error.mpr ⟨fault, rfl, hfault⟩
    have hin : row ∈ byLastWrite (rows.filter (isStale (Time.microsText staleBefore))) :=
      List.mem_mergeSort.mpr (List.mem_filter.mpr ⟨hmem, hstale⟩)
    obtain ⟨e, he⟩ := mapM_eq_error_of_mem hin hread
    obtain ⟨row', hrow', hread'⟩ := exists_of_mapM_eq_error he
    obtain ⟨fault', rfl, -⟩ := readCollection_eq_error.mp hread'
    refine ⟨fault', ?_⟩
    simp only [Database.run, Database.recover, withRows, he]
    rfl

/-- Whatever the rows hold: an operation that reports an error has changed no row, or it has written
a row that cannot be read back, and every operation that writes such a row reports it. -/
theorem error_leaves_rows (v : Int) {rows : List Row} (hkeys : (rows.map (·.collection)).Nodup)
    (op : StoreOp) :
    Excuses rows v op ∧ ∀ fault, WritesUnread rows op fault →
      ∃ fault', (Database.run ⟨v, .records rows⟩ op).1 = .error (.corrupt fault') :=
  ⟨excuses_run rows v op, fun _ h => h.reported v hkeys⟩

/-- A row whose tokens another program has written over. -/
def spoiledRow : Row where
  collection := "docs"
  status := .completed
  processed := 1
  failed := 0
  total := 1
  currentItem := "a.pdf"
  tokens := "not json"
  failures := "[]"
  run := some (⟨1⟩ : RunId).text
  error := none
  startedAt := some (Time.microsText ⟨0, 0⟩)
  finishedAt := some (Time.microsText ⟨1, 0⟩)
  updatedAt := Time.microsText ⟨1, 0⟩

theorem spoiledRow_claimed : (nextClaim ⟨2⟩ (Time.microsText ⟨60, 0⟩) spoiledRow).toRecord =
    .error (.tokens ⟨"docs"⟩) := by
  rfl

/-- A claim of a row with such tokens. -/
theorem error_leaves_rows_spoiled :
    let op : StoreOp := .claim ⟨"docs"⟩ ⟨2⟩ ⟨60, 0⟩
    ([spoiledRow].map (·.collection)).Nodup ∧ WritesUnread [spoiledRow] op (.tokens ⟨"docs"⟩) ∧
      ∃ fault, (Database.run ⟨1, .records [spoiledRow]⟩ op).1 = .error (.corrupt fault) := by
  intro op
  have hkeys : ([spoiledRow].map (·.collection)).Nodup := by decide
  have hwrites : WritesUnread [spoiledRow] op (.tokens ⟨"docs"⟩) :=
    .claimed List.mem_cons_self rfl (by decide) spoiledRow_claimed
  exact ⟨hkeys, hwrites, (error_leaves_rows 1 hkeys op).2 _ hwrites⟩

/-- A claim that reports an error and leaves the collection syncing all the same. -/
theorem failed_claim_leaves_syncing :
    let docs : CollectionId := ⟨"docs"⟩
    let db : Database := ⟨1, .records [spoiledRow]⟩
    let claim : StoreOp := .claim docs ⟨2⟩ ⟨60, 0⟩
    (db.run claim).1 = .error (.corrupt (.tokens docs)) ∧ (db.run claim).2 ≠ db ∧
      (db.run (.status docs)).1 = .ok (some .completed) ∧
      ((db.run claim).2.run (.status docs)).1 = .ok (some .syncing) := by
  intro docs db claim
  have hfails : (db.run claim).1 = .error (.corrupt (.tokens docs)) := by
    rfl
  have hafter : (db.run claim).2.table =
      .records [nextClaim ⟨2⟩ (Time.microsText ⟨60, 0⟩) spoiledRow] := by
    rfl
  refine ⟨hfails, fun hsame => ?_, rfl, rfl⟩
  rw [hsame] at hafter
  have hstatus : spoiledRow.status = .syncing := by
    have hrow : spoiledRow = nextClaim ⟨2⟩ (Time.microsText ⟨60, 0⟩) spoiledRow :=
      List.head_eq_of_cons_eq (TableState.records.inj hafter)
    rw [hrow]
    rfl
  cases hstatus

end CollectionSync.Database
