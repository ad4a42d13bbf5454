import CollectionSync.Proofs.Store.Columns
import CollectionSync.Proofs.Store.Rows

/-! # What a row can be read as

A row is read as a record column by column, so whether it can be read at all is a matter of each
column by itself. That tells which columns may spoil the row that a claim or the end of a run has
written: those that the statement takes over from the row that was there. -/

namespace CollectionSync

namespace Row

def readTokens? (text : String) : Option (Dict RootId DeltaToken) :=
  (Json.read? text).bind tokensOfJson?

def readFailures? (text : String) : Option (List FailedItem) :=
  (Json.read? text).bind failuresOfJson?

/-- Every column of the row can be read, and the record is what they say. -/
structure Means (row : Row) (r : Record) : Prop where
  collection : readCollection row.collection = .ok r.collection
  status : r.status = row.status
  progress : r.progress = ⟨row.processed, row.failed, row.total, row.currentItem⟩
  tokens : readTokens? row.tokens = some r.tokens
  failures : readFailures? row.failures = some r.failures
  run : readRun row.run = .ok r.run
  error : r.error = row.error
  startedAt : readOptionalTime row.startedAt = .ok r.startedAt
  finishedAt : readOptionalTime row.finishedAt = .ok r.finishedAt
  updatedAt : readTime row.updatedAt = .ok r.updatedAt

variable {row : Row} {r : Record} {now : Instant}

theorem toRecord_eq_ok_iff : row.toRecord = .ok r ↔ row.Means r := by
  have helim : ∀ {α : Type} {found : Option α} {fault : RowFault} {a : α},
      found.elim (.error fault) Except.ok = .ok a → found = some a := by
    intro α found fault a h
    cases found with
    | none => cases h
    | some b => exact congrArg some (Except.ok.inj h)
  constructor
  · intro h
    obtain ⟨collection, hcollection, h⟩ := bind_eq_ok.mp h
    obtain ⟨tokens, htokens, h⟩ := bind_eq_ok.mp h
    obtain ⟨failures, hfailures, h⟩ := bind_eq_ok.mp h
    obtain ⟨run, hrun, h⟩ := bind_eq_ok.mp h
    obtain ⟨startedAt, hstarted, h⟩ := bind_eq_ok.mp h
    obtain ⟨finishedAt, hfinished, h⟩ := bind_eq_ok.mp h
    obtain ⟨updatedAt, hupdated, h⟩ := bind_eq_ok.mp h
    cases h
    exact ⟨hcollection, rfl, rfl, helim htokens, helim hfailures, hrun, rfl, hstarted, hfinished,
      hupdated⟩
  · intro h
    obtain ⟨hcollection, hstatus, hprogress, htokens, hfailures, hrun, herror, hstarted, hfinished,
      hupdated⟩ := h
    unfold readTokens? at htokens
    unfold readFailures? at hfailures
    rw [toRecord, hcollection, htokens, hfailures, hrun, hstarted, hfinished, hupdated]
    cases r
    simp only at hstatus hprogress herror
    subst hstatus hprogress herror
    rfl

/-- A traversal that comes to its end has done each of its steps. -/
theorem isSome_of_mapM {α β : Type} {f : α → Option β} {l : List α} {bs : List β}
    (h : l.mapM f = some bs) {a : α} (ha : a ∈ l) : ∃ b, f a = some b := by
  induction l generalizing bs with
  | nil => cases ha
  | cons x l ih =>
    rw [List.mapM_cons] at h
    obtain ⟨b, hb, h⟩ := Option.bind_eq_some_iff.mp h
    obtain ⟨rest, hrest, -⟩ := Option.bind_eq_some_iff.mp h
    rcases List.mem_cons.mp ha with rfl | ha
    · exact ⟨b, hb⟩
    · exact ih hrest ha

/-- Reading an identifier keeps its text. -/
theorem rootId_ofText {root root' : RootId}
    (h : Json.okay? (RootId.ofText root.text) = some root') :
    RootId.ofText root.text = .ok root := by
  unfold RootId.ofText at h ⊢
  split
  · next hfault =>
    rw [hfault] at h
    cases h
  · rfl

theorem deltaToken_ofText {token token' : DeltaToken}
    (h : Json.okay? (DeltaToken.ofText token.text) = some token') :
    DeltaToken.ofText token.text = .ok token := by
  unfold DeltaToken.ofText at h ⊢
  split
  · next hempty =>
    rw [if_pos hempty] at h
    cases h
  · rfl

/-- Tokens that can be read back at all are read back as they are. -/
theorem readTokens?_tokensText {tokens tokens' : Dict RootId DeltaToken}
    (h : readTokens? (tokensText tokens) = some tokens') : tokens' = tokens := by
  have hvalid : TokensValid tokens := by
    intro e he
    unfold readTokens? at h
    rw [tokensText, Json.read?_render (legible_tokens tokens), Option.bind_some] at h
    obtain ⟨entries, hentries, -⟩ := Option.bind_eq_some_iff.mp h
    have hentries : (tokens.entries.map fun e => (e.1.text, Json.str e.2.text)).mapM tokenEntry? =
        some entries := hentries
    obtain ⟨entry, hentry⟩ := isSome_of_mapM hentries (List.mem_map_of_mem he)
    obtain ⟨root, hroot, hentry⟩ := Option.bind_eq_some_iff.mp hentry
    obtain ⟨token, htoken, -⟩ := Option.bind_eq_some_iff.mp hentry
    exact ⟨rootId_ofText hroot, deltaToken_ofText htoken⟩
  have hread := read_tokensText hvalid
  exact Option.some.inj (h.symm.trans hread)

theorem readFailures?_failuresText (items : List FailedItem) :
    readFailures? (failuresText items) = some items := read_failuresText items

theorem readOptionalTime_some (h : now.Storable) :
    readOptionalTime (some (Time.microsText now)) = .ok (some now.toMicros) :=
  readOptionalTime_microsText (t := some now) fun _ ht => Option.some.inj ht ▸ h

/-- The row of a first claim can be read. -/
theorem firstClaim_legible {c : CollectionId} (hc : c.Valid) (hnow : now.Storable) (run : RunId) :
    ∃ r, (Database.firstClaim c run (Time.microsText now)).toRecord = .ok r := by
  refine ⟨⟨c, .syncing, .zero, .empty, [], some run, none, some now.toMicros, none, now.toMicros⟩,
    ?_⟩
  have htokens : readTokens? "\x7b\x7d" = some .empty := read_tokensText .empty
  exact toRecord_eq_ok_iff.mpr ⟨readCollection_text hc, rfl, rfl, htokens,
    readFailures?_failuresText [], readRun_text (some run), rfl, readOptionalTime_some hnow, rfl,
    readTime_microsText hnow⟩

/-- The later of the time that a row tells and the time of a write can be read. -/
theorem Means.exists_later (h : row.Means r) (hnow : now.Storable) :
    ∃ t, readTime (laterText row.updatedAt (Time.microsText now)) = .ok t := by
  unfold laterText
  split
  · exact ⟨_, readTime_microsText hnow⟩
  · exact ⟨_, h.updatedAt⟩

/-- A claim takes over the collection, the tokens and, if it is later, the time of the last
write. -/
theorem nextClaim_legible_iff (hnow : now.Storable) (run : RunId) (row : Row) :
    (∃ r, (Database.nextClaim run (Time.microsText now) row).toRecord = .ok r) ↔
      (∃ c, readCollection row.collection = .ok c) ∧
      (∃ tokens, readTokens? row.tokens = some tokens) ∧
        ∃ t, readTime (laterText row.updatedAt (Time.microsText now)) = .ok t := by
  constructor
  · intro h
    obtain ⟨r, h⟩ := h
    have hmeans := toRecord_eq_ok_iff.mp h
    exact ⟨⟨_, hmeans.collection⟩, ⟨_, hmeans.tokens⟩, ⟨_, hmeans.updatedAt⟩⟩
  · intro h
    obtain ⟨⟨c, hc⟩, ⟨tokens, htokens⟩, ⟨t, ht⟩⟩ := h
    refine ⟨⟨c, .syncing, .zero, tokens, [], some run, none, some now.toMicros, none, t⟩, ?_⟩
    exact toRecord_eq_ok_iff.mpr ⟨hc, rfl, rfl, htokens, readFailures?_failuresText [],
      readRun_text (some run), rfl, readOptionalTime_some hnow, rfl, ht⟩

/-- The end of a run takes over the collection, the time of its start and, if it is later, that of
the last write. -/
theorem closed_legible_iff (hnow : now.Storable) {report : RunReport}
    (htokens : TokensValid report.tokens) {run : RunId} (hrun : row.run = some run.text) :
    (∃ r, (Database.closed report (Time.microsText now) row).toRecord = .ok r) ↔
      (∃ c, readCollection row.collection = .ok c) ∧
        (∃ startedAt, readOptionalTime row.startedAt = .ok startedAt) ∧
        ∃ t, readTime (laterText row.updatedAt (Time.microsText now)) = .ok t := by
  constructor
  · intro h
    obtain ⟨r, h⟩ := h
    have hmeans := toRecord_eq_ok_iff.mp h
    exact ⟨⟨_, hmeans.collection⟩, ⟨_, hmeans.startedAt⟩, ⟨_, hmeans.updatedAt⟩⟩
  · intro h
    obtain ⟨⟨c, hc⟩, ⟨startedAt, hstarted⟩, ⟨t, ht⟩⟩ := h
    have hreadrun : readRun row.run = .ok (some run) := by
      rw [hrun]
      exact readRun_text (some run)
    let written := Database.closed report (Time.microsText now) row
    refine ⟨⟨c, written.status,
      ⟨written.processed, written.failed, written.total, written.currentItem⟩, report.tokens,
      report.failures, some run, written.error, startedAt, some now.toMicros, t⟩, ?_⟩
    exact toRecord_eq_ok_iff.mpr ⟨hc, rfl, rfl, read_tokensText htokens,
      readFailures?_failuresText report.failures, hreadrun, rfl, hstarted,
      readOptionalTime_some hnow, ht⟩

/-- The row of a record that was read can be read after a claim as well. -/
theorem Means.exists_nextClaim (h : row.Means r) (hnow : now.Storable) (run : RunId) :
    ∃ r', (Database.nextClaim run (Time.microsText now) row).Means r' := by
  obtain ⟨r', hr'⟩ := (nextClaim_legible_iff hnow run row).mpr
    ⟨⟨_, h.collection⟩, ⟨_, h.tokens⟩, h.exists_later hnow⟩
  exact ⟨r', toRecord_eq_ok_iff.mp hr'⟩

/-- And so it can after the end of its run. -/
theorem Means.exists_closed (h : row.Means r) (hnow : now.Storable) {report : RunReport}
    (htokens : TokensValid report.tokens) {run : RunId} (hrun : row.run = some run.text) :
    ∃ r', (Database.closed report (Time.microsText now) row).Means r' := by
  obtain ⟨r', hr'⟩ := (closed_legible_iff hnow htokens hrun).mpr
    ⟨⟨_, h.collection⟩, ⟨_, h.startedAt⟩, h.exists_later hnow⟩
  exact ⟨r', toRecord_eq_ok_iff.mp hr'⟩

end Row

namespace Database

theorem readRow_eq_ok {row : Row} {r : Record} : readRow row = .ok r ↔ row.Means r := by
  rw [← Row.toRecord_eq_ok_iff]
  unfold readRow
  cases row.toRecord with
  | error fault => exact ⟨nofun, nofun⟩
  | ok r' => exact ⟨fun h => by cases h; rfl, fun h => by cases h; rfl⟩

variable {db : Database} {c : CollectionId} {run : RunId} {now : Instant} {r : Record}

/-- An accepted claim has written a row of the run, which tells the record that was answered. -/
theorem of_claimed (hkeyed : db.Keyed) (h : (db.run (.claim c run now)).1 = .ok (.claimed r)) :
    ∃ row, (db.run (.claim c run now)).2.row? c = some row ∧ row.run = some run.text ∧
      row.Means r := by
  have hmoves := moves_run hkeyed (.claim c run now) c
  generalize (db.run (.claim c run now)).2.row? c = found' at hmoves ⊢
  generalize db.row? c = found at hmoves
  generalize (db.run (.claim c run now)).1 = answer at hmoves h
  cases hmoves with
  | kept _ hno => exact absurd ⟨rfl, r, h⟩ hno
  | first =>
    obtain ⟨r', hread, hr⟩ := map_eq_ok.mp h
    cases hr
    exact ⟨_, rfl, rfl, readRow_eq_ok.mp hread⟩
  | claimed =>
    obtain ⟨r', hread, hr⟩ := map_eq_ok.mp h
    cases hr
    exact ⟨_, rfl, rfl, readRow_eq_ok.mp hread⟩

/-- An accepted end has closed a row of the run, which tells the record that was answered. -/
theorem of_finished (hkeyed : db.Keyed) {report : RunReport}
    (h : (db.run (.finish c run report now)).1 = .ok r) :
    ∃ row, db.row? c = some row ∧ row.run = some run.text ∧
      (row.status = .syncing ∨ row.status = .cancelled) ∧
      (db.run (.finish c run report now)).2.row? c =
        some (closed report (Time.microsText now) row) ∧
      (closed report (Time.microsText now) row).Means r := by
  have hmoves := moves_run hkeyed (.finish c run report now) c
  generalize (db.run (.finish c run report now)).2.row? c = found' at hmoves ⊢
  generalize db.row? c = found at hmoves ⊢
  generalize (db.run (.finish c run report now)).1 = answer at hmoves h
  cases hmoves with
  | kept _ hno => exact absurd ⟨rfl, r, h⟩ hno
  | closed hrun _ hs => exact ⟨_, rfl, hrun, hs, rfl, readRow_eq_ok.mp h⟩

end Database

end CollectionSync
