import CollectionSync.Proofs.Store.Claims

/-! # What is written can be read

A table whose rows can all be read stays one, whatever is written to it that programs can come by.
So every record that a store says it has written is found by whoever reads it next. -/

namespace CollectionSync

/-- An operation that writes collections and tokens that texts are read as, at a time of four-digit
years. -/
def StoreOp.Writable : StoreOp → Prop
  | .get _ | .status _ => True
  | .compareAndSet _ _ _ now | .updateProgress _ _ _ now | .requestCancel _ now
  | .recover _ _ now =>
    now.Storable
  | .claim c _ now => c.Valid ∧ now.Storable
  | .finish _ _ report now => TokensValid report.tokens ∧ now.Storable

instance : (op : StoreOp) → Decidable op.Writable
  | .get _ | .status _ => inferInstanceAs (Decidable True)
  | .compareAndSet _ _ _ now | .updateProgress _ _ _ now | .requestCancel _ now
  | .recover _ _ now =>
    inferInstanceAs (Decidable now.Storable)
  | .claim c _ now => inferInstanceAs (Decidable (c.Valid ∧ now.Storable))
  | .finish _ _ report now => inferInstanceAs (Decidable (TokensValid report.tokens ∧ now.Storable))

/-- In these stores and with these operations, what is written can be read. -/
structure ReadsBack {σ : Type} (step : σ → (op : StoreOp) → Except StoreError op.Reply × σ)
    (Sound : σ → Prop) (Fits : StoreOp → Prop) : Prop where
  leaves : ∀ s c, (step s (.get c)).2 = s
  keeps : ∀ {s op}, Sound s → Fits op → Sound (step s op).2
  finds : ∀ {s op c}, Sound s → Fits op → op.Wrote c (step s op).1 →
    ∃ r, (step (step s op).2 (.get c)).1 = .ok (some r)
  ends : ∀ {s c run report now} {r : Record}, Sound s →
  (step s (.finish c run report now)).1 = .ok r →
    (step (step s (.finish c run report now)).2 (.get c)).1 = .ok (some r)

variable {c : CollectionId} {op : StoreOp} {answer : Except StoreError op.Reply} {now : Instant}

/-! ## Records in memory -/

theorem Moves.exists_of_wrote {found found' : Option Record}
    (hmoves : Moves c op answer found found')
    (hwrote : op.Wrote c answer) : ∃ r, found' = some r := by
  cases hmoves with
  | kept _ hno => exact absurd hwrote hno
  | moved | claimed | counted | cancelled | closed | interrupted => exact ⟨_, rfl⟩

theorem Memory.readsBack : ReadsBack Memory.run (fun _ => True) (fun _ => True) where
  leaves _ _ := rfl
  keeps _ _ := trivial
  finds {m op c} _ _ hwrote := by
    obtain ⟨r, hr⟩ := (m.moves_run op c).exists_of_wrote hwrote
    exact ⟨r, congrArg Except.ok hr⟩
  ends {m c run report now r} _ haccepted := by
    have hmoves := m.moves_run (.finish c run report now) c
    rw [haccepted] at hmoves
    obtain ⟨_, -, -, -, hafter, -⟩ := hmoves.of_finished
    exact congrArg Except.ok hafter

/-! ## Records in a table -/

namespace Row

variable {row : Row} {r : Record} {found found' : Option Row}

theorem Moves.exists_of_wrote (hmoves : Row.Moves c op answer found found')
    (hwrote : op.Wrote c answer) : ∃ row, found' = some row := by
  cases hmoves with
  | kept _ hno => exact absurd hwrote hno
  | moved | first | claimed | counted | cancelled | closed | interrupted => exact ⟨_, rfl⟩

/-- No operation leaves a row that cannot be read, where there was none. -/
theorem Moves.legible (hmoves : Row.Moves c op answer found found') (hop : op.Writable)
    (hfound : ∀ row ∈ found, ∃ r, row.Means r) : ∀ row ∈ found', ∃ r, row.Means r := by
  cases hmoves with
  | kept => exact hfound
  | @moved row _ next now =>
    rintro _ ⟨⟩
    obtain ⟨r, hr⟩ := hfound row rfl
    obtain ⟨t, ht⟩ := hr.exists_later hop
    exact ⟨{ r with status := next, updatedAt := t }, { hr with status := rfl, updatedAt := ht }⟩
  | @first run now =>
    rintro _ ⟨⟩
    obtain ⟨r, hr⟩ := firstClaim_legible hop.1 hop.2 run
    exact ⟨r, toRecord_eq_ok_iff.mp hr⟩
  | @claimed row run now =>
    rintro _ ⟨⟩
    obtain ⟨r, hr⟩ := hfound row rfl
    exact hr.exists_nextClaim hop.2 run
  | @counted row _ p _ now =>
    rintro _ ⟨⟩
    obtain ⟨r, hr⟩ := hfound row rfl
    obtain ⟨t, ht⟩ := hr.exists_later hop
    exact ⟨{ r with
      progress := ⟨counter p.processed, counter p.failed, counter p.total, p.currentItem⟩
      updatedAt := t }, { hr with progress := rfl, updatedAt := ht }⟩
  | @cancelled row now =>
    rintro _ ⟨⟩
    obtain ⟨r, hr⟩ := hfound row rfl
    obtain ⟨t, ht⟩ := hr.exists_later hop
    exact ⟨{ r with status := .cancelled, updatedAt := t },
      { hr with status := rfl, updatedAt := ht }⟩
  | @closed row _ _ _ hrun =>
    rintro _ ⟨⟩
    obtain ⟨r, hr⟩ := hfound row rfl
    exact hr.exists_closed hop.2 hop.1 hrun
  | @interrupted row _ now reason =>
    rintro _ ⟨⟩
    obtain ⟨r, hr⟩ := hfound row rfl
    obtain ⟨t, ht⟩ := hr.exists_later hop
    exact ⟨{ r with
      status := .failed, error := some reason, finishedAt := some now.toMicros, updatedAt := t },
      { hr with
        status := rfl, error := rfl, finishedAt := readOptionalTime_some hop, updatedAt := ht }⟩

end Row

namespace Database

/-- A table of records that can all be read, one for each collection. -/
structure Legible (db : Database) : Prop where
  keyed : db.Keyed
  rows : ∀ c, ∀ row ∈ db.row? c, ∃ r, row.Means r

variable {db : Database}

/-- Records whose columns hold them can be read from their table. -/
theorem legible_ofRecords {records : List Record} (hkeys : (records.map (·.collection)).Nodup)
    (hstorable : ∀ r ∈ records, r.Storable) : (ofRecords records).Legible where
  keyed := by
    refine ⟨records.map Row.ofRecord, rfl, ?_⟩
    have htexts : (records.map Row.ofRecord).map (·.collection) =
        (records.map (·.collection)).map CollectionId.text := by
      rw [List.map_map, List.map_map]
      rfl
    rw [htexts]
    exact List.Pairwise.map CollectionId.text (fun _ _ hne heq => hne (Dict.text_inj.mp heq)) hkeys
  rows c row hrow := by
    obtain ⟨r, hr, rfl⟩ := List.mem_map.mp (List.mem_of_find?_eq_some hrow)
    exact ⟨r.toMicros, Row.toRecord_eq_ok_iff.mp (Row.toRecord_ofRecord (hstorable r hr))⟩

theorem Legible.run (h : db.Legible) (hop : op.Writable) : (db.run op).2.Legible where
  keyed := keyed_run h.keyed op
  rows c := (moves_run h.keyed op c).legible hop (h.rows c)

theorem Legible.get_of_wrote (h : db.Legible) (hop : op.Writable)
    (hwrote : op.Wrote c (db.run op).1) :
    ∃ r, ((db.run op).2.run (.get c)).1 = .ok (some r) := by
  obtain ⟨row, hrow⟩ := (moves_run h.keyed op c).exists_of_wrote hwrote
  obtain ⟨r, hr⟩ := (h.run hop).rows c row hrow
  exact ⟨r, get_of_row? hrow hr⟩

theorem run_get (db : Database) (c : CollectionId) : (db.run (.get c)).2 = db := by
  obtain ⟨version, table⟩ := db
  cases table <;> rfl

theorem readsBack : ReadsBack Database.run Legible StoreOp.Writable where
  leaves := run_get
  keeps := Legible.run
  finds := Legible.get_of_wrote
  ends hlegible haccepted := by
    obtain ⟨_, -, -, -, hrow, hmeans⟩ := of_finished hlegible.keyed haccepted
    exact get_of_row? hrow hmeans

end Database

end CollectionSync
