import CollectionSync.Proofs.Store.History
import CollectionSync.Proofs.Store.Mirror
import CollectionSync.Proofs.Store.Moves

/-! # The two stores agree

A database whose table mirrors a memory answers every operation as the memory does, up to the
decimals of times that a row does not hold, and mirrors the memory afterwards. -/

namespace CollectionSync

/-- An operation whose arguments fit the columns they are stored in. A run may end only in a
terminal status, and a recovery compares with a whole number of microseconds. -/
def StoreOp.Storable : StoreOp → Prop
  | .get c | .status c => c.Valid
  | .compareAndSet c _ _ now | .claim c _ now | .requestCancel c now => c.Valid ∧ now.Storable
  | .updateProgress c _ p now => c.Valid ∧ p.Storable ∧ now.Storable
  | .finish c _ report now =>
    c.Valid ∧ report.status.isTerminal ∧ TokensValid report.tokens ∧ report.progress.Storable ∧
      now.Storable
  | .recover staleBefore _ now =>
    staleBefore.Storable ∧ staleBefore.nanos % 1000 = 0 ∧ now.Storable

instance : (op : StoreOp) → Decidable op.Storable
  | .get c | .status c => inferInstanceAs (Decidable c.Valid)
  | .compareAndSet c _ _ now | .claim c _ now | .requestCancel c now =>
    inferInstanceAs (Decidable (c.Valid ∧ now.Storable))
  | .updateProgress c _ p now => inferInstanceAs (Decidable (c.Valid ∧ p.Storable ∧ now.Storable))
  | .finish c _ report now =>
    inferInstanceAs (Decidable (c.Valid ∧ report.status.isTerminal ∧ TokensValid report.tokens ∧
      report.progress.Storable ∧ now.Storable))
  | .recover staleBefore _ now =>
    inferInstanceAs (Decidable (staleBefore.Storable ∧ staleBefore.nanos % 1000 = 0 ∧
      now.Storable))

def ClaimOutcome.toMicros : ClaimOutcome → ClaimOutcome
  | .claimed r => .claimed r.toMicros
  | .conflict r => .conflict r.toMicros

/-- An answer with the times of its records cut to whole microseconds. -/
def StoreOp.cutReply : (op : StoreOp) → op.Reply → op.Reply
  | .get _, found => Option.map Record.toMicros found
  | .claim .., outcome => ClaimOutcome.toMicros outcome
  | .finish .., r => Record.toMicros r
  | .status _, a | .compareAndSet .., a | .updateProgress .., a | .requestCancel .., a
  | .recover .., a => a

def History.Answered.toMicros (a : History.Answered) : History.Answered :=
  ⟨a.1, a.2.map a.1.cutReply⟩

/-! ## Single operations -/

/-- Where no sum overflows, a progress write is the one condition of the statement. -/
theorem Record.applyProgress?_eq {r : Record} {run : RunId} {p : Progress} {now : Instant}
    (hr : r.progress.Storable) (hp : p.Storable) :
    r.applyProgress? run p now =
      if (r.status = .syncing ∧ r.run = some run) ∧
          ¬ p.processed + p.failed < r.progress.processed + r.progress.failed then
        some (.applied, { r with progress := p }.touch now)
      else some (.discarded, r) := by
  simp only [Record.applyProgress?, hp.settled?_eq, hr.settled?_eq, Option.bind_eq_bind,
    Option.bind_some]
  by_cases hown : r.status = .syncing ∧ r.run = some run
  · rw [if_pos hown]
    by_cases hlt : p.processed + p.failed < r.progress.processed + r.progress.failed
    · rw [if_pos hlt, if_neg fun h => h.2 hlt]
    · rw [if_neg hlt, if_pos ⟨hown, hlt⟩]
  · rw [if_neg hown, if_neg fun h => hown h.1]

/-- A cancellation is a move from `syncing` and nothing else. -/
theorem Memory.requestCancel_eq (m : Memory) (c : CollectionId) (now : Instant) :
    m.requestCancel c now = m.compareAndSet c [.syncing] .cancelled now := by
  have hf : forbidden? [.syncing] .cancelled = none := rfl
  simp only [Memory.requestCancel, Memory.compareAndSet, hf]
  cases hr : m.get c with
  | none => rfl
  | some r =>
    by_cases hs : r.status = .syncing
    · simp [Record.requestCancel, Record.moveTo, hs, Status.canMoveTo]
    · simp [Record.requestCancel, hs, Memory.set_self hr]

/-- The answers are the same but for the decimals of times, and the table mirrors the memory. -/
def Agree {α : Type} (cut : α → α) (a : Except StoreError α × Memory)
    (b : Except StoreError α × Database) : Prop :=
  b.1 = a.1.map cut ∧ ∃ rows, b.2.table = .records rows ∧ Mirrors a.2 rows

namespace Mirrors

variable {m : Memory} {rows : List Row} {v : Int} {c : CollectionId} {now : Instant}

theorem agree_get (h : Mirrors m rows) (c : CollectionId) :
    Agree (StoreOp.cutReply (.get c)) (m.run (.get c)) (Database.get ⟨v, .records rows⟩ c) :=
  ⟨h.getRows_eq c, rows, rfl, h⟩

theorem agree_status (h : Mirrors m rows) (c : CollectionId) :
    Agree id (m.run (.status c)) (Database.status ⟨v, .records rows⟩ c) := by
  refine ⟨?_, rows, rfl, h⟩
  have hstatus : (Database.find? rows c).map (·.status) = (m.get c).map (·.status) := by
    rw [h.find?_eq]
    cases m.get c <;> rfl
  exact congrArg Except.ok hstatus

theorem agree_compareAndSet (h : Mirrors m rows) (expected : List Status) (next : Status)
    (hn : now.Storable) :
    Agree id (m.compareAndSet c expected next now)
      (Database.compareAndSet ⟨v, .records rows⟩ c expected next now) := by
  cases expected with
  | nil =>
    -- no status is expected, which the memory finds out only from the record
    unfold Memory.compareAndSet
    cases hr : m.get c <;> exact ⟨rfl, rows, rfl, h⟩
  | cons status others =>
  have honly : ∀ row : Row, (decide (row.collection = c.text) &&
      (status :: others).contains row.status) = true → row.collection = c.text := by
    intro row hrow
    rw [Bool.and_eq_true, decide_eq_true_eq] at hrow
    exact hrow.1
  simp only [Database.compareAndSet, Memory.compareAndSet, List.isEmpty_cons, Bool.false_eq_true,
    if_false]
  cases hf : forbidden? (status :: others) next with
  | some stored => exact ⟨rfl, rows, rfl, h⟩
  | none =>
    cases hr : m.get c with
    | none =>
      simp only [Database.withRows, h.update_absent _ honly hr]
      exact ⟨rfl, rows, rfl, h⟩
    | some r =>
      have hrow := h.row_collection hr
      cases hex : (status :: others).contains r.status with
      | true =>
        have hmove : r.status.canMoveTo next = true := by
          simpa using List.find?_eq_none.mp hf r.status (List.contains_iff_mem.mp hex)
        have hs := h.storable_of_get hr
        have htouch := Row.ofRecord_touch (r := { r with status := next }) hs.updatedAt hn
        obtain ⟨rows', hup, h'⟩ := h.update_one (fun row => { row with
            status := next, updatedAt := Row.laterText row.updatedAt (Time.microsText now) })
          honly (Record.touch { r with status := next } now) hr
          (by rw [Bool.and_eq_true, decide_eq_true_eq]; exact ⟨hrow, hex⟩)
          htouch.symm rfl (Record.Storable.touch { hs with } hn)
        simp only [Database.withRows, hup, hex, if_true, Record.moveTo, hmove]
        exact ⟨rfl, rows', rfl, h'⟩
      | false =>
        have hno : ¬ (decide ((Row.ofRecord r).collection = c.text) &&
            (status :: others).contains r.status) = true := by
          rw [hex, Bool.and_false]
          exact Bool.false_ne_true
        simp only [Database.withRows, h.update_other _ honly hr hno, hex]
        exact ⟨rfl, rows, rfl, h⟩

theorem agree_claim (h : Mirrors m rows) (hc : c.Valid) (run : RunId) (hn : now.Storable) :
    Agree ClaimOutcome.toMicros (m.claim c run now)
      (Database.claim ⟨v, .records rows⟩ c run now) := by
  have honly : ∀ row : Row, (decide (row.collection = c.text) && row.status != .syncing) = true →
      row.collection = c.text := by
    intro row hrow
    rw [Bool.and_eq_true, decide_eq_true_eq] at hrow
    exact hrow.1
  simp only [Database.claim, Memory.claim, Database.withRows, h.find?_eq]
  cases hr : m.get c with
  | none =>
    let begun := ((Record.idle c now).begun run now).touch now
    have hs : begun.Storable :=
      Record.Storable.touch
        { collection := hc
          progress := .zero
          tokens := .empty
          startedAt := fun t ht => by cases ht; exact hn
          finishedAt := fun t ht => by cases ht
          updatedAt := hn } hn
    have hrow : Row.ofRecord begun = Database.firstClaim c run (Time.microsText now) := by
      simp only [begun, Record.touch, Record.begun, Record.idle, Instant.later_self]
      rfl
    have hbegin : (Record.idle c now).beginRun run now = .ok begun := Record.beginRun_eq _ run now
    simp only [Option.map_none, Option.getD_none, hbegin, ← hrow, Database.readRow,
      Row.toRecord_ofRecord hs]
    exact ⟨rfl, _, rfl, h.put hr hs⟩
  | some r =>
    have hs := h.storable_of_get hr
    have hcol := h.row_collection hr
    simp only [Option.map_some, Option.getD_some, Record.beginRun_eq]
    by_cases hsync : r.status = .syncing
    · have hno : ¬ (decide ((Row.ofRecord r).collection = c.text) &&
          (Row.ofRecord r).status != .syncing) = true := by
        rw [Bool.and_eq_true, bne_iff_ne]
        exact fun ht => ht.2 hsync
      simp only [h.update_other _ honly hr hno, h.existing_eq hr, if_pos hsync]
      exact ⟨rfl, rows, rfl, h⟩
    · have hbegun : (r.begun run now).Storable :=
        { hs with
          progress := .zero
          startedAt := fun t ht => by cases ht; exact hn
          finishedAt := fun t ht => by cases ht }
      have htouch := Row.ofRecord_touch (r := r.begun run now) hs.updatedAt hn
      have hs' := hbegun.touch hn
      obtain ⟨rows', hup, h'⟩ := h.update_one (Database.nextClaim run (Time.microsText now)) honly
        ((r.begun run now).touch now) hr
        (by
          rw [Bool.and_eq_true, decide_eq_true_eq]
          exact ⟨hcol, bne_iff_ne.mpr hsync⟩)
        htouch.symm rfl hs'
      simp only [hup, if_neg hsync, Database.readRow, Row.toRecord_ofRecord hs']
      exact ⟨rfl, rows', rfl, h'⟩

theorem run_eq_iff (r : Record) (run : RunId) :
    (Row.ofRecord r).run = some run.text ↔ r.run = some run := by
  change r.run.map RunId.text = some run.text ↔ _
  cases r.run with
  | none => simp
  | some owner => simp [RunId.text_inj]

theorem agree_updateProgress (h : Mirrors m rows) (run : RunId) {p : Progress} (hp : p.Storable)
    (hn : now.Storable) :
    Agree id (m.updateProgress c run p now)
      (Database.updateProgress ⟨v, .records rows⟩ c run p now) := by
  have honly : ∀ row : Row, (decide (row.collection = c.text) && row.status == .syncing &&
      row.run == some run.text &&
        row.processed + row.failed ≤ Row.counter (p.processed + p.failed)) = true →
      row.collection = c.text := by
    intro row hrow
    simp only [Bool.and_eq_true, decide_eq_true_eq] at hrow
    exact hrow.1.1.1
  simp only [Database.updateProgress, Memory.updateProgress, hp.settled?_eq, Database.withRows]
  cases hr : m.get c with
  | none =>
    simp only [h.update_absent _ honly hr]
    exact ⟨rfl, rows, rfl, h⟩
  | some r =>
    have hs := h.storable_of_get hr
    have hcol := h.row_collection hr
    have hsum := hs.progress.settled
    have hcounters : (Row.ofRecord r).processed + (Row.ofRecord r).failed =
        r.progress.processed + r.progress.failed := by
      change Row.counter r.progress.processed + Row.counter r.progress.failed = _
      rw [Row.counter_eq (by omega), Row.counter_eq (by omega)]
    have hguard : (decide ((Row.ofRecord r).collection = c.text) &&
        (Row.ofRecord r).status == .syncing && (Row.ofRecord r).run == some run.text &&
          (Row.ofRecord r).processed + (Row.ofRecord r).failed ≤
            Row.counter (p.processed + p.failed)) = true ↔
        (r.status = .syncing ∧ r.run = some run) ∧
          ¬ p.processed + p.failed < r.progress.processed + r.progress.failed := by
      rw [hcounters, Row.counter_eq hp.settled]
      simp only [Bool.and_eq_true, decide_eq_true_eq, beq_iff_eq, hcol, run_eq_iff, true_and,
        Nat.not_lt]
      exact Iff.rfl
    simp only [Record.applyProgress?_eq hs.progress hp]
    by_cases hwrites : (r.status = .syncing ∧ r.run = some run) ∧
        ¬ p.processed + p.failed < r.progress.processed + r.progress.failed
    · have htouch := Row.ofRecord_touch (r := { r with progress := p }) hs.updatedAt hn
      obtain ⟨rows', hup, h'⟩ := h.update_one (fun row => { row with
          processed := Row.counter p.processed
          failed := Row.counter p.failed
          total := Row.counter p.total
          currentItem := p.currentItem
          updatedAt := Row.laterText row.updatedAt (Time.microsText now) })
        honly (Record.touch { r with progress := p } now) hr (hguard.mpr hwrites)
        htouch.symm rfl (Record.Storable.touch { hs with progress := hp } hn)
      simp only [hup, if_pos hwrites]
      exact ⟨rfl, rows', rfl, h'⟩
    · simp only [h.update_other _ honly hr fun ht => hwrites (hguard.mp ht), if_neg hwrites,
        Memory.set_self hr]
      exact ⟨rfl, rows, rfl, h⟩

theorem agree_finish (h : Mirrors m rows) (run : RunId) {report : RunReport}
    (ht : report.status.isTerminal = true) (htokens : TokensValid report.tokens)
    (hp : report.progress.Storable) (hn : now.Storable) :
    Agree Record.toMicros (m.finish c run report now)
      (Database.finish ⟨v, .records rows⟩ c run report now) := by
  have honly : ∀ row : Row, (decide (row.collection = c.text) && row.run == some run.text &&
      (row.status == .syncing || row.status == .cancelled)) = true →
      row.collection = c.text := by
    intro row hrow
    simp only [Bool.and_eq_true, decide_eq_true_eq] at hrow
    exact hrow.1.1
  simp only [Database.finish, Memory.finish, ht, if_true, Database.withRows]
  cases hr : m.get c with
  | none =>
    have hmissing : Database.existing c rows = .error (.missing c) := by
      rw [Database.existing, h.getRows_eq, hr, Option.map_none]
    simp only [h.update_absent _ honly hr, hmissing]
    exact ⟨rfl, rows, rfl, h⟩
  | some r =>
    have hs := h.storable_of_get hr
    have hguard : (decide ((Row.ofRecord r).collection = c.text) &&
        (Row.ofRecord r).run == some run.text &&
          ((Row.ofRecord r).status == .syncing || (Row.ofRecord r).status == .cancelled)) = true ↔
        r.run = some run ∧ (r.status = .syncing ∨ r.status = .cancelled) := by
      simp only [Bool.and_eq_true, Bool.or_eq_true, decide_eq_true_eq, beq_iff_eq,
        h.row_collection hr, run_eq_iff, true_and]
      exact Iff.rfl
    by_cases hends : r.run = some run ∧ (r.status = .syncing ∨ r.status = .cancelled)
    · have hclosed : (r.closed report now).Storable :=
        { hs with
          progress := hp
          tokens := htokens
          finishedAt := fun t ht => by cases ht; exact hn }
      have htouch := Row.ofRecord_touch (r := r.closed report now) hs.updatedAt hn
      have hs' := hclosed.touch hn
      obtain ⟨rows', hup, h'⟩ := h.update_one (Database.closed report (Time.microsText now)) honly
        ((r.closed report now).touch now) hr (hguard.mpr hends) htouch.symm rfl hs'
      simp only [hup, Record.finish_eq, ht, true_and, if_pos hends.1, if_pos hends.2,
        Database.readRow, Row.toRecord_ofRecord hs']
      exact ⟨rfl, rows', rfl, h'⟩
    · simp only [h.update_other _ honly hr fun hyes => hends (hguard.mp hyes), h.existing_eq hr,
        Record.finish_eq, ht, true_and]
      have hrun' : r.toMicros.run = r.run := rfl
      by_cases hrun : r.run = some run
      · have hstatus : ¬ (r.status = .syncing ∨ r.status = .cancelled) := fun hst =>
          hends ⟨hrun, hst⟩
        simp only [hrun', if_pos hrun, if_neg hstatus]
        exact ⟨rfl, rows, rfl, h⟩
      · simp only [hrun', if_neg hrun, h.collection_eq hr]
        exact ⟨rfl, rows, rfl, h⟩

/-- Identifiers sorted by their texts are the identifiers in the order of a dictionary. -/
theorem mergeSort_keys {l l' : List CollectionId} (hp : l.Perm l')
    (ho : l'.Pairwise fun a b => a.text < b.text) :
    l.mergeSort (fun a b => !(b.text < a.text)) = l' := by
  have hle (a b : CollectionId) : (!decide (b.text < a.text)) = true ↔ a.text ≤ b.text := by
    rw [Bool.not_eq_true', decide_eq_false_iff_not, String.not_lt]
  have hsorted : (l.mergeSort fun a b => !(b.text < a.text)).Pairwise
      fun a b => a.text ≤ b.text := by
    refine (List.pairwise_mergeSort (fun a b c hab hbc => ?_) (fun a b => ?_) l).imp fun hab => ?_
    · rw [hle] at hab hbc ⊢
      exact String.le_trans hab hbc
    · rw [Bool.or_eq_true, hle, hle]
      exact String.le_total a.text b.text
    · exact (hle _ _).mp hab
  exact List.Perm.eq_of_pairwise
    (fun a b _ _ hab hba => Dict.text_inj.mp (String.le_antisymm hab hba)) hsorted
    (ho.imp fun hab => String.not_lt.mp (String.lt_asymm hab)) ((List.mergeSort_perm l _).trans hp)

theorem isStale_eq {r : Record} {staleBefore : Instant} (hr : r.Storable)
    (hs : staleBefore.Storable) (hmicros : staleBefore.nanos % 1000 = 0) :
    Database.isStale (Time.microsText staleBefore) (Row.ofRecord r) =
      Memory.isStale staleBefore r := by
  have htime : Time.microsText r.updatedAt < Time.microsText staleBefore ↔
      r.updatedAt < staleBefore := by
    rw [Time.microsText_lt_iff hr.updatedAt hs, Instant.toMicros_eq_self hmicros]
    exact Instant.toMicros_lt_iff hmicros
  simp only [Database.isStale, Memory.isStale]
  rw [show (Row.ofRecord r).updatedAt = Time.microsText r.updatedAt from rfl,
    decide_eq_decide.mpr htime]
  rfl

theorem agree_recover (h : Mirrors m rows) {staleBefore : Instant} (reason : String)
    (hs : staleBefore.Storable) (hmicros : staleBefore.nanos % 1000 = 0) (hn : now.Storable) :
    Agree id (m.recover staleBefore reason now)
      (Database.recover ⟨v, .records rows⟩ staleBefore reason now) := by
  have hstale : ∀ e ∈ m.records.entries,
      Database.isStale (Time.microsText staleBefore) (Row.ofRecord e.2) =
        Memory.isStale staleBefore e.2 := fun e he => isStale_eq (h.storable e he) hs hmicros
  refine ⟨?_, _, rfl, ?_⟩
  · let stale := m.records.entries.filter fun e => Memory.isStale staleBefore e.2
    have hrows := h.perm_filter _ (fun e => Memory.isStale staleBefore e.2) hstale
    have hlist := (List.mergeSort_perm _ fun a b : Row => !(b.updatedAt < a.updatedAt)).trans hrows
    have hread : ∀ row ∈ Database.byLastWrite
        (rows.filter (Database.isStale (Time.microsText staleBefore))),
        Database.readCollection row = pure ⟨row.collection⟩ := by
      intro row hrow
      obtain ⟨e, he, rfl⟩ := List.mem_map.mp (hlist.mem_iff.mp hrow)
      have hvalid := (h.storable e (List.mem_filter.mp he).1).collection
      simp only [Database.readCollection, Row.ofRecord, Row.readCollection_text hvalid]
      rfl
    have hkeys : (stale.map fun e => Row.ofRecord e.2).map (fun row => ⟨row.collection⟩) =
        stale.map (·.1) := by
      rw [List.map_map]
      refine List.map_congr_left fun e he => ?_
      exact h.keyed e (List.mem_filter.mp he).1
    have hcollections := hlist.map fun row : Row => (⟨row.collection⟩ : CollectionId)
    rw [hkeys] at hcollections
    have hsorted : (stale.map (·.1)).Pairwise fun a b => a.text < b.text :=
      (m.records.ordered.filter _).map _ fun _ _ hab => hab
    simp only [Database.recover, Database.withRows, mapM_eq_pure hread]
    exact congrArg Except.ok (mergeSort_keys hcollections hsorted)
  · have hnext : (m.recover staleBefore reason now).2 =
        ⟨m.records.map fun _ r =>
          if Memory.isStale staleBefore r = true then (r.interrupt reason now).2 else r⟩ := rfl
    rw [hnext]
    refine h.update (fun _ r => Memory.isStale staleBefore r = true)
      (fun r => (r.interrupt reason now).2) (fun e he => by rw [hstale e he]) fun e he hst => ?_
    have hsync : e.2.status = .syncing := by
      simp only [Memory.isStale, Bool.and_eq_true, beq_iff_eq] at hst
      exact hst.1
    have hse := h.storable e he
    let failed : Record :=
      { e.2 with status := .failed, error := some reason, finishedAt := some now }
    have hint : e.2.interrupt reason now = (true, failed.touch now) := by
      rw [Record.interrupt, if_pos hsync]
    have hfailed : failed.Storable :=
      { hse with finishedAt := fun t ht => by cases ht; exact hn }
    rw [hint]
    exact ⟨(Row.ofRecord_touch (r := failed) hse.updatedAt hn).symm, h.keyed e he,
      hfailed.touch hn⟩

/-- An operation is answered alike on both sides, and the table mirrors the memory afterwards. -/
theorem agree_run (h : Mirrors m rows) {op : StoreOp} (hop : op.Storable) :
    Agree op.cutReply (m.run op) (Database.run ⟨v, .records rows⟩ op) := by
  cases op with
  | get c => exact h.agree_get c
  | status c => exact h.agree_status c
  | compareAndSet c expected next now => exact h.agree_compareAndSet expected next hop.2
  | claim c run now => exact h.agree_claim hop.1 run hop.2
  | updateProgress c run p now => exact h.agree_updateProgress run hop.2.1 hop.2.2
  | requestCancel c now =>
    have := h.agree_compareAndSet (v := v) (c := c) [.syncing] .cancelled hop.2
    rwa [← Memory.requestCancel_eq] at this
  | finish c run report now =>
    obtain ⟨-, ht, htokens, hp, hn⟩ := hop
    exact h.agree_finish run ht htokens hp hn
  | recover staleBefore reason now => exact h.agree_recover reason hop.1 hop.2.1 hop.2.2

/-- What one operation keeps, a history keeps. -/
theorem agree_history (h : Mirrors m rows) {ops : List StoreOp} (hops : ∀ op ∈ ops, op.Storable) :
    History.answers Database.run ⟨v, .records rows⟩ ops =
        (History.answers Memory.run m ops).map History.Answered.toMicros ∧
      ∃ rows', (History.after Database.run ⟨v, .records rows⟩ ops).table = .records rows' ∧
        Mirrors (History.after Memory.run m ops) rows' := by
  induction ops generalizing m rows v with
  | nil => exact ⟨rfl, rows, rfl, h⟩
  | cons op ops ih =>
    obtain ⟨hanswer, rows', htable, h'⟩ := h.agree_run (v := v) (hops op List.mem_cons_self)
    obtain ⟨⟨w, _⟩, hdb⟩ : ∃ db, db = (Database.run ⟨v, .records rows⟩ op).2 := ⟨_, rfl⟩
    rw [← hdb] at htable
    cases htable
    have hrest := ih (v := w) h' fun op' hmem => hops op' (List.mem_cons_of_mem op hmem)
    rw [hdb] at hrest
    refine ⟨?_, hrest.2⟩
    simp only [History.answers, List.map_cons, hrest.1]
    exact congrArg (· :: _) (Sigma.ext rfl (heq_of_eq hanswer))

/-- The rows are read back as the memory's records, their times cut to whole microseconds. -/
theorem perm_toRecord (h : Mirrors m rows) :
    (rows.map Row.toRecord).Perm (m.records.entries.map fun e => .ok e.2.toMicros) := by
  refine (h.perm.map Row.toRecord).trans (.of_eq ?_)
  rw [List.map_map]
  exact List.map_congr_left fun e he => Row.toRecord_ofRecord (h.storable e he)

end Mirrors

/-! ## Whole histories -/

/-- From the same records, both stores answer any operations alike and hold the same records
afterwards, the times of the database cut to whole microseconds. -/
theorem stores_agree {records : List Record} (hn : (records.map (·.collection)).Nodup)
    (hs : ∀ r ∈ records, r.Storable) {ops : List StoreOp} (hops : ∀ op ∈ ops, op.Storable) :
    History.answers Database.run (Database.ofRecords records) ops =
        (History.answers Memory.run (Memory.ofRecords records) ops).map
          History.Answered.toMicros ∧
      ∃ rows, (History.after Database.run (Database.ofRecords records) ops).table =
          .records rows ∧
        (rows.map Row.toRecord).Perm
          ((History.after Memory.run (Memory.ofRecords records) ops).records.entries.map
            fun e => .ok e.2.toMicros) := by
  obtain ⟨hanswers, rows, htable, h⟩ :=
    (Mirrors.ofRecords hn hs).agree_history (v := schemaVersion) hops
  exact ⟨hanswers, rows, htable, h.perm_toRecord⟩

/-- A cancelled run that reports success, and a recovery that comes too late for it. -/
theorem stores_agree_cancelled :
    let docs : CollectionId := ⟨"docs"⟩
    let records := [Record.idle docs ⟨1700000000, 123456789⟩]
    let ops : List StoreOp :=
      [.claim docs ⟨1⟩ ⟨1700000060, 1999⟩,
        .updateProgress docs ⟨1⟩ ⟨2, 1, 4, "item"⟩ ⟨1700000061, 999999999⟩,
        .requestCancel docs ⟨1700000062, 5⟩,
        .finish docs ⟨1⟩ ⟨.completed, .empty, [], ⟨3, 1, 4, ""⟩, none⟩ ⟨1700000063, 1001⟩,
        .recover ⟨1700000070, 1000⟩ "interrupted" ⟨1700000071, 0⟩, .get docs]
    ((records.map (·.collection)).Nodup ∧ (∀ r ∈ records, r.Storable) ∧
      ∀ op ∈ ops, op.Storable) ∧
    History.answers Database.run (Database.ofRecords records) ops =
      (History.answers Memory.run (Memory.ofRecords records) ops).map
        History.Answered.toMicros :=
  ⟨by decide +kernel,
    (stores_agree (by decide +kernel) (by decide +kernel) (by decide +kernel)).1⟩

end CollectionSync
