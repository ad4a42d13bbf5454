import CollectionSync.Proofs.Store.Ending
import CollectionSync.Proofs.Store.Fencing

/-! # A run that has ended

A run that has ended as completed, with errors or as failed cannot end again: whatever is asked of
the store afterwards, the record stays as its end has left it until the next claim. A run that has
ended as cancelled can: the rules take its record for one whose cancellation was only requested. -/

namespace CollectionSync

/-- An operation that may take the record of the collection back to `syncing`. -/
def StoreOp.reopens (c : CollectionId) : StoreOp → Prop
  | .claim d _ _ => d = c
  | .compareAndSet d _ next _ => d = c ∧ next = .syncing
  | _ => False

/-- An operation that leaves a cancelled record of the run alone. -/
def StoreOp.sparesCancelled (c : CollectionId) (run : RunId) : StoreOp → Prop
  | .claim d _ _ | .compareAndSet d _ _ _ => d ≠ c
  | .finish d owner _ _ => d = c → owner ≠ run
  | _ => True

/-- What is answered to a compare-and-set accords with the state machine. -/
def StoreOp.Lawful : (op : StoreOp) → Except StoreError op.Reply → Prop
  | .compareAndSet _ expected next _, answer =>
    answer = .ok true → ∀ status ∈ expected, status.canMoveTo next = true
  | _, _ => True

/-! ## Statuses of ended runs -/

namespace Status

variable {status next : Status}

theorem isEnded_of_resolve {stored requested : Status} (h : requested.isTerminal = true)
    (hne : stored.resolve requested ≠ .cancelled) : (stored.resolve requested).isEnded = true := by
  revert h hne; cases stored <;> cases requested <;> decide

theorem not_open_of_isEnded (h : status.isEnded = true) :
    ¬ (status = .syncing ∨ status = .cancelled) := by
  revert h; cases status <;> decide

theorem eq_syncing_of_isEnded (h : status.isEnded = true) (hmove : status.canMoveTo next = true) :
    next = .syncing := by
  revert h hmove; cases status <;> cases next <;> decide

end Status

/-! ## The record of an ended run -/

section

variable {c : CollectionId} {run : RunId} {op : StoreOp} {answer : Except StoreError op.Reply}

theorem Moves.of_isEnded {r : Record} {found' : Option Record}
    (hmoves : Moves c op answer (some r) found')
    (hended : r.status.isEnded = true) (hop : ¬ op.reopens c) : found' = some r := by
  have hclosed := Status.not_open_of_isEnded hended
  cases hmoves with
  | kept => rfl
  | moved _ hmove => exact absurd ⟨rfl, Status.eq_syncing_of_isEnded hended hmove⟩ hop
  | claimed => exact absurd rfl hop
  | counted hs | cancelled hs | interrupted hs => exact absurd (.inl hs) hclosed
  | closed _ _ hs => exact absurd hs hclosed

theorem Moves.of_cancelled_status {r : Record} {found' : Option Record}
    (hmoves : Moves c op answer (some r) found') (hcancelled : r.status = .cancelled)
    (hrun : r.run = some run) (hop : op.sparesCancelled c run) : found' = some r := by
  cases hmoves with
  | kept => rfl
  | moved | claimed => exact absurd rfl hop
  | counted hs | cancelled hs | interrupted hs => rw [hcancelled] at hs; cases hs
  | closed howner => exact absurd (Option.some.inj (howner.symm.trans hrun)) (hop rfl)

theorem Row.Moves.of_isEnded {row : Row} {found' : Option Row}
    (hmoves : Row.Moves c op answer (some row) found') (hlawful : op.Lawful answer)
    (hended : row.status.isEnded = true) (hop : ¬ op.reopens c) : found' = some row := by
  have hclosed := Status.not_open_of_isEnded hended
  cases hmoves with
  | kept => rfl
  | moved hmem =>
    exact absurd ⟨rfl, Status.eq_syncing_of_isEnded hended (hlawful rfl _ hmem)⟩ hop
  | claimed => exact absurd rfl hop
  | counted hs | cancelled hs | interrupted hs => exact absurd (.inl hs) hclosed
  | closed _ _ hs => exact absurd hs hclosed

theorem Row.Moves.of_cancelled_status {row : Row} {found' : Option Row}
    (hmoves : Row.Moves c op answer (some row) found') (hcancelled : row.status = .cancelled)
    (hrun : row.run = some run.text) (hop : op.sparesCancelled c run) : found' = some row := by
  cases hmoves with
  | kept => rfl
  | moved | claimed => exact absurd rfl hop
  | counted hs | cancelled hs | interrupted hs => rw [hcancelled] at hs; cases hs
  | closed howner =>
    exact absurd (RunId.text_injective (Option.some.inj (howner.symm.trans hrun))) (hop rfl)

end

/-- The record is what the end of a run makes of one of the status. -/
structure WrittenBy (before : Status) (report : RunReport) (written : Record) : Prop
    extends Closes before report written where
  terminal : report.status.isTerminal = true
  tokens : written.tokens = report.tokens

theorem Record.writtenBy_closed {r : Record} {report : RunReport} (now : Instant)
    (hterminal : report.status.isTerminal = true)
    (hopen : r.status = .syncing ∨ r.status = .cancelled) :
    WrittenBy r.status report ((r.closed report now).touch now) :=
  ⟨⟨hopen, rfl, rfl, rfl, id, rfl, rfl, rfl, rfl⟩, hterminal, rfl⟩

/-- Whoever ends a run as something else than cancelled has ended it. -/
theorem WrittenBy.isEnded {before : Status} {report : RunReport} {written : Record}
    (h : WrittenBy before report written) (hne : written.status ≠ .cancelled) :
    written.status.isEnded = true := by
  rw [h.status] at hne ⊢
  exact Status.isEnded_of_resolve h.terminal hne

/-- A record whose run has ended once, and is told of another end. -/
theorem Record.finish_again {r written : Record} {run : RunId} {first : RunReport} {now : Instant}
    (h : r.finish run first now = .ok written) (report : RunReport) (now' : Instant) :
    (written.status ≠ .cancelled →
      written.finish run report now' = .error (.badMove written.status report.status)) ∧
    (written.status = .cancelled → report.status.isTerminal = true →
      ∃ again, written.finish run report now' = .ok again ∧ WrittenBy .cancelled report again) := by
  rw [Record.finish_eq] at h
  split at h
  · next hrun =>
    split at h
    · next hends =>
      have hwritten := Record.writtenBy_closed now hends.1 hends.2
      have howner : ((r.closed first now).touch now).run = some run := hrun
      rw [Except.ok.inj h] at hwritten howner
      rw [Record.finish_eq, if_pos howner]
      constructor
      · intro hne
        have hclosed := Status.not_open_of_isEnded (hwritten.isEnded hne)
        rw [if_neg fun hopen => hclosed hopen.2]
      · intro hcancelled hterminal
        rw [if_pos ⟨hterminal, .inr hcancelled⟩]
        exact ⟨_, rfl, hcancelled ▸ Record.writtenBy_closed now' hterminal (.inr hcancelled)⟩
    · cases h
  · cases h

namespace Finality

open History

section

variable {σ : Type} (step : σ → (op : StoreOp) → Except StoreError op.Reply × σ) (c : CollectionId)
  (run : RunId)

/-- The store holds the record, and refuses every further end of the run without a trace. -/
structure EndedForGood (written : Record) (s : σ) : Prop where
  found : (step s (.get c)).1 = .ok (some written)
  refused : ∀ report now, ∃ stored, step s (.finish c run report now) =
    (.error (.refused (.badMove stored report.status)), s)

/-- The store holds the record, and would write a further end of the run over it. -/
structure MayEndAgain (fits : RunReport → Instant → Prop) (written : Record) (s : σ) : Prop where
  found : (step s (.get c)).1 = .ok (some written)
  refused : ∀ report now, ¬ report.status.isTerminal = true → ∃ stored,
    step s (.finish c run report now) = (.error (.refused (.badMove stored report.status)), s)
  accepted : ∀ report now, fits report now → report.status.isTerminal = true →
    ∃ again : Record, (step s (.finish c run report now)).1 = .ok again ∧
      (step (step s (.finish c run report now)).2 (.get c)).1 = .ok (some again) ∧
      WrittenBy .cancelled report again

/-- After an accepted end the store holds what it has written, and a run that has not ended as
cancelled has ended for good: until the record is reopened nothing else happens to it. A run that
has ended as cancelled may end again. -/
def EndsOnceUnlessCancelled (fits : RunReport → Instant → Prop) (s : σ) : Prop :=
  ∀ first now written, (step s (.finish c run first now)).1 = .ok written →
    (∃ before, WrittenBy before first written) ∧
    ∀ ops, (written.status ≠ .cancelled → (∀ op ∈ ops, ¬ op.reopens c) →
        EndedForGood step c run written (after step (step s (.finish c run first now)).2 ops)) ∧
      (written.status = .cancelled → (∀ op ∈ ops, op.sparesCancelled c run) →
        MayEndAgain step c run fits written (after step (step s (.finish c run first now)).2 ops))

end

end Finality

/-! ## Records of a memory -/

namespace Memory

open History Finality

variable {m : Memory} {c : CollectionId} {run : RunId} {report : RunReport} {now : Instant}
  {r written : Record}

/-- An accepted end is one in a terminal status, and leaves tokens and owner as the run has them. -/
theorem of_accepted (h : (m.run (.finish c run report now)).1 = .ok written) :
    report.status.isTerminal = true ∧ written.run = some run ∧ written.tokens = report.tokens := by
  have hmoves := m.moves_run (.finish c run report now) c
  generalize (m.run (.finish c run report now)).2.get c = found' at hmoves
  generalize m.get c = found at hmoves
  generalize (m.run (.finish c run report now)).1 = answer at h hmoves
  cases hmoves with
  | kept _ hno => exact absurd ⟨rfl, written, h⟩ hno
  | closed howner hterminal =>
    cases h
    exact ⟨hterminal, howner, rfl⟩

theorem endsWith_writtenBy (m : Memory) :
    EndsWith Memory.run c run report (WrittenBy · report ·) m := by
  intro now written h
  obtain ⟨before, hbefore, hafter, hcloses⟩ := m.endsWith_closes now written h
  obtain ⟨hterminal, -, htokens⟩ := of_accepted h
  exact ⟨before, hbefore, hafter, hcloses, hterminal, htokens⟩

theorem finish_of_not_open (hr : m.get c = some r) (hrun : r.run = some run)
    (hno : ¬ (report.status.isTerminal = true ∧ (r.status = .syncing ∨ r.status = .cancelled))) :
    m.run (.finish c run report now) =
      (.error (.refused (.badMove r.status report.status)), m) := by
  simp only [Memory.run, Memory.finish, hr, Record.finish_eq, if_pos hrun, if_neg hno]
  rfl

theorem finish_of_open (hr : m.get c = some r) (hrun : r.run = some run)
    (hopen : report.status.isTerminal = true ∧ (r.status = .syncing ∨ r.status = .cancelled)) :
    (m.run (.finish c run report now)).1 = .ok ((r.closed report now).touch now) := by
  simp only [Memory.run, Memory.finish, hr, Record.finish_eq, if_pos hrun, if_pos hopen]
  rfl

theorem endedForGood (hr : m.get c = some r) (hrun : r.run = some run)
    (hended : r.status.isEnded = true) : EndedForGood Memory.run c run r m where
  found := congrArg Except.ok hr
  refused _ _ := ⟨r.status, finish_of_not_open hr hrun fun hopen =>
    Status.not_open_of_isEnded hended hopen.2⟩

theorem mayEndAgain (hr : m.get c = some r) (hrun : r.run = some run)
    (hcancelled : r.status = .cancelled) :
    MayEndAgain Memory.run c run (fun _ _ => True) r m where
  found := congrArg Except.ok hr
  refused _ _ hno := ⟨r.status, finish_of_not_open hr hrun fun hopen => hno hopen.1⟩
  accepted report now _ hterminal := by
    have haccepted : (m.run (.finish c run report now)).1 = .ok ((r.closed report now).touch now) :=
      finish_of_open hr hrun ⟨hterminal, .inr hcancelled⟩
    obtain ⟨before, hbefore, hafter, hagain⟩ := m.endsWith_writtenBy now _ haccepted
    have hstatus : (m.run (.status c)).1 = .ok (some .cancelled) := by
      rw [← hcancelled]
      exact congrArg (fun found => Except.ok (found.map Record.status)) hr
    cases hbefore.symm.trans hstatus
    exact ⟨_, haccepted, hafter, hagain⟩

theorem endsOnce (m : Memory) (c : CollectionId) (run : RunId) :
    EndsOnceUnlessCancelled Memory.run c run (fun _ _ => True) m := by
  intro first now written h
  obtain ⟨before, -, hget, hwritten⟩ := m.endsWith_writtenBy now written h
  have hafter : (m.run (.finish c run first now)).2.get c = some written := Except.ok.inj hget
  obtain ⟨-, hrun, -⟩ := of_accepted h
  refine ⟨⟨before, hwritten⟩, fun ops => ⟨fun hne hops => ?_, fun hcancelled hops => ?_⟩⟩
  · have hended := hwritten.isEnded hne
    refine endedForGood ?_ hrun hended
    exact after_induction Memory.run (P := fun m => m.get c = some written) hafter
      fun op hop m hm => Moves.of_isEnded (hm ▸ m.moves_run op c) hended (hops op hop)
  · refine mayEndAgain ?_ hrun hcancelled
    exact after_induction Memory.run (P := fun m => m.get c = some written) hafter
      fun op hop m hm =>
        Moves.of_cancelled_status (hm ▸ m.moves_run op c) hcancelled hrun (hops op hop)

end Memory

/-! ## Rows of a table -/

namespace Database

open History Finality

variable {db : Database} {c : CollectionId} {run : RunId} {report : RunReport} {now : Instant}
  {row : Row} {r written : Record}

theorem lawful_run (db : Database) (op : StoreOp) : op.Lawful (db.run op).1 := by
  cases op with
  | compareAndSet d expected next now =>
    intro hmoved status hmem
    have hmoved : (db.compareAndSet d expected next now).1 = .ok true := hmoved
    unfold Database.compareAndSet at hmoved
    split at hmoved
    · cases hmoved
    · cases hf : forbidden? expected next with
      | some stored =>
        rw [hf] at hmoved
        cases hmoved
      | none => simpa using List.find?_eq_none.mp hf status hmem
  | _ => trivial

theorem row?_of_isEnded (hkeyed : db.Keyed) (hrow : db.row? c = some row)
    (hended : row.status.isEnded = true) {op : StoreOp} (hop : ¬ op.reopens c) :
    (db.run op).2.row? c = some row :=
  (hrow ▸ moves_run hkeyed op c).of_isEnded (db.lawful_run op) hended hop

theorem finish_of_not_isTerminal (db : Database) (hno : ¬ report.status.isTerminal = true) :
    db.run (.finish c run report now) =
      (.error (.refused (.badMove .syncing report.status)), db) := by
  simp only [Database.run, Database.finish, if_neg hno]
  rfl

/-- An accepted end has closed the row of the run, in a terminal status. -/
theorem of_accepted (hkeyed : db.Keyed) (h : (db.run (.finish c run report now)).1 = .ok written) :
    report.status.isTerminal = true ∧ written.tokens = report.tokens ∧
      ∃ row, (db.run (.finish c run report now)).2.row? c = some row ∧ row.run = some run.text ∧
        row.Means written := by
  obtain ⟨row, -, hrun, -, hrow, hmeans⟩ := of_finished hkeyed h
  have htokens : Row.readTokens? (Row.tokensText report.tokens) = some written.tokens :=
    hmeans.tokens
  refine ⟨?_, Row.readTokens?_tokensText htokens, _, hrow, hrun, hmeans⟩
  by_cases hterminal : report.status.isTerminal = true
  · exact hterminal
  · rw [db.finish_of_not_isTerminal hterminal] at h
    cases h

theorem endsWith_writtenBy (hkeyed : db.Keyed) :
    EndsWith Database.run c run report (WrittenBy · report ·) db := by
  intro now written h
  obtain ⟨before, hbefore, hafter, hcloses⟩ := endsWith_closes hkeyed now written h
  obtain ⟨hterminal, htokens, -⟩ := of_accepted hkeyed h
  exact ⟨before, hbefore, hafter, hcloses, hterminal, htokens⟩

/-- The row of an ended run is not written by a further end, and the refusal tells its status. -/
theorem finish_of_not_open (hkeyed : db.Keyed) (hrow : db.row? c = some row) (hmeans : row.Means r)
    (hrun : r.run = some run) (hno : ¬ (row.status = .syncing ∨ row.status = .cancelled))
    (hterminal : report.status.isTerminal = true) :
    db.run (.finish c run report now) =
      (.error (.refused (.badMove r.status report.status)), db) := by
  obtain ⟨rows, htable, hkeys⟩ := hkeyed
  obtain ⟨v, table⟩ := db
  subst htable
  have hfound : find? rows c = some row := hrow
  have hnone : (update rows (mayEnd c run) (closed report (Time.microsText now))).1 = [] := by
    rw [update_returns hkeys (fun row h => ((mayEnd_iff c run row).mp h).1), hfound,
      Option.filter_some, if_neg fun h => hno ((mayEnd_iff c run row).mp h).2.2]
    rfl
  have hseen : existing c rows = .ok r := by
    simp only [existing, getRows, hfound, readRow_eq_ok.mpr hmeans]
    rfl
  show Database.finish ⟨v, .records rows⟩ c run report now = _
  rw [finish_eq v rows c run hterminal now, hnone, update_of_eq_nil hnone]
  simp only [refusesEnd, hseen, if_pos hrun]
  rfl

/-- A cancelled row of the run is closed again, as it can be read and what is written can be. -/
theorem finish_of_cancelled (hkeyed : db.Keyed) (hrow : db.row? c = some row) (hmeans : row.Means r)
    (hrun : row.run = some run.text) (hcancelled : row.status = .cancelled)
    (hterminal : report.status.isTerminal = true) (hnow : now.Storable)
    (htokens : TokensValid report.tokens) :
    ∃ again, (db.run (.finish c run report now)).1 = .ok again := by
  obtain ⟨rows, htable, hkeys⟩ := hkeyed
  obtain ⟨v, table⟩ := db
  subst htable
  have hfound : find? rows c = some row := hrow
  have hholds : mayEnd c run row = true :=
    (mayEnd_iff c run row).mpr ⟨find?_collection hfound, hrun, .inr hcancelled⟩
  have hreturned :=
    update_of_find? hkeys (fun row h => ((mayEnd_iff c run row).mp h).1) hfound hholds
    (closed report (Time.microsText now))
  obtain ⟨again, hagain⟩ := hmeans.exists_closed hnow htokens hrun
  refine ⟨again, ?_⟩
  show (Database.finish ⟨v, .records rows⟩ c run report now).1 = _
  rw [finish_eq v rows c run hterminal now, hreturned]
  exact readRow_eq_ok.mpr hagain

theorem endedForGood (hkeyed : db.Keyed) (hrow : db.row? c = some row) (hmeans : row.Means r)
    (hrun : r.run = some run) (hended : row.status.isEnded = true) :
    EndedForGood Database.run c run r db where
  found := get_of_row? hrow hmeans
  refused report now := by
    by_cases hterminal : report.status.isTerminal = true
    · exact ⟨r.status,
        finish_of_not_open hkeyed hrow hmeans hrun (Status.not_open_of_isEnded hended)
        hterminal⟩
    · exact ⟨.syncing, db.finish_of_not_isTerminal hterminal⟩

theorem mayEndAgain (hkeyed : db.Keyed) (hrow : db.row? c = some row) (hmeans : row.Means r)
    (hrun : row.run = some run.text) (hcancelled : row.status = .cancelled) :
    MayEndAgain Database.run c run (fun report now => TokensValid report.tokens ∧ now.Storable) r
      db where
  found := get_of_row? hrow hmeans
  refused _ _ hno := ⟨.syncing, db.finish_of_not_isTerminal hno⟩
  accepted report now hfits hterminal := by
    obtain ⟨again, haccepted⟩ :=
      finish_of_cancelled hkeyed hrow hmeans hrun hcancelled hterminal hfits.2 hfits.1
    obtain ⟨before, hbefore, hafter, hagain⟩ := endsWith_writtenBy hkeyed now again haccepted
    cases hbefore.symm.trans (hcancelled ▸ status_of_row? hrow)
    exact ⟨again, haccepted, hafter, hagain⟩

theorem endsOnce (hkeyed : db.Keyed) (c : CollectionId) (run : RunId) :
    EndsOnceUnlessCancelled Database.run c run
      (fun report now => TokensValid report.tokens ∧ now.Storable) db := by
  intro first now written h
  obtain ⟨before, -, -, hwritten⟩ := endsWith_writtenBy hkeyed now written h
  obtain ⟨-, -, row, hrow, hrun, hmeans⟩ := of_accepted hkeyed h
  have howner : written.run = some run := by
    have hread := hmeans.run
    rw [hrun] at hread
    exact Except.ok.inj (hread.symm.trans (Row.readRun_text (some run)))
  have hkeyed' := keyed_run hkeyed (.finish c run first now)
  refine ⟨⟨before, hwritten⟩, fun ops => ⟨fun hne hops => ?_, fun hcancelled hops => ?_⟩⟩
  · have hended : row.status.isEnded = true := hmeans.status ▸ hwritten.isEnded hne
    have hkept := after_induction Database.run (P := fun db => db.Keyed ∧ db.row? c = some row)
      ⟨hkeyed', hrow⟩ fun op hop db hdb =>
        ⟨keyed_run hdb.1 op, row?_of_isEnded hdb.1 hdb.2 hended (hops op hop)⟩
    exact endedForGood hkept.1 hkept.2 hmeans howner hended
  · have hstatus : row.status = .cancelled := hmeans.status.symm.trans hcancelled
    have hkept := after_induction Database.run (P := fun db => db.Keyed ∧ db.row? c = some row)
      ⟨hkeyed', hrow⟩ fun op hop db hdb => ⟨keyed_run hdb.1 op,
        Row.Moves.of_cancelled_status (hdb.2 ▸ moves_run hdb.1 op c) hstatus hrun (hops op hop)⟩
    exact mayEndAgain hkept.1 hkept.2 hmeans hrun hstatus

end Database

namespace Finality

open History

namespace Twice

def docs : CollectionId := ⟨"docs"⟩

def claim : StoreOp := .claim docs ⟨1⟩ ⟨60, 0⟩

/-- The end of the run, with a token for its drive. -/
def ending (status : Status) (token : String) (now : Instant) : StoreOp :=
  .finish docs ⟨1⟩ ⟨status, Dict.empty.insert ⟨"drive"⟩ ⟨token⟩, [], ⟨1, 0, 2, "a.pdf"⟩, none⟩ now

/-- The record after the end of the run. -/
def record (status : Status) (token : String) (now : Instant) : Record where
  collection := docs
  status
  progress := ⟨1, 0, 2, "a.pdf"⟩
  tokens := Dict.empty.insert ⟨"drive"⟩ ⟨token⟩
  failures := []
  run := some ⟨1⟩
  error := none
  startedAt := some ⟨60, 0⟩
  finishedAt := some now
  updatedAt := now

/-- The run ends as cancelled, ends again, and the store holds what the second end has written. -/
structure Accepted {σ : Type} (step : σ → (op : StoreOp) → Except StoreError op.Reply × σ)
    (s : σ) : Prop where
  first : (step (after step s [claim]) (ending .cancelled "t1" ⟨61, 0⟩)).1 =
    (.ok (record .cancelled "t1" ⟨61, 0⟩) : Except StoreError Record)
  second : (step (after step s [claim, ending .cancelled "t1" ⟨61, 0⟩])
    (ending .cancelled "t2" ⟨62, 0⟩)).1 =
      (.ok (record .cancelled "t2" ⟨62, 0⟩) : Except StoreError Record)
  found :
    (step (after step s [claim, ending .cancelled "t1" ⟨61, 0⟩, ending .cancelled "t2" ⟨62, 0⟩])
    (.get docs)).1 = (.ok (some (record .cancelled "t2" ⟨62, 0⟩)) :
      Except StoreError (Option Record))

end Twice

/-- An end of a run that is not accepted as cancelled is its last one, as long as nothing takes the
record back to `syncing`; one as cancelled is not. -/
theorem ends_once_unless_cancelled (c : CollectionId) (run : RunId) :
    (∀ (r written : Record) (first report : RunReport) (now now' : Instant),
      r.finish run first now = .ok written →
      (written.status ≠ .cancelled →
        written.finish run report now' = .error (.badMove written.status report.status)) ∧
      (written.status = .cancelled → report.status.isTerminal = true →
        ∃ again, written.finish run report now' = .ok again ∧ WrittenBy .cancelled report again)) ∧
    (∀ m : Memory, EndsOnceUnlessCancelled Memory.run c run (fun _ _ => True) m) ∧
    ∀ (v : Int) (rows : List Row), (rows.map (·.collection)).Nodup →
      EndsOnceUnlessCancelled Database.run c run
        (fun report now => TokensValid report.tokens ∧ now.Storable) ⟨v, .records rows⟩ := by
  refine ⟨fun r written first report now now' h => Record.finish_again h report now',
    fun m => m.endsOnce c run, fun v rows hkeys => ?_⟩
  have hkeyed : Database.Keyed ⟨v, .records rows⟩ := ⟨rows, rfl, hkeys⟩
  exact Database.endsOnce hkeyed c run

open Twice in
/-- The memory after a run has ended as completed, and everything that is refused since. -/
theorem ends_once_unless_cancelled_completed :
    let m := after Memory.run .empty [claim]
    let written := record .completed "t1" ⟨61, 0⟩
    let ops : List StoreOp := [.requestCancel docs ⟨62, 0⟩,
      .updateProgress docs ⟨1⟩ ⟨2, 0, 2, "b.pdf"⟩ ⟨63, 0⟩,
      .compareAndSet docs [.completed] .failed ⟨64, 0⟩]
    ((m.run (ending .completed "t1" ⟨61, 0⟩)).1 = (.ok written : Except StoreError Record) ∧
      written.status ≠ .cancelled ∧ ∀ op ∈ ops, ¬ op.reopens docs) ∧
      EndedForGood Memory.run docs ⟨1⟩ written
        (after Memory.run (m.run (ending .completed "t1" ⟨61, 0⟩)).2 ops) := by
  intro m written ops
  have hended : (m.run (ending .completed "t1" ⟨61, 0⟩)).1 =
      (.ok written : Except StoreError Record) :=
    rfl
  have hops : ∀ op ∈ ops, ¬ op.reopens docs := by simp [ops, StoreOp.reopens]
  exact ⟨⟨hended, by decide, hops⟩,
    (((ends_once_unless_cancelled docs ⟨1⟩).2.1 m _ _ _ hended).2 ops).1 (by decide) hops⟩

/-- A run that has ended as cancelled ends again, and writes over its record. -/
theorem cancelled_run_ends_twice :
    Twice.Accepted Memory.run .empty ∧ Twice.Accepted Database.run (.ofRecords []) := by
  have hok (α : Type) {result : Except StoreError α} {a : α} (h : result.toOption = some a) :
      result = .ok a := by
    cases result with
    | error e => cases h
    | ok b => exact congrArg Except.ok (Option.some.inj h)
  refine ⟨⟨rfl, rfl, rfl⟩, hok Record ?_, hok Record ?_, hok (Option Record) ?_⟩
  all_goals decide +kernel

end Finality

end CollectionSync
