import CollectionSync.Proofs.Dict
import CollectionSync.Proofs.Store.Moves
import CollectionSync.Store.Database

/-! # What an operation makes of a row

`moves_run` lists every way in which an operation of the database changes the row of a collection,
and what it answers then, as long as no collection has two rows. The rows may hold anything. -/

namespace CollectionSync

/-- How an operation with its answer changes the row of a collection. -/
inductive Row.Moves (c : CollectionId) : (op : StoreOp) → Except StoreError op.Reply →
    Option Row → Option Row → Prop
  | kept {op : StoreOp} {answer : Except StoreError op.Reply} (found : Option Row) :
    ¬ op.Wrote c answer → Moves c op answer found found
  | moved {row : Row} {expected : List Status} {next : Status} {now : Instant} :
    row.status ∈ expected →
    Moves c (.compareAndSet c expected next now) (.ok true) (some row)
      (some { row with
        status := next, updatedAt := laterText row.updatedAt (Time.microsText now) })
  | first {run : RunId} {now : Instant} :
    Moves c (.claim c run now)
      ((Database.readRow (Database.firstClaim c run (Time.microsText now))).map .claimed) none
      (some (Database.firstClaim c run (Time.microsText now)))
  | claimed {row : Row} {run : RunId} {now : Instant} :
    row.status ≠ .syncing →
    Moves c (.claim c run now)
      ((Database.readRow (Database.nextClaim run (Time.microsText now) row)).map .claimed)
        (some row)
      (some (Database.nextClaim run (Time.microsText now) row))
  | counted {row : Row} {run : RunId} {p : Progress} {settled : Nat} {now : Instant} :
    row.status = .syncing → row.run = some run.text → p.settled? = some settled →
    row.processed + row.failed ≤ counter settled →
    Moves c (.updateProgress c run p now) (.ok .applied) (some row)
      (some { row with
        processed := counter p.processed
        failed := counter p.failed
        total := counter p.total
        currentItem := p.currentItem
        updatedAt := laterText row.updatedAt (Time.microsText now) })
  | cancelled {row : Row} {now : Instant} :
    row.status = .syncing →
    Moves c (.requestCancel c now) (.ok true) (some row)
      (some { row with
        status := .cancelled, updatedAt := laterText row.updatedAt (Time.microsText now) })
  | closed {row : Row} {run : RunId} {report : RunReport} {now : Instant} :
    row.run = some run.text → report.status.isTerminal = true →
    row.status = .syncing ∨ row.status = .cancelled →
    Moves c (.finish c run report now)
      (Database.readRow (Database.closed report (Time.microsText now) row)) (some row)
      (some (Database.closed report (Time.microsText now) row))
  | interrupted {row : Row} {staleBefore now : Instant} {reason : String}
      {answer : Except StoreError (List CollectionId)} :
    row.status = .syncing → row.updatedAt < Time.microsText staleBefore →
    Moves c (.recover staleBefore reason now) answer (some row)
      (some (Database.interrupted reason (Time.microsText now) row))

/-! ## Computations that may fail -/

section

variable {ε α β : Type} {result : Except ε α} {f : α → Except ε β} {l : List α}

theorem bind_eq_ok {b : β} : (result >>= f) = .ok b ↔ ∃ a, result = .ok a ∧ f a = .ok b := by
  constructor
  · intro h
    cases result with
    | error e => cases h
    | ok a => exact ⟨a, rfl, h⟩
  · rintro ⟨a, rfl, h⟩
    exact h

theorem map_eq_ok {g : α → β} {b : β} : result.map g = .ok b ↔ ∃ a, result = .ok a ∧ g a = b := by
  cases result <;> simp [Except.map]

theorem map_eq_error {g : α → β} {e : ε} : result.map g = .error e ↔ result = .error e := by
  cases result <;> simp [Except.map]

/-- What a traversal has brought comes from one of its steps. -/
theorem exists_of_mapM_eq_ok {bs : List β} (h : l.mapM f = .ok bs) {b : β} (hb : b ∈ bs) :
    ∃ a ∈ l, f a = .ok b := by
  induction l generalizing bs with
  | nil =>
    cases h
    cases hb
  | cons a l ih =>
    rw [List.mapM_cons] at h
    obtain ⟨b', ha, h⟩ := bind_eq_ok.mp h
    obtain ⟨rest, hl, h⟩ := bind_eq_ok.mp h
    cases h
    rcases List.mem_cons.mp hb with rfl | hb
    · exact ⟨a, List.mem_cons_self, ha⟩
    · obtain ⟨x, hx, hfx⟩ := ih hl hb
      exact ⟨x, List.mem_cons_of_mem a hx, hfx⟩

/-- A traversal fails at one of its steps. -/
theorem exists_of_mapM_eq_error {e : ε} (h : l.mapM f = .error e) : ∃ a ∈ l, f a = .error e := by
  induction l with
  | nil => cases h
  | cons a l ih =>
    rw [List.mapM_cons] at h
    cases ha : f a with
    | error e' =>
      rw [ha] at h
      cases h
      exact ⟨a, List.mem_cons_self, ha⟩
    | ok b =>
      cases hl : l.mapM f with
      | error e' =>
        rw [ha, hl] at h
        cases h
        obtain ⟨x, hx, hfx⟩ := ih hl
        exact ⟨x, List.mem_cons_of_mem a hx, hfx⟩
      | ok bs =>
        rw [ha, hl] at h
        cases h

/-- A traversal fails where one of its steps does. -/
theorem mapM_eq_error_of_mem {a : α} {e : ε} (ha : a ∈ l) (h : f a = .error e) :
    ∃ e', l.mapM f = .error e' := by
  induction l with
  | nil => cases ha
  | cons b l ih =>
    rw [List.mapM_cons]
    cases hb : f b with
    | error e' => exact ⟨e', rfl⟩
    | ok b' =>
      rcases List.mem_cons.mp ha with rfl | ha
      · rw [h] at hb
        cases hb
      · obtain ⟨e', he'⟩ := ih ha
        exact ⟨e', by rw [he']; rfl⟩

end

namespace Database

/-- The row of a collection. -/
def row? (c : CollectionId) (db : Database) : Option Row :=
  match db.table with
  | .records rows => find? rows c
  | _ => none

/-- There is a table of records, and no collection has two rows, as the key of the table demands. -/
def Keyed (db : Database) : Prop :=
  ∃ rows, db.table = .records rows ∧ (rows.map (·.collection)).Nodup

variable {rows : List Row} {condition : Row → Bool} {change : Row → Row} {c d : CollectionId}

/-! ## Finding the row of a collection -/

theorem find?_collection {row : Row} (h : find? rows c = some row) : row.collection = c.text := by
  simpa using List.find?_some h

theorem find?_of_mem (hkeys : (rows.map (·.collection)).Nodup) {row : Row} (hrow : row ∈ rows)
    (hc : row.collection = c.text) : find? rows c = some row := by
  unfold find?
  induction rows with
  | nil => cases hrow
  | cons other rows ih =>
    obtain ⟨hfresh, hkeys⟩ := List.nodup_cons.mp hkeys
    rcases List.mem_cons.mp hrow with rfl | hrow
    · exact List.find?_cons_of_pos (decide_eq_true hc)
    · have hne : other.collection ≠ c.text := fun h =>
        hfresh (List.mem_map.mpr ⟨row, hrow, hc.trans h.symm⟩)
      rw [List.find?_cons_of_neg (by simpa using hne)]
      exact ih hkeys hrow

/-- A row of both collections makes them one. -/
theorem collection_eq_of_find? {row : Row} (hrow : find? rows c = some row)
    (h : row.collection = d.text) : d = c :=
  Dict.text_inj.mp (h.symm.trans (find?_collection hrow))

/-! ## Statements and what they return -/

/-- A statement that leaves the collections as they are changes the row of each where it holds. -/
theorem find?_update (rows : List Row) (condition : Row → Bool) (change : Row → Row)
    (hchange : ∀ row, (change row).collection = row.collection) (c : CollectionId) :
    find? (update rows condition change).2 c =
      (find? rows c).map fun row => if condition row then change row else row := by
  simp only [find?, update, List.find?_map]
  congr 2
  funext row
  simp only [Function.comp]
  split
  · rw [hchange]
  · rfl

/-- A statement that holds for no row changes none. -/
theorem update_of_eq_nil (h : (update rows condition change).1 = []) :
    (update rows condition change).2 = rows := by
  have hnone : ∀ row ∈ rows, ¬ condition row = true := by
    intro row hrow hcondition
    have hmem : change row ∈ (update rows condition change).1 :=
      List.mem_map_of_mem (List.mem_filter.mpr ⟨hrow, hcondition⟩)
    rw [h] at hmem
    cases hmem
  refine (List.map_congr_left fun row hrow => ?_).trans (List.map_id rows)
  rw [if_neg (hnone row hrow)]
  rfl

/-- What a statement returns first is a row for which it holds, as changed. -/
theorem exists_of_update_eq_cons {row : Row} {rest : List Row}
    (h : (update rows condition change).1 = row :: rest) :
    ∃ found ∈ rows, condition found = true ∧ change found = row := by
  have hmem : row ∈ (update rows condition change).1 := by
    rw [h]
    exact List.mem_cons_self
  obtain ⟨found, hfound, hrow⟩ := List.mem_map.mp hmem
  obtain ⟨hfound, hcondition⟩ := List.mem_filter.mp hfound
  exact ⟨found, hfound, hcondition, hrow⟩

/-- As a collection has one row, a statement for the collection returns that row or none. -/
theorem update_returns (hkeys : (rows.map (·.collection)).Nodup)
    (hc : ∀ row, condition row = true → row.collection = c.text) (change : Row → Row) :
    (update rows condition change).1 = (((find? rows c).filter condition).map change).toList := by
  have hfilter : rows.filter condition = ((find? rows c).filter condition).toList := by
    induction rows with
    | nil => rfl
    | cons other rows ih =>
      obtain ⟨hfresh, hkeys⟩ := List.nodup_cons.mp hkeys
      by_cases hother : other.collection = c.text
      · have hfound : find? (other :: rows) c = some other :=
          List.find?_cons_of_pos (decide_eq_true hother)
        have hrest : rows.filter condition = [] := by
          refine List.filter_eq_nil_iff.mpr fun row hrow hcondition => ?_
          exact hfresh (List.mem_map.mpr ⟨row, hrow, (hc row hcondition).trans hother.symm⟩)
        rw [hfound, List.filter_cons, hrest]
        cases h : condition other <;> simp [Option.filter, h]
      · have hfound : find? (other :: rows) c = find? rows c :=
          List.find?_cons_of_neg (by simpa using hother)
        rw [hfound, List.filter_cons_of_neg fun h => hother (hc other h)]
        exact ih hkeys
  rw [update, hfilter]
  cases (find? rows c).filter condition <;> rfl

theorem update_of_find? (hkeys : (rows.map (·.collection)).Nodup)
    (hc : ∀ row, condition row = true → row.collection = c.text) {row : Row}
    (hrow : find? rows c = some row) (hholds : condition row = true) (change : Row → Row) :
    (update rows condition change).1 = [change row] := by
  rw [update_returns hkeys hc, hrow, Option.filter_some, if_pos hholds]
  rfl

/-- An operation that makes one statement for one collection, and answers by what it returned. -/
theorem moves_update (op : StoreOp) (answer : List Row → Except StoreError op.Reply)
    (hkeys : (rows.map (·.collection)).Nodup) (c : CollectionId)
    (hd : ∀ row, condition row = true → row.collection = d.text)
    (hchange : ∀ row, (change row).collection = row.collection)
    (hother : ∀ l, op.Wrote c (answer l) → d = c) (hnone : ¬ op.Wrote c (answer []))
    (hmoves : ∀ row, d = c → condition row = true →
      Row.Moves c op (answer [change row]) (some row) (some (change row))) :
    Row.Moves c op (answer (update rows condition change).1) (find? rows c)
      (find? (update rows condition change).2 c) := by
  rw [find?_update rows condition change hchange c]
  by_cases hdc : d = c
  · subst hdc
    rw [update_returns hkeys hd]
    cases hrow : find? rows d with
    | none => exact .kept none hnone
    | some row =>
      by_cases hcondition : condition row = true
      · rw [Option.filter_some, if_pos hcondition, Option.map_some, Option.map_some,
          if_pos hcondition]
        exact hmoves row rfl hcondition
      · rw [Option.filter_some, if_neg hcondition, Option.map_some, if_neg hcondition]
        exact .kept (some row) hnone
  · have hkept : ((find? rows c).map fun row => if condition row then change row else row) =
        find? rows c := by
      cases hrow : find? rows c with
      | none => rfl
      | some row =>
        have hno : ¬ condition row = true := fun h => hdc (collection_eq_of_find? hrow (hd row h))
        rw [Option.map_some, if_neg hno]
    rw [hkept]
    exact .kept _ fun h => hdc (hother _ h)

theorem keyed_update (hkeys : (rows.map (·.collection)).Nodup)
    (hchange : ∀ row, (change row).collection = row.collection) :
    ((update rows condition change).2.map (·.collection)).Nodup := by
  have hsame : (update rows condition change).2.map (·.collection) = rows.map (·.collection) := by
    rw [update, List.map_map]
    refine List.map_congr_left fun row _ => ?_
    simp only [Function.comp]
    split
    · exact hchange row
    · rfl
  rwa [hsame]

/-! ## The operations one by one -/

/-- The text of a collection is kept by reading it. -/
theorem eq_text_of_readCollection {row : Row} (h : readCollection row = .ok c) :
    row.collection = c.text := by
  unfold readCollection Row.readCollection CollectionId.ofText at h
  split at h
  · next c' hread =>
    cases h
    split at hread
    · next heq =>
      split at heq <;> cases heq
      cases hread
      rfl
    · cases hread
  · cases h

/-- Which rows the end of a run holds for. -/
def mayEnd (c : CollectionId) (run : RunId) : Row → Bool := fun row =>
  row.collection = c.text && row.run == some run.text &&
    (row.status == .syncing || row.status == .cancelled)

theorem mayEnd_iff (c : CollectionId) (run : RunId) (row : Row) : mayEnd c run row = true ↔
    row.collection = c.text ∧ row.run = some run.text ∧
      (row.status = .syncing ∨ row.status = .cancelled) := by
  simp only [mayEnd, Bool.and_eq_true, Bool.or_eq_true, decide_eq_true_eq, beq_iff_eq, and_assoc]

/-- What a run is told whose end holds for no row. -/
def refusesEnd (c : CollectionId) (run : RunId) (report : RunReport) (rows : List Row) :
    Except StoreError Record :=
  match existing c rows with
  | .error e => .error e
  | .ok r => if r.run = some run then .error (.refused (.badMove r.status report.status))
    else .error (.refused (.notOwner c run))

theorem refusesEnd_ne_ok {run : RunId} {report : RunReport} (r : Record) :
    refusesEnd c run report rows ≠ .ok r := by
  unfold refusesEnd
  split
  · exact nofun
  · split <;> exact nofun

/-- The end of a run is one statement, answered by the row that it returns. -/
theorem finish_eq (v : Int) (rows : List Row) (c : CollectionId) (run : RunId) {report : RunReport}
    (hterminal : report.status.isTerminal = true) (now : Instant) :
    Database.finish ⟨v, .records rows⟩ c run report now =
      (match (update rows (mayEnd c run) (closed report (Time.microsText now))).1 with
        | row :: _ => readRow row
        | [] => refusesEnd c run report (update rows (mayEnd c run)
            (closed report (Time.microsText now))).2,
        ⟨v, .records (update rows (mayEnd c run) (closed report (Time.microsText now))).2⟩) := by
  unfold Database.finish
  rw [if_pos hterminal]
  unfold mayEnd refusesEnd
  simp only [withRows]
  generalize update rows _ (closed report (Time.microsText now)) = done
  obtain ⟨changed, after⟩ := done
  cases changed with
  | cons row rest => rfl
  | nil =>
    cases existing c after with
    | error e => rfl
    | ok r =>
      simp only
      split <;> rfl

/-- Which rows a claim holds for. -/
def mayClaim (c : CollectionId) : Row → Bool := fun row =>
  row.collection = c.text && row.status != .syncing

theorem mayClaim_iff (c : CollectionId) (row : Row) : mayClaim c row = true ↔
    row.collection = c.text ∧ row.status ≠ .syncing := by
  simp only [mayClaim, Bool.and_eq_true, decide_eq_true_eq, bne_iff_ne]

/-- Where a collection has a row, a claim is one statement, answered by the row that it returns. -/
theorem claim_eq (v : Int) {old : Row} (hold : find? rows c = some old) (run : RunId)
    (now : Instant) :
    Database.claim ⟨v, .records rows⟩ c run now =
      (match (update rows (mayClaim c) (nextClaim run (Time.microsText now))).1 with
        | row :: _ => (readRow row).map .claimed
        | [] => (existing c (update rows (mayClaim c)
            (nextClaim run (Time.microsText now))).2).map .conflict,
        ⟨v, .records (update rows (mayClaim c) (nextClaim run (Time.microsText now))).2⟩) := by
  unfold Database.claim mayClaim
  simp only [withRows, hold]
  generalize update rows _ (nextClaim run (Time.microsText now)) = done
  obtain ⟨changed, after⟩ := done
  cases changed <;> rfl

/-- A first claim adds a row for its collection and no other one. -/
theorem find?_append_firstClaim (hnone : find? rows d = none) (run : RunId) (now : String)
    (c : CollectionId) :
    find? (rows ++ [firstClaim d run now]) c =
      if d = c then some (firstClaim d run now) else find? rows c := by
  unfold find? at hnone ⊢
  rw [List.find?_append]
  by_cases hdc : d = c
  · subst hdc
    simp [hnone, firstClaim]
  · have hne : ¬ d.text = c.text := fun h => hdc (Dict.text_inj.mp h)
    simp [firstClaim, hdc, hne]

section

variable (v : Int) (hkeys : (rows.map (·.collection)).Nodup) (c) (d)

include hkeys

theorem moves_compareAndSet (expected : List Status) (next : Status) (now : Instant) :
    Row.Moves c (.compareAndSet d expected next now)
      (Database.compareAndSet ⟨v, .records rows⟩ d expected next now).1 (find? rows c)
      (row? c (Database.compareAndSet ⟨v, .records rows⟩ d expected next now).2) := by
  unfold Database.compareAndSet
  split
  · exact .kept _ fun h => by cases h.2
  · cases forbidden? expected next with
    | some stored => exact .kept _ fun h => by cases h.2
    | none =>
      have hholds : ∀ row : Row,
          (decide (row.collection = d.text) && expected.contains row.status) =
          true → row.collection = d.text ∧ row.status ∈ expected := by
        intro row h
        rwa [Bool.and_eq_true, decide_eq_true_eq, List.contains_iff_mem] at h
      refine moves_update (.compareAndSet d expected next now) (fun l =>
        .ok (l.length == 1)) hkeys c
        (fun row h => (hholds row h).1) (fun _ => rfl) (fun l h => h.1) (fun h => by cases h.2)
        fun row hdc h => ?_
      subst hdc
      exact .moved (hholds row h).2

theorem moves_requestCancel (now : Instant) :
    Row.Moves c (.requestCancel d now) (Database.requestCancel ⟨v, .records rows⟩ d now).1
      (find? rows c) (row? c (Database.requestCancel ⟨v, .records rows⟩ d now).2) := by
  have hholds : ∀ row : Row, (decide (row.collection = d.text) &&
      [Status.syncing].contains row.status) = true → row.collection = d.text ∧
        row.status = .syncing := by
    intro row h
    rwa [Bool.and_eq_true, decide_eq_true_eq, List.contains_iff_mem, List.mem_singleton] at h
  refine moves_update (.requestCancel d now) (fun l => .ok (l.length == 1)) hkeys c
    (fun row h => (hholds row h).1) (fun _ => rfl) (fun l h => h.1) (fun h => by cases h.2)
    fun row hdc h => ?_
  subst hdc
  exact .cancelled (hholds row h).2

theorem moves_updateProgress (run : RunId) (p : Progress) (now : Instant) :
    Row.Moves c (.updateProgress d run p now)
      (Database.updateProgress ⟨v, .records rows⟩ d run p now).1 (find? rows c)
      (row? c (Database.updateProgress ⟨v, .records rows⟩ d run p now).2) := by
  unfold Database.updateProgress
  cases hsettled : p.settled? with
  | none => exact .kept _ fun h => by cases h.2
  | some settled =>
    have hholds : ∀ row : Row, (decide (row.collection = d.text) && row.status == .syncing &&
        row.run == some run.text && decide (row.processed + row.failed ≤ Row.counter settled)) =
          true → row.collection = d.text ∧ row.status = .syncing ∧ row.run = some run.text ∧
            row.processed + row.failed ≤ Row.counter settled := by
      intro row h
      simpa only [Bool.and_eq_true, decide_eq_true_eq, beq_iff_eq, and_assoc] using h
    refine moves_update (.updateProgress d run p now)
      (fun l => .ok (if l.length = 1 then .applied else .discarded)) hkeys c
      (fun row h => (hholds row h).1) (fun _ => rfl) (fun l h => h.1) (fun h => by cases h.2)
      fun row hdc h => ?_
    subst hdc
    obtain ⟨-, hs, hrun, hback⟩ := hholds row h
    exact .counted hs hrun hsettled hback

theorem moves_finish (run : RunId) (report : RunReport) (now : Instant) :
    Row.Moves c (.finish d run report now) (Database.finish ⟨v, .records rows⟩ d run report now).1
      (find? rows c) (row? c (Database.finish ⟨v, .records rows⟩ d run report now).2) := by
  by_cases hterminal : report.status.isTerminal = true
  · rw [finish_eq v rows d run hterminal now]
    refine moves_update (.finish d run report now) (fun
        | row :: _ => readRow row
        | [] => refusesEnd d run report _) hkeys c
      (fun row h => ((mayEnd_iff d run row).mp h).1) (fun _ => rfl) (fun l h => h.1)
      (fun h => refusesEnd_ne_ok _ h.2.choose_spec) fun row hdc h => ?_
    subst hdc
    obtain ⟨-, hrun, hs⟩ := (mayEnd_iff d run row).mp h
    exact .closed hrun hterminal hs
  · unfold Database.finish
    rw [if_neg hterminal]
    exact .kept _ fun h => by cases h.2.choose_spec

theorem moves_claim (run : RunId) (now : Instant) :
    Row.Moves c (.claim d run now) (Database.claim ⟨v, .records rows⟩ d run now).1 (find? rows c)
      (row? c (Database.claim ⟨v, .records rows⟩ d run now).2) := by
  cases hfound : find? rows d with
  | none =>
    simp only [Database.claim, withRows, row?, hfound, find?_append_firstClaim hfound]
    by_cases hdc : d = c
    · subst hdc
      rw [if_pos rfl, hfound]
      exact .first
    · rw [if_neg hdc]
      exact .kept _ fun h => hdc h.1
  | some old =>
    rw [claim_eq v hfound]
    refine moves_update (.claim d run now) (fun
        | row :: _ => (readRow row).map .claimed
        | [] => (existing d _).map .conflict) hkeys c
      (fun row h => ((mayClaim_iff d row).mp h).1) (fun _ => rfl) (fun l h => h.1) (fun h => ?_)
      fun row hdc h => ?_
    · obtain ⟨-, r, hr⟩ := h
      simp only at hr
      generalize existing d _ = seen at hr
      cases seen <;> cases hr
    · subst hdc
      exact .claimed ((mayClaim_iff d row).mp h).2

theorem moves_recover (staleBefore : Instant) (reason : String) (now : Instant) :
    Row.Moves c (.recover staleBefore reason now)
      (Database.recover ⟨v, .records rows⟩ staleBefore reason now).1 (find? rows c)
      (row? c (Database.recover ⟨v, .records rows⟩ staleBefore reason now).2) := by
  simp only [Database.recover, withRows, row?]
  rw [find?_update rows _ (interrupted reason (Time.microsText now)) (fun _ => rfl) c]
  -- whatever was read of a recovered collection is the text of a stale row
  have hstale : ∀ l : List CollectionId, ((byLastWrite (rows.filter
      (isStale (Time.microsText staleBefore)))).mapM readCollection).map
        (fun l => l.mergeSort fun a b => !(b.text < a.text)) = .ok l → c ∈ l →
      ∃ row, find? rows c = some row ∧ isStale (Time.microsText staleBefore) row = true := by
    intro l hl hc
    obtain ⟨read, hread, rfl⟩ := map_eq_ok.mp hl
    obtain ⟨row, hrow, hcollection⟩ := exists_of_mapM_eq_ok hread (List.mem_mergeSort.mp hc)
    obtain ⟨hmem, hst⟩ := List.mem_filter.mp (List.mem_mergeSort.mp hrow)
    exact ⟨row, find?_of_mem hkeys hmem (eq_text_of_readCollection hcollection), hst⟩
  cases hrow : find? rows c with
  | none =>
    refine .kept none fun h => ?_
    obtain ⟨l, hl, hc⟩ := h
    obtain ⟨row, hrow', -⟩ := hstale l hl hc
    rw [hrow] at hrow'
    cases hrow'
  | some row =>
    rw [Option.map_some]
    by_cases hst : isStale (Time.microsText staleBefore) row = true
    · rw [if_pos hst]
      simp only [isStale, Bool.and_eq_true, beq_iff_eq, decide_eq_true_eq] at hst
      exact .interrupted hst.1 hst.2
    · rw [if_neg hst]
      refine .kept _ fun h => ?_
      obtain ⟨l, hl, hc⟩ := h
      obtain ⟨row', hrow', hst'⟩ := hstale l hl hc
      rw [hrow, Option.some.injEq] at hrow'
      exact hst (hrow' ▸ hst')

end

/-- Every operation changes the row of a collection in one of these ways or leaves it. -/
theorem moves_run {db : Database} (hkeyed : db.Keyed) (op : StoreOp) (c : CollectionId) :
    Row.Moves c op (db.run op).1 (db.row? c) ((db.run op).2.row? c) := by
  obtain ⟨rows, htable, hkeys⟩ := hkeyed
  obtain ⟨v, table⟩ := db
  subst htable
  cases op with
  | get d => exact .kept _ id
  | status d => exact .kept _ id
  | compareAndSet d expected next now => exact moves_compareAndSet c d v hkeys expected next now
  | claim d run now => exact moves_claim c d v hkeys run now
  | updateProgress d run p now => exact moves_updateProgress c d v hkeys run p now
  | requestCancel d now => exact moves_requestCancel c d v hkeys now
  | finish d run report now => exact moves_finish c d v hkeys run report now
  | recover staleBefore reason now => exact moves_recover c v hkeys staleBefore reason now

/-- No operation gives a collection a second row. -/
theorem keyed_run {db : Database} (hkeyed : db.Keyed) (op : StoreOp) : (db.run op).2.Keyed := by
  obtain ⟨rows, htable, hkeys⟩ := hkeyed
  obtain ⟨v, table⟩ := db
  subst htable
  have hsame : Keyed ⟨v, .records rows⟩ := ⟨rows, rfl, hkeys⟩
  have hupdate : ∀ {condition : Row → Bool} {change : Row → Row},
      (∀ row, (change row).collection = row.collection) →
      Keyed ⟨v, .records (update rows condition change).2⟩ :=
    fun hchange => ⟨_, rfl, keyed_update hkeys hchange⟩
  have hswap : ∀ (c : CollectionId) (expected : List Status) (next : Status) (now : Instant),
      (Database.compareAndSet ⟨v, .records rows⟩ c expected next now).2.Keyed := by
    intro c expected next now
    unfold Database.compareAndSet
    split
    · exact hsame
    · split
      · exact hsame
      · exact hupdate fun _ => rfl
  cases op with
  | get c => exact hsame
  | status c => exact hsame
  | compareAndSet c expected next now => exact hswap c expected next now
  | requestCancel c now => exact hswap c [.syncing] .cancelled now
  | recover staleBefore reason now => exact hupdate fun _ => rfl
  | updateProgress c run p now =>
    simp only [Database.run, Database.updateProgress]
    split
    · exact hsame
    · exact hupdate fun _ => rfl
  | claim c run now =>
    show (Database.claim ⟨v, .records rows⟩ c run now).2.Keyed
    cases hfound : find? rows c with
    | some old =>
      rw [claim_eq v hfound]
      exact hupdate fun _ => rfl
    | none =>
      simp only [Database.claim, withRows, hfound]
      refine ⟨_, rfl, ?_⟩
      rw [List.map_append]
      refine List.nodup_append.mpr ⟨hkeys, List.nodup_cons.mpr ⟨List.not_mem_nil, .nil⟩, ?_⟩
      intro a ha b hb hab
      obtain ⟨row, hrow, rfl⟩ := List.mem_map.mp ha
      rw [List.mem_singleton.mp hb] at hab
      rw [find?_of_mem hkeys hrow hab] at hfound
      cases hfound
  | finish c run report now =>
    show (Database.finish ⟨v, .records rows⟩ c run report now).2.Keyed
    by_cases hterminal : report.status.isTerminal = true
    · rw [finish_eq v rows c run hterminal now]
      exact hupdate fun _ => rfl
    · simp only [Database.finish, if_neg hterminal]
      exact hsame

end Database

end CollectionSync
