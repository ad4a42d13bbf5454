import CollectionSync.Proofs.Store.History
import CollectionSync.Proofs.Store.Moves
import CollectionSync.Proofs.Store.Rows

/-! # Collections do not interfere

What an operation on a collection answers and writes depends on what the store holds of that
collection and on nothing else, and it writes nothing else. So two sequences of operations on two
collections go together, however they are merged, as each of them goes alone. -/

namespace CollectionSync

/-- The operation is on this collection. A recovery is on none. -/
def StoreOp.IsOn (c : CollectionId) : StoreOp → Prop
  | .get d | .status d | .compareAndSet d .. | .claim d .. | .updateProgress d ..
  | .requestCancel d _ | .finish d .. => d = c
  | .recover .. => False

namespace Separation

open History

/-! ## Merged histories -/

/-- The third sequence has the members of the first and of the second, those of each in their
order. -/
inductive Merges {α : Type} : List α → List α → List α → Prop
  | nil : Merges [] [] []
  | left {a : α} {l₁ l₂ l : List α} : Merges l₁ l₂ l → Merges (a :: l₁) l₂ (a :: l)
  | right {a : α} {l₁ l₂ l : List α} : Merges l₁ l₂ l → Merges l₁ (a :: l₂) (a :: l)

section

variable {σ β : Type} (step : σ → (op : StoreOp) → Except StoreError op.Reply × σ)
  (view : CollectionId → σ → β)

/-- What an operation does is decided by what the store holds of its collection, and done there. -/
structure Confined : Prop where
  own : ∀ {c op s t}, StoreOp.IsOn c op → view c s = view c t →
    (step s op).1 = (step t op).1 ∧ view c (step s op).2 = view c (step t op).2
  others : ∀ {c d op} s, StoreOp.IsOn c op → d ≠ c → view d (step s op).2 = view d s

/-- The sequences of two collections go merged as each of them goes alone, from the same store. -/
structure GoTogether (s : σ) (c d : CollectionId) (l₁ l₂ l : List StoreOp) : Prop where
  /-- Each operation has the answer that it has in its own sequence. -/
  answers : Merges (answers step s l₁) (answers step s l₂) (answers step s l)
  first : view c (after step s l) = view c (after step s l₁)
  second : view d (after step s l) = view d (after step s l₂)
  others : ∀ e, e ≠ c → e ≠ d → view e (after step s l) = view e s

variable {step view} {c d : CollectionId} {l₁ l₂ l : List StoreOp}

/-- A merge keeps up with the two sequences as long as each of them has found its own collection as
the merge has. -/
theorem Confined.goTogether (h : Confined step view) (hcd : c ≠ d)
    (h₁ : ∀ op ∈ l₁, StoreOp.IsOn c op)
    (h₂ : ∀ op ∈ l₂, StoreOp.IsOn d op) (hl : Merges l₁ l₂ l) {s s₁ s₂ : σ}
    (hs₁ : view c s = view c s₁) (hs₂ : view d s = view d s₂) :
    Merges (answers step s₁ l₁) (answers step s₂ l₂) (answers step s l) ∧
      view c (after step s l) = view c (after step s₁ l₁) ∧
      view d (after step s l) = view d (after step s₂ l₂) ∧
      ∀ e, e ≠ c → e ≠ d → view e (after step s l) = view e s := by
  induction hl generalizing s s₁ s₂ with
  | nil => exact ⟨.nil, hs₁, hs₂, fun _ _ _ => rfl⟩
  | @left op l₁ l₂ l _ ih =>
    have hop := h₁ op List.mem_cons_self
    obtain ⟨hanswer, hview⟩ := h.own hop hs₁
    obtain ⟨hanswers, hc, hd, he⟩ :=
      ih (fun op' hop' => h₁ op' (List.mem_cons_of_mem op hop')) h₂ hview
      ((h.others s hop hcd.symm).trans hs₂)
    refine ⟨?_, hc, hd, fun e hec hed => (he e hec hed).trans (h.others s hop hec)⟩
    rw [History.answers, History.answers, hanswer]
    exact .left hanswers
  | @right op l₁ l₂ l _ ih =>
    have hop := h₂ op List.mem_cons_self
    obtain ⟨hanswer, hview⟩ := h.own hop hs₂
    obtain ⟨hanswers, hc, hd, he⟩ := ih h₁ (fun op' hop' => h₂ op' (List.mem_cons_of_mem op hop'))
      ((h.others s hop hcd).trans hs₁) hview
    refine ⟨?_, hc, hd, fun e hec hed => (he e hec hed).trans (h.others s hop hed)⟩
    rw [History.answers, History.answers, hanswer]
    exact .right hanswers

end

/-! ## Records in memory -/

/-- The record of a collection. -/
abbrev recordOf (c : CollectionId) (m : Memory) : Option Record := m.get c

theorem confined_memory : Confined Memory.run recordOf where
  own {c op m m'} hop h := by
    have h : m.get c = m'.get c := h
    cases op with
    | recover => exact hop.elim
    | get d =>
      obtain rfl := hop
      exact ⟨congrArg Except.ok h, h⟩
    | status d =>
      obtain rfl := hop
      have hstatus : (m.get d).map (·.status) = (m'.get d).map (·.status) := congrArg _ h
      exact ⟨congrArg Except.ok hstatus, h⟩
    | compareAndSet d expected next now =>
      obtain rfl := hop
      simp only [recordOf, Memory.run, Memory.compareAndSet, h]
      cases forbidden? expected next with
      | some stored => exact ⟨rfl, h⟩
      | none =>
        cases hr : m'.get d with
        | none => exact ⟨rfl, h⟩
        | some r =>
          by_cases hex : expected.contains r.status = true
          · simp only [hex, if_true]
            cases r.moveTo next now with
            | ok r' => exact ⟨rfl, by rw [Memory.get_set, Memory.get_set]⟩
            | error refusal => exact ⟨rfl, h⟩
          · simp only [hex]
            exact ⟨rfl, h⟩
    | claim d run now =>
      obtain rfl := hop
      simp only [recordOf, Memory.run, Memory.claim, h]
      cases ((m'.get d).getD (.idle d now)).beginRun run now with
      | ok r => exact ⟨rfl, by rw [Memory.get_set, Memory.get_set]⟩
      | error refusal => exact ⟨rfl, h⟩
    | updateProgress d run p now =>
      obtain rfl := hop
      simp only [recordOf, Memory.run, Memory.updateProgress, h]
      cases hr : m'.get d with
      | none => exact ⟨rfl, h⟩
      | some r =>
        simp only
        cases r.applyProgress? run p now with
        | none => exact ⟨rfl, h⟩
        | some written => exact ⟨rfl, by rw [Memory.get_set, Memory.get_set]⟩
    | requestCancel d now =>
      obtain rfl := hop
      simp only [recordOf, Memory.run, Memory.requestCancel, h]
      cases hr : m'.get d with
      | none => exact ⟨rfl, h⟩
      | some r => exact ⟨rfl, by rw [Memory.get_set, Memory.get_set]⟩
    | finish d run report now =>
      obtain rfl := hop
      simp only [recordOf, Memory.run, Memory.finish, h]
      cases hr : m'.get d with
      | none => exact ⟨rfl, h⟩
      | some r =>
        simp only
        cases r.finish run report now with
        | ok r' => exact ⟨rfl, by rw [Memory.get_set, Memory.get_set]⟩
        | error refusal => exact ⟨rfl, h⟩
  others {c d op} m hop hdc := by
    refine (m.moves_run op d).unchanged fun hwrote => ?_
    cases op with
    | get | status => exact hwrote
    | recover => exact hop
    | compareAndSet | claim | updateProgress | requestCancel | finish =>
      exact hdc (hwrote.1.symm.trans hop)

/-! ## Records in a table -/

/-- The rows of a collection, of which a table with a key has one at most. -/
def rowsOf (c : CollectionId) (rows : List Row) : List Row :=
  rows.filter fun r => r.collection = c.text

variable {rows rows' : List Row} {c d : CollectionId}

theorem find?_rowsOf (c : CollectionId) (rows : List Row) :
    Database.find? (rowsOf c rows) c = Database.find? rows c := by
  unfold rowsOf Database.find?
  rw [List.find?_filter]
  congr 1
  funext row
  simp only [decide_eq_true_eq, and_self]

/-- What a query on a collection answers is read from the rows of the collection. -/
theorem getRows_rowsOf (c : CollectionId) (rows : List Row) :
    Database.getRows c (rowsOf c rows) = Database.getRows c rows := by
  simp only [Database.getRows, find?_rowsOf]

theorem existing_rowsOf (c : CollectionId) (rows : List Row) :
    Database.existing c (rowsOf c rows) = Database.existing c rows := by
  simp only [Database.existing, getRows_rowsOf]

theorem find?_congr (h : rowsOf c rows = rowsOf c rows') :
    Database.find? rows c = Database.find? rows' c := by
  rw [← find?_rowsOf, h, find?_rowsOf]

theorem existing_congr (h : rowsOf c rows = rowsOf c rows') :
    Database.existing c rows = Database.existing c rows' := by
  rw [← existing_rowsOf, h, existing_rowsOf]

section

variable {condition : Row → Bool} {change : Row → Row}

/-- A statement that keeps the collections of the rows makes of those of one what it makes of them
alone. -/
theorem rowsOf_update (hchange : ∀ row, (change row).collection = row.collection) (c : CollectionId)
    (rows : List Row) :
    rowsOf c (Database.update rows condition change).2 =
    (Database.update (rowsOf c rows) condition change).2 := by
  simp only [rowsOf, Database.update, List.filter_map]
  congr 2
  funext row
  simp only [Function.comp]
  split
  · rw [hchange]
  · rfl

/-- A statement for one collection returns what it returns of the rows of the collection. -/
theorem update_rowsOf (hcondition : ∀ row, condition row = true → row.collection = c.text)
    (rows : List Row) :
    (Database.update (rowsOf c rows) condition change).1 =
    (Database.update rows condition change).1 := by
  simp only [rowsOf, Database.update, List.filter_filter]
  congr 2
  funext row
  by_cases hrow : condition row = true
  · simp only [hrow, hcondition row hrow, decide_true, Bool.and_true]
  · simp only [Bool.eq_false_iff.mpr hrow, Bool.false_and]

/-- A statement for one collection leaves the rows of another one. -/
theorem rowsOf_update_of_ne (hcondition : ∀ row, condition row = true → row.collection = c.text)
    (hchange : ∀ row, (change row).collection = row.collection) (hdc : d ≠ c) (rows : List Row) :
    rowsOf d (Database.update rows condition change).2 = rowsOf d rows := by
  rw [rowsOf_update hchange, Database.update]
  refine (List.map_congr_left fun row hrow => ?_).trans (List.map_id _)
  have hd : row.collection = d.text := of_decide_eq_true (List.mem_filter.mp hrow).2
  refine if_neg fun hholds => hdc ?_
  exact Dict.text_inj.mp (hd.symm.trans (hcondition row hholds))

end

/-- What is done with the rows of a table is decided by those of the collection, and done to
them. -/
structure ConfinedTo {α : Type} (c : CollectionId) (f : List Row → α × List Row) : Prop where
  own : ∀ {rows rows'}, rowsOf c rows = rowsOf c rows' →
    (f rows).1 = (f rows').1 ∧ rowsOf c (f rows).2 = rowsOf c (f rows').2
  others : ∀ {d} rows, d ≠ c → rowsOf d (f rows).2 = rowsOf d rows

theorem confinedTo_query {α : Type} {f : List Row → α}
    (h : ∀ {rows rows'}, rowsOf c rows = rowsOf c rows' → f rows = f rows') :
    ConfinedTo c fun rows => (f rows, rows) where
  own hrows := ⟨h hrows, hrows⟩
  others _ _ := rfl

theorem confinedTo_update {α : Type} {condition : Row → Bool} (change : Row → Row)
    (f : List Row → List Row → α) (hcondition : ∀ row, condition row = true →
      row.collection = c.text)
    (hchange : ∀ row, (change row).collection = row.collection)
    (hf : ∀ changed {rows rows'}, rowsOf c rows = rowsOf c rows' →
      f changed rows = f changed rows') :
    ConfinedTo c fun rows =>
      (f (Database.update rows condition change).1 (Database.update rows condition change).2,
        (Database.update rows condition change).2) where
  own {rows rows'} hrows := by
    have hchanged : (Database.update rows condition change).1 =
        (Database.update rows' condition change).1 := by
      rw [← update_rowsOf hcondition, hrows, update_rowsOf hcondition]
    have hafter : rowsOf c (Database.update rows condition change).2 =
        rowsOf c (Database.update rows' condition change).2 := by
      rw [rowsOf_update hchange, hrows, rowsOf_update hchange]
    exact ⟨(congrArg (f · _) hchanged).trans (hf _ hafter), hafter⟩
  others rows hdc := rowsOf_update_of_ne hcondition hchange hdc rows

/-- What a claim is answered where the collection has a row, from the rows that it has changed. -/
def claimAnswer (c : CollectionId) (changed rows : List Row) : Except StoreError ClaimOutcome :=
  match changed with
  | row :: _ => (Database.readRow row).map .claimed
  | [] => (Database.existing c rows).map .conflict

/-- What the end of a run is answered, from the rows that it has changed. -/
def endAnswer (c : CollectionId) (run : RunId) (report : RunReport) (changed rows : List Row) :
    Except StoreError Record :=
  match changed with
  | row :: _ => Database.readRow row
  | [] => Database.refusesEnd c run report rows

/-- The answer to a claim, and the rows after it. -/
def claimRows (c : CollectionId) (run : RunId) (now : String) (rows : List Row) :
    Except StoreError ClaimOutcome × List Row :=
  match Database.find? rows c with
  | none => ((Database.readRow (Database.firstClaim c run now)).map .claimed,
      rows ++ [Database.firstClaim c run now])
  | some _ =>
    (claimAnswer c (Database.update rows (Database.mayClaim c) (Database.nextClaim run now)).1
        (Database.update rows (Database.mayClaim c) (Database.nextClaim run now)).2,
      (Database.update rows (Database.mayClaim c) (Database.nextClaim run now)).2)

theorem confinedTo_claimRows (c : CollectionId) (run : RunId) (now : String) :
    ConfinedTo c (claimRows c run now) := by
  have hupdate := @confinedTo_update c _ (Database.mayClaim c) (Database.nextClaim run now)
    (claimAnswer c) (fun row h => ((Database.mayClaim_iff c row).mp h).1) (fun _ => rfl)
    fun changed {rows rows'} h => by
      cases changed with
      | nil => simp only [claimAnswer, existing_congr h]
      | cons row rest => rfl
  refine ⟨fun {rows rows'} h => ?_, fun {d} rows hdc => ?_⟩
  · unfold claimRows
    rw [find?_congr h]
    cases Database.find? rows' c with
    | none =>
      refine ⟨rfl, ?_⟩
      simp only [rowsOf, List.filter_append]
      exact congrArg (· ++ _) h
    | some old => exact hupdate.own h
  · unfold claimRows
    cases Database.find? rows c with
    | none =>
      have hne : ¬ c.text = d.text := fun heq => hdc (Dict.text_inj.mp heq).symm
      simp [rowsOf, Database.firstClaim, hne]
    | some old => exact hupdate.others rows hdc

/-- An operation that answers without looking, or one that works on the rows of the collection. -/
def WorksOn {α : Type} (c : CollectionId)
    (act : Database → Except StoreError α × Database) : Prop :=
  (∃ answer, ∀ db, act db = (answer, db)) ∨ ∃ f, ConfinedTo c f ∧ ∀ db, act db = db.withRows f

theorem compareAndSet_worksOn (c : CollectionId) (expected : List Status) (next : Status)
    (now : Instant) :
    WorksOn c fun db => db.compareAndSet c expected next now := by
  unfold Database.compareAndSet
  by_cases hempty : expected.isEmpty = true
  · exact .inl ⟨_, fun db => if_pos hempty⟩
  · simp only [hempty]
    cases forbidden? expected next with
    | some stored => exact .inl ⟨_, fun db => rfl⟩
    | none =>
      refine .inr ⟨_, confinedTo_update (fun r => { r with
          status := next, updatedAt := Row.laterText r.updatedAt (Time.microsText now) })
        (fun changed _ => .ok (changed.length == 1)) (fun row h => ?_) (fun _ => rfl)
          (fun _ _ _ _ => rfl),
        fun db => rfl⟩
      exact of_decide_eq_true (Bool.and_eq_true_iff.mp h).1

theorem claim_worksOn (c : CollectionId) (run : RunId) (now : Instant) :
    WorksOn c fun db => db.claim c run now := by
  refine .inr ⟨_, confinedTo_claimRows c run (Time.microsText now), fun db => ?_⟩
  obtain ⟨v, table⟩ := db
  cases table with
  | foreign | absent => rfl
  | records rows =>
    cases hfound : Database.find? rows c with
    | none => simp only [Database.claim, Database.withRows, claimRows, hfound]
    | some old =>
      refine (Database.claim_eq v hfound run now).trans ?_
      simp only [Database.withRows, claimRows, hfound]
      rfl

theorem updateProgress_worksOn (c : CollectionId) (run : RunId) (p : Progress) (now : Instant) :
    WorksOn c fun db => db.updateProgress c run p now := by
  unfold Database.updateProgress
  cases p.settled? with
  | none => exact .inl ⟨_, fun db => rfl⟩
  | some settled =>
    refine .inr ⟨_, confinedTo_update (fun r => { r with
        processed := Row.counter p.processed
        failed := Row.counter p.failed
        total := Row.counter p.total
        currentItem := p.currentItem
        updatedAt := Row.laterText r.updatedAt (Time.microsText now) })
      (fun changed _ => .ok (if changed.length = 1 then .applied else .discarded)) (fun row h => ?_)
      (fun _ => rfl) (fun _ _ _ _ => rfl), fun db => rfl⟩
    simp only [Bool.and_eq_true, decide_eq_true_eq] at h
    exact h.1.1.1

theorem finish_worksOn (c : CollectionId) (run : RunId) (report : RunReport) (now : Instant) :
    WorksOn c fun db => db.finish c run report now := by
  by_cases hterminal : report.status.isTerminal = true
  · refine .inr ⟨_, confinedTo_update (Database.closed report (Time.microsText now))
      (endAnswer c run report) (fun row h => ((Database.mayEnd_iff c run row).mp h).1)
        (fun _ => rfl)
      fun changed {rows rows'} h => ?_, fun db => ?_⟩
    · cases changed with
      | nil => simp only [endAnswer, Database.refusesEnd, existing_congr h]
      | cons row rest => rfl
    · obtain ⟨v, table⟩ := db
      cases table with
      | foreign | absent => exact if_pos hterminal
      | records rows => exact Database.finish_eq v rows c run hterminal now
  · exact .inl ⟨_, fun db => if_neg hterminal⟩

theorem run_worksOn {op : StoreOp} (hop : op.IsOn c) : WorksOn c fun db => db.run op := by
  cases op with
  | recover => exact hop.elim
  | get d =>
    obtain rfl := hop
    refine .inr ⟨_, confinedTo_query (f := Database.getRows d) fun h => ?_, fun db => rfl⟩
    rw [← getRows_rowsOf, h, getRows_rowsOf]
  | status d =>
    obtain rfl := hop
    refine .inr ⟨_, confinedTo_query (f := fun rows => .ok ((Database.find? rows d).map (·.status)))
      fun h => ?_, fun db => rfl⟩
    rw [find?_congr h]
  | compareAndSet d expected next now => exact hop ▸ compareAndSet_worksOn d expected next now
  | requestCancel d now => exact hop ▸ compareAndSet_worksOn d [.syncing] .cancelled now
  | claim d run now => exact hop ▸ claim_worksOn d run now
  | updateProgress d run p now => exact hop ▸ updateProgress_worksOn d run p now
  | finish d run report now => exact hop ▸ finish_worksOn d run report now

/-- The rows of a collection, none where there is no table of records. -/
def tableOf (c : CollectionId) (db : Database) : Option (List Row) :=
  match db.table with
  | .records rows => some (rowsOf c rows)
  | .foreign _ | .absent => none

section

variable {α : Type} {f : List Row → Except StoreError α × List Row}

theorem ConfinedTo.withRows_own (hf : ConfinedTo c f) {db db' : Database}
    (h : tableOf c db = tableOf c db') :
    (db.withRows f).1 = (db'.withRows f).1 ∧
      tableOf c (db.withRows f).2 = tableOf c (db'.withRows f).2 := by
  obtain ⟨v, table⟩ := db
  obtain ⟨v', table'⟩ := db'
  cases table with
  | records rows =>
    cases table' with
    | records rows' =>
      obtain ⟨hanswer, hafter⟩ := hf.own (Option.some.inj h)
      exact ⟨hanswer, congrArg some hafter⟩
    | foreign | absent => cases h
  | foreign | absent =>
    cases table' with
    | records rows' => cases h
    | foreign | absent => exact ⟨rfl, rfl⟩

theorem ConfinedTo.withRows_others (hf : ConfinedTo c f) (hdc : d ≠ c) (db : Database) :
    tableOf d (db.withRows f).2 = tableOf d db := by
  obtain ⟨v, table⟩ := db
  cases table with
  | foreign | absent => rfl
  | records rows => exact congrArg some (hf.others rows hdc)

end

theorem confined_database : Confined Database.run tableOf where
  own {c op db db'} hop h := by
    rcases run_worksOn hop with ⟨answer, hact⟩ | ⟨f, hf, hact⟩ <;> dsimp only at hact
    · rw [hact db, hact db']
      exact ⟨rfl, h⟩
    · rw [hact db, hact db']
      exact hf.withRows_own h
  others {c d op} db hop hdc := by
    rcases run_worksOn hop with ⟨answer, hact⟩ | ⟨f, hf, hact⟩ <;> dsimp only at hact
    · rw [hact db]
    · rw [hact db]
      exact hf.withRows_others hdc db

/-- Two collections do not get in each other's way, with either store and whatever the store holds:
however the operations on them are merged, each answers as it does in the sequence of its own
collection, and of both collections the store holds in the end what that sequence leaves. Nothing
else is written. -/
theorem collections_apart {c d : CollectionId} (hcd : c ≠ d) {l₁ l₂ l : List StoreOp}
    (h₁ : ∀ op ∈ l₁, op.IsOn c) (h₂ : ∀ op ∈ l₂, op.IsOn d) (hl : Merges l₁ l₂ l) :
    (∀ m : Memory, GoTogether Memory.run recordOf m c d l₁ l₂ l) ∧
      ∀ db : Database, GoTogether Database.run tableOf db c d l₁ l₂ l := by
  refine ⟨fun m => ?_, fun db => ?_⟩
  · obtain ⟨hanswers, hc, hd, hothers⟩ := confined_memory.goTogether hcd h₁ h₂ hl (s := m) rfl rfl
    exact ⟨hanswers, hc, hd, hothers⟩
  · obtain ⟨hanswers, hc, hd, hothers⟩ :=
      confined_database.goTogether hcd h₁ h₂ hl (s := db) rfl rfl
    exact ⟨hanswers, hc, hd, hothers⟩

/-- One run works on two collections, is cancelled in the one and fails to end in the other before
it ends there. -/
theorem collections_apart_sharedRun :
    let docs : CollectionId := ⟨"docs"⟩
    let mail : CollectionId := ⟨"mail"⟩
    let report : RunReport := ⟨.completed, .empty, [], ⟨1, 0, 1, ""⟩, none⟩
    let onDocs : List StoreOp := [.claim docs ⟨1⟩ ⟨0, 0⟩, .finish docs ⟨2⟩ report ⟨2, 0⟩,
      .finish docs ⟨1⟩ report ⟨3, 0⟩]
    let onMail : List StoreOp := [.claim mail ⟨1⟩ ⟨1, 0⟩, .requestCancel mail ⟨2, 0⟩]
    let merged : List StoreOp := [.claim docs ⟨1⟩ ⟨0, 0⟩, .claim mail ⟨1⟩ ⟨1, 0⟩,
      .finish docs ⟨2⟩ report ⟨2, 0⟩, .requestCancel mail ⟨2, 0⟩, .finish docs ⟨1⟩ report ⟨3, 0⟩]
    (docs ≠ mail ∧ (∀ op ∈ onDocs, op.IsOn docs) ∧ (∀ op ∈ onMail, op.IsOn mail) ∧
      Merges onDocs onMail merged) ∧
    (∀ m : Memory, GoTogether Memory.run recordOf m docs mail onDocs onMail merged) ∧
      ∀ db : Database, GoTogether Database.run tableOf db docs mail onDocs onMail merged := by
  intro docs mail report onDocs onMail merged
  have hne : docs ≠ mail := by decide
  have hdocs : ∀ op ∈ onDocs, op.IsOn docs := by simp [onDocs, StoreOp.IsOn]
  have hmail : ∀ op ∈ onMail, op.IsOn mail := by simp [onMail, StoreOp.IsOn]
  have hmerged : Merges onDocs onMail merged := .left (.right (.left (.right (.left .nil))))
  exact ⟨⟨hne, hdocs, hmail, hmerged⟩, collections_apart hne hdocs hmail hmerged⟩

end Separation

end CollectionSync
