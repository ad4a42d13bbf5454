import CollectionSync.Proofs.Store.History
import CollectionSync.Store.Database

/-! # Opening a database

A database is opened by a program that asks the connection for one thing after the other. Any of
them may fail, and the opening may break off between two of them. What is stored then is either what
was stored before, or that with all schema steps applied; and a database that is open already is
opened again with nothing done to it. -/

namespace CollectionSync

open Program (ask done)

/-! ## Connections that may fail -/

/-- The answer that tells of a failure. -/
def SchemaAsk.failure : (q : SchemaAsk) → q.Answer
  | .version => none
  | .begin | .execute _ | .commit => false

namespace Connection

/-- How a connection may answer. Whatever fails leaves what is committed, and may undo what is
not. -/
inductive Serves : (q : SchemaAsk) → q.Answer → Connection → Connection → Prop
  | done (q : SchemaAsk) (c : Connection) : Serves q (answer q c).1 c (answer q c).2
  | fails (q : SchemaAsk) (c : Connection) : Serves q q.failure c c
  | undone (q : SchemaAsk) (c : Connection) : Serves q q.failure c ⟨c.stored, none⟩
  /-- There is an index of that name already, of whatever table. -/
  | indexed (columns : List String) (c : Connection) :
    Serves (.execute (.createIndex columns)) true c c

variable {s d : Database} {c : Connection}

theorem Serves.of_version {a : Option Int} (h : Serves .version a ⟨s, none⟩ c) :
    c = ⟨s, none⟩ ∧ (a = none ∨ a = some s.version) := by
  cases h with
  | done => exact ⟨rfl, .inr rfl⟩
  | fails | undone => exact ⟨rfl, .inl rfl⟩

theorem Serves.of_begin {a : Bool} (h : Serves .begin a ⟨s, none⟩ c) :
    c.stored = s ∧ (a = true → c = ⟨s, some s⟩) := by
  cases h with
  | done => exact ⟨rfl, fun _ => rfl⟩
  | fails | undone => exact ⟨rfl, nofun⟩

theorem Serves.of_execute {a : Bool} {statement : SchemaStatement}
    (h : Serves (.execute statement) a ⟨s, some d⟩ c) :
    c.stored = s ∧ (a = true → c = ⟨s, some (statement.effect d)⟩) := by
  cases h with
  | done =>
    simp only [answer, execute]
    split
    · exact ⟨rfl, fun _ => rfl⟩
    · exact ⟨rfl, nofun⟩
  | fails | undone => exact ⟨rfl, nofun⟩
  | indexed => exact ⟨rfl, fun _ => rfl⟩

theorem Serves.of_commit {a : Bool} (h : Serves .commit a ⟨s, some d⟩ c) :
    a = true ∧ c = ⟨d, none⟩ ∨ a = false ∧ c.stored = s := by
  cases h with
  | done => exact .inl ⟨rfl, rfl⟩
  | fails | undone => exact .inr ⟨rfl, rfl⟩

end Connection

/-! ## What holds while a program is at work -/

namespace Migrating

open Connection

/-- The condition holds of what is stored whenever the program may break off, and in the end the
other one holds of its result and the connection. -/
def Keeps {α : Type} (I : Database → Prop) (post : α → Connection → Prop) :
    Migrating α → Connection → Prop
  | done a, c => I c.stored ∧ post a c
  | ask q next, c => I c.stored ∧ ∀ a c', Serves q a c c' → Keeps I post (next a) c'

variable {α β : Type} {I J : Database → Prop} {post post' : α → Connection → Prop} {p : Migrating α}
  {c : Connection} {s d : Database}

theorem Keeps.now (h : Keeps I post p c) : I c.stored := by
  cases p <;> exact h.1

theorem Keeps.mono (h : Keeps I post p c) (hIJ : ∀ s, I s → J s)
    (hpost : ∀ a c', I c'.stored → post a c' → post' a c') : Keeps J post' p c := by
  induction p generalizing c with
  | done a => exact ⟨hIJ _ h.1, hpost a c h.1 h.2⟩
  | ask q next ih => exact ⟨hIJ _ h.1, fun a c' hs => ih a (h.2 a c' hs)⟩

theorem Keeps.bind {f : α → Migrating β} {post : β → Connection → Prop}
    (h : Keeps I (fun a c => Keeps I post (f a) c) p c) : Keeps I post (p >>= f) c := by
  induction p generalizing c with
  | done a => exact h.2
  | ask q next ih => exact ⟨h.1, fun a c' hs => ih a (h.2 a c' hs)⟩

theorem Keeps.question {q : SchemaAsk} {post : q.Answer → Connection → Prop} (hc : I c.stored)
    (h : ∀ a c', Serves q a c c' → I c'.stored ∧ post a c') :
    Keeps I post (.question q : Migrating q.Answer) c :=
  ⟨hc, h⟩

theorem Keeps.run (h : Keeps I post p c) : post (p.run answer c).1 (p.run answer c).2 := by
  induction p generalizing c with
  | done a => exact h.2
  | ask q next ih => exact ih _ (h.2 _ _ (.done q c))

/-! ## Schema steps -/

/-- What a schema step makes of a database. -/
def stepped (s : Database) (step : List SchemaStatement × Nat) : Database :=
  List.foldl SchemaStatement.effect s (step.1 ++ [.setVersion (step.2 + 1)])

theorem executeAll_keeps (statements : List SchemaStatement) (s d : Database) :
    Keeps (· = s) (fun all c => all = true → c =
      ⟨s, some (statements.foldl SchemaStatement.effect d)⟩)
      (executeAll statements) ⟨s, some d⟩ := by
  induction statements generalizing d with
  | nil => exact ⟨rfl, fun _ => rfl⟩
  | cons statement rest ih =>
    refine .bind (.question rfl fun a c hs => ?_)
    obtain ⟨hstored, hdone⟩ := hs.of_execute
    refine ⟨hstored, ?_⟩
    cases a with
    | false => exact ⟨hstored, nofun⟩
    | true =>
      rw [hdone rfl]
      exact ih _

/-- A step is applied as a whole or not at all. -/
theorem applyStep_keeps (step : List SchemaStatement × Nat) (s : Database) :
    Keeps (fun x => x = s ∨ x = stepped s step)
      (fun applied c => if applied then c = ⟨stepped s step, none⟩ else c.stored = s)
      (applyStep step.1 (step.2 + 1)) ⟨s, none⟩ := by
  refine .bind (.question (.inl rfl) fun a c hs => ?_)
  obtain ⟨hstored, hbegun⟩ := hs.of_begin
  refine ⟨.inl hstored, ?_⟩
  cases a with
  | false => exact ⟨.inl hstored, hstored⟩
  | true =>
    rw [hbegun rfl]
    refine .bind ((executeAll_keeps _ s s).mono (fun _ hx => .inl hx) fun all c' hc' hall => ?_)
    cases all with
    | false => exact ⟨.inl hc', hc'⟩
    | true =>
      rw [hall rfl]
      refine Keeps.question (q := .commit) (.inl rfl) fun a c'' hs' => ?_
      rcases hs'.of_commit with ⟨rfl, rfl⟩ | ⟨rfl, hstored'⟩
      · exact ⟨.inr rfl, rfl⟩
      · exact ⟨.inl hstored', hstored'⟩

/-- Whether statements can be carried out one after the other. -/
def arePossible : Database → List SchemaStatement → Bool
  | _, [] => true
  | db, statement :: rest => statement.isPossible db && arePossible (statement.effect db) rest

theorem executeAll_answer (statements : List SchemaStatement) (s d : Database) :
    ((executeAll statements).run answer ⟨s, some d⟩).1 = arePossible d statements := by
  induction statements generalizing d with
  | nil => rfl
  | cons statement rest ih =>
    have hrun : (executeAll (statement :: rest)).run answer ⟨s, some d⟩ =
        (if (execute ⟨s, some d⟩ statement).1 then executeAll rest else pure false).run answer
          (execute ⟨s, some d⟩ statement).2 := rfl
    cases hpossible : statement.isPossible d with
    | false =>
      have hexecute : execute ⟨s, some d⟩ statement =
          (false, ⟨s, some d⟩) := by simp [execute, hpossible]
      rw [hrun, hexecute, arePossible, hpossible]
      rfl
    | true =>
      have hexecute : execute ⟨s, some d⟩ statement = (true, ⟨s, some (statement.effect d)⟩) := by
        simp [execute, hpossible]
      rw [hrun, hexecute, arePossible, hpossible]
      exact ih _

theorem applyStep_answer (step : List SchemaStatement × Nat) (s : Database) :
    ((applyStep step.1 (step.2 + 1)).run answer ⟨s, none⟩).1 =
      arePossible s (step.1 ++ [.setVersion (step.2 + 1)]) := by
  have hrun : (applyStep step.1 (step.2 + 1)).run answer ⟨s, none⟩ =
      (executeAll (step.1 ++ [.setVersion (step.2 + 1)]) >>= fun all =>
        if all then (.question SchemaAsk.commit : Migrating Bool) else pure false).run answer ⟨s,
          some s⟩ := rfl
  have hanswer := executeAll_answer (step.1 ++ [.setVersion (step.2 + 1)]) s s
  have hall := (executeAll_keeps (step.1 ++ [.setVersion (step.2 + 1)]) s s).run
  rw [hrun, Program.run_bind, ← hanswer]
  generalize (executeAll (step.1 ++ [.setVersion (step.2 + 1)])).run answer ⟨s, some s⟩ =
    outcome at hall ⊢
  obtain ⟨all, c⟩ := outcome
  cases all with
  | false => rfl
  | true =>
    rw [hall rfl]
    rfl

/-- Schema steps are applied up to the first that fails, each of them as a whole. -/
theorem applySteps_keeps (steps : List (List SchemaStatement × Nat)) (s : Database) :
    Keeps (fun x => ∃ l, l <+: steps ∧ x = l.foldl stepped s)
      (fun result c => match result with
        | .ok () => c.stored = steps.foldl stepped s
        | .error e => ∃ l step, l ++ [step] <+: steps ∧ e = .schemaStep (step.2 + 1) ∧
          c.stored = l.foldl stepped s)
      (applySteps steps) ⟨s, none⟩ := by
  induction steps generalizing s with
  | nil => exact ⟨⟨[], List.prefix_rfl, rfl⟩, rfl⟩
  | cons step rest ih =>
    refine .bind ((applyStep_keeps step s).mono ?_ fun applied c _ hdone => ?_)
    · rintro x (rfl | rfl)
      · exact ⟨[], List.nil_prefix, rfl⟩
      · exact ⟨[step], ⟨rest, rfl⟩, rfl⟩
    · cases applied with
      | false =>
        have hstored : c.stored = s := hdone
        exact ⟨⟨[], List.nil_prefix, hstored⟩, [], step, ⟨rest, rfl⟩, rfl, hstored⟩
      | true =>
        obtain rfl : c = ⟨stepped s step, none⟩ := hdone
        refine (ih (stepped s step)).mono ?_ fun result c _ hresult => ?_
        · rintro x ⟨l, hl, rfl⟩
          exact ⟨step :: l, List.cons_prefix_cons.mpr ⟨rfl, hl⟩, rfl⟩
        · cases result with
          | ok => exact hresult
          | error e =>
            obtain ⟨l, step', hl, he, hstored⟩ := hresult
            exact ⟨step :: l, step', List.cons_prefix_cons.mpr ⟨rfl, hl⟩, he, hstored⟩

/-- The schema steps that a database says were not applied, each with its index. -/
def due (db : Database) : List (List SchemaStatement × Nat) := schema.zipIdx.drop db.version.toNat

/-- Opening a database refuses a newer schema, and otherwise applies the steps that are due. -/
theorem migrate_keeps (db : Database) :
    Keeps (fun x => ∃ l, l <+: due db ∧ x = l.foldl stepped db)
      (fun result c => match result with
        | .ok () => db.version ≤ schemaVersion ∧ c.stored = (due db).foldl stepped db
        | .error _ =>
          c.stored = db ∨ ∃ l step, l ++ [step] <+: due db ∧ c.stored = l.foldl stepped db)
      migrate ⟨db, none⟩ := by
  have hnothing : ∃ l, l <+: due db ∧ db = l.foldl stepped db := ⟨[], List.nil_prefix, rfl⟩
  refine .bind (.question hnothing fun a c hs => ?_)
  obtain ⟨rfl, rfl | rfl⟩ := hs.of_version
  · exact ⟨hnothing, hnothing, .inl rfl⟩
  · refine ⟨hnothing, ?_⟩
    dsimp only
    split
    · exact ⟨hnothing, .inl rfl⟩
    · next hknown =>
      have hversion : db.version ≤ schemaVersion :=
        Int.toNat_le.mp (Nat.le_of_not_lt hknown)
      refine (applySteps_keeps (due db) db).mono (fun _ => id) fun result c _ hresult => ?_
      cases result with
      | ok => exact ⟨hversion, hresult⟩
      | error e =>
        obtain ⟨l, step, hl, -, hstored⟩ := hresult
        exact .inr ⟨l, step, hl, hstored⟩

end Migrating

/-! ## What is stored -/

namespace Database

open Migrating

/-- The table is as it was, unless it was made, without rows, where there was none. -/
def SameRows (db db' : Database) : Prop :=
  db'.table = db.table ∨ db.table = .absent ∧ db'.table = .records []

theorem SameRows.trans {a b c : Database} (hab : SameRows a b)
    (hbc : SameRows b c) : SameRows a c := by
  rcases hbc with hbc | ⟨hb, hc⟩
  · rw [SameRows, hbc]
    exact hab
  · rcases hab with hab | ⟨-, hb'⟩
    · exact .inr ⟨hab ▸ hb, hc⟩
    · rw [hb] at hb'
      cases hb'

theorem sameRows_effect (db : Database) (statement : SchemaStatement) :
    SameRows db (statement.effect db) := by
  obtain ⟨version, table⟩ := db
  cases statement with
  | createTable =>
    cases table with
    | absent => exact .inr ⟨rfl, rfl⟩
    | records | foreign => exact .inl rfl
  | createIndex | setVersion => exact .inl rfl

theorem sameRows_foldl {α : Type} {f : Database → α → Database} (hf : ∀ db a, SameRows db (f db a))
    (l : List α) (db : Database) : SameRows db (l.foldl f db) := by
  induction l generalizing db with
  | nil => exact .inl rfl
  | cons a l ih => exact (hf db a).trans (ih _)

theorem sameRows_stepped (db : Database) (step : List SchemaStatement × Nat) :
    SameRows db (stepped db step) :=
  sameRows_foldl sameRows_effect _ db

theorem version_stepped (db : Database) (step : List SchemaStatement × Nat) :
    (stepped db step).version = step.2 + 1 := by
  rw [stepped, List.foldl_append]
  rfl

theorem version_foldl_stepped (steps : List (List SchemaStatement)) {n : Nat} (k : Nat)
    (db : Database) (hn : n < steps.length) :
    (((steps.zipIdx k).drop n).foldl stepped db).version = k + steps.length := by
  induction steps generalizing n k db with
  | nil => cases hn
  | cons step rest ih =>
    rw [List.length_cons] at hn ⊢
    rw [List.zipIdx_cons]
    cases n with
    | succ n =>
      rw [List.drop_succ_cons, ih (k + 1) db (Nat.lt_of_succ_lt_succ hn)]
      omega
    | zero =>
      cases rest with
      | nil => exact version_stepped db (step, k)
      | cons =>
        have hrest := ih (k + 1) (stepped db (step, k)) (Nat.zero_lt_succ _)
        rw [List.drop_zero] at hrest ⊢
        rw [List.foldl_cons, hrest]
        omega

/-- The rows are as they were, and the version says that all schema steps were applied. -/
structure Upgraded (db db' : Database) : Prop where
  version : db'.version = schemaVersion
  rows : db.SameRows db'

theorem upgraded_of_due {db : Database} (hversion : db.version ≤ schemaVersion) :
    db.Upgraded ((due db).foldl stepped db) := by
  refine ⟨?_, sameRows_foldl sameRows_stepped _ db⟩
  by_cases hdue : db.version.toNat < schemaVersion
  · rw [due, version_foldl_stepped schema 0 db hdue]
    exact congrArg Nat.cast (Nat.zero_add _)
  · have hnone : due db = [] :=
      List.drop_eq_nil_of_le (by rw [List.length_zipIdx]; exact Nat.le_of_not_lt hdue)
    rw [hnone]
    show db.version = schemaVersion
    have : 0 < schemaVersion := Nat.one_pos
    omega

/-! ## Opening -/

/-- How far the opening of a database may have come: what is left of the program, and the
connection. -/
inductive Opening (db : Database) : Migrating (Except OpenError Unit) → Connection → Prop
  | start : Opening db migrate ⟨db, none⟩
  | step {q : SchemaAsk} {next : q.Answer → Migrating (Except OpenError Unit)} {a : q.Answer}
      {c c' : Connection} :
    Opening db (ask q next) c → Connection.Serves q a c c' → Opening db (next a) c'

/-- What the opening of a database may do to what is stored. -/
structure OpensWholly (db : Database) (p : Migrating (Except OpenError Unit))
    (c : Connection) : Prop where
  /-- Nothing is done or all of it, wherever the opening breaks off. -/
  throughout : c.stored = db ∨ db.Upgraded c.stored
  failed : ∀ e, p = done (.error e) → c.stored = db
  succeeded : p = done (.ok ()) → db.Upgraded c.stored
  newer : schemaVersion < db.version → c.stored = db ∧ p ≠ done (.ok ())

variable {db db' : Database} {p : Migrating (Except OpenError Unit)} {c : Connection}

theorem Opening.keeps {I : Database → Prop} {post : Except OpenError Unit → Connection → Prop}
    (h : db.Opening p c) (hmigrate : Keeps I post migrate ⟨db, none⟩) : Keeps I post p c := by
  induction h with
  | start => exact hmigrate
  | step _ hs ih => exact ih.2 _ _ hs

/-- There is one schema step. -/
theorem length_due (db : Database) : (due db).length = schemaVersion - db.version.toNat := by
  rw [due, List.length_drop, List.length_zipIdx]
  rfl

/-- So none is applied or all that are due, and the latter only to an older database. -/
theorem prefix_due {l : List (List SchemaStatement × Nat)} (hl : l <+: due db) :
    l = [] ∨ l = due db ∧ db.version ≤ schemaVersion := by
  cases l with
  | nil => exact .inl rfl
  | cons step rest =>
    have hlength := hl.length_le
    have hdue := length_due db
    have hone : schemaVersion = 1 := rfl
    rw [List.length_cons] at hlength
    refine .inr ⟨hl.eq_of_length ?_, ?_⟩
    · rw [List.length_cons]
      omega
    · omega

theorem Opening.wholly (h : db.Opening p c) : db.OpensWholly p c := by
  have hkeeps := h.keeps (migrate_keeps db)
  obtain ⟨l, hl, hstored⟩ := hkeeps.now
  refine ⟨?_, ?_, ?_, fun hnewer => ⟨?_, ?_⟩⟩
  · rcases prefix_due hl with rfl | ⟨rfl, hversion⟩
    · exact .inl hstored
    · exact .inr (hstored ▸ upgraded_of_due hversion)
  · rintro e rfl
    rcases hkeeps.2 with hsame | ⟨l', step, hl', hsame⟩
    · exact hsame
    · have hlength := hl'.length_le
      have hdue := length_due db
      have hone : schemaVersion = 1 := rfl
      rw [List.length_append, List.length_singleton] at hlength
      obtain rfl : l' = [] := List.eq_nil_of_length_eq_zero (by omega)
      exact hsame
  · rintro rfl
    obtain ⟨hversion, hall⟩ := hkeeps.2
    exact hall ▸ upgraded_of_due hversion
  · rcases prefix_due hl with rfl | ⟨-, hversion⟩
    · exact hstored
    · exact absurd hnewer (Int.not_lt.mpr hversion)
  · rintro rfl
    exact absurd hnewer (Int.not_lt.mpr hkeeps.2.1)

/-- An opening in which nothing fails but what the database itself rules out. -/
theorem Opening.run (h : db.Opening p c) :
    db.Opening (done (p.run Connection.answer c).1) (p.run Connection.answer c).2 := by
  induction p generalizing c with
  | done result => exact h
  | ask q next ih => exact ih _ (h.step (.done q c))

/-- To open a database is to carry such an opening to its end. -/
theorem exists_opening (db : Database) : ∃ result c,
    db.Opening (done result) c ∧ db.openAt = result.map fun _ => c.stored :=
  ⟨_, _, (@Opening.start db).run, rfl⟩

theorem openAt_eq (db : Database) : db.openAt =
    if schemaVersion < db.version.toNat then .error (.newerSchema db.version.toNat)
    else ((applySteps (due db)).run Connection.answer ⟨db, none⟩).1.map fun _ =>
      ((applySteps (due db)).run Connection.answer ⟨db, none⟩).2.stored := by
  have hrun : migrate.run Connection.answer ⟨db, none⟩ =
      if schemaVersion < db.version.toNat then (.error (.newerSchema db.version.toNat), ⟨db, none⟩)
      else (applySteps (due db)).run Connection.answer ⟨db, none⟩ :=
    apply_ite (fun p : Migrating (Except OpenError Unit) =>
      p.run Connection.answer ⟨db, none⟩) _ _ _
  rw [openAt, hrun]
  exact apply_ite (fun outcome : Except OpenError Unit × Connection => outcome.1.map fun _ =>
    outcome.2.stored) _ _ _

theorem due_eq_nil (hversion : db.version = schemaVersion) : due db = [] := by
  refine List.eq_nil_of_length_eq_zero ?_
  rw [length_due, hversion]
  rfl

theorem openAt_newer (hversion : schemaVersion < db.version) :
    db.openAt = .error (.newerSchema db.version) := by
  rw [openAt_eq, if_pos (by omega), Int.toNat_of_nonneg (by omega)]

theorem openAt_current (hversion : db.version = schemaVersion) : db.openAt = .ok db := by
  rw [openAt_eq, if_neg (by omega), due_eq_nil hversion]
  rfl

theorem openAt_of_due {step : List SchemaStatement × Nat} (hdue : due db = [step]) :
    db.openAt = if arePossible db (step.1 ++ [.setVersion (step.2 + 1)]) then .ok (stepped db step)
      else .error (.schemaStep (step.2 + 1)) := by
  have hversion : ¬ schemaVersion < db.version.toNat := by
    have hlength := length_due db
    rw [hdue, List.length_singleton] at hlength
    omega
  have hrun : (applySteps [step]).run Connection.answer ⟨db, none⟩ =
      (applyStep step.1 (step.2 + 1) >>= fun applied =>
        if applied then pure (.ok ()) else pure (.error (.schemaStep (step.2 + 1)))).run
          Connection.answer ⟨db, none⟩ := rfl
  have hkeeps := (applyStep_keeps step db).run
  rw [openAt_eq, if_neg hversion, hdue, hrun, Program.run_bind, ← applyStep_answer]
  generalize (applyStep step.1 (step.2 + 1)).run Connection.answer ⟨db, none⟩ = outcome at hkeeps ⊢
  obtain ⟨applied, c⟩ := outcome
  cases applied with
  | false => rfl
  | true =>
    obtain rfl : c = ⟨stepped db step, none⟩ := hkeeps
    rfl

/-- A negative version counts as none. The index takes a table of another make only with its
columns. -/
theorem openAt_older (hversion : db.version < schemaVersion) :
    db.openAt = match db.table with
      | .absent => .ok ⟨schemaVersion, .records []⟩
      | .records rows => .ok ⟨schemaVersion, .records rows⟩
      | .foreign table =>
        if "status" ∈ table.columns ∧ "updated_at" ∈ table.columns then .ok ⟨schemaVersion,
          .foreign table⟩
        else .error (.schemaStep 1) := by
  have hzero : db.version.toNat = 0 := Int.toNat_eq_zero.mpr (Int.lt_add_one_iff.mp hversion)
  have hdue : due db = [([.createTable, .createIndex ["status", "updated_at"]], 0)] := by
    rw [due, hzero]
    rfl
  rw [openAt_of_due hdue]
  obtain ⟨version, table⟩ := db
  cases table with
  | absent | records => rfl
  | foreign table =>
    have hfits : arePossible ⟨version, .foreign table⟩
        ([.createTable, .createIndex ["status", "updated_at"]] ++ [.setVersion (0 + 1)]) =
        decide ("status" ∈ table.columns ∧ "updated_at" ∈ table.columns) := by
      simp [arePossible, SchemaStatement.isPossible, SchemaStatement.effect, TableState.columns?]
    rw [hfits]
    simp only [decide_eq_true_iff]
    rfl

/-! ## A store that is closed and opened -/

/-- What is done with a store that is kept in a file. -/
inductive Deed where
  | perform (op : StoreOp)
  /-- The file is closed and opened again. -/
  | reopen

def Deed.op? : Deed → Option StoreOp
  | perform op => some op
  | reopen => none

/-- What is done with a store, where it is opened again each time that it is closed. -/
inductive Session : Database → List Deed → List History.Answered → Database → Prop
  | nil (db : Database) : Session db [] [] db
  | perform {db db' : Database} {op : StoreOp} {deeds : List Deed}
      {answers : List History.Answered} :
    Session (db.run op).2 deeds answers db' →
    Session db (.perform op :: deeds) (⟨op, (db.run op).1⟩ :: answers) db'
  | reopen {db db' : Database} {c : Connection} {deeds : List Deed}
      {answers : List History.Answered} :
    db.Opening (done (.ok ())) c → Session c.stored deeds answers db' →
    Session db (.reopen :: deeds) answers db'

theorem version_withRows {α : Type} (f : List Row → Except StoreError α × List Row) :
    (db.withRows f).2.version = db.version := by
  unfold withRows
  split <;> rfl

/-- No operation changes the version. -/
theorem version_run (db : Database) (op : StoreOp) : (db.run op).2.version = db.version := by
  have hset : ∀ c expected next now, (db.compareAndSet c expected next now).2.version =
      db.version := by
    intro c expected next now
    unfold compareAndSet
    split
    · rfl
    · split
      · rfl
      · exact version_withRows _
  cases op with
  | get | status | claim | recover => exact version_withRows _
  | compareAndSet c expected next now => exact hset c expected next now
  | requestCancel c now => exact hset c [.syncing] .cancelled now
  | updateProgress c run p now =>
    show (db.updateProgress c run p now).2.version = db.version
    unfold updateProgress
    split
    · rfl
    · exact version_withRows _
  | finish c run report now =>
    show (db.finish c run report now).2.version = db.version
    unfold finish
    split
    · exact version_withRows _
    · rfl

/-- A database that is up to date is opened with nothing done to it. -/
theorem Opening.stored_of_current (hversion : db.version = schemaVersion)
    (h : db.Opening (done (.ok ())) c) : c.stored = db := by
  have hstored := (h.keeps (migrate_keeps db)).2.2
  rw [due_eq_nil hversion] at hstored
  exact hstored

theorem exists_reopening (hversion : db.version = schemaVersion) :
    ∃ c, db.Opening (done (.ok ())) c ∧ c.stored = db := by
  obtain ⟨result, c, hopening, hopen⟩ := exists_opening db
  rw [openAt_current hversion] at hopen
  cases result with
  | error e => cases hopen
  | ok => exact ⟨c, hopening, (Except.ok.inj hopen).symm⟩

theorem session_iff (hversion : db.version = schemaVersion) {deeds : List Deed}
    {answers : List History.Answered} :
    Session db deeds answers db' ↔
      answers = History.answers Database.run db (deeds.filterMap Deed.op?) ∧
        db' = History.after Database.run db (deeds.filterMap Deed.op?) := by
  constructor
  · intro h
    induction h with
    | nil => exact ⟨rfl, rfl⟩
    | perform _ ih =>
      obtain ⟨hanswers, hafter⟩ := ih ((version_run _ _).trans hversion)
      exact ⟨congrArg _ hanswers, hafter⟩
    | reopen hopening _ ih =>
      rw [hopening.stored_of_current hversion] at ih
      exact ih hversion
  · rintro ⟨rfl, rfl⟩
    induction deeds generalizing db with
    | nil => exact .nil db
    | cons deed deeds ih =>
      cases deed with
      | perform op => exact .perform (ih ((version_run db op).trans hversion))
      | reopen =>
        obtain ⟨c, hopening, hstored⟩ := exists_reopening hversion
        exact .reopen hopening (hstored.symm ▸ ih hversion)

/-- A store in a file that is closed and opened again answers and holds what it would without that.
And whatever a database holds, whatever fails while it is opened and wherever that breaks off:
either nothing is changed, and a newer schema never is; or all rows are as they were and all schema
steps applied. -/
theorem reopening_unnoticed_opening_whole :
    (∀ (db : Database) (c : Connection), db.Opening (done (.ok ())) c →
      ∀ (deeds : List Deed) (answers : List History.Answered) (db' : Database),
        Session c.stored deeds answers db' ↔
          answers = History.answers Database.run c.stored (deeds.filterMap Deed.op?) ∧
            db' = History.after Database.run c.stored (deeds.filterMap Deed.op?)) ∧
    (∀ (db : Database) (p : Migrating (Except OpenError Unit)) (c : Connection),
      db.Opening p c → db.OpensWholly p c) ∧
    ∀ db :
    Database, ∃ result c, db.Opening (done result) c ∧ db.openAt = result.map fun _ => c.stored :=
  ⟨fun _ _ hopening _ _ _ => session_iff (hopening.wholly.succeeded rfl).version,
    fun _ _ _ => Opening.wholly, exists_opening⟩

namespace Reopening

def docs : CollectionId := ⟨"docs"⟩

/-- A run is in work. -/
def rows : List Row := [firstClaim docs ⟨1⟩ "2024-03-01T00:00:00.000000Z"]

/-- The records of a database whose version was tampered with. -/
def odd : Database := ⟨-3, .records rows⟩

/-- A database of another make. -/
def alien : Database := ⟨0, .foreign ⟨["x"], [["a"]]⟩⟩

theorem opens_odd :
    ∃ c, odd.Opening (done (.ok ())) c ∧ c.stored = ⟨schemaVersion, .records rows⟩ := by
  obtain ⟨result, c, hopening, hopen⟩ := exists_opening odd
  rw [openAt_older (by decide)] at hopen
  cases result with
  | error e => cases hopen
  | ok => exact ⟨c, hopening, (Except.ok.inj hopen).symm⟩

theorem refuses_alien : ∃ c, alien.Opening (done (.error (.schemaStep 1))) c := by
  obtain ⟨result, c, hopening, hopen⟩ := exists_opening alien
  have hunfit : ¬ ("status" ∈ ["x"] ∧ "updated_at" ∈ ["x"]) := by decide
  rw [openAt_older (by decide)] at hopen
  dsimp only [alien] at hopen
  rw [if_neg hunfit] at hopen
  cases result with
  | error e =>
    cases hopen
    exact ⟨c, hopening⟩
  | ok => cases hopen

end Reopening

/-- A negative version, a store that is opened again after a cancellation, and a table that the
index does not take. -/
theorem reopening_unnoticed_opening_whole_odd : ∃ (c c' : Connection) (db : Database),
    let cancel : StoreOp := .requestCancel Reopening.docs ⟨1709251200, 0⟩
    let look : StoreOp := .status Reopening.docs
    (Reopening.odd.Opening (done (.ok ())) c ∧
      Reopening.alien.Opening (done (.error (.schemaStep 1))) c') ∧
      Reopening.odd.Upgraded c.stored ∧
      Session c.stored [.perform cancel, .reopen, .perform look]
        [⟨cancel, .ok true⟩, ⟨look, .ok (some .cancelled)⟩] db ∧
      c'.stored = Reopening.alien := by
  obtain ⟨c, hodd, hstored⟩ := Reopening.opens_odd
  obtain ⟨c', halien⟩ := Reopening.refuses_alien
  obtain ⟨hsessions, hwhole, -⟩ := reopening_unnoticed_opening_whole
  refine ⟨c, c', _, ⟨hodd, halien⟩, (hwhole _ _ _ hodd).succeeded rfl,
    (hsessions _ c hodd _ _ _).mpr ⟨?_, rfl⟩, (hwhole _ _ _ halien).failed _ rfl⟩
  rw [hstored]
  rfl

end Database

end CollectionSync
