import CollectionSync.Proofs.RunId
import CollectionSync.Proofs.Store.Fencing
import CollectionSync.Proofs.Store.Rows

/-! # An acknowledged cancellation is not lost

The worker of a run may write progress, and its end, without having seen that the run was cancelled.
The argument looks at the status, the owner and the counters of a record only, which both stores
change alike. It holds for a database whatever else its rows contain. -/

namespace CollectionSync

/-- What the argument looks at, with the owner as a row names it. -/
structure Glimpse where
  status : Status
  run : Option String
  progress : Progress
  deriving DecidableEq

def Record.glimpse (r : Record) : Glimpse := ⟨r.status, r.run.map RunId.text, r.progress⟩

def Row.glimpse (row : Row) : Glimpse :=
  ⟨row.status, row.run, ⟨row.processed, row.failed, row.total, row.currentItem⟩⟩

def Memory.glimpse (c : CollectionId) (m : Memory) : Option Glimpse :=
  (m.get c).map Record.glimpse

def Database.glimpse (c : CollectionId) (db : Database) : Option Glimpse :=
  match db.table with
  | .records rows => (find? rows c).map Row.glimpse
  | _ => none

/-- How an operation may change what is seen of a record, of a compare-and-set nothing being said. A
run that ends may be told of an error in reading its row, but not of a refusal. -/
inductive Glimpse.Moves (c : CollectionId) : (op : StoreOp) → Except StoreError op.Reply →
    Option Glimpse → Option Glimpse → Prop
  | kept {op : StoreOp} {answer : Except StoreError op.Reply} (found : Option Glimpse) :
    Moves c op answer found found
  | moved {d : CollectionId} {expected : List Status} {next : Status} {now : Instant}
      {answer : Except StoreError Bool} (found found' : Option Glimpse) :
    Moves c (.compareAndSet d expected next now) answer found found'
  | claimed {run : RunId} {now : Instant} {answer : Except StoreError ClaimOutcome}
      (found : Option Glimpse) :
    Moves c (.claim c run now) answer found (some ⟨.syncing, some run.text, .zero⟩)
  | counted {g : Glimpse} {run : RunId} {p p' : Progress} {now : Instant}
      {answer : Except StoreError ProgressOutcome} :
    g.status = .syncing →
    Moves c (.updateProgress c run p now) answer (some g) (some { g with progress := p' })
  | cancelled {g : Glimpse} {now : Instant} {answer : Except StoreError Bool} :
    g.status = .syncing →
    Moves c (.requestCancel c now) answer (some g) (some { g with status := .cancelled })
  | closed {g : Glimpse} {run : RunId} {report : RunReport} {p' : Progress} {now : Instant}
      {answer : Except StoreError Record} :
    g.run = some run.text → report.status.isTerminal = true →
    g.status = .syncing ∨ g.status = .cancelled →
    (∀ refusal, answer ≠ .error (.refused refusal)) →
    Moves c (.finish c run report now) answer (some g)
      (some { g with status := g.status.resolve report.status, progress := p' })
  | interrupted {g : Glimpse} {staleBefore now : Instant} {reason : String}
      {answer : Except StoreError (List CollectionId)} :
    g.status = .syncing →
    Moves c (.recover staleBefore reason now) answer (some g)
      (some { g with status := .failed })

namespace Cancellation

open History

/-- An end of the run that was not refused. -/
def EndOf (c : CollectionId) (run : RunId) : Answered → Prop
  | ⟨.finish d owner _ _, answer⟩ =>
    d = c ∧ owner = run ∧ ∀ refusal, answer ≠ .error (.refused refusal)
  | _ => False

/-- A record that is the run's is cancelled or failed, and has the counters given unless the run
has ended since. -/
def Kept (run : RunId) (p : Progress) (ended : Prop) (found : Option Glimpse) : Prop :=
  ∀ g ∈ found, g.run = some run.text →
    (g.status = .cancelled ∨ g.status = .failed) ∧ (ended ∨ g.progress = p)

section

variable {c : CollectionId} {run : RunId} {p : Progress} {ended : Prop}

theorem Kept.step {op : StoreOp} {answer : Except StoreError op.Reply}
    {found found' : Option Glimpse} (h : Kept run p ended found)
    (hmoves : Glimpse.Moves c op answer found found') (hop : op.isOfRuns = true)
    (hclaim : op.claims? c ≠ some run) :
    Kept run p (ended ∨ EndOf c run ⟨op, answer⟩) found' := by
  -- a syncing record is not the run's any more
  have hother {g : Glimpse} (hg : found = some g) (hs : g.status = .syncing) :
      g.run ≠ some run.text := fun hrun => by
    rcases (h g hg hrun).1 with hst | hst <;> (rw [hs] at hst; cases hst)
  intro g hg hrun
  cases hmoves with
  | kept => exact ⟨(h g hg hrun).1, (h g hg hrun).2.imp .inl id⟩
  | moved => cases hop
  | claimed =>
    cases hg
    have heq := RunId.text_injective (Option.some.inj hrun)
    exact absurd ((if_pos rfl).trans (congrArg some heq)) hclaim
  | counted hs | cancelled hs | interrupted hs =>
    have hno := hother rfl hs
    cases hg
    exact absurd hrun hno
  | closed howner hterminal hs hanswer =>
    rcases hs with hs | hs
    · have hno := hother rfl hs
      cases hg
      exact absurd hrun hno
    · cases hg
      have heq := RunId.text_injective (Option.some.inj (howner.symm.trans hrun))
      refine ⟨?_, .inl (.inr ⟨rfl, heq, hanswer⟩)⟩
      rw [hs]
      exact Status.cancelled_resolve hterminal

/-- What a store whose records change in these ways keeps of a cancellation. -/
theorem Kept.after {σ : Type} {run' : σ → (op : StoreOp) → Except StoreError op.Reply × σ}
    {glimpse : σ → Option Glimpse} {Sound : σ → Prop}
    (hsound : ∀ s op, Sound s → Sound (run' s op).2)
    (hmoves : ∀ s op, Sound s →
      Glimpse.Moves c op (run' s op).1 (glimpse s) (glimpse (run' s op).2))
    {s : σ} (hs : Sound s) (h : Kept run p ended (glimpse s)) {ops : List StoreOp}
    (hops : ∀ op ∈ ops, op.isOfRuns = true) (hclaims : run ∉ ops.filterMap (·.claims? c)) :
    Kept run p (ended ∨ ∃ a ∈ answers run' s ops, EndOf c run a)
      (glimpse (after run' s ops)) := by
  induction ops generalizing s ended with
  | nil => exact fun g hg hrun => ⟨(h g hg hrun).1, (h g hg hrun).2.imp .inl id⟩
  | cons op ops ih =>
    have hclaim : op.claims? c ≠ some run := fun hc =>
      hclaims (List.mem_filterMap.mpr ⟨op, List.mem_cons_self, hc⟩)
    have hrest : run ∉ ops.filterMap (·.claims? c) := fun hmem => by
      obtain ⟨op', hmem, hc⟩ := List.mem_filterMap.mp hmem
      exact hclaims (List.mem_filterMap.mpr ⟨op', List.mem_cons_of_mem op hmem, hc⟩)
    have hstep := h.step (hmoves s op hs) (hops op List.mem_cons_self) hclaim
    have :=
      ih (hsound s op hs) hstep (fun op' hmem => hops op' (List.mem_cons_of_mem op hmem)) hrest
    simpa [answers, or_assoc] using this

end

end Cancellation

/-! ## Records in a memory -/

theorem Memory.glimpse_moves (m : Memory) (c : CollectionId) (op : StoreOp) :
    Glimpse.Moves c op (m.run op).1 (m.glimpse c) ((m.run op).2.glimpse c) := by
  have hmoves := m.moves_run op c
  simp only [Memory.glimpse]
  generalize (m.run op).2.get c = found' at hmoves
  generalize m.get c = found at hmoves
  generalize (m.run op).1 = answer at hmoves
  cases hmoves with
  | kept => exact .kept _
  | moved => exact .moved _ _
  | claimed => exact .claimed _
  | counted hs => exact .counted hs
  | cancelled hs => exact .cancelled hs
  | closed hrun hterminal hs => exact .closed (by rw [Record.glimpse, hrun]; rfl) hterminal hs nofun
  | interrupted hs => exact .interrupted hs

/-! ## Rows of a table -/

namespace Database

theorem glimpse_eq (c : CollectionId) (db : Database) :
    db.glimpse c = (db.row? c).map Row.glimpse := by
  obtain ⟨v, table⟩ := db
  cases table <;> rfl

theorem readRow_ne_refused (row : Row) (refusal : Refusal) :
    readRow row ≠ .error (.refused refusal) := by
  unfold readRow
  split <;> exact nofun

theorem glimpse_moves (c : CollectionId) {db : Database} (hkeyed : db.Keyed) (op : StoreOp) :
    Glimpse.Moves c op (db.run op).1 (db.glimpse c) ((db.run op).2.glimpse c) := by
  have hmoves := moves_run hkeyed op c
  rw [glimpse_eq, glimpse_eq]
  generalize (db.run op).2.row? c = found' at hmoves
  generalize db.row? c = found at hmoves
  generalize (db.run op).1 = answer at hmoves
  cases hmoves with
  | kept => exact .kept _
  | moved => exact .moved _ _
  | first | claimed => exact .claimed _
  | counted hs => exact .counted hs
  | cancelled hs => exact .cancelled hs
  | closed hrun hterminal hs => exact .closed hrun hterminal hs (readRow_ne_refused _)
  | interrupted hs => exact .interrupted hs

end Database

namespace Cancellation

open History

/-- After a cancellation of the run that was answered with success, the record is cancelled or
failed for as long as it is the run's, and keeps its counters until the run ends. -/
def KeptAfter {σ : Type} (step : σ → (op : StoreOp) → Except StoreError op.Reply × σ)
    (glimpse : CollectionId → σ → Option Glimpse) (c : CollectionId) (run : RunId) (now : Instant)
    (ops : List StoreOp) (s : σ) : Prop :=
  ∀ g ∈ glimpse c s, g.run = some run.text → (step s (.requestCancel c now)).1 = .ok true →
    ∀ g' ∈ glimpse c (after step s (.requestCancel c now :: ops)), g'.run = some run.text →
      (g'.status = .cancelled ∨ g'.status = .failed) ∧
        ((∀ a ∈ answers step (step s (.requestCancel c now)).2 ops, ¬ EndOf c run a) →
          g'.progress = g.progress)

section

variable {c : CollectionId} {run : RunId} {now : Instant} {ops : List StoreOp}
  (hops : ∀ op ∈ ops, op.isOfRuns = true) (hclaims : run ∉ ops.filterMap (·.claims? c))

include hops hclaims

theorem keptAfter {σ : Type} {step : σ → (op : StoreOp) → Except StoreError op.Reply × σ}
    {glimpse : CollectionId → σ → Option Glimpse} (Sound : σ → Prop)
    (hsound : ∀ s op, Sound s → Sound (step s op).2)
    (hmoves : ∀ s op, Sound s →
      Glimpse.Moves c op (step s op).1 (glimpse c s) (glimpse c (step s op).2))
    {s : σ} (hs : Sound s) (hcancel : (step s (.requestCancel c now)).1 = .ok true →
      ∃ g, glimpse c s = some g ∧
      glimpse c (step s (.requestCancel c now)).2 = some { g with status := .cancelled }) :
    KeptAfter step glimpse c run now ops s := by
  intro g hg _ hanswer g' hg' hrun'
  obtain ⟨g₀, hg₀, hcancelled⟩ := hcancel hanswer
  obtain rfl : g = g₀ := Option.some.inj (hg.symm.trans hg₀)
  have hkept : Kept run g.progress False (glimpse c (step s (.requestCancel c now)).2) := by
    rw [hcancelled]
    intro g₁ hg₁ _
    cases hg₁
    exact ⟨.inl rfl, .inr rfl⟩
  obtain ⟨hstatus, hprogress⟩ :=
    hkept.after hsound hmoves (hsound s _ hs) hops hclaims g' hg' hrun'
  refine ⟨hstatus, fun hnone => (hprogress.resolve_left ?_)⟩
  rintro (h | ⟨a, ha, hend⟩)
  · exact h
  · exact hnone a ha hend

end

theorem glimpse_cancelled_memory {m : Memory} {c : CollectionId} {now : Instant}
    (h : (m.run (.requestCancel c now)).1 = .ok true) : ∃ g, m.glimpse c = some g ∧
      (m.run (.requestCancel c now)).2.glimpse c = some { g with status := .cancelled } := by
  have hmoves := m.moves_run (.requestCancel c now) c
  rw [h] at hmoves
  obtain ⟨r, hr, hs, hr'⟩ := hmoves.of_cancelled
  exact ⟨r.glimpse, by rw [Memory.glimpse, hr]; rfl, by rw [Memory.glimpse, hr']; rfl⟩

theorem glimpse_cancelled_database {db : Database} (hkeyed : db.Keyed) {c : CollectionId}
    {now : Instant} (h : (db.run (.requestCancel c now)).1 = .ok true) :
    ∃ g, db.glimpse c = some g ∧
      (db.run (.requestCancel c now)).2.glimpse c = some { g with status := .cancelled } := by
  have hmoves := db.moves_run hkeyed (.requestCancel c now) c
  rw [h] at hmoves
  rw [Database.glimpse_eq, Database.glimpse_eq]
  generalize (db.run (.requestCancel c now)).2.row? c = found' at hmoves ⊢
  generalize db.row? c = found at hmoves ⊢
  cases hmoves with
  | kept _ hno => exact absurd ⟨rfl, rfl⟩ hno
  | @cancelled row _ _ => exact ⟨row.glimpse, rfl, rfl⟩

/-- An acknowledged cancellation is never lost, in either store. -/
theorem cancellation_kept {c : CollectionId} {run : RunId} {ops : List StoreOp} (now : Instant)
    (hops : ∀ op ∈ ops, op.isOfRuns = true) (hclaims : run ∉ ops.filterMap (·.claims? c)) :
    (∀ m : Memory, KeptAfter Memory.run Memory.glimpse c run now ops m) ∧
      ∀ (v : Int) (rows : List Row), (rows.map (·.collection)).Nodup →
        KeptAfter Database.run Database.glimpse c run now ops ⟨v, .records rows⟩ :=
  ⟨fun _ => keptAfter hops hclaims (fun _ => True) (fun _ _ => id)
      (fun m op _ => m.glimpse_moves c op) trivial glimpse_cancelled_memory,
    fun v rows hkeys =>
      have hkeyed : Database.Keyed ⟨v, .records rows⟩ := ⟨rows, rfl, hkeys⟩
      keptAfter hops hclaims Database.Keyed (fun _ op h => Database.keyed_run h op)
        (fun _ op h => Database.glimpse_moves c h op) hkeyed (glimpse_cancelled_database hkeyed)⟩

/-- A worker that never saw the cancellation of its run and reports success. -/
theorem cancellation_kept_unseen :
    let docs : CollectionId := ⟨"docs"⟩
    let claimed := after Memory.run .empty [.claim docs ⟨1⟩ ⟨60, 0⟩]
    let ops : List StoreOp :=
      [.updateProgress docs ⟨1⟩ ⟨2, 1, 4, "item"⟩ ⟨62, 0⟩,
        .finish docs ⟨1⟩ ⟨.completed, .empty, [], ⟨3, 1, 4, ""⟩, none⟩ ⟨63, 0⟩]
    ((∀ op ∈ ops, op.isOfRuns = true) ∧ (⟨1⟩ : RunId) ∉ ops.filterMap (·.claims? docs)) ∧
      ∃ g ∈ (after Memory.run claimed (.requestCancel docs ⟨61, 0⟩ :: ops)).glimpse docs,
        g.run = some (⟨1⟩ : RunId).text ∧ (g.status = .cancelled ∨ g.status = .failed) := by
  intro docs claimed ops
  have hops : ∀ op ∈ ops, op.isOfRuns = true := by simp [ops, StoreOp.isOfRuns]
  have hclaims : (⟨1⟩ : RunId) ∉ ops.filterMap (·.claims? docs) := by simp [ops, StoreOp.claims?]
  have hbefore : claimed.glimpse docs = some ⟨.syncing, some (⟨1⟩ : RunId).text, .zero⟩ := by
    decide +kernel
  have hlater : (after Memory.run claimed (.requestCancel docs ⟨61, 0⟩ :: ops)).glimpse docs =
      some ⟨.cancelled, some (⟨1⟩ : RunId).text, ⟨3, 1, 4, ""⟩⟩ := by decide +kernel
  have hkept := (cancellation_kept ⟨61, 0⟩ hops hclaims).1 claimed _ hbefore rfl rfl _ hlater rfl
  exact ⟨⟨hops, hclaims⟩, _, hlater, rfl, hkept.1⟩

end Cancellation

end CollectionSync
