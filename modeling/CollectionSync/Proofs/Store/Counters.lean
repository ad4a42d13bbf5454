import CollectionSync.Proofs.Run.Snapshots
import CollectionSync.Proofs.Store.Cancellation
import CollectionSync.Proofs.Store.Columns

/-! # Counters that are written in any order

The counters of a run reach the store in any order. A store that compares the numbers of settled
items keeps the counters that are furthest, which is all that it ever shows. The columns of a row
hold smaller numbers than a counter does: a run may be told of more items than its row can say. -/

namespace CollectionSync

namespace StoreOp

/-- The counters that an operation writes for the run. -/
def writes? (c : CollectionId) (run : RunId) : StoreOp → Option Progress
  | .updateProgress d owner p _ => if d = c ∧ owner = run then some p else none
  | _ => none

/-- An operation that takes a syncing record neither from its run nor out of `syncing`. -/
def sparesCounting (c : CollectionId) (run : RunId) : StoreOp → Prop
  | .compareAndSet d _ _ _ | .requestCancel d _ => d ≠ c
  | .finish d owner _ _ => d = c → owner ≠ run
  | .recover .. => False
  | _ => True

end StoreOp

namespace Progress

/-- The counters as a store holds them that cuts the number of planned items. -/
def stored (cut : Nat → Nat) (p : Progress) : Progress := { p with total := cut p.total }

@[simp] theorem settled_stored (cut : Nat → Nat)
    (p : Progress) : (p.stored cut).settled = p.settled := rfl

theorem stored_counter {p : Progress} (h : p.settled ≤ Row.counterLimit) :
    p.stored Row.counter =
      ⟨Row.counter p.processed, Row.counter p.failed, Row.counter p.total, p.currentItem⟩ := by
  rw [Row.counter_eq (Nat.le_trans (Nat.le_add_right _ _) h),
    Row.counter_eq (Nat.le_trans (Nat.le_add_left _ _) h)]
  rfl

end Progress

/-- Counters that the columns of a row can hold. -/
structure Progress.InColumns (p : Progress) : Prop where
  processed : p.processed ≤ Row.counterLimit
  failed : p.failed ≤ Row.counterLimit
  total : p.total ≤ Row.counterLimit

theorem Progress.InColumns.zero : Progress.zero.InColumns :=
  ⟨Nat.zero_le _, Nat.zero_le _, Nat.zero_le _⟩

/-- A syncing record of the run, with counters. -/
def Glimpse.counting (run : RunId) (p : Progress) : Glimpse := ⟨.syncing, some run.text, p⟩

namespace Counters

open History

section

variable {σ : Type} (step : σ → (op : StoreOp) → Except StoreError op.Reply × σ)
  (glimpse : σ → Option Glimpse) (run : RunId)

/-- A store that counts for a run: of the counters it holds and those it is given, up to a limit, it
keeps the latest ones, with their total cut. -/
structure Counts (Sound : σ → Prop) (c : CollectionId) (cut : Nat → Nat) (limit : Nat) : Prop where
  zero : cut 0 = 0
  sound : ∀ s op, Sound s → Sound (step s op).2
  kept : ∀ s op held, Sound s → glimpse s = some (.counting run held) → op.sparesCounting c run →
    op.writes? c run = none → glimpse (step s op).2 = some (.counting run held)
  written : ∀ s (held given : Progress) now, Sound s →
  glimpse s = some (.counting run (held.stored cut)) →
    held.settled ≤ limit → given.settled ≤ limit →
    glimpse (step s (.updateProgress c run given now)).2 =
      some (.counting run ((held.latest given).stored cut))

/-- No operation of the history takes the counters of the run back, and in the end they are the
last. -/
structure Converges (ops : List StoreOp) (last : Progress) (s : σ) : Prop where
  forward : ∀ before op rest, ops = before ++ op :: rest →
    ∃ p p', glimpse (after step s before) = some (.counting run p) ∧
      glimpse (after step s (before ++ [op])) = some (.counting run p') ∧
      p.processed ≤ p'.processed ∧ p.failed ≤ p'.failed
  last : glimpse (after step s ops) = some (.counting run last)

end

section

variable {σ : Type} {step : σ → (op : StoreOp) → Except StoreError op.Reply × σ}
  {glimpse : σ → Option Glimpse} {run : RunId} {Sound : σ → Prop} {c : CollectionId}
  {cut : Nat → Nat} {limit : Nat}

theorem eq_of_writes? {op : StoreOp} {p : Progress} (h : op.writes? c run = some p) :
    ∃ now, op = .updateProgress c run p now := by
  cases op with
  | updateProgress d owner q now =>
    obtain ⟨⟨rfl, rfl⟩, hq⟩ := Option.ite_none_right_eq_some.mp h
    cases hq
    exact ⟨now, rfl⟩
  | _ => cases h

theorem Counts.holds (hcounts : Counts step glimpse run Sound c cut limit) {ops : List StoreOp}
    (hops : ∀ op ∈ ops, op.sparesCounting c run)
    (hwrites : ∀ p ∈ ops.filterMap (·.writes? c run), p.settled ≤ limit) {s : σ} (hs : Sound s)
    {held : Progress} (hheld : held.settled ≤ limit)
    (hglimpse : glimpse s = some (.counting run (held.stored cut))) :
    glimpse (after step s ops) = some (.counting run
      (((ops.filterMap (·.writes? c run)).foldl Progress.latest held).stored cut)) := by
  induction ops generalizing s held with
  | nil => exact hglimpse
  | cons op ops ih =>
    obtain ⟨hop, hrest⟩ := List.forall_mem_cons.mp hops
    have hsound := hcounts.sound s op hs
    cases hw : op.writes? c run with
    | none =>
      rw [List.filterMap_cons_none hw] at hwrites ⊢
      exact ih hrest hwrites hsound hheld (hcounts.kept s op _ hs hglimpse hop hw)
    | some given =>
      rw [List.filterMap_cons_some hw] at hwrites ⊢
      obtain ⟨hgiven, hwrites⟩ := List.forall_mem_cons.mp hwrites
      obtain ⟨now, rfl⟩ := eq_of_writes? hw
      have hlatest : (held.latest given).settled ≤ limit := by
        rcases (Progress.latest_cases held given).1 with h | h <;> rwa [h]
      exact ih hrest hwrites hsound hlatest
        (hcounts.written s held given now hs hglimpse hheld hgiven)

/-- What a store that counts shows of a run, in whichever order the counters of the run are
written. -/
theorem Counts.converges (hcounts : Counts step glimpse run Sound c cut limit) {start : RunState}
    {calls : List RunChange} (hcalls : ∀ call ∈ calls, call.settles = true)
    (hlimit : start.progress.settled + calls.length ≤ limit) {ops : List StoreOp}
    (hops : ∀ op ∈ ops, op.sparesCounting c run)
    (hwrites : (ops.filterMap (·.writes? c run)).Perm (start.snapshots calls)) {s : σ}
    (hs : Sound s) (hglimpse : glimpse s = some (.counting run .zero)) :
    Converges step glimpse run ops ((start.lastProgress calls).stored cut) s := by
  have hzero : Progress.zero.stored cut = .zero := by rw [Progress.stored, Progress.zero,
    hcounts.zero]
  -- at every point the store holds the latest of what it was given up to there
  have hshown : ∀ before rest, ops = before ++ rest →
      glimpse (after step s before) = some (.counting run
        (((before.filterMap (·.writes? c run)).foldl Progress.latest .zero).stored cut)) := by
    rintro before rest rfl
    refine hcounts.holds (fun op hop => hops op (List.mem_append_left rest hop)) (fun p hp => ?_) hs
      (Nat.zero_le limit) (by rw [hzero]; exact hglimpse)
    have hp : p ∈ start.snapshots calls := hwrites.mem_iff.mp (by
      rw [List.filterMap_append]
      exact List.mem_append_left _ hp)
    exact Nat.le_trans (start.settled_snapshots_le hcalls hp) hlimit
  refine ⟨fun before op rest hsplit => ?_, ?_⟩
  · have hnext : ops = (before ++ [op]) ++ rest := by rw [hsplit, List.append_assoc]; rfl
    refine ⟨_, _, hshown before (op :: rest) hsplit, hshown (before ++ [op]) rest hnext, ?_⟩
    rw [List.filterMap_append, List.foldl_append]
    cases hw : op.writes? c run with
    | none =>
      rw [List.filterMap_cons_none hw]
      exact ⟨Nat.le_refl _, Nat.le_refl _⟩
    | some given =>
      rw [List.filterMap_cons_some hw]
      have hmem : ∀ p ∈ before.filterMap (·.writes? c run), p ∈ start.snapshots calls := fun p hp =>
        hwrites.mem_iff.mp (by
          rw [hsplit, List.filterMap_append]
          exact List.mem_append_left _ hp)
      have hgiven : given ∈ start.snapshots calls := hwrites.mem_iff.mp (by
        rw [hsplit]
        exact List.mem_filterMap.mpr ⟨op, List.mem_append_right before List.mem_cons_self, hw⟩)
      -- what is held is one of the counters of the run, or the fresh ones
      have hheld := (Progress.foldl_latest (before.filterMap (·.writes? c run)) .zero).1
      exact start.held_le_latest hcalls hgiven ((List.mem_cons.mp hheld).imp_right (hmem _))
  · rw [hshown ops [] (List.append_nil ops).symm, start.foldl_latest_snapshots hcalls hwrites]

end

end Counters

/-! ## Records of a memory -/

theorem Record.applyProgress?_of_owner {r : Record} {run : RunId} {given : Progress} (now : Instant)
    (hs : r.status = .syncing) (hrun : r.run = some run)
    (hgiven : given.settled < Progress.counterLimit)
    (hheld : r.progress.settled < Progress.counterLimit) :
    r.applyProgress? run given now =
      some (if given.settled < r.progress.settled then (.discarded, r)
      else (.applied, ({ r with progress := given } : Record).touch now)) := by
  simp only [applyProgress?, if_pos (And.intro hs hrun), Progress.settled?_eq hgiven,
    Progress.settled?_eq hheld, Option.bind_eq_bind, Option.bind_some]
  split <;> rfl

namespace Memory

open Counters

variable {m : Memory} {c : CollectionId} {run : RunId}

theorem glimpse_eq_counting {held : Progress} (h : m.glimpse c = some (.counting run held)) :
    ∃ r, m.get c = some r ∧ r.status = .syncing ∧ r.run = some run ∧ r.progress = held := by
  obtain ⟨r, hr, hglimpse⟩ := Option.map_eq_some_iff.mp h
  obtain ⟨hs, hrun, hp⟩ := Glimpse.mk.inj hglimpse
  obtain ⟨owner, howner, htext⟩ := Option.map_eq_some_iff.mp hrun
  exact ⟨r, hr, hs, howner.trans (congrArg some (RunId.text_injective htext)), hp⟩

theorem counts (c : CollectionId) (run : RunId) :
    Counts Memory.run (Memory.glimpse c) run (fun _ => True) c id (Progress.counterLimit - 1) where
  zero := rfl
  sound _ _ _ := trivial
  kept m op held _ hglimpse hop hw := by
    obtain ⟨r, hr, hs, hrun, -⟩ := glimpse_eq_counting hglimpse
    suffices hsame : (m.run op).2.get c = m.get c by
      rw [Memory.glimpse, hsame]
      exact hglimpse
    have hmoves := hr ▸ m.moves_run op c
    rw [hr]
    generalize (m.run op).2.get c = found' at hmoves ⊢
    generalize (m.run op).1 = answer at hmoves
    cases hmoves with
    | kept => rfl
    | moved | cancelled => exact absurd rfl hop
    | claimed hfree => exact absurd hs (hfree r rfl)
    | counted _ howner =>
      cases howner.symm.trans hrun
      exact absurd hw (by simp [StoreOp.writes?])
    | closed howner => exact absurd (Option.some.inj (howner.symm.trans hrun)) (hop rfl)
    | interrupted => exact absurd hop id
  written m held given now _ hglimpse hheld hgiven := by
    obtain ⟨r, hr, hs, hrun, hp⟩ := glimpse_eq_counting hglimpse
    have hlimit : 0 < Progress.counterLimit := by decide
    have hsettled : r.progress.settled = held.settled := by rw [hp, Progress.settled_stored]
    have happlied := Record.applyProgress?_of_owner now hs hrun
      (show given.settled < Progress.counterLimit by omega) (by omega)
    have hrecord : (m.run (.updateProgress c run given now)).2.get c =
        some (if given.settled < held.settled then r
          else ({ r with progress := given } : Record).touch now) := by
      simp only [Memory.run, Memory.updateProgress, hr, happlied, hsettled, get_set]
      split <;> rfl
    rw [Memory.glimpse, hrecord, Option.map_some]
    unfold Progress.latest
    split
    · rw [← hglimpse, Memory.glimpse, hr]
      rfl
    · rw [Record.glimpse, Record.touch_status, Record.touch_run, Record.touch_progress, hs, hrun]
      rfl

end Memory

/-! ## Rows of a table -/

namespace Database

open Counters

variable {db : Database} {c : CollectionId} {run : RunId}

theorem glimpse_eq_counting {held : Progress} (h : db.glimpse c = some (.counting run held)) :
    ∃ row, db.row? c = some row ∧ row.status = .syncing ∧ row.run = some run.text ∧
      (⟨row.processed, row.failed, row.total, row.currentItem⟩ : Progress) = held := by
  rw [glimpse_eq] at h
  obtain ⟨row, hrow, hglimpse⟩ := Option.map_eq_some_iff.mp h
  obtain ⟨hs, hrun, hp⟩ := Glimpse.mk.inj hglimpse
  exact ⟨row, hrow, hs, hrun, hp⟩

/-- The row of a run as a progress write leaves it that is applied. -/
def counted (p : Progress) (now : Instant) (row : Row) : Row :=
  { row with
    processed := Row.counter p.processed
    failed := Row.counter p.failed
    total := Row.counter p.total
    currentItem := p.currentItem
    updatedAt := Row.laterText row.updatedAt (Time.microsText now) }

theorem row?_updateProgress (hkeyed : db.Keyed) {row : Row} (hrow : db.row? c = some row)
    (hs : row.status = .syncing) (hrun : row.run = some run.text) {p : Progress} {settled : Nat}
    (hsettled : p.settled? = some settled) (now : Instant) :
    (db.run (.updateProgress c run p now)).2.row? c = some
      (if row.processed + row.failed ≤ Row.counter settled then counted p now row else row) := by
  obtain ⟨rows, htable, -⟩ := hkeyed
  obtain ⟨v, table⟩ := db
  subst htable
  have hfound : find? rows c = some row := hrow
  simp only [Database.run, Database.updateProgress, hsettled, withRows, row?]
  have hchange := find?_update rows (fun r => r.collection = c.text && r.status == .syncing &&
    r.run == some run.text && r.processed + r.failed ≤ Row.counter settled) (counted p now)
    (fun _ => rfl) c
  refine hchange.trans ?_
  simp only [hfound, Option.map_some, find?_collection hfound, hs, hrun, decide_true,
    beq_self_eq_true, Bool.true_and, decide_eq_true_eq]

/-- No operation writes a larger number than a column holds. -/
theorem inColumns_run (hkeyed : db.Keyed) (op : StoreOp)
    (h : ∀ g ∈ db.glimpse c, g.progress.InColumns) :
    ∀ g ∈ (db.run op).2.glimpse c, g.progress.InColumns := by
  have hwritten (p : Progress) : (⟨Row.counter p.processed, Row.counter p.failed,
      Row.counter p.total, p.currentItem⟩ : Progress).InColumns :=
    ⟨Nat.min_le_right _ _, Nat.min_le_right _ _, Nat.min_le_right _ _⟩
  have hmoves := moves_run hkeyed op c
  rw [glimpse_eq] at h ⊢
  generalize (db.run op).2.row? c = found' at hmoves ⊢
  generalize db.row? c = found at hmoves h
  generalize (db.run op).1 = answer at hmoves
  intro g hg
  cases hmoves with
  | kept => exact h g hg
  | moved | cancelled | interrupted =>
    have hkept := h _ rfl
    cases hg
    exact hkept
  | first | claimed =>
    cases hg
    exact .zero
  | counted | closed =>
    cases hg
    exact hwritten _

theorem counts (c : CollectionId) (run : RunId) :
    Counts Database.run (Database.glimpse c) run Keyed c Row.counter Row.counterLimit where
  zero := by decide
  sound _ op hkeyed := keyed_run hkeyed op
  kept db op held hkeyed hglimpse hop hw := by
    obtain ⟨row, hrow, hs, hrun, -⟩ := glimpse_eq_counting hglimpse
    suffices hsame : (db.run op).2.row? c = some row by
      rw [glimpse_eq, hsame, ← hrow, ← glimpse_eq]
      exact hglimpse
    have hmoves := hrow ▸ moves_run hkeyed op c
    generalize (db.run op).2.row? c = found' at hmoves ⊢
    generalize (db.run op).1 = answer at hmoves
    cases hmoves with
    | kept => rfl
    | moved | cancelled => exact absurd rfl hop
    | claimed hfree => exact absurd hs hfree
    | counted _ howner =>
      cases RunId.text_injective (Option.some.inj (howner.symm.trans hrun))
      exact absurd hw (by simp [StoreOp.writes?])
    | closed howner =>
      exact absurd (RunId.text_injective (Option.some.inj (howner.symm.trans hrun))) (hop rfl)
    | interrupted => exact absurd hop id
  written db held given now hkeyed hglimpse hheld hgiven := by
    obtain ⟨row, hrow, hs, hrun, hp⟩ := glimpse_eq_counting hglimpse
    have hlimit : Row.counterLimit < Progress.counterLimit := by decide
    have hsettled : row.processed + row.failed = held.settled := congrArg Progress.settled hp
    rw [glimpse_eq, row?_updateProgress hkeyed hrow hs hrun
      (Progress.settled?_eq (Nat.lt_of_le_of_lt hgiven hlimit)) now, Option.map_some, hsettled,
      Row.counter_eq hgiven]
    unfold Progress.latest
    by_cases hback : given.settled < held.settled
    · rw [if_neg (Nat.not_le_of_lt hback), if_pos hback, ← hglimpse, glimpse_eq, hrow]
      rfl
    · rw [if_pos (Nat.le_of_not_lt hback), if_neg hback, Progress.stored_counter hgiven,
        Row.glimpse]
      simp only [counted, hs, hrun]
      rfl

end Database

namespace Counters

open History

/-- In whichever order the counters of a run are written, they never go back, and those taken last
are held in the end. A row holds numbers up to `Row.counterLimit`, and this for a larger total. -/
theorem progress_converges (c : CollectionId) (run : RunId) (cap total : Nat) (stopping : Bool)
    {calls : List RunChange} (hcalls : ∀ call ∈ calls, call.settles = true) {ops : List StoreOp}
    (hops : ∀ op ∈ ops, op.sparesCounting c run)
    (hwrites : (ops.filterMap (·.writes? c run)).Perm
      (((RunState.start cap stopping).change (.total total)).snapshots calls)) :
    let last := ((RunState.start cap stopping).change (.total total)).lastProgress calls
    (calls.length < Progress.counterLimit → ∀ m : Memory,
      m.glimpse c = some (.counting run .zero) →
        Converges Memory.run (Memory.glimpse c) run ops last m) ∧
    (calls.length ≤ Row.counterLimit → ∀ (v : Int) (rows : List Row),
      (rows.map (·.collection)).Nodup →
      Database.glimpse c ⟨v, .records rows⟩ = some (.counting run .zero) →
        Converges Database.run (Database.glimpse c) run ops
          { last with total := min last.total Row.counterLimit } ⟨v, .records rows⟩) := by
  intro last
  have hstart : ((RunState.start cap stopping).change (.total total)).progress.settled = 0 := rfl
  refine ⟨fun hlimit m hm => ?_, fun hlimit v rows hkeys hdb => ?_⟩
  · exact (Memory.counts c run).converges hcalls (by omega) hops hwrites trivial hm
  · exact (Database.counts c run).converges hcalls (by omega) hops hwrites ⟨rows, rfl, hkeys⟩ hdb

namespace Reordered

def docs : CollectionId := ⟨"docs"⟩

def start (total : Nat) : RunState := (RunState.start 10 false).change (.total total)

def claim : StoreOp := .claim docs ⟨1⟩ ⟨60, 0⟩

def write (p : Progress) : StoreOp := .updateProgress docs ⟨1⟩ p ⟨61, 0⟩

/-- A file that was processed, and one that was not. -/
def calls : List RunChange := [.success "a.pdf", .failure ⟨"b.pdf", .processing, "bad"⟩]

/-- The counters of the run in the order in which they arrive. -/
def ops : List StoreOp :=
  [write ⟨1, 0, 2, "a.pdf"⟩, .get docs, write ⟨1, 1, 2, "b.pdf"⟩, write ⟨0, 0, 2, ""⟩]

end Reordered

open Reordered in
/-- The counters of two files, the first of them written last. -/
theorem progress_converges_reordered :
    let row := Database.firstClaim docs ⟨1⟩ (Time.microsText ⟨60, 0⟩)
    ((∀ call ∈ calls, call.settles = true) ∧ (∀ op ∈ ops, op.sparesCounting docs ⟨1⟩) ∧
      (ops.filterMap (·.writes? docs ⟨1⟩)).Perm ((start 2).snapshots calls) ∧
      calls.length < Progress.counterLimit ∧ calls.length ≤ Row.counterLimit ∧
      (after Memory.run .empty [claim]).glimpse docs = some (.counting ⟨1⟩ .zero) ∧
      Database.glimpse docs ⟨2, .records [row]⟩ = some (.counting ⟨1⟩ .zero)) ∧
    Converges Memory.run (Memory.glimpse docs) ⟨1⟩ ops ⟨1, 1, 2, "b.pdf"⟩
      (after Memory.run .empty [claim]) ∧
    Converges Database.run (Database.glimpse docs) ⟨1⟩ ops ⟨1, 1, 2, "b.pdf"⟩
      ⟨2, .records [row]⟩ := by
  intro row
  have hcalls : ∀ call ∈ calls, call.settles = true := by decide
  have hops : ∀ op ∈ ops, op.sparesCounting docs ⟨1⟩ := by simp [ops, write, StoreOp.sparesCounting]
  have hwrites : (ops.filterMap (·.writes? docs ⟨1⟩)).Perm ((start 2).snapshots calls) := by decide
  have hconverges := progress_converges docs ⟨1⟩ 10 2 false hcalls hops hwrites
  refine ⟨⟨hcalls, hops, hwrites, by decide, by decide, rfl, rfl⟩, ?_, ?_⟩
  · exact hconverges.1 (by decide) _ rfl
  · exact hconverges.2 (by decide) 2 [row] (List.nodup_cons.mpr ⟨List.not_mem_nil, .nil⟩) rfl

namespace Reordered

def claimed : Database := after Database.run (.ofRecords []) [claim]

/-- The counters of the run are written in the order they were taken, and the row ends with
others. -/
def Misses (total : Nat) (calls : List RunChange) : Prop :=
  let writes := ((start total).snapshots calls).map write
  claimed.glimpse docs = some (.counting ⟨1⟩ .zero) ∧
    writes.filterMap (·.writes? docs ⟨1⟩) = (start total).snapshots calls ∧
    (after Database.run claimed writes).glimpse docs ≠
      some (.counting ⟨1⟩ ((start total).lastProgress calls))

theorem misses {total : Nat} {calls : List RunChange}
    (h : ¬ ((start total).lastProgress calls).InColumns) : Misses total calls := by
  have hwrite : (fun p => (write p).writes? docs ⟨1⟩) = some := by
    funext p
    rfl
  have hempty : (Database.ofRecords []).Keyed := ⟨[], rfl, .nil⟩
  have hstep : ∀ (db : Database) (op : StoreOp),
      (db.Keyed ∧ ∀ g ∈ db.glimpse docs, g.progress.InColumns) →
      (db.run op).2.Keyed ∧ ∀ g ∈ (db.run op).2.glimpse docs, g.progress.InColumns :=
    fun db op h => ⟨Database.keyed_run h.1 op, Database.inColumns_run h.1 op h.2⟩
  have hclaimed := hstep (.ofRecords []) claim ⟨hempty, nofun⟩
  refine ⟨rfl, ?_, fun hend => ?_⟩
  · rw [List.filterMap_map]
    exact (congrArg (List.filterMap · _) hwrite).trans List.filterMap_some
  · have hwritten := after_induction Database.run
      (P := fun db => db.Keyed ∧ ∀ g ∈ db.glimpse docs, g.progress.InColumns) hclaimed
      fun op (_ : op ∈ ((start total).snapshots calls).map write) db => hstep db op
    exact h (hwritten.2 _ hend)

end Reordered

open Reordered in
/-- The row of a run cannot say of more items than its columns hold that they are planned, or
settled. -/
theorem large_counts_missed : Misses (Row.counterLimit + 1) [] ∧
    Misses 0 (List.replicate (Row.counterLimit + 1) (.success "a.pdf")) := by
  have hprocessed (s : RunState) (n : Nat) :
      (s.lastProgress (List.replicate n (.success "a.pdf"))).processed =
        s.progress.processed + n := by
    induction n generalizing s with
    | zero => rfl
    | succ n ih => exact (ih (s.change (.success "a.pdf"))).trans (Nat.succ_add_eq_add_succ _ n)
  refine ⟨misses fun h => Nat.not_succ_le_self _ h.total, misses fun h => ?_⟩
  have hle := h.processed
  rw [hprocessed] at hle
  exact Nat.not_succ_le_self _ (Nat.le_trans (Nat.le_add_left _ _) hle)

end Counters

end CollectionSync
