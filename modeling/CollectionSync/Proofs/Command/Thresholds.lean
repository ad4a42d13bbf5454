import CollectionSync.Command.Basic
import CollectionSync.Proofs.Program
import CollectionSync.Store.Memory

/-! # How long a threshold a recovery takes

The age from which a recovery takes a record for stale passes two ranges. What the count of
milliseconds cannot hold is refused; what reaches back beyond the first year of the calendar is not
looked at and stops whoever asked, the host as well as the command. Every other threshold
recovers. -/

namespace CollectionSync

/-! ## Going back from a time of the calendar -/

theorem Span.seconds_ofSeconds (n : Nat) : (Span.ofSeconds n).seconds = n :=
  Nat.mul_div_cancel n (by decide)

namespace Instant

variable {t : Instant} (n : Nat)

theorem isRepresentable_iff :
    t.isRepresentable = true ↔ firstSecond ≤ t.seconds ∧ t.seconds ≤ lastSecond := by
  rw [isRepresentable, Bool.and_eq_true, decide_eq_true_eq, decide_eq_true_eq]

/-- Whole seconds are taken from the seconds, and only the start of the calendar is in the way. -/
theorem sub?_ofSeconds (ht : t.isRepresentable = true) (hn : t.nanos < 1000000000) :
    t.sub? (.ofSeconds n) =
      if t.seconds - n < firstSecond then none else some ⟨t.seconds - n, t.nanos⟩ := by
  have htotal : t.seconds * 1000000000 + t.nanos - ((Span.ofSeconds n).nanos : Int)
      = (t.seconds - n) * 1000000000 + t.nanos := by
    simp only [Span.ofSeconds]
    omega
  have hseconds : ((t.seconds - n) * 1000000000 + t.nanos) / 1000000000 = t.seconds - n := by omega
  have hnanos : (((t.seconds - n) * 1000000000 + (t.nanos : Int)) % 1000000000).toNat =
      t.nanos := by omega
  have hlast : t.seconds - n ≤ lastSecond := by
    have := (isRepresentable_iff.mp ht).2
    omega
  simp only [sub?, htotal, hseconds, hnanos]
  split
  · next hrep => rw [if_neg (Int.not_lt.mpr (isRepresentable_iff.mp hrep).1)]
  · next hrep => rw [if_pos (Int.not_le.mp fun hle => hrep (isRepresentable_iff.mpr ⟨hle, hlast⟩))]

end Instant

namespace Thresholds

variable {σ : Type}

/-! ## What can become of a recovery -/

/-- The clock shows times of the calendar, and the store does what it is asked. -/
structure Works (keeper : (q : KeeperAsk) → σ → q.Answer × σ) : Prop where
  shows : ∀ {s s' now}, keeper .clock s = (now, s') →
    now.isRepresentable = true ∧ now.nanos < 1000000000
  recovers : ∀ staleBefore reason now s,
    ∃ recovered s', keeper (.store (.recover staleBefore reason now)) s = (.ok recovered, s')
  reads : ∀ c s, ∃ r s', keeper (.store (.get c)) s = (.ok r, s')

inductive Fate where
  /-- The threshold is refused as out of range. -/
  | refused
  /-- The calendar does not reach back that far, and whoever asked stops. -/
  | stops
  | recovers (recovered : List CollectionId)

/-- What the host that asked for a recovery gets. -/
def Fate.answer : Fate → Except RecoveryError (List CollectionId)
  | refused =>
    .error (.run (.invalidRequest ("stale run threshold out of range: " ++ thresholdFault)))
  | stops => .error .beforeCalendar
  | recovers recovered => .ok recovered

/-- How the command ends. -/
def Fate.ending : Fate → Command.Ending
  | refused => .failure "Stale run threshold out of range" thresholdFault
  | stops => .breakdown RecoveryError.beforeCalendar.message
  | recovers _ => .success

/-- Asked at this state, a recovery with a threshold of so many seconds has this fate. -/
inductive Fated (keeper : (q : KeeperAsk) → σ → q.Answer × σ) (secs : Nat) (s : σ) : Fate → Prop
  | refused (hsecs : thresholdLimit < secs) : Fated keeper secs s .refused
  | stops {now : Instant} {s₁ : σ} (hsecs : secs ≤ thresholdLimit)
      (hnow : keeper .clock s = (now, s₁))
      (hearly : now.seconds - secs < Instant.firstSecond) : Fated keeper secs s .stops
  /-- The store is asked for what was written last before the threshold, at the time of a second
  look at the clock. -/
  | recovers {now now' : Instant} {s₁ s₂ s₃ : σ} {recovered : List CollectionId}
      (hsecs : secs ≤ thresholdLimit) (hnow : keeper .clock s = (now, s₁))
      (hreach : Instant.firstSecond ≤ now.seconds - secs) (hnow' : keeper .clock s₁ = (now', s₂))
      (hstore : keeper (.store (.recover ⟨now.seconds - secs, now.nanos⟩ interruptedReason now')) s₂
        = (.ok recovered, s₃)) : Fated keeper secs s (.recovers recovered)

variable {keeper : (q : KeeperAsk) → σ → q.Answer × σ} {secs : Nat} {s s₁ : σ} {now : Instant}

/-- Every threshold has a fate. -/
theorem exists_fated (hworks : Works keeper) (secs : Nat)
    (s : σ) : ∃ fate, Fated keeper secs s fate := by
  rcases Nat.lt_or_ge thresholdLimit secs with hsecs | hsecs
  · exact ⟨.refused, .refused hsecs⟩
  by_cases hearly : (keeper .clock s).1.seconds - secs < Instant.firstSecond
  · exact ⟨.stops, .stops hsecs rfl hearly⟩
  · obtain ⟨recovered, s₃, hstore⟩ := hworks.recovers _ _ _ _
    exact ⟨.recovers recovered, .recovers hsecs rfl (Int.not_lt.mp hearly) rfl hstore⟩

/-! ## Asking the store -/

theorem run_perform {op : StoreOp} {reply : op.Reply} (h : keeper (.store op) s = (.ok reply, s₁)) :
    (Keeper.perform op).run keeper s = (.ok reply, s₁) := Keeper.run_perform h

/-- The ends of recovered runs can all be announced. -/
theorem run_announceEnds (hworks : Works keeper) (cs : List CollectionId) (s : σ) :
    ((Keeper.announceEnds cs).run keeper s).1 = .ok () := by
  induction cs generalizing s with
  | nil => rfl
  | cons c rest ih =>
    obtain ⟨r, s₁, hread⟩ := hworks.reads c s
    have hget : (Keeper.get c).run keeper s = (.ok r, s₁) := run_perform hread
    rw [Keeper.announceEnds, Program.run_bind, hget]
    cases r with
    | none => exact ih s₁
    | some record => exact ih _

/-- What the store says that it recovered is the result. -/
theorem run_recover (hworks : Works keeper) {staleBefore : Instant} {reason : String} {s₂ : σ}
    {recovered : List CollectionId} (hnow : keeper .clock s = (now, s₁))
    (hstore : keeper (.store (.recover staleBefore reason now)) s₁ = (.ok recovered, s₂)) :
    ((Keeper.recover staleBefore reason).run keeper s).1 = .ok recovered := by
  have hclock : Keeper.now.run keeper s = (now, s₁) := hnow
  have hends := run_announceEnds hworks recovered s₂
  rw [Keeper.recover, Program.run_bind, hclock, Program.run_bind, run_perform hstore]
  dsimp only
  rw [Program.run_bind, hends]
  rfl

/-- The time that a threshold reaches back to. -/
theorem staleBefore_ofSeconds (hworks : Works keeper) (hnow : keeper .clock s = (now, s₁)) :
    staleBefore (.ofSeconds secs) now =
      if now.seconds - secs < Instant.firstSecond then .error .beforeCalendar
      else .ok ⟨now.seconds - secs, now.nanos⟩ := by
  rw [staleBefore, Instant.sub?_ofSeconds secs (hworks.shows hnow).1 (hworks.shows hnow).2]
  by_cases hearly : now.seconds - secs < Instant.firstSecond
  · rw [if_pos hearly, if_pos hearly]
  · rw [if_neg hearly, if_neg hearly]

theorem run_recoverStale (hworks : Works keeper) {fate : Fate} (hfate : Fated keeper secs s fate) :
    ((recoverStale (.ofSeconds secs)).run keeper s).1 = fate.answer := by
  rw [recoverStale, Span.seconds_ofSeconds]
  cases hfate with
  | refused hsecs =>
    rw [if_pos hsecs]
    rfl
  | @stops now s₁ hsecs hnow hearly =>
    have hclock : Keeper.now.run keeper s = (now, s₁) := hnow
    rw [if_neg (Nat.not_lt.mpr hsecs), Program.run_bind, hclock, staleBefore_ofSeconds hworks hnow,
      if_pos hearly]
    rfl
  | @recovers now now' s₁ s₂ s₃ recovered hsecs hnow hreach hnow' hstore =>
    have hclock : Keeper.now.run keeper s = (now, s₁) := hnow
    rw [if_neg (Nat.not_lt.mpr hsecs), Program.run_bind, hclock, staleBefore_ofSeconds hworks hnow,
      if_neg (Int.not_lt.mpr hreach)]
    dsimp only
    rw [Program.run_bind, run_recover hworks hnow' hstore]
    rfl

/-! ## The command -/

open Command

/-- How the command ends, by what its recovery brings. -/
def endingOf : Except Ending (List CollectionId) → Ending
  | .ok _ => .success
  | .error e => e

/-- With the store open, the command fares as the host does; within the limit nothing is refused. -/
theorem run_recoverRuns (hworks : Works keeper) {fate : Fate} (hfate : Fated keeper secs s fate)
    (hsecs : secs ≤ thresholdLimit) :
    endingOf ((recoverRuns (.ofSeconds secs) true).run keeper s).1 = fate.ending := by
  rw [recoverRuns, if_pos rfl]
  cases hfate with
  | refused hlimit => exact absurd hlimit (Nat.not_lt.mpr hsecs)
  | @stops now s₁ _ hnow hearly =>
    have hclock : Keeper.now.run keeper s = (now, s₁) := hnow
    rw [Program.run_bind, hclock, staleBefore_ofSeconds hworks hnow, if_pos hearly]
    rfl
  | @recovers now now' s₁ s₂ s₃ recovered _ hnow hreach hnow' hstore =>
    have hclock : Keeper.now.run keeper s = (now, s₁) := hnow
    rw [Program.run_bind, hclock, staleBefore_ofSeconds hworks hnow, if_neg (Int.not_lt.mpr hreach)]
    dsimp only
    rw [Program.run_bind, run_recover hworks hnow' hstore]
    rfl

variable {settings : Settings} {given : Option UInt64} {form : Form}
  {handle : (q : CommandAsk) → σ → q.Answer × σ}

/-- The threshold that was given goes before the one of the settings. -/
theorem threshold_eq : (given.map fun n => Span.ofSeconds n.toNat).getD settings.staleRunAfter
    = .ofSeconds (given.getD settings.sync.staleRunAfterSecs).toNat := by
  cases given <;> rfl

/-- What cannot be used at all is refused before the store is opened. -/
theorem runRecover_refused
    (hsecs : thresholdLimit < (given.getD settings.sync.staleRunAfterSecs).toNat) :
    runRecover form settings given = pure Fate.refused.ending := by
  rw [runRecover, threshold_eq, Span.seconds_ofSeconds, if_pos hsecs]
  rfl

/-- The command ends as its recovery does. -/
theorem run_runRecover {stored : Bool}
    (hsecs : (given.getD settings.sync.staleRunAfterSecs).toNat ≤ thresholdLimit)
    (hopen : (openStore settings).run handle s = (.ok stored, s₁)) :
    ((runRecover form settings given).run handle s).1 =
      endingOf
        ((recoverRuns (.ofSeconds (given.getD settings.sync.staleRunAfterSecs).toNat) stored).run
        (fun q => handle (.keeper q)) s₁).1 := by
  rw [runRecover, threshold_eq, Span.seconds_ofSeconds, if_neg (Nat.not_lt.mpr hsecs),
    Program.run_bind, hopen]
  dsimp only
  rw [Program.run_bind, keeping, Program.run_lift]
  generalize (recoverRuns _ _).run _ _ = recovery
  obtain ⟨result, s₂⟩ := recovery
  cases result with
  | error e => rfl
  | ok recovered =>
    dsimp only
    rw [Program.run_bind]
    rfl

theorem run_openStore (stored : Bool)
    (hopened : handle (.openStore settings.store.databasePath) s
      = (if stored then some (.ok ()) else none, s₁)) :
    (openStore settings).run handle s = (.ok stored, s₁) := by
  have hquestion : (Program.question (CommandAsk.openStore settings.store.databasePath) :
      Commanding (Option (Except OpenError Unit))).run handle s
        = (if stored then some (.ok ()) else none, s₁) := hopened
  rw [openStore, Program.run_bind, hquestion]
  cases stored <;> rfl

/-! ## Surroundings that work -/

/-- A clock that stands still and a store that keeps records in memory. -/
def steady (now : Instant) : (q : CommandAsk) → Memory → q.Answer × Memory
  | .say .., m => ((), m)
  | .file _, m => (.missing, m)
  | .openStore _, m => (some (.ok ()), m)
  | .keeper .clock, m => (now, m)
  | .keeper (.store op), m => m.run op
  | .keeper .watched, m => (false, m)
  | .keeper (.announce _), m => ((), m)

theorem steady_works {now : Instant} (hnow : now.isRepresentable = true ∧ now.nanos < 1000000000) :
    Works fun q => steady now (.keeper q) where
  shows := by
    intro s s' t ht
    obtain rfl : now = t := congrArg Prod.fst ht
    exact hnow
  recovers _ _ _ _ := ⟨_, _, rfl⟩
  reads _ _ := ⟨_, _, rfl⟩

/-- The first of June 2026. -/
def june : Instant := ⟨1780272000, 0⟩

/-- Settings that can be used, with a threshold of more than three hundred thousand years. -/
def patient : Settings :=
  let s := Settings.initial ⟨"/home/me/.config", "/home/me/.local/share"⟩
  { s with sync := { s.sync with staleRunAfterSecs := 10000000000000 } }

/-! ## Every threshold -/

/-- Where the store works, the host and the command refuse, stop or recover by the range that their
threshold is in; the command has nothing to recover where no store is found. -/
theorem recovery_meets_fate (settings : Settings) (given : Option UInt64) (form : Form)
    {handle : (q : CommandAsk) → σ → q.Answer × σ} (hworks : Works fun q => handle (.keeper q))
    (s : σ) :
    (∃ fate, Fated (fun q => handle (.keeper q)) settings.sync.staleRunAfterSecs.toNat s fate ∧
      ((recoverStale settings.staleRunAfter).run (fun q => handle (.keeper q)) s).1 = fate.answer) ∧
    ∀ {opened s₁}, handle (.openStore settings.store.databasePath) s = (opened, s₁) →
      (opened = none → ((runRecover form settings given).run handle s).1 =
        if thresholdLimit < (given.getD settings.sync.staleRunAfterSecs).toNat then
          Fate.refused.ending
        else .success) ∧
      (opened = some (.ok ()) → ∃ fate,
        Fated (fun q => handle (.keeper q))
          (given.getD settings.sync.staleRunAfterSecs).toNat s₁ fate ∧
        ((runRecover form settings given).run handle s).1 = fate.ending) := by
  constructor
  · obtain ⟨fate, hfate⟩ := exists_fated hworks settings.sync.staleRunAfterSecs.toNat s
    exact ⟨fate, hfate, run_recoverStale hworks hfate⟩
  intro opened s₁ hopened
  rcases Nat.lt_or_ge thresholdLimit
    (given.getD settings.sync.staleRunAfterSecs).toNat with hsecs | hsecs
  · rw [runRecover_refused hsecs, if_pos hsecs]
    exact ⟨fun _ => rfl, fun _ => ⟨.refused, .refused hsecs, rfl⟩⟩
  constructor
  · rintro rfl
    rw [if_neg (Nat.not_lt.mpr hsecs)]
    exact run_runRecover hsecs (run_openStore false hopened)
  · rintro rfl
    obtain ⟨fate, hfate⟩ :=
      exists_fated hworks (given.getD settings.sync.staleRunAfterSecs).toNat s₁
    exact ⟨fate, hfate,
      (run_runRecover hsecs (run_openStore true hopened)).trans
        (run_recoverRuns hworks hfate hsecs)⟩

theorem recovery_meets_fate_patient : (Works fun q => steady june (.keeper q)) ∧
    (∃ fate, Fated (fun q => steady june (.keeper q)) 10000000000000 ⟨.empty⟩ fate ∧
      ((recoverStale patient.staleRunAfter).run (fun q => steady june (.keeper q)) ⟨.empty⟩).1
        = fate.answer) ∧
    ∃ fate, Fated (fun q => steady june (.keeper q)) 3600 ⟨.empty⟩ fate ∧
      ((runRecover .json patient (some 3600)).run (steady june) ⟨.empty⟩).1 = fate.ending := by
  have hworks : Works fun q => steady june (.keeper q) := steady_works ⟨by decide, by decide⟩
  have hmeets := recovery_meets_fate patient (some 3600) .json hworks ⟨.empty⟩
  exact ⟨hworks, hmeets.1, (hmeets.2 rfl).2 rfl⟩

/-- The settings can be used and the store works, and yet a recovery stops the host and the
command. -/
theorem usable_threshold_stops :
    patient.isValid = true ∧ (Works fun q => steady june (.keeper q)) ∧
      ((recoverStale patient.staleRunAfter).run (fun q => steady june (.keeper q)) ⟨.empty⟩).1
        = .error .beforeCalendar ∧
      ((runRecover .json patient none).run (steady june) ⟨.empty⟩).1
        = .breakdown RecoveryError.beforeCalendar.message := by
  have hworks : Works fun q => steady june (.keeper q) := steady_works ⟨by decide, by decide⟩
  have hfate : Fated (fun q => steady june (.keeper q)) 10000000000000 ⟨.empty⟩ .stops :=
    .stops (by decide) rfl (by decide)
  exact ⟨by decide +kernel, hworks, run_recoverStale hworks hfate,
    (run_runRecover (by decide) (run_openStore true rfl)).trans
      (run_recoverRuns hworks hfate (by decide))⟩

end Thresholds

end CollectionSync
