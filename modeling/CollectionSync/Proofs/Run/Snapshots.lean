import CollectionSync.Proofs.Record.Rules
import CollectionSync.Run.State

/-! # The counters that a run hands out

Each task that is settled takes the counters as they are then, and writes them later, so writes may
overtake each other. The counters that a run hands out are ordered in every respect by the number of
settled items alone, so a store that only compares these numbers keeps the counters that are
furthest. -/

namespace CollectionSync

/-! ## Counters by the number of settled items -/

namespace Progress

/-- The number of items settled either way. -/
def settled (p : Progress) : Nat := p.processed + p.failed

theorem settled?_eq {p : Progress} (h : p.settled < counterLimit) : p.settled? = some p.settled :=
  if_pos h

/-- The second counters were taken later in the same run, with more items settled. -/
structure Precedes (p q : Progress) : Prop where
  processed : p.processed ≤ q.processed
  failed : p.failed ≤ q.failed
  settled : p.settled < q.settled

theorem Precedes.trans {p q r : Progress} (h : p.Precedes q) (h' : q.Precedes r) : p.Precedes r :=
  ⟨Nat.le_trans h.processed h'.processed, Nat.le_trans h.failed h'.failed,
    Nat.lt_trans h.settled h'.settled⟩

/-- What stands after counters were given to whoever holds others: it does not go back. -/
def latest (held given : Progress) : Progress :=
  if given.settled < held.settled then held else given

theorem latest_zero (given : Progress) : zero.latest given = given := if_neg (Nat.not_lt_zero _)

theorem latest_cases (held given : Progress) :
    (held.latest given = held ∨ held.latest given = given) ∧
      held.settled ≤ (held.latest given).settled ∧ given.settled ≤ (held.latest given).settled := by
  unfold latest
  split
  · next hlt => exact ⟨.inl rfl, Nat.le_refl _, Nat.le_of_lt hlt⟩
  · next hge => exact ⟨.inr rfl, Nat.le_of_not_lt hge, Nat.le_refl _⟩

/-- In the end one of those given is held, and none of them is further. -/
theorem foldl_latest (given : List Progress) (held : Progress) :
    given.foldl latest held ∈ held :: given ∧
      ∀ p ∈ held :: given, p.settled ≤ (given.foldl latest held).settled := by
  induction given generalizing held with
  | nil =>
    exact ⟨List.mem_cons_self, fun p hp => by rw [List.mem_singleton.mp hp]; exact Nat.le_refl _⟩
  | cons q given ih =>
    obtain ⟨hmem, hmost⟩ := ih (held.latest q)
    obtain ⟨hwhich, hheld, hq⟩ := latest_cases held q
    have hreached := hmost _ List.mem_cons_self
    constructor
    · rcases List.mem_cons.mp hmem with hmem | hmem
      · rw [List.foldl_cons, hmem]
        rcases hwhich with h | h <;> simp [h]
      · exact List.mem_cons_of_mem held (List.mem_cons_of_mem q hmem)
    · intro p hp
      rcases List.mem_cons.mp hp with rfl | hp
      · exact Nat.le_trans hheld hreached
      rcases List.mem_cons.mp hp with rfl | hp
      · exact Nat.le_trans hq hreached
      · exact hmost p (List.mem_cons_of_mem _ hp)

/-- Whoever starts with fresh counters holds, once any were given, the furthest of them. -/
theorem foldl_latest_zero {given : List Progress} (h : given ≠ []) :
    given.foldl latest zero ∈ given ∧ ∀ p ∈ given, p.settled ≤
    (given.foldl latest zero).settled := by
  cases given with
  | nil => exact absurd rfl h
  | cons q given =>
    rw [List.foldl_cons, latest_zero]
    exact foldl_latest given q

end Progress

/-! ## The counters of one run -/

/-- A change that settles an item, after which the counters are handed out. -/
def RunChange.settles : RunChange → Bool
  | .success _ | .failure _ => true
  | _ => false

namespace RunState

/-- The counters as they are at first and after each change. -/
def snapshots : RunState → List RunChange → List Progress
  | s, [] => [s.progress]
  | s, change :: changes => s.progress :: (s.change change).snapshots changes

/-- The counters after all changes. -/
def lastProgress (s : RunState) (changes : List RunChange) : Progress :=
  (changes.foldl RunState.change s).progress

theorem lastProgress_mem (s : RunState) (changes : List RunChange) :
    s.lastProgress changes ∈ s.snapshots changes := by
  induction changes generalizing s with
  | nil => exact List.mem_cons_self
  | cons change changes ih => exact List.mem_cons_of_mem s.progress (ih (s.change change))

theorem precedes_of_settles (s : RunState) {change : RunChange} (h : change.settles = true) :
    s.progress.Precedes (s.change change).progress ∧
      (s.change change).progress.settled = s.progress.settled + 1 := by
  cases change with
  | success name =>
    have hsum : (s.change (.success name)).progress.settled = s.progress.settled + 1 := by
      simp only [RunState.change, Progress.settled]
      omega
    exact ⟨⟨Nat.le_succ _, Nat.le_refl _, by omega⟩, hsum⟩
  | failure item =>
    have hsum : (s.change (.failure item)).progress.settled = s.progress.settled + 1 := by
      simp only [RunState.change, Progress.settled]
      omega
    exact ⟨⟨Nat.le_refl _, Nat.le_succ _, by omega⟩, hsum⟩
  | _ => cases h

section

variable {changes : List RunChange} (hsettles : ∀ change ∈ changes, change.settles = true)

include hsettles

theorem progress_first (s : RunState) {p : Progress} (hp : p ∈ s.snapshots changes) :
    p = s.progress ∨ s.progress.Precedes p := by
  induction changes generalizing s with
  | nil => exact .inl (List.mem_singleton.mp hp)
  | cons change changes ih =>
    obtain ⟨hchange, hchanges⟩ := List.forall_mem_cons.mp hsettles
    rcases List.mem_cons.mp hp with rfl | hp
    · exact .inl rfl
    have hnext := (s.precedes_of_settles hchange).1
    rcases ih hchanges (s.change change) hp with rfl | hlater
    · exact .inr hnext
    · exact .inr (hnext.trans hlater)

/-- Of two counters of one run one was taken later, and nothing in it has gone back. -/
theorem snapshots_ordered (s : RunState) {p q : Progress} (hp : p ∈ s.snapshots changes)
    (hq : q ∈ s.snapshots changes) : p = q ∨ p.Precedes q ∨ q.Precedes p := by
  induction changes generalizing s with
  | nil => exact .inl ((List.mem_singleton.mp hp).trans (List.mem_singleton.mp hq).symm)
  | cons change changes ih =>
    obtain ⟨-, hchanges⟩ := List.forall_mem_cons.mp hsettles
    rcases List.mem_cons.mp hp with rfl | hp'
    · exact (s.progress_first hsettles hq).elim (fun h => .inl h.symm) fun h => .inr (.inl h)
    rcases List.mem_cons.mp hq with rfl | hq'
    · exact (s.progress_first hsettles hp).elim .inl fun h => .inr (.inr h)
    · exact ih hchanges (s.change change) hp' hq'

theorem settled_snapshots_le (s : RunState) {p : Progress} (hp : p ∈ s.snapshots changes) :
    p.settled ≤ s.progress.settled + changes.length := by
  induction changes generalizing s with
  | nil => exact Nat.le_of_eq (congrArg _ (List.mem_singleton.mp hp))
  | cons change changes ih =>
    obtain ⟨hchange, hchanges⟩ := List.forall_mem_cons.mp hsettles
    rcases List.mem_cons.mp hp with rfl | hp
    · exact Nat.le_add_right _ _
    have hle := ih hchanges (s.change change) hp
    rw [(s.precedes_of_settles hchange).2] at hle
    rw [List.length_cons]
    omega

theorem eq_or_precedes_lastProgress (s : RunState) {p : Progress} (hp : p ∈ s.snapshots changes) :
    p = s.lastProgress changes ∨ p.Precedes (s.lastProgress changes) := by
  induction changes generalizing s with
  | nil => exact .inl (List.mem_singleton.mp hp)
  | cons change changes ih =>
    obtain ⟨-, hchanges⟩ := List.forall_mem_cons.mp hsettles
    rcases List.mem_cons.mp hp with rfl | hp
    · exact (s.progress_first hsettles (s.lastProgress_mem (change :: changes))).imp Eq.symm id
    · exact ih hchanges (s.change change) hp

/-- Whoever only takes counters that are not behind its own does not go back in any of them. -/
theorem held_le_latest (s : RunState) {held given : Progress} (hgiven : given ∈ s.snapshots changes)
    (hheld : held = .zero ∨ held ∈ s.snapshots changes) :
    held.processed ≤ (held.latest given).processed ∧ held.failed ≤ (held.latest given).failed := by
  rcases hheld with rfl | hheld
  · exact ⟨Nat.zero_le _, Nat.zero_le _⟩
  unfold Progress.latest
  split
  · exact ⟨Nat.le_refl _, Nat.le_refl _⟩
  · next hnot =>
    rcases s.snapshots_ordered hsettles hheld hgiven with rfl | hlater | hearlier
    · exact ⟨Nat.le_refl _, Nat.le_refl _⟩
    · exact ⟨hlater.processed, hlater.failed⟩
    · exact absurd hearlier.settled hnot

/-- In whichever order the counters of a run are given, the last ones taken are held in the end. -/
theorem foldl_latest_snapshots (s : RunState) {given : List Progress}
    (hperm : given.Perm (s.snapshots changes)) :
    given.foldl Progress.latest .zero = s.lastProgress changes := by
  have hlast : s.lastProgress changes ∈ given := hperm.mem_iff.mpr (s.lastProgress_mem changes)
  obtain ⟨hmem, hmost⟩ := Progress.foldl_latest_zero (List.ne_nil_of_mem hlast)
  rcases s.eq_or_precedes_lastProgress hsettles (hperm.mem_iff.mp hmem) with heq | hearlier
  · exact heq
  · exact absurd hearlier.settled (Nat.not_lt_of_le (hmost _ hlast))

end

end RunState

end CollectionSync
