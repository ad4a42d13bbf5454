import CollectionSync.Proofs.Run.Grounds
import CollectionSync.Proofs.Run.Invariants
import Mathlib.Logic.Relation

/-! # What a run knows of its cancellation

A check that finds the run cancelled latches this in the shared state, and nothing takes it back. So
the state tells of a cancellation exactly if a check of the main program, of a task or of the watch
has found one before. The waits of a run are interrupted only by a cancellation or by a host that
shuts down. -/

namespace CollectionSync

namespace RunState

/-- The waits are interrupted for a reason. -/
def Coherent (s : RunState) : Prop :=
  s.interrupted = true → s.cancelled = true ∨ s.stopping = true

/-- What the first state tells, the second one tells too. -/
structure Precedes (s s' : RunState) : Prop where
  cancelled : s.cancelled = true → s'.cancelled = true
  stopping : s.stopping = true → s'.stopping = true

theorem Precedes.refl (s : RunState) : s.Precedes s := ⟨id, id⟩

theorem Precedes.trans {s s' s'' : RunState} (h : s.Precedes s') (h' : s'.Precedes s'') :
    s.Precedes s'' :=
  ⟨fun hc => h'.cancelled (h.cancelled hc), fun hs => h'.stopping (h.stopping hs)⟩

theorem precedes_change (s : RunState) (c : RunChange) : s.Precedes (s.change c) := by
  cases c with
  | cancelled => exact ⟨fun _ => rfl, id⟩
  | stopping => exact ⟨id, fun _ => rfl⟩
  | total | success | failure | runFailure | fatal => exact ⟨id, id⟩

theorem Coherent.change {s : RunState} (hs : s.Coherent)
    (c : RunChange) : (s.change c).Coherent := by
  cases c with
  | cancelled => exact fun _ => .inl rfl
  | stopping => exact fun _ => .inr rfl
  | total | success | failure | runFailure | fatal => exact hs

end RunState

namespace Interleaving

open Program Relation

variable {env : Surroundings} {rules : RunRules} {order : RunOrder} {p p' : Pool env}
  {s s' : Shared env} {q : RunAsk} {a : q.Answer} {h : List RunHeard} {i : RunIdentity}

/-! ## Nothing is taken back -/

theorem Serves.onward (hs : Serves q a s s') :
    s.run.Precedes s'.run ∧ (s.run.Coherent → s'.run.Coherent) := by
  cases hs with
  | change => exact ⟨s.run.precedes_change _, fun hc => hc.change _⟩
  | outward | state | pause | acquire | release => exact ⟨.refl s.run, id⟩

/-- The state of the run has gone on. -/
abbrev Onward (p p' : Pool env) : Prop :=
  p.shared.run.Precedes p'.shared.run ∧ (p.shared.run.Coherent → p'.shared.run.Coherent)

theorem Step.onward (hs : Step rules order p p') : Onward p p' := by
  cases hs with
  | main _ hs | task _ _ hs | watch _ _ hs => exact hs.onward
  | stop => exact ⟨p.shared.run.precedes_change .stopping, fun hc => hc.change .stopping⟩
  | spawn | join | startWatch | endWatch | taskEnds | taskBreaks | watchRound | watchGone | world =>
    exact ⟨.refl p.shared.run, id⟩

theorem onward_of_leads (hl : ReflTransGen (Step rules order) p p') :
    p.shared.run.Precedes p'.shared.run := by
  induction hl with
  | refl => exact .refl _
  | tail _ hs ih => exact ih.trans hs.onward.1

/-- A question for the state is answered with it. -/
theorem Serves.of_state {run : RunState} (hs : Serves q a s s')
    (heq : (⟨.state, run⟩ : RunHeard) = ⟨q, a⟩) : run = s.run := by
  cases heq
  cases hs with
  | state => rfl
  | outward hq => cases hq

/-- The states that the main program has read tell no more than those that it has read later, and no
more than the present one. -/
structure Orderly (p : Pool env) : Prop where
  coherent : p.shared.run.Coherent
  read : ∀ run : RunState, (⟨.state, run⟩ : RunHeard) ∈ p.main →
    run.Coherent ∧ run.Precedes p.shared.run
  later : p.main.Pairwise fun e e' => ∀ run run' : RunState,
    (⟨.state, run⟩ : RunHeard) = e → (⟨.state, run'⟩ : RunHeard) = e' → run.Precedes run'

theorem Orderly.goOn (ho : Orderly p) (hs : Onward p p') (hm : p'.main = p.main) : Orderly p' := by
  obtain ⟨hcoherent, hread, hlater⟩ := ho
  obtain ⟨honward, hkept⟩ := hs
  refine ⟨hkept hcoherent, fun run hrun => ?_, ?_⟩
  · rw [hm] at hrun
    exact ⟨(hread run hrun).1, (hread run hrun).2.trans honward⟩
  · rwa [hm]

theorem Orderly.hear (ho : Orderly p) (hs : Onward p p') (hm : p'.main = p.main ++ [⟨q, a⟩])
    (hstate : ∀ run : RunState, (⟨.state, run⟩ : RunHeard) = ⟨q, a⟩ → run = p.shared.run) :
    Orderly p' := by
  obtain ⟨hcoherent, hread, hlater⟩ := ho
  obtain ⟨honward, hkept⟩ := hs
  refine ⟨hkept hcoherent, fun run hrun => ?_, ?_⟩
  · rw [hm] at hrun
    rcases List.mem_append.mp hrun with hrun | hrun
    · exact ⟨(hread run hrun).1, (hread run hrun).2.trans honward⟩
    · rw [hstate run (List.mem_singleton.mp hrun)]
      exact ⟨hcoherent, honward⟩
  · rw [hm]
    refine List.pairwise_append.mpr ⟨hlater, List.pairwise_singleton _ _, ?_⟩
    intro e he e' he' run run' hrun hrun'
    rw [List.mem_singleton.mp he'] at hrun'
    rw [hstate run' hrun']
    subst hrun
    exact (hread run he).2

theorem orderly_of_reachable (hr : Reachable rules order p) : Orderly p := by
  induction hr with
  | start stopping w => exact ⟨fun h => .inr h, fun _ h => (by cases h), .nil⟩
  | @step p p' hr hs ih =>
    have honward := hs.onward
    cases hs with
    | main _ hserves => exact ih.hear honward rfl fun run => hserves.of_state
    | spawn _ | join _ _ | startWatch _ | endWatch _ => exact ih.hear honward rfl (by simp)
    | task _ _ _ | taskEnds _ _ | taskBreaks _ _ | watch _ _ _ | watchRound _ _ | watchGone | stop
    | world _ => exact ih.goOn honward rfl

/-! ## Cancellations that were observed -/

/-- All that the programs of the run have heard, the watch in its present round included. -/
def Pool.attended (p : Pool env) : List RunHeard := p.heard ++ p.watch.getD []

/-- The main program, a task or the watch has latched a cancellation. -/
def Pool.Latches (p : Pool env) (i : RunIdentity) : Prop :=
  Latched i p.main ∨ (∃ f ∈ p.fibers, Latched i f.heard) ∨ ∃ h, p.watch = some h ∧ Latched i h

/-- On its way to the pool, a check of the main program, of a task or of the watch has found the run
called off. -/
def Observed (rules : RunRules) (order : RunOrder) (p : Pool env) : Prop :=
  ∃ p₀, Reachable rules order p₀ ∧ ReflTransGen (Step rules order) p₀ p ∧ p₀.Latches order.identity

theorem Pool.Latches.attended (hl : p.Latches i) : Has (fun q _ => IsLatch q) p.attended := by
  rcases hl with hl | ⟨f, hf, hl⟩ | ⟨h, hw, hl⟩
  · exact has_append.mpr (.inl (has_append.mpr (.inl hl.has)))
  · obtain ⟨e, he, hlatch⟩ := hl.has
    have hmem : e ∈ p.fibers.flatMap Fiber.heard := List.mem_flatMap.mpr ⟨f, hf, he⟩
    exact has_append.mpr (.inl (has_append.mpr (.inr ⟨e, hmem, hlatch⟩)))
  · refine has_append.mpr (.inr ?_)
    rw [hw]
    exact hl.has

theorem Serves.latched (hs : Serves q a s s') :
    (IsLatch q → s'.run.cancelled = true) ∧
      (s'.run.cancelled = true → s.run.cancelled = true ∨ IsLatch q) := by
  cases hs with
  | @change c =>
    cases c with
    | cancelled => exact ⟨fun _ => rfl, fun _ => .inr trivial⟩
    | total | success | failure | runFailure | fatal | stopping =>
      exact ⟨False.elim, fun h => .inl h⟩
  | outward hq =>
    refine ⟨fun hlatch => ?_, .inl⟩
    unfold IsLatch at hlatch
    split at hlatch
    · cases hq
    · cases hlatch
  | state | pause | acquire | release => exact ⟨False.elim, .inl⟩

/-- A cancellation that is newly latched shows in the state. -/
theorem Step.latched (hs : Step rules order p p')
    (hlatch : Has (fun q _ => IsLatch q) p'.attended) :
    Has (fun q _ => IsLatch q) p.attended ∨ p'.shared.run.cancelled = true := by
  revert hlatch
  cases hs with
  | main _ hs =>
    have hto := hs.latched.1
    simp only [Pool.attended, Pool.heard, Pool.hear, has_append, has_cons, not_has_nil]
    grind
  | task hf _ hs =>
    have hto := hs.latched.1
    simp only [Pool.attended, Pool.heard, hf, List.flatMap_append, List.flatMap_cons, has_append,
      has_cons, not_has_nil]
    grind
  | watch hw _ hs =>
    have hto := hs.latched.1
    simp only [Pool.attended, Pool.heard, hw, Option.getD_some, has_append, has_cons, not_has_nil]
    grind
  | spawn _ | startWatch _ | endWatch _ =>
    simp only [Pool.attended, Pool.heard, Pool.hear, List.flatMap_append, List.flatMap_cons,
      List.flatMap_nil, Option.getD_some, List.append_nil, has_append, has_cons, not_has_nil,
      IsLatch]
    grind
  | join _ hf =>
    simp only [Pool.attended, Pool.heard, Pool.hear, hf, List.flatMap_append, List.flatMap_cons,
      has_append, has_cons, not_has_nil, IsLatch]
    grind
  | taskEnds hf _ | taskBreaks hf _ =>
    simp only [Pool.attended, Pool.heard, Pool.giveBack, hf, List.flatMap_append, List.flatMap_cons]
    exact .inl
  | @watchRound _ last _ _ =>
    refine fun h => .inl ?_
    rcases has_append.mp h with h | h
    · exact has_append.mpr (.inl h)
    · cases last <;> exact absurd h not_has_nil
  | watchGone =>
    refine fun h => .inl ?_
    rcases has_append.mp h with h | h
    · exact has_append.mpr (.inl h)
    · exact absurd h not_has_nil
  | stop | world _ => exact .inl

/-- A cancellation that newly shows in the state was latched. -/
theorem Step.latches (hs : Step rules order p p') (hcancelled : p'.shared.run.cancelled = true) :
    p.shared.run.cancelled = true ∨ p'.Latches order.identity := by
  cases hs with
  | main hf hs =>
    exact (hs.latched.2 hcancelled).imp_right fun hq => .inl (Grounded.run.latched hf hq)
  | task _ hf hs =>
    refine (hs.latched.2 hcancelled).imp_right fun hq => .inr (.inl ?_)
    exact ⟨_, List.mem_append_right _ List.mem_cons_self, (Grounded.task _).latched hf hq⟩
  | watch _ hf hs =>
    refine (hs.latched.2 hcancelled).imp_right fun hq => .inr (.inr ⟨_, rfl, ?_⟩)
    exact Grounded.watch.latched hf hq
  | spawn | join | startWatch | endWatch | taskEnds | taskBreaks | watchRound | watchGone | stop
  | world => exact .inl hcancelled

theorem cancelled_of_latched (hr : Reachable rules order p)
    (hlatch : Has (fun q _ => IsLatch q) p.attended) : p.shared.run.cancelled = true := by
  induction hr with
  | start stopping w => exact absurd hlatch not_has_nil
  | step hr hs ih =>
    rcases hs.latched hlatch with hlatch | hcancelled
    · exact hs.onward.1.cancelled (ih hlatch)
    · exact hcancelled

/-- The state tells of a cancellation exactly if one was observed. -/
theorem cancelled_iff_observed (hr : Reachable rules order p) :
    p.shared.run.cancelled = true ↔ Observed rules order p := by
  constructor
  · intro hcancelled
    induction hr with
    | start stopping w => cases hcancelled
    | @step p p' hr hs ih =>
      rcases hs.latches hcancelled with hcancelled | hlatch
      · obtain ⟨p₀, hr₀, hl, hlatch⟩ := ih hcancelled
        exact ⟨p₀, hr₀, hl.tail hs, hlatch⟩
      · exact ⟨p', .step hr hs, .refl, hlatch⟩
  · intro hobserved
    obtain ⟨p₀, hr₀, hl, hlatch⟩ := hobserved
    exact (onward_of_leads hl).cancelled (cancelled_of_latched hr₀ hlatch.attended)

end Interleaving

end CollectionSync
