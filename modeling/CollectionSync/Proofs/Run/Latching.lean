import CollectionSync.Proofs.Run.Aftermath
import CollectionSync.Proofs.Run.Observing

/-! # What a run has found of its cancellation, it finds again

The programs of a run are told of its state again and again, and what they are told never falls
behind what was so before. A check that begins after another one has found the run cancelled is told
of that by the state alone, whatever has become of the record meanwhile. -/

namespace CollectionSync

namespace RunState

/-- Waits that are interrupted stay so as well. -/
structure LeadsTo (s s' : RunState) : Prop extends s.Precedes s' where
  interrupted : s.interrupted = true → s'.interrupted = true

theorem LeadsTo.refl (s : RunState) : s.LeadsTo s := ⟨.refl s, id⟩

theorem LeadsTo.trans {s s' s'' : RunState} (h : s.LeadsTo s')
    (h' : s'.LeadsTo s'') : s.LeadsTo s'' :=
  ⟨h.toPrecedes.trans h'.toPrecedes, fun hi => h'.interrupted (h.interrupted hi)⟩

theorem leadsTo_change (s : RunState) (c : RunChange) : s.LeadsTo (s.change c) := by
  refine ⟨s.precedes_change c, ?_⟩
  cases c with
  | cancelled | stopping => exact fun _ => rfl
  | total | success | failure | runFailure | fatal => exact id

end RunState

namespace Interleaving

open Program Relation

variable {env : Surroundings} {rules : RunRules} {order : RunOrder} {i : RunIdentity}
  {p₀ p p' : Pool env}
  {s s' : Shared env} {q : RunAsk} {a : q.Answer} {run : RunState} {h₀ h : List RunHeard}

theorem Serves.leadsTo (hs : Serves q a s s') : s.run.LeadsTo s'.run := by
  cases hs with
  | change => exact s.run.leadsTo_change _
  | outward | state | pause | acquire | release => exact .refl s.run

theorem Step.leadsTo (hs : Step rules order p p') : p.shared.run.LeadsTo p'.shared.run := by
  cases hs with
  | main _ hs | task _ _ hs | watch _ _ hs => exact hs.leadsTo
  | stop => exact p.shared.run.leadsTo_change .stopping
  | spawn | join | startWatch | endWatch | taskEnds | taskBreaks | watchRound | watchGone | world =>
    exact .refl p.shared.run

/-! ## What was told since -/

/-- What was heard since tells of no state that falls behind the given one. -/
def Told (run : RunState) (h₀ h : List RunHeard) : Prop :=
  ∃ h₁, h = h₀ ++ h₁ ∧ ∀ s : RunState, (⟨.state, s⟩ : RunHeard) ∈ h₁ → run.LeadsTo s

namespace Told

theorem refl (run : RunState) (h : List RunHeard) : Told run h h :=
  ⟨[], (List.append_nil h).symm, fun _ hs => by cases hs⟩

theorem snoc (ht : Told run h₀ h)
    (hnew : ∀ s : RunState, (⟨.state, s⟩ : RunHeard) = ⟨q, a⟩ → run.LeadsTo s) :
    Told run h₀ (h ++ [⟨q, a⟩]) := by
  obtain ⟨h₁, rfl, htold⟩ := ht
  refine ⟨h₁ ++ [⟨q, a⟩], List.append_assoc .., fun s hs => ?_⟩
  rcases List.mem_append.mp hs with hs | hs
  · exact htold s hs
  · exact hnew s (List.mem_singleton.mp hs)

/-- An answer is served from the state as it is then. -/
theorem serve (ht : Told run h₀ h) (hs : Serves q a s s') (hrun : run.LeadsTo s.run) :
    Told run h₀ (h ++ [⟨q, a⟩]) :=
  ht.snoc fun s heq => by rwa [hs.of_state heq]

end Told

/-- From the one pool to the other, no program was told of a state that falls behind the first
one. -/
structure Since (p₀ p : Pool env) : Prop where
  run : p₀.shared.run.LeadsTo p.shared.run
  main : Told p₀.shared.run p₀.main p.main
  tasks : p₀.fibers.map Fiber.task <+: p.fibers.map Fiber.task
  heard : ∀ k f, p.fibers[k]? = some f → Told p₀.shared.run (p₀.begun k) f.heard
  /-- The watch may have begun another round. -/
  watch : ∀ h, p.watch = some h →
    Told p₀.shared.run [] h ∨ ∃ h₀, p₀.watch = some h₀ ∧ Told p₀.shared.run h₀ h

namespace Since

theorem refl (p : Pool env) : Since p p := by
  refine ⟨.refl _, .refl _ _, List.prefix_refl _, fun k f hk => ?_,
    fun h hw => .inr ⟨h, hw, .refl _ h⟩⟩
  rw [Pool.begun, hk]
  exact .refl _ _

/-- The tasks have heard no more. -/
theorem hear (hs : Since p₀ p) (hrun : p.shared.run.LeadsTo p'.shared.run)
    (hm : Told p₀.shared.run p₀.main p'.main) (hf : p'.fibers = p.fibers)
    (hw : ∀ h, p'.watch = some h → p.watch = some h ∨ Told p₀.shared.run [] h) : Since p₀ p' := by
  refine ⟨hs.run.trans hrun, hm, ?_, ?_, fun h hh => (hw h hh).elim (hs.watch h) .inl⟩
  · rw [hf]
    exact hs.tasks
  · rw [hf]
    exact hs.heard

/-- One task may have heard more. -/
theorem goOn (hs : Since p₀ p) {before after : List Fiber} {f g : Fiber}
    (hrun : p.shared.run.LeadsTo p'.shared.run) (hm : Told p₀.shared.run p₀.main p'.main)
    (hf : p.fibers = before ++ f :: after) (hg : p'.fibers = before ++ g :: after)
    (hw : p'.watch = p.watch) (htask : g.task = f.task)
    (hheard : ∀ {h}, Told p₀.shared.run h f.heard → Told p₀.shared.run h g.heard) :
    Since p₀ p' := by
  have hsame : p'.fibers.map Fiber.task = p.fibers.map Fiber.task := by
    rw [hf, hg, List.map_append, List.map_append, List.map_cons, List.map_cons, htask]
  refine ⟨hs.run.trans hrun, hm, hsame ▸ hs.tasks, fun k x hx => ?_, hw ▸ hs.watch⟩
  rw [hg] at hx
  rcases getElem?_replaced hx with ⟨hk, rfl⟩ | hx
  · exact hheard (hs.heard k f (hf ▸ hk))
  · exact hs.heard k x (hf ▸ hx)

theorem spawn (hs : Since p₀ p) {task : SyncTask} :
    Since p₀ { p.hear (.spawn task) () with fibers := p.fibers ++ [⟨task, [], .working⟩] } := by
  refine ⟨hs.run, hs.main.snoc (by simp), ?_, fun k x hx => ?_, hs.watch⟩
  · rw [List.map_append]
    exact hs.tasks.trans (List.prefix_append _ _)
  · rcases Nat.lt_or_ge k p.fibers.length with hold | hnew
    · rw [List.getElem?_append_left hold] at hx
      exact hs.heard k x hx
    · -- the new task has heard nothing, and there was none with its number
      have hlength : p₀.fibers.length ≤ p.fibers.length := by simpa using hs.tasks.length_le
      have hbegun : p₀.begun k = [] := by
        rw [Pool.begun, List.getElem?_eq_none (Nat.le_trans hlength hnew)]
        rfl
      rw [List.getElem?_append_right hnew] at hx
      cases List.mem_singleton.mp (List.mem_of_getElem? hx)
      rw [hbegun]
      exact .refl _ []

theorem step (hs : Since p₀ p) (hstep : Step rules order p p') : Since p₀ p' := by
  have honward := hstep.leadsTo
  cases hstep with
  | main _ hserves => exact hs.hear honward (hs.main.serve hserves hs.run) rfl fun _ => .inl
  | spawn _ => exact hs.spawn
  | join _ hf => exact hs.goOn honward (hs.main.snoc (by simp)) hf rfl rfl rfl id
  | startWatch _ =>
    refine hs.hear honward (hs.main.snoc (by simp)) rfl fun h hw => .inr ?_
    cases hw
    exact .refl _ []
  | endWatch _ => exact hs.hear honward (hs.main.snoc (by simp)) rfl fun _ => .inl
  | task hf _ hserves =>
    exact hs.goOn honward hs.main hf rfl rfl rfl fun ht => ht.serve hserves hs.run
  | taskEnds hf _ | taskBreaks hf _ => exact hs.goOn honward hs.main hf rfl rfl rfl id
  | watch hw _ hserves =>
    refine ⟨hs.run.trans honward, hs.main, hs.tasks, hs.heard, fun h hh => ?_⟩
    cases hh
    rcases hs.watch _ hw with ht | ⟨h₀, hw₀, ht⟩
    · exact .inl (ht.serve hserves hs.run)
    · exact .inr ⟨h₀, hw₀, ht.serve hserves hs.run⟩
  | @watchRound _ last _ _ =>
    refine hs.hear honward hs.main rfl fun h hw => .inr ?_
    cases last with
    | true => cases hw
    | false =>
      cases hw
      exact .refl _ []
  | watchGone =>
    refine hs.hear honward hs.main rfl fun h hw => ?_
    cases hw
  | stop | world _ => exact hs.hear honward hs.main rfl fun _ => .inl

end Since

theorem since_of_leads (hl : ReflTransGen (Step rules order) p₀ p) : Since p₀ p := by
  induction hl with
  | refl => exact .refl p₀
  | tail _ hs ih => exact ih.step hs

/-! ## What was told one after the other -/

/-- The states that a program was told of tell no more than those that it was told of later, and no
more than the present one. -/
structure InOrder (run : RunState) (h : List RunHeard) : Prop where
  read : ∀ s : RunState, (⟨.state, s⟩ : RunHeard) ∈ h → s.Coherent ∧ s.Precedes run
  later : h.Pairwise fun e e' => ∀ s s' : RunState,
    (⟨.state, s⟩ : RunHeard) = e → (⟨.state, s'⟩ : RunHeard) = e' → s.Precedes s'

namespace InOrder

theorem nil (run : RunState) : InOrder run [] := ⟨fun _ hs => (by cases hs), .nil⟩

theorem mono {run' : RunState} (ho : InOrder run h) (hrun : run.Precedes run') : InOrder run' h :=
  ⟨fun s hs => ⟨(ho.read s hs).1, (ho.read s hs).2.trans hrun⟩, ho.later⟩

theorem serve (ho : InOrder s.run h) (hc : s.run.Coherent) (hs : Serves q a s s') :
    InOrder s'.run (h ++ [⟨q, a⟩]) := by
  have honward := hs.onward.1
  refine ⟨fun run hrun => ?_, List.pairwise_append.mpr ⟨ho.later, List.pairwise_singleton _ _, ?_⟩⟩
  · rcases List.mem_append.mp hrun with hrun | hrun
    · exact ⟨(ho.read run hrun).1, (ho.read run hrun).2.trans honward⟩
    · rw [hs.of_state (List.mem_singleton.mp hrun)]
      exact ⟨hc, honward⟩
  · intro e he e' he' run run' hrun hrun'
    rw [List.mem_singleton.mp he'] at hrun'
    rw [hs.of_state hrun']
    subst hrun
    exact (ho.read run he).2

end InOrder

/-- The tasks and the watch are told of states one after the other. -/
structure ToldInOrder (p : Pool env) : Prop where
  tasks : ∀ f ∈ p.fibers, InOrder p.shared.run f.heard
  watch : ∀ h, p.watch = some h → InOrder p.shared.run h

theorem toldInOrder_of_reachable (hr : Reachable rules order p) : ToldInOrder p := by
  induction hr with
  | start stopping w => exact ⟨fun f hf => (by cases hf), fun h hh => (by cases hh)⟩
  | @step p p' hr hs ih =>
    have hcoherent := (orderly_of_reachable hr).coherent
    have honward := hs.onward.1
    have htasks : ∀ f ∈ p.fibers, InOrder p'.shared.run f.heard := fun f hf =>
      (ih.tasks f hf).mono honward
    have hwatch : ∀ h, p.watch = some h → InOrder p'.shared.run h := fun h hh =>
      (ih.watch h hh).mono honward
    cases hs with
    | main | endWatch | stop | world => exact ⟨htasks, hwatch⟩
    | startWatch => exact ⟨htasks, fun h hh => by cases hh; exact .nil _⟩
    | spawn _ =>
      refine ⟨fun f hf => ?_, hwatch⟩
      rcases List.mem_append.mp hf with hf | hf
      · exact htasks f hf
      · cases List.mem_singleton.mp hf
        exact .nil _
    | join _ hf | taskEnds hf _ | taskBreaks hf _ =>
      rw [hf] at htasks
      exact ⟨forall_mem_replaced htasks id, hwatch⟩
    | task hf _ hserves =>
      have htask := ih.tasks _ (hf ▸ List.mem_append_right _ List.mem_cons_self)
      rw [hf] at htasks
      exact ⟨forall_mem_replaced htasks fun _ => htask.serve hcoherent hserves, hwatch⟩
    | watch hw _ hserves =>
      refine ⟨htasks, fun h hh => ?_⟩
      cases hh
      exact (ih.watch _ hw).serve hcoherent hserves
    | @watchRound _ last _ _ =>
      refine ⟨htasks, fun h hh => ?_⟩
      cases last with
      | true => cases hh
      | false =>
        cases hh
        exact .nil _
    | watchGone => exact ⟨htasks, fun h hh => (by cases hh)⟩

/-- No program was told of more than what the present state tells. -/
theorem precedes_of_attended (hr : Reachable rules order p)
    (hrun : (⟨.state, run⟩ : RunHeard) ∈ p.attended) : run.Precedes p.shared.run := by
  have htold := toldInOrder_of_reachable hr
  rcases List.mem_append.mp hrun with hrun | hrun
  · rcases List.mem_append.mp hrun with hrun | hrun
    · exact ((orderly_of_reachable hr).read run hrun).2
    · obtain ⟨f, hf, hrun⟩ := List.mem_flatMap.mp hrun
      exact ((htold.tasks f hf).read run hrun).2
  · cases hw : p.watch with
    | none =>
      rw [hw] at hrun
      cases hrun
    | some h =>
      rw [hw] at hrun
      exact ((htold.watch h hw).read run hrun).2

/-! ## Checks -/

/-- A check that is told of a run that was cancelled, or is to stop, does not let it go on. -/
theorem observe_told {observed : Except RunError Bool} (hy : Yields i.observe h observed)
    (htold : ∀ s : RunState, (⟨.state, s⟩ : RunHeard) ∈ h → s.cancelled = true ∨
      s.stopping = true) :
    observed = .ok true := by
  obtain ⟨h₁, s, h₂, rfl, hs, hy₂⟩ := yields_bind.mp hy
  obtain rfl := yields_question.mp hs
  split at hy₂
  · exact (yields_pure.mp hy₂).2
  · next hcancelled =>
    rw [if_pos ((htold s List.mem_cons_self).resolve_left hcancelled)] at hy₂
    obtain ⟨h₃, s', h₄, -, -, hy₃⟩ := yields_bind.mp hy₂
    exact (yields_pure.mp hy₃).2

/-- A check that finds the run cancelled latches this, unless it was told of it. -/
theorem observe_latches (hy : Yields i.observe h (.ok true)) :
    Has (fun q _ => IsLatch q) h ∨
      ∃ s : RunState, (⟨.state, s⟩ : RunHeard) ∈ h ∧ s.cancelled = true := by
  have hlatch : ∀ {h : List RunHeard} {observed : Except RunError Bool},
      Yields (Run.change .cancelled >>= fun _ => pure observed) h (.ok true) →
      Has (fun q _ => IsLatch q) h := by
    intro h observed hy
    obtain ⟨h₁, s, h₂, rfl, hs, -⟩ := yields_bind.mp hy
    obtain rfl := yields_question.mp hs
    exact ⟨_, List.mem_cons_self, trivial⟩
  obtain ⟨h₁, s, h₂, rfl, hs, hy₂⟩ := yields_bind.mp hy
  obtain rfl := yields_question.mp hs
  split at hy₂
  · next hcancelled => exact .inr ⟨s, List.mem_cons_self, hcancelled⟩
  split at hy₂
  · exact .inl (has_append.mpr (.inr (hlatch hy₂)))
  obtain ⟨h₃, found, h₄, rfl, -, hy₃⟩ := yields_bind.mp hy₂
  split at hy₃
  · cases (yields_pure.mp hy₃).2
  split at hy₃
  · cases (yields_pure.mp hy₃).2
  · exact .inl (has_append.mpr (.inr (has_append.mpr (.inr (hlatch hy₃)))))

/-- Between the two pools a check was made: in the first one a program of the run is about to make
it, in the second one that program has heard the answers to it and no more. -/
inductive Checks (rules : RunRules) (order : RunOrder) (p p' : Pool env) :
    Except RunError Bool → Prop
  | main {next : Except RunError Bool → Running (Except RunError Record)} {h : List RunHeard}
      {observed : Except RunError Bool} :
    Follows (order.run rules) p.main (order.identity.observe >>= next) → p'.main = p.main ++ h →
    Yields order.identity.observe h observed → Checks rules order p p' observed
  | task {k : Nat} {f f' : Fiber} {next : Except RunError Bool → Running (Except RunError Unit)}
      {h : List RunHeard} {observed : Except RunError Bool} :
    p.fibers[k]? = some f →
    Follows (taskOf rules order f.task) f.heard (order.identity.observe >>= next) →
    p'.fibers[k]? = some f' → f'.heard = f.heard ++ h →
    Yields order.identity.observe h observed → Checks rules order p p' observed
  | watch {next : Except RunError Bool → Running Bool} {h₀ h : List RunHeard}
      {observed : Except RunError Bool} :
    p.watch = some h₀ → Follows (watchOf rules order) h₀ (order.identity.observe >>= next) →
    p'.watch = some (h₀ ++ h) → Yields order.identity.observe h observed →
    Checks rules order p p' observed

/-- The answers to the check were heard by then. -/
theorem Checks.attended {observed : Except RunError Bool} (hc : Checks rules order p p' observed) :
    ∃ h, Yields order.identity.observe h observed ∧ h ⊆ p'.attended := by
  cases hc with
  | @main _ h _ _ hm hy =>
    refine ⟨h, hy, fun e he => List.mem_append_left _ (List.mem_append_left _ ?_)⟩
    rw [hm]
    exact List.mem_append_right _ he
  | @task _ f f' _ h _ _ _ hk hheard hy =>
    refine ⟨h, hy, fun e he => List.mem_append_left _ (List.mem_append_right _ ?_)⟩
    refine List.mem_flatMap.mpr ⟨f', List.mem_of_getElem? hk, ?_⟩
    rw [hheard]
    exact List.mem_append_right _ he
  | @watch _ h₀ h _ _ _ hw hy =>
    refine ⟨h, hy, fun e he => List.mem_append_right _ ?_⟩
    rw [hw]
    exact List.mem_append_right _ he

/-- The states that a check was told of do not fall behind the one at its beginning. -/
theorem Checks.told {observed : Except RunError Bool} (hc : Checks rules order p p' observed)
    (hs : Since p p') : ∃ h, Yields order.identity.observe h observed ∧
      ∀ s : RunState, (⟨.state, s⟩ : RunHeard) ∈ h → p.shared.run.LeadsTo s := by
  have hnew : ∀ {h₀ h₁}, Told p.shared.run h₀ (h₀ ++ h₁) →
      ∀ s : RunState, (⟨.state, s⟩ : RunHeard) ∈ h₁ → p.shared.run.LeadsTo s := by
    rintro h₀ h₁ ⟨h, heq, htold⟩
    rwa [List.append_cancel_left heq]
  cases hc with
  | @main _ h _ _ hm hy =>
    have htold := hs.main
    rw [hm] at htold
    exact ⟨h, hy, hnew htold⟩
  | @task k f f' _ h _ hk₀ _ hk hheard hy =>
    have htold := hs.heard k f' hk
    have hbegun : p.begun k = f.heard := by
      rw [Pool.begun, hk₀]
      rfl
    rw [hheard, hbegun] at htold
    exact ⟨h, hy, hnew htold⟩
  | @watch _ h₀ h _ hw₀ _ hw hy =>
    refine ⟨h, hy, ?_⟩
    rcases hs.watch _ hw with ⟨h₁, heq, htold⟩ | ⟨h₁, hw₁, htold⟩
    · intro s hs
      refine htold s ?_
      rw [← List.nil_append h₁, ← heq]
      exact List.mem_append_right _ hs
    · rw [hw₀] at hw₁
      cases hw₁
      exact hnew htold

/-- Once a check of a run has found it cancelled, so does every check that begins afterwards. -/
theorem found_again {p₁ p₂ p₃ : Pool env} {observed : Except RunError Bool}
    (hr : Reachable rules order p₁) (hfound : Checks rules order p₀ p₁ (.ok true))
    (hl : ReflTransGen (Step rules order) p₁ p₂) (hl' : ReflTransGen (Step rules order) p₂ p₃)
    (hc : Checks rules order p₂ p₃ observed) : observed = .ok true := by
  obtain ⟨h, hy, hheard⟩ := hfound.attended
  have hcancelled : p₁.shared.run.cancelled = true := by
    rcases observe_latches hy with ⟨e, he, hlatch⟩ | ⟨s, hs, hcancelled⟩
    · exact cancelled_of_latched hr ⟨e, hheard he, hlatch⟩
    · exact (precedes_of_attended hr (hheard hs)).cancelled hcancelled
  obtain ⟨h', hy', htold⟩ := hc.told (since_of_leads hl')
  refine observe_told hy' fun s hs => .inl ?_
  exact (htold s hs).cancelled ((onward_of_leads hl).cancelled hcancelled)

end Interleaving

end CollectionSync
