import CollectionSync.Proofs.Run.Checks
import CollectionSync.Proofs.Run.Ensemble
import Mathlib.Logic.Relation

/-! # What a run still does that has lost its record

No read finds the record owned any more. The main program has passed its last check at the latest
when the record is lost, and so has each task; so at most one more task is started, and of each task
at most the step that it was about to take is an item operation. -/

namespace CollectionSync.Interleaving

open Program Relation

variable {env : Surroundings} {rules : RunRules} {order : RunOrder} {i : RunIdentity}
  {h₀ h h' : List RunHeard} {p₀ p p' : Pool env} {k : Nat}

/-! ## Programs that do not find the record owned -/

/-- An answer by which a read finds the record owned by the run. -/
def IsOwning (i : RunIdentity) (e : RunHeard) : Prop :=
  ∃ found, e = ⟨.keeper (.store (.get i.collection)), .ok found⟩ ∧ i.owns found = true

/-- What was heard since holds no such answer. -/
def Disowned (i : RunIdentity) (h₀ h : List RunHeard) : Prop :=
  ∃ h₁, h = h₀ ++ h₁ ∧ ∀ e ∈ h₁, ¬ IsOwning i e

namespace Disowned

theorem refl (h : List RunHeard) : Disowned i h h :=
  ⟨[], (List.append_nil h).symm, fun e he => by cases he⟩

theorem snoc (hd : Disowned i h₀ h) {e : RunHeard}
    (he : ¬ IsOwning i e) : Disowned i h₀ (h ++ [e]) := by
  obtain ⟨h₁, rfl, hnone⟩ := hd
  refine ⟨h₁ ++ [e], List.append_assoc .., fun x hx => ?_⟩
  rcases List.mem_append.mp hx with hx | hx
  · exact hnone x hx
  · cases List.mem_singleton.mp hx
    exact he

theorem trans (hd : Disowned i h₀ h) (hd' : Disowned i h h') : Disowned i h₀ h' := by
  obtain ⟨h₁, rfl, hnone⟩ := hd
  obtain ⟨h₂, rfl, hnone'⟩ := hd'
  exact ⟨h₁ ++ h₂, List.append_assoc .., fun e he =>
    (List.mem_append.mp he).elim (hnone e) (hnone' e)⟩

theorem isPrefix (hd : Disowned i h₀ h) : h₀ <+: h := by
  obtain ⟨h₁, rfl, -⟩ := hd
  exact List.prefix_append ..

/-- An answer that does not come from the store. -/
theorem hear {q : RunAsk} {a : q.Answer} (hq : ∀ k, q ≠ .keeper k) :
    Disowned i h (h ++ [⟨q, a⟩]) := by
  refine (refl h).snoc ?_
  rintro ⟨found, heq, -⟩
  exact hq _ (congrArg Sigma.fst heq)

/-- A check that clears the way was the last thing heard before the record was lost. -/
theorem eq_of_cleared (hd : Disowned i h₀ h) {m : List RunHeard} (hm : h₀ <+: m) (hmh : m <+: h)
    (hc : Cleared i m) : m = h₀ := by
  obtain ⟨h₁, rfl, hnone⟩ := hd
  obtain ⟨l, rfl⟩ := hm
  have hl : l <+: h₁ := (List.prefix_append_right_inj h₀).mp hmh
  rcases List.eq_nil_or_concat l with rfl | ⟨l', e, rfl⟩
  · exact List.append_nil h₀
  · obtain ⟨m', found, heq, howns⟩ := hc
    rw [List.concat_eq_append] at heq hl
    rw [← List.append_assoc] at heq
    have he := List.head_eq_of_cons_eq (List.append_inj' heq rfl).2
    exact absurd ⟨found, he,
      howns⟩ (hnone e (hl.subset (List.mem_append_right _ List.mem_cons_self)))

/-- If nothing was heard in all, nothing was heard meanwhile. -/
theorem eq_of_trans (hd : Disowned i h₀ h) (hd' : Disowned i h h') (heq : h' = h₀) : h = h₀ := by
  have hback := hd'.isPrefix
  rw [heq] at hback
  exact hback.eq_of_length_le hd.isPrefix.length_le

end Disowned

/-! ## A run that winds down -/

/-- What the task with this number had heard; a task that was not started yet had heard nothing. -/
def Pool.begun (p : Pool env) (k : Nat) : List RunHeard := (p.fibers[k]?.map Fiber.heard).getD []

/-- From the one pool to the other, the run has begun nothing but what it had been cleared for. -/
structure WindsDown (rules : RunRules) (order : RunOrder) (p₀ p : Pool env) : Prop where
  main : p₀.main <+: p.main
  /-- At most one more task was started, -/
  tasks : ∃ late, p.fibers.map Fiber.task = p₀.fibers.map Fiber.task ++ late ∧ late.length ≤ 1
  /-- by the step that the main program was about to take. -/
  starts : ∀ m task next, p₀.main <+: m → m <+: p.main →
    Follows (order.run rules) m (ask (.spawn task) next) → m = p₀.main
  heard : ∀ k f, p.fibers[k]? = some f → p₀.begun k <+: f.heard
  /-- The only item operation of a task is the step that it was about to take. -/
  calls : ∀ k f h q next, p.fibers[k]? = some f → p₀.begun k <+: h → h <+: f.heard → IsItemCall q →
    Follows (taskOf rules order f.task) h (ask q next) → h = p₀.begun k

/-- Neither the main program nor a task has found the record owned since, and the main program
starts no task unless it is about to. -/
structure Trails (i : RunIdentity) (p₀ p : Pool env) : Prop where
  main : Disowned i p₀.main p.main
  tasks : ∃ late, p.fibers.map Fiber.task = p₀.fibers.map Fiber.task ++ late ∧ late.length ≤ 1 ∧
    (p.main = p₀.main → late = [])
  heard : ∀ k f, p.fibers[k]? = some f → Disowned i (p₀.begun k) f.heard

namespace Trails

theorem refl (p : Pool env) : Trails i p p := by
  refine ⟨.refl _, ⟨[], (List.append_nil _).symm, Nat.zero_le 1, fun _ => rfl⟩, fun k f hk => ?_⟩
  rw [Pool.begun, hk]
  exact .refl _

theorem windsDown (ht : Trails order.identity p₀ p) : WindsDown rules order p₀ p := by
  obtain ⟨late, htasks, hlate, -⟩ := ht.tasks
  refine ⟨ht.main.isPrefix, ⟨late, htasks, hlate⟩, ?_, fun k f hk => (ht.heard k f hk).isPrefix, ?_⟩
  · intro m task next hm hmp hf
    rcases run_heeds m (.spawn task) next trivial hf with ⟨-, hfalse⟩ | hcleared
    · cases hfalse
    · exact ht.main.eq_of_cleared hm hmp hcleared
  · intro k f h q next hk hh hhf hq hf
    rcases taskOf_heeds h _ _ hq hf with ⟨rfl, -⟩ | hcleared
    · exact (List.prefix_nil.mp hh).symm
    · exact (ht.heard k f hk).eq_of_cleared hh hhf hcleared

/-- The main program may go on, as long as it starts no task. -/
theorem hear (ht : Trails i p₀ p) (hm : Disowned i p.main p'.main)
    (hf : p'.fibers = p.fibers) : Trails i p₀ p' := by
  obtain ⟨late, htasks, hlate, hnone⟩ := ht.tasks
  refine ⟨ht.main.trans hm, ⟨late, by rw [hf, htasks], hlate, fun heq => hnone ?_⟩, ?_⟩
  · exact ht.main.eq_of_trans hm heq
  · rw [hf]
    exact ht.heard

/-- Another task may go on as well. -/
theorem goOn (ht : Trails i p₀ p) {before after : List Fiber} {f g : Fiber}
    (hm : Disowned i p.main p'.main) (hf : p.fibers = before ++ f :: after)
    (hg : p'.fibers = before ++ g :: after) (htask : g.task = f.task)
    (hheard : Disowned i f.heard g.heard) : Trails i p₀ p' := by
  obtain ⟨late, htasks, hlate, hnone⟩ := ht.tasks
  have hsame : p'.fibers.map Fiber.task = p.fibers.map Fiber.task := by
    rw [hf, hg, List.map_append, List.map_append, List.map_cons, List.map_cons, htask]
  refine ⟨ht.main.trans hm, ⟨late, hsame.trans htasks, hlate, fun heq => hnone ?_⟩, ?_⟩
  · exact ht.main.eq_of_trans hm heq
  · intro k x hx
    rw [hg] at hx
    rcases getElem?_replaced hx with ⟨hk, rfl⟩ | hx
    · exact (ht.heard k f (hf ▸ hk)).trans hheard
    · exact ht.heard k x (hf ▸ hx)

theorem spawn (ht : Trails i p₀ p) {task : SyncTask} (hm : p.main = p₀.main) :
    Trails i p₀ { p.hear (.spawn task) () with fibers := p.fibers ++ [⟨task, [], .working⟩] } := by
  obtain ⟨late, htasks, -, hnone⟩ := ht.tasks
  have hfirst : p.fibers.map Fiber.task = p₀.fibers.map Fiber.task := by
    rw [htasks, hnone hm, List.append_nil]
  have hlength : p.fibers.length = p₀.fibers.length := by
    simpa using congrArg List.length hfirst
  have hspawn : Disowned i p.main (p.main ++ [⟨.spawn task, ()⟩]) := .hear fun _ h => by cases h
  refine ⟨ht.main.trans hspawn, ⟨[task], ?_, Nat.le_refl 1, fun heq => ?_⟩, ?_⟩
  · rw [List.map_append, hfirst]
    rfl
  · rw [← hm] at heq
    cases List.append_right_eq_self.mp heq
  · intro k x hx
    rcases Nat.lt_or_ge k p.fibers.length with hold | hnew
    · rw [List.getElem?_append_left hold] at hx
      exact ht.heard k x hx
    · -- the new task has heard nothing, and there was none with its number
      have hbegun : p₀.begun k = [] := by
        rw [Pool.begun, List.getElem?_eq_none (hlength ▸ hnew)]
        rfl
      rw [List.getElem?_append_right hnew] at hx
      cases List.mem_singleton.mp (List.mem_of_getElem? hx)
      rw [hbegun]
      exact .refl []

/-- A step of a run that does not own the record: no read finds it owned. -/
theorem step (ht : Trails order.identity p₀ p) (hs : Step rules order p p')
    (hlost : ∀ q a s, Serves q a p.shared s → ¬ IsOwning order.identity ⟨q, a⟩) :
    Trails order.identity p₀ p' := by
  cases hs with
  | main hf hs => exact ht.hear (.snoc (.refl _) (hlost _ _ _ hs)) rfl
  | spawn hf =>
    refine ht.spawn ?_
    rcases run_heeds p.main (.spawn _) _ trivial hf with ⟨-, hfalse⟩ | hcleared
    · cases hfalse
    · exact ht.main.eq_of_cleared ht.main.isPrefix (List.prefix_refl _) hcleared
  | join hf hfibers => exact ht.goOn (.hear fun _ h => by cases h) hfibers rfl rfl (.refl _)
  | startWatch hf | endWatch hf => exact ht.hear (.hear fun _ h => by cases h) rfl
  | task hfibers hf hs =>
    exact ht.goOn (.refl _) hfibers rfl rfl (.snoc (.refl _) (hlost _ _ _ hs))
  | taskEnds hfibers _ | taskBreaks hfibers _ => exact ht.goOn (.refl _) hfibers rfl rfl (.refl _)
  | watch | watchRound | watchGone | stop | world => exact ht.hear (.refl _) rfl

end Trails

/-! ## Runs side by side -/

section

variable {σ : Type} {step : σ → (op : StoreOp) → Except StoreError op.Reply × σ} {Sound : σ → Prop}
  {Owned : RunIdentity → σ → Prop}

/-- What is left of the runs of a collection besides the last one, from the one ensemble to the
other. -/
structure Superseded (rules : RunRules) (Owned : RunIdentity → σ → Prop) (e₀ e : Ensemble step) :
    Prop where
  /-- Of two runs of a collection, only the later one may own the record. -/
  last : ∀ {j k : Nat} {m m' : Member step}, j < k → e.members[j]? = some m →
  e.members[k]? = some m' →
    m.order.request.collection = m'.order.request.collection → ¬ Owned m.order.identity e.store
  /-- A run that did not own the record before does not own it now, and has wound down since. -/
  lost : ∀ {k : Nat} {m : Member step}, e₀.members[k]? = some m →
  ¬ Owned m.order.identity e₀.store →
    ∃ p, e.members[k]? = some { m with pool := p } ∧ ¬ Owned m.order.identity e.store ∧
      WindsDown rules m.order m.pool p

theorem Ensemble.Reachable.trans {e₀ e : Ensemble step} (hr : e₀.Reachable rules Sound)
    (hs : ReflTransGen (Ensemble.Step rules) e₀ e) : e.Reachable rules Sound := by
  induction hs with
  | refl => exact hr
  | tail _ hs ih => exact ih.step hs

/-- A run that does not own the record winds down, whatever it and the other runs do. -/
theorem trails_of_lost (hc : Custody step Sound Owned) {e₀ e : Ensemble step} {k : Nat}
    {m : Member step} (hr : e₀.Reachable rules Sound) (hs : ReflTransGen (Ensemble.Step rules) e₀ e)
    (hk : e₀.members[k]? = some m) (hlost : ¬ Owned m.order.identity e₀.store) :
    ∃ p, e.members[k]? = some { m with pool := p } ∧ ¬ Owned m.order.identity e.store ∧
      Trails m.order.identity m.pool p := by
  induction hs with
  | refl => exact ⟨m.pool, hk, hlost, .refl _⟩
  | @tail e e' hreach hs ih =>
    obtain ⟨p, hk, hlost, ht⟩ := ih
    have hr := hr.trans hreach
    have hsound := Ensemble.sound_of_reachable hc hr
    have hlost' := hs.lost hc hr hk hlost
    obtain ⟨p', hk', hstep⟩ := hs.member hk
    refine ⟨p', hk', hlost', ?_⟩
    rcases hstep with rfl | hstep
    · exact ht
    · have ht' : Trails m.order.identity m.pool (p.within e.store) := ⟨ht.main, ht.tasks, ht.heard⟩
      refine ht'.step hstep fun q a s hserves howning => ?_
      obtain ⟨found, heq, howns⟩ := howning
      cases heq
      exact hlost (hc.told _ _ _ hsound hserves.found howns)

theorem superseded (hc : Custody step Sound Owned) {e₀ e : Ensemble step}
    (hr : e₀.Reachable rules Sound) (hs : ReflTransGen (Ensemble.Step rules) e₀ e) :
    Superseded rules Owned e₀ e := by
  refine ⟨fun hlt hj hk => Ensemble.last_owns hc (hr.trans hs) hlt hj hk, fun hk hlost => ?_⟩
  obtain ⟨p, hk', hlost', ht⟩ := trails_of_lost hc hr hs hk hlost
  exact ⟨p, hk', hlost', ht.windsDown⟩

end

end CollectionSync.Interleaving
