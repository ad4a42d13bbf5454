import CollectionSync.Proofs.Run.Aftermath

/-! # A run seen by itself

What a run among others does is what it may do by itself where anything may happen to the store
between its steps. So what holds of every pool that a run can come to holds of the runs of an
ensemble. -/

namespace CollectionSync.Interleaving

open Program Relation

variable {env : Surroundings} {rules : RunRules} {order : RunOrder} {p p' : Pool env}

/-- The same surroundings, where anything may happen without the run. -/
def Surroundings.restless (env : Surroundings) : Surroundings :=
  { env with moves := fun _ _ => True }

def Shared.alone (s : Shared env) : Shared env.restless := ⟨s.run, s.free, s.world⟩

def Pool.alone (p : Pool env) : Pool env.restless := ⟨p.shared.alone, p.main, p.fibers, p.watch⟩

theorem Serves.alone {q : RunAsk} {a : q.Answer} {s s' : Shared env} (hs : Serves q a s s') :
    Serves q a s.alone s'.alone := by
  cases hs with
  | outward hq ha => exact @Serves.outward env.restless _ _ _ _ hq ha
  | state => exact .state (s := s.alone)
  | change => exact .change (s := s.alone)
  | pause hcut => exact .pause (s := s.alone) hcut
  | acquire hfree => exact .acquire (s := s.alone) hfree
  | release => exact .release (s := s.alone)

theorem Step.alone (hs : Step rules order p p') : Step rules order p.alone p'.alone := by
  cases hs with
  | main hf hs => exact .main (p := p.alone) hf hs.alone
  | spawn hf => exact .spawn (p := p.alone) hf
  | join hf hfibers => exact .join (p := p.alone) hf hfibers
  | startWatch hf => exact .startWatch (p := p.alone) hf
  | endWatch hf => exact .endWatch (p := p.alone) hf
  | task hfibers hf hs => exact .task (p := p.alone) hfibers hf hs.alone
  | taskEnds hfibers hy => exact .taskEnds (p := p.alone) hfibers hy
  | taskBreaks hfibers hf => exact .taskBreaks (p := p.alone) hfibers hf
  | watch hw hf hs => exact .watch (p := p.alone) hw hf hs.alone
  | watchRound hw hy => exact .watchRound (p := p.alone) hw hy
  | watchGone => exact .watchGone (p := p.alone)
  | stop => exact .stop (p := p.alone)
  | world => exact .world (p := p.alone) trivial

section

variable {σ : Type} {step : σ → (op : StoreOp) → Except StoreError op.Reply × σ} {Sound : σ → Prop}
  {e₀ e e' : Ensemble step} {k : Nat} {m : Member step}

namespace Ensemble

/-- A step of an ensemble is one of each run of it, or nothing, after something has happened to the
store. -/
theorem Step.alone (hs : Step rules e e') (hk : e.members[k]? = some m) :
    ∃ p, e'.members[k]? = some { m with pool := p } ∧
      ReflTransGen (Interleaving.Step rules m.order) m.pool.alone p.alone := by
  obtain ⟨p, hk', rfl | hstep⟩ := hs.member hk
  · exact ⟨_, hk', .refl⟩
  · have hworld : Interleaving.Step rules m.order m.pool.alone (m.pool.within e.store).alone :=
      .world (p := m.pool.alone) trivial
    exact ⟨p, hk', .tail (.single hworld) hstep.alone⟩

theorem leads_alone (hs : ReflTransGen (Step rules) e₀ e) (hk : e₀.members[k]? = some m) :
    ∃ p, e.members[k]? = some { m with pool := p } ∧
      ReflTransGen (Interleaving.Step rules m.order) m.pool.alone p.alone := by
  induction hs with
  | refl => exact ⟨m.pool, hk, .refl⟩
  | tail _ hs ih =>
    obtain ⟨p, hk', hl⟩ := ih
    obtain ⟨p', hk'', hl'⟩ := hs.alone hk'
    exact ⟨p', hk'', hl.trans hl'⟩

/-- A run begins as it does by itself. -/
theorem Step.begins (hs : Step rules e e') (hk : e'.members[k]? = some m)
    (hnew : e.members.length ≤ k) :
    ∃ s, m.pool = .start (.over step) rules false s := by
  have hlength := (List.getElem?_eq_some_iff.mp hk).1
  cases hs with
  | launch =>
    rw [List.getElem?_append_right hnew] at hk
    cases List.mem_singleton.mp (List.mem_of_getElem? hk)
    exact ⟨_, rfl⟩
  | refuse | outside => exact absurd hlength (Nat.not_lt_of_le hnew)
  | work =>
    rw [List.length_set] at hlength
    exact absurd hlength (Nat.not_lt_of_le hnew)

theorem reachable_alone (hr : e.Reachable rules Sound) (hk : e.members[k]? = some m) :
    Interleaving.Reachable rules m.order m.pool.alone := by
  induction hr generalizing m with
  | start => cases hk
  | @step e e' hr hs ih =>
    rcases Nat.lt_or_ge k e.members.length with hold | hnew
    · have hk₀ := List.getElem?_eq_getElem hold
      obtain ⟨p, hk', hl⟩ := hs.alone hk₀
      rw [hk] at hk'
      cases hk'
      exact (ih hk₀).leads hl
    · obtain ⟨s, hs⟩ := hs.begins hk hnew
      rw [hs]
      exact @Interleaving.Reachable.start (Surroundings.over step).restless rules m.order false s

end Ensemble

end

end CollectionSync.Interleaving
