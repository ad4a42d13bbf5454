import CollectionSync.Proofs.Run.ListCalls
import CollectionSync.Proofs.Run.Tasks

/-! # What the listing of roots leaves behind

A root that cannot be listed is noted in the failure report, once, unless the run was interrupted by
then. Nothing else of the listing is marked. -/

namespace CollectionSync.Interleaving

open Program

variable {rules : RunRules} {order : RunOrder} {h h₁ h₂ h₃ : List RunHeard}

/-- The listing of a root has come to its end: these are its calls, and the answer to the last of
them decides what it has come to. -/
structure RootListed (rules : RunRules) (order : RunOrder) (root : SourceRoot) (h : List RunHeard)
    (result : Except RunError ChangeSet) : Prop where
  yields : Yields (listingOf rules order root) h result
  answered : ∃ last, Scanned rules order root (listCalls root.id h) last ∧
    result = listingResult rules root last

theorem rootListed {root : SourceRoot} {result : Except RunError ChangeSet}
    (hy : Yields (listingOf rules order root) h result) : RootListed rules order root h result :=
  ⟨hy, listingOf_listCalls hy⟩

theorem RootListed.marks_eq_nil {root : SourceRoot} {result : Except RunError ChangeSet}
    (hl : RootListed rules order root h result) : marks h = [] :=
  (listingOf_routine root).marks_eq_nil hl.yields

/-- By what the listing of these roots has heard, so many of them could not be listed while no
cancellation had shown. The listing stops at a root if the run is cancelled or the store fails. -/
inductive Unlisted (rules : RunRules) (order : RunOrder) :
    List SourceRoot → List RunHeard → Nat → Prop
  | nil : Unlisted rules order [] [] 0
  | stopped {root : SourceRoot} {rest : List SourceRoot} {h : List RunHeard}
      {observed : Except RunError Bool} :
    Yields order.identity.observe h observed → observed ≠ .ok false →
    Unlisted rules order (root :: rest) h 0
  | listed {root : SourceRoot} {rest : List SourceRoot} {h₁ h₂ h₃ : List RunHeard}
      {set : ChangeSet} {n : Nat} :
    Yields order.identity.observe h₁ (.ok false) → RootListed rules order root h₂ (.ok set) →
    Unlisted rules order rest h₃ n → Unlisted rules order (root :: rest) (h₁ ++ (h₂ ++ h₃)) n
  | failed {root : SourceRoot} {rest : List SourceRoot} {h₁ h₂ h₃ : List RunHeard} {e : RunError}
      {s s' : RunState} {n : Nat} :
    Yields order.identity.observe h₁ (.ok false) → RootListed rules order root h₂ (.error e) →
    s.interrupted = false → Unlisted rules order rest h₃ n →
    Unlisted rules order (root :: rest) (h₁ ++ (h₂ ++ (⟨.state, s⟩ ::
      ⟨.change (.runFailure ⟨root.id.text, .enumeration, e.message⟩), s'⟩ :: h₃))) (n + 1)
  | interrupted {root : SourceRoot} {rest : List SourceRoot} {h₁ h₂ h₃ : List RunHeard}
      {e : RunError} {s : RunState} {observed : Except RunError Bool} :
    Yields order.identity.observe h₁ (.ok false) → RootListed rules order root h₂ (.error e) →
    s.interrupted = true → Yields order.identity.observe h₃ observed →
    Unlisted rules order (root :: rest) (h₁ ++ (h₂ ++ (⟨.state, s⟩ :: h₃))) 0

/-- By what the listing of these roots has heard, each root that was reached came out so. The
listing stops at a root if the run is cancelled, or if the root cannot be listed once the run is
interrupted. -/
inductive Enumerated (rules : RunRules) (order : RunOrder) :
    List SourceRoot → List RunHeard → List (SourceRoot × Except RunError ChangeSet) → Prop
  | nil : Enumerated rules order [] [] []
  | stopped {root : SourceRoot} {rest : List SourceRoot} {h : List RunHeard}
      {observed : Except RunError Bool} :
    Yields order.identity.observe h observed → observed ≠ .ok false →
    Enumerated rules order (root :: rest) h []
  | listed {root : SourceRoot} {rest : List SourceRoot} {h₁ h₂ h₃ : List RunHeard}
      {set : ChangeSet} {results : List (SourceRoot × Except RunError ChangeSet)} :
    Yields order.identity.observe h₁ (.ok false) → RootListed rules order root h₂ (.ok set) →
    Enumerated rules order rest h₃ results →
    Enumerated rules order (root :: rest) (h₁ ++ (h₂ ++ h₃)) ((root, .ok set) :: results)
  | failed {root : SourceRoot} {rest : List SourceRoot} {h₁ h₂ h₃ : List RunHeard} {e : RunError}
      {s s' : RunState} {results : List (SourceRoot × Except RunError ChangeSet)} :
    Yields order.identity.observe h₁ (.ok false) → RootListed rules order root h₂ (.error e) →
    s.interrupted = false → Enumerated rules order rest h₃ results →
    Enumerated rules order (root :: rest) (h₁ ++ (h₂ ++ (⟨.state, s⟩ ::
      ⟨.change (.runFailure ⟨root.id.text, .enumeration, e.message⟩), s'⟩ :: h₃)))
      ((root, .error e) :: results)
  | interrupted {root : SourceRoot} {rest : List SourceRoot} {h₁ h₂ h₃ : List RunHeard}
      {e : RunError} {s : RunState} {observed : Except RunError Bool} :
    Yields order.identity.observe h₁ (.ok false) → RootListed rules order root h₂ (.error e) →
    s.interrupted = true → Yields order.identity.observe h₃ observed →
    Enumerated rules order (root :: rest) (h₁ ++ (h₂ ++ (⟨.state, s⟩ :: h₃))) [(root, .error e)]

/-- Adds what a root has come to. -/
def Listing.addResult (l : Listing) : SourceRoot × Except RunError ChangeSet → Listing
  | (root, .ok set) => l.add root set
  | (_, .error _) => l

/-- Whatever comes of the listing, the roots came out as `Enumerated` says, and a listing that comes
to its end holds what they have reported. -/
theorem extend_enumerated {roots : List SourceRoot} {l : Listing} {result : Except RunError Listing}
    (hy : Yields (Listing.extend rules order order.identity roots l) h result) :
    ∃ results, Enumerated rules order roots h results ∧
      ∀ l', result = .ok l' → l' = results.foldl Listing.addResult l := by
  induction roots generalizing l h with
  | nil =>
    obtain ⟨rfl, rfl⟩ := yields_pure.mp hy
    refine ⟨[], .nil, fun l' h => ?_⟩
    cases h
    rfl
  | cons root rest ih =>
    obtain ⟨h₁, observed, h₂, rfl, ho, hy₂⟩ := yields_bind.mp hy
    by_cases hgo : observed = .ok false
    · subst hgo
      obtain ⟨h₃, listed, h₄, rfl, hl, hy₄⟩ := yields_bind.mp hy₂
      cases listed with
      | ok set =>
        obtain ⟨results, hr, hend⟩ := ih hy₄
        exact ⟨_, .listed ho (rootListed hl) hr, hend⟩
      | error e =>
        obtain ⟨h₅, s, h₆, rfl, hs, hy₆⟩ := yields_bind.mp hy₄
        obtain rfl := yields_question.mp hs
        split at hy₆
        · next hint =>
          obtain ⟨h₇, observed, h₈, rfl, ho', hy₈⟩ := yields_bind.mp hy₆
          have hend : h₈ = [] ∧ ∀ l', result = .ok l' → l' = l := by
            cases observed with
            | error e' =>
              obtain ⟨rfl, rfl⟩ := yields_pure.mp hy₈
              exact ⟨rfl, nofun⟩
            | ok cancelled =>
              obtain ⟨rfl, rfl⟩ := yields_pure.mp hy₈
              exact ⟨rfl, fun _ h => (Except.ok.inj h).symm⟩
          obtain ⟨rfl, hend⟩ := hend
          rw [List.append_nil]
          exact ⟨_, .interrupted ho (rootListed hl) hint ho', hend⟩
        · next hint =>
          obtain ⟨h₇, s', h₈, rfl, hc, hy₈⟩ := yields_bind.mp hy₆
          obtain rfl := yields_question.mp hc
          obtain ⟨results, hr, hend⟩ := ih hy₈
          exact ⟨_, .failed ho (rootListed hl) (eq_false_of_ne_true hint) hr, hend⟩
    · have hend : h₂ = [] ∧ ∀ l', result = .ok l' → l' = l := by
        match observed, hgo with
        | .error e, _ =>
          obtain ⟨rfl, rfl⟩ := yields_pure.mp hy₂
          exact ⟨rfl, nofun⟩
        | .ok true, _ =>
          obtain ⟨rfl, rfl⟩ := yields_pure.mp hy₂
          exact ⟨rfl, fun _ h => (Except.ok.inj h).symm⟩
      obtain ⟨rfl, hend⟩ := hend
      rw [List.append_nil]
      exact ⟨[], .stopped ho hgo, hend⟩

/-- The roots were reached in the order of the request. -/
theorem Enumerated.roots {roots : List SourceRoot}
    {results : List (SourceRoot × Except RunError ChangeSet)}
    (he : Enumerated rules order roots h results) : results.map (·.1) <+: roots := by
  induction he with
  | nil => exact List.prefix_rfl
  | stopped => exact List.nil_prefix
  | listed _ _ _ ih | failed _ _ _ _ ih => exact List.prefix_cons_iff.mpr (.inr ⟨_, rfl, ih⟩)
  | interrupted => exact List.prefix_cons_iff.mpr (.inr ⟨[], rfl, List.nil_prefix⟩)

theorem Enumerated.unlisted {roots : List SourceRoot}
    {results : List (SourceRoot × Except RunError ChangeSet)}
    (he : Enumerated rules order roots h results) : ∃ n, Unlisted rules order roots h n := by
  induction he with
  | nil => exact ⟨0, .nil⟩
  | stopped ho hgo => exact ⟨0, .stopped ho hgo⟩
  | listed ho hl _ ih =>
    obtain ⟨n, hu⟩ := ih
    exact ⟨n, .listed ho hl hu⟩
  | failed ho hl hint _ ih =>
    obtain ⟨n, hu⟩ := ih
    exact ⟨n + 1, .failed ho hl hint hu⟩
  | interrupted ho hl hint ho' => exact ⟨0, .interrupted ho hl hint ho'⟩

/-- Whatever comes of the listing, it has told of its failures as `Unlisted` says. -/
theorem extend_unlisted {roots : List SourceRoot} {l : Listing} {result : Except RunError Listing}
    (hy : Yields (Listing.extend rules order order.identity roots l) h result) :
    ∃ n, Unlisted rules order roots h n := by
  obtain ⟨results, he, -⟩ := extend_enumerated hy
  exact he.unlisted

theorem extend_blames (roots : List SourceRoot) (l : Listing) :
    Blames (fun _ => True) (Listing.extend rules order order.identity roots l) := by
  induction roots generalizing l with
  | nil => exact .ok _
  | cons root rest ih =>
    refine (observe_blames _).bind_ok fun cancelled => ?_
    cases cancelled with
    | true => exact .ok _
    | false =>
      refine .bind fun listed => ?_
      cases listed with
      | ok set => exact ih _
      | error e =>
        refine .bind fun s => ?_
        split
        · exact (observe_blames _).bind_ok fun _ => .ok _
        · exact .bind fun _ => ih _

theorem Unlisted.marks_eq {roots : List SourceRoot} {n : Nat}
    (hu : Unlisted rules order roots h n) :
    marks h = List.replicate n .uncounted := by
  have hobserved : ∀ {h observed}, Yields order.identity.observe h observed → marks h = [] :=
    (observe_routine _).marks_eq_nil
  induction hu with
  | nil => rfl
  | stopped ho _ => exact hobserved ho
  | listed ho hl _ ih => rw [marks_append, marks_append, hobserved ho, hl.marks_eq_nil]; exact ih
  | failed ho hl _ _ ih =>
    rw [marks_append, marks_append, hobserved ho, hl.marks_eq_nil, marks_cons, marks_cons, ih]
    rfl
  | interrupted ho hl _ ho' =>
    rw [marks_append, marks_append, hobserved ho, hl.marks_eq_nil, marks_cons, hobserved ho']
    rfl

end CollectionSync.Interleaving
