import CollectionSync.Proofs.Store.Fencing
import CollectionSync.Proofs.Store.Reading

/-! # The tokens of a record from the claim of a run to its end

A record changes hands by a claim only, and its tokens are changed only by the end of the run that
owns it. So a run whose end is accepted has owned the record all the time, and nobody has changed
the tokens in between. Both stores keep to this. -/

namespace CollectionSync

/-- The run that an operation would end on the collection. -/
def StoreOp.ends? (c : CollectionId) : StoreOp → Option RunId
  | .finish d run _ _ => if d = c then some run else none
  | _ => none

/-- Who owns a record, and the tokens that are stored with it. -/
structure Holding (τ : Type) where
  owner : Option String
  tokens : τ

/-- How an operation may change hands and tokens of the record of a collection. -/
inductive Holding.Moves {τ : Type} (c : CollectionId) : StoreOp → Option (Holding τ) →
    Option (Holding τ) → Prop
  | kept {op : StoreOp} (found : Option (Holding τ)) : Moves c op found found
  | claimed {run : RunId} {now : Instant} {found : Option (Holding τ)} {t : τ} :
    Moves c (.claim c run now) found (some ⟨some run.text, t⟩)
  | ended {run : RunId} {report : RunReport} {now : Instant} {t t' : τ} :
    Moves c (.finish c run report now) (some ⟨some run.text, t⟩) (some ⟨some run.text, t'⟩)

/-- The record is not the run's. -/
def Lost {τ : Type} (run : RunId) (found : Option (Holding τ)) : Prop :=
  ∀ g ∈ found, g.owner ≠ some run.text

namespace Holding.Moves

variable {τ : Type} {c : CollectionId} {op : StoreOp} {found found' : Option (Holding τ)}
  {run : RunId}

/-- A run that has lost the record gets it back by a claim only. -/
theorem lost (hmoves : Moves c op found found') (hclaim : op.claims? c ≠ some run)
    (hlost : Lost run found) : Lost run found' := by
  cases hmoves with
  | kept => exact hlost
  | @claimed other now _ t =>
    intro g hg howner
    cases hg
    have heq := RunId.text_injective (Option.some.inj howner)
    exact hclaim ((if_pos rfl).trans (congrArg some heq))
  | ended =>
    intro g hg howner
    cases hg
    exact hlost _ rfl howner

/-- While a run does not end, its tokens stay or it loses the record. -/
theorem held {t : τ} (hmoves : Moves c op found found') (hclaim : op.claims? c ≠ some run)
    (hend : op.ends? c ≠ some run) (hheld : found = some ⟨some run.text, t⟩) :
    found' = some ⟨some run.text, t⟩ ∨ Lost run found' := by
  cases hmoves with
  | kept => exact .inl hheld
  | @claimed other now _ t' =>
    right
    intro g hg howner
    cases hg
    have heq := RunId.text_injective (Option.some.inj howner)
    exact hclaim ((if_pos rfl).trans (congrArg some heq))
  | @ended other report now _ t' =>
    have howner := congrArg Holding.owner (Option.some.inj hheld)
    have heq := RunId.text_injective (Option.some.inj howner)
    exact absurd ((if_pos rfl).trans (congrArg some heq)) hend

end Holding.Moves

/-! ## Histories -/

namespace Possession

open History

section

variable {σ τ : Type} {step : σ → (op : StoreOp) → Except StoreError op.Reply × σ}
  {holding : σ → Option (Holding τ)} {Sound : σ → Prop} {c : CollectionId} {run : RunId}
  {s : σ} {ops : List StoreOp}
  (hsound : ∀ s op, Sound s → Sound (step s op).2)
  (hmoves : ∀ s op, Sound s → Holding.Moves c op (holding s) (holding (step s op).2))

include hsound hmoves

theorem lost_after (hs : Sound s) (hclaims : run ∉ ops.filterMap (·.claims? c))
    (hlost : Lost run (holding s)) : Lost run (holding (after step s ops)) := by
  have hkept : Sound (after step s ops) ∧ Lost run (holding (after step s ops)) := by
    refine after_induction step (P := fun s => Sound s ∧ Lost run (holding s)) ⟨hs, hlost⟩
      fun op hop s h => ⟨hsound s op h.1, ?_⟩
    exact (hmoves s op h.1).lost (fun hc => hclaims (List.mem_filterMap.mpr ⟨op, hop, hc⟩)) h.2
  exact hkept.2

/-- A run that owns the record in the end has owned it all the time, with the tokens of the
beginning. -/
theorem held_throughout (hs : Sound s) (hclaims : run ∉ ops.filterMap (·.claims? c))
    (hends : run ∉ ops.filterMap (·.ends? c)) {t t' : τ}
    (hstart : holding s = some ⟨some run.text, t⟩)
    (hlast : holding (after step s ops) = some ⟨some run.text, t'⟩) :
    ∀ before, before <+: ops → holding (after step s before) = some ⟨some run.text, t⟩ := by
  induction ops generalizing s with
  | nil =>
    intro before hbefore
    obtain rfl := List.prefix_nil.mp hbefore
    exact hstart
  | cons op ops ih =>
    rw [List.filterMap_cons] at hclaims hends
    have hclaim : op.claims? c ≠ some run := fun h => hclaims (by rw [h]; exact List.mem_cons_self)
    have hend : op.ends? c ≠ some run := fun h => hends (by rw [h]; exact List.mem_cons_self)
    have hclaims' : run ∉ ops.filterMap (·.claims? c) := fun h => hclaims (by
      split
      · exact h
      · exact List.mem_cons_of_mem _ h)
    have hends' : run ∉ ops.filterMap (·.ends? c) := fun h => hends (by
      split
      · exact h
      · exact List.mem_cons_of_mem _ h)
    intro before hbefore
    rcases (hmoves s op hs).held hclaim hend hstart with hheld | hlost
    · rcases List.prefix_cons_iff.mp hbefore with rfl | ⟨rest, rfl, hrest⟩
      · exact hstart
      · exact ih (hsound s op hs) hclaims' hends' hheld hlast rest hrest
    · have hlost := lost_after hsound hmoves (hsound s op hs) hclaims' hlost
      exact absurd rfl (hlost _ hlast)

end

/-- From the claim of a run to its accepted end the tokens stored for the collection are those that
it has claimed; then they are those of its report. -/
def KeepsTokens {σ : Type} (step : σ → (op : StoreOp) → Except StoreError op.Reply × σ)
    (tokens : CollectionId → σ → Option (Dict RootId DeltaToken)) (c : CollectionId) (run : RunId)
    (claimed : Record) (report : RunReport) (s : σ) : Prop :=
  ∀ (now now' : Instant) (written : Record) (ops : List StoreOp),
    (step s (.claim c run now)).1 = .ok (.claimed claimed) →
    run ∉ ops.filterMap (·.claims? c) → run ∉ ops.filterMap (·.ends? c) →
    (step (after step (step s (.claim c run now)).2 ops) (.finish c run report now')).1 =
      .ok written →
    (∀ before, before <+: ops →
      tokens c (after step (step s (.claim c run now)).2 before) = some claimed.tokens) ∧
      tokens c (step (after step (step s (.claim c run now)).2 ops) (.finish c run report now')).2 =
        some report.tokens

/-- What a store says of the holder of a record when it accepts the claim or the end of a run. -/
structure Tells {σ τ : Type} (step : σ → (op : StoreOp) → Except StoreError op.Reply × σ)
    (holding : CollectionId → σ → Option (Holding τ)) (read : τ → Option (Dict RootId DeltaToken))
    (s : σ) : Prop where
  claimed : ∀ c run now r, (step s (.claim c run now)).1 = .ok (.claimed r) →
    ∃ t, holding c (step s (.claim c run now)).2 = some ⟨some run.text, t⟩ ∧ read t = some r.tokens
  ended : ∀ c run report now (r : Record), (step s (.finish c run report now)).1 = .ok r →
    ∃ t t', holding c s = some ⟨some run.text, t⟩ ∧
      holding c (step s (.finish c run report now)).2 = some ⟨some run.text, t'⟩ ∧
      read t' = some report.tokens

/-- A store that keeps to these rules keeps the tokens. -/
theorem keepsTokens {σ τ : Type} {step : σ → (op : StoreOp) → Except StoreError op.Reply × σ}
    {holding : CollectionId → σ → Option (Holding τ)} {read : τ → Option (Dict RootId DeltaToken)}
    {tokens : CollectionId → σ → Option (Dict RootId DeltaToken)} (Sound : σ → Prop)
    (hsound : ∀ s op, Sound s → Sound (step s op).2)
    (hmoves : ∀ c s op, Sound s → Holding.Moves c op (holding c s) (holding c (step s op).2))
    (htells : ∀ s, Sound s → Tells step holding read s)
    (htokens : ∀ c s, tokens c s = (holding c s).bind fun g => read g.tokens) {s : σ}
    (hs : Sound s) (c : CollectionId) (run : RunId) (claimed : Record) (report : RunReport) :
    KeepsTokens step tokens c run claimed report s := by
  intro now now' written ops hclaimed hclaims hends hended
  have hs₁ := hsound s (.claim c run now) hs
  have hs₂ : Sound (after step (step s (.claim c run now)).2 ops) :=
    after_induction step hs₁ fun op _ s h => hsound s op h
  obtain ⟨t, hstart, hread⟩ := (htells s hs).claimed c run now claimed hclaimed
  obtain ⟨t₁, t₂, hlast, hafter, hread'⟩ := (htells _ hs₂).ended c run report now' written hended
  have hheld := held_throughout hsound (hmoves c) hs₁ hclaims hends hstart hlast
  refine ⟨fun before hbefore => ?_, ?_⟩
  · rw [htokens, hheld before hbefore]
    exact hread
  · rw [htokens, hafter]
    exact hread'

end Possession

/-! ## The two stores -/

open Possession

namespace Memory

def holding (c : CollectionId) (m : Memory) : Option (Holding (Dict RootId DeltaToken)) :=
  (m.get c).map fun r => ⟨r.run.map RunId.text, r.tokens⟩

/-- The tokens stored for a collection. -/
def tokens (c : CollectionId) (m : Memory) : Option (Dict RootId DeltaToken) :=
  (m.get c).map (·.tokens)

theorem holding_moves (c : CollectionId) (m : Memory) (op : StoreOp) :
    Holding.Moves c op (m.holding c) ((m.run op).2.holding c) := by
  have hmoves := m.moves_run op c
  unfold holding
  generalize (m.run op).2.get c = found' at hmoves
  generalize m.get c = found at hmoves
  generalize (m.run op).1 = answer at hmoves
  cases hmoves with
  | kept | moved | counted | cancelled | interrupted => exact .kept _
  | claimed => exact .claimed
  | closed hrun =>
    simp only [Option.map_some, Record.touch, Record.closed, hrun]
    exact .ended

theorem tells (m : Memory) : Tells Memory.run Memory.holding some m := by
  constructor
  · intro c run now r h
    have hmoves := m.moves_run (.claim c run now) c
    rw [h] at hmoves
    obtain ⟨-, hfound, rfl⟩ := hmoves.of_claimed
    exact ⟨_, by rw [holding, hfound]; rfl, rfl⟩
  · intro c run report now r h
    have hmoves := m.moves_run (.finish c run report now) c
    rw [h] at hmoves
    obtain ⟨r₀, hr₀, hrun, -, hfound, rfl⟩ := hmoves.of_finished
    refine ⟨r₀.tokens, report.tokens, ?_, ?_, rfl⟩
    · rw [holding, hr₀, Option.map_some, hrun]
      rfl
    · rw [holding, hfound, Option.map_some, Record.touch_run, Record.closed, hrun]
      rfl

theorem keepsTokens (c : CollectionId) (run : RunId) (claimed : Record) (report : RunReport)
    (m : Memory) : KeepsTokens Memory.run Memory.tokens c run claimed report m := by
  refine Possession.keepsTokens (fun _ => True) (fun _ _ => id) (fun c m op _ =>
    m.holding_moves c op)
    (fun m _ => m.tells) (fun c m => ?_) trivial c run claimed report
  unfold tokens holding
  cases m.get c <;> rfl

end Memory

namespace Database

def holding (c : CollectionId) (db : Database) : Option (Holding String) :=
  (db.row? c).map fun row => ⟨row.run, row.tokens⟩

/-- The tokens stored for a collection, where they can be read. -/
def tokens (c : CollectionId) (db : Database) : Option (Dict RootId DeltaToken) :=
  (db.row? c).bind fun row => Row.readTokens? row.tokens

theorem holding_moves {db : Database} (hkeyed : db.Keyed) (c : CollectionId) (op : StoreOp) :
    Holding.Moves c op (db.holding c) ((db.run op).2.holding c) := by
  have hmoves := moves_run hkeyed op c
  unfold holding
  generalize (db.run op).2.row? c = found' at hmoves
  generalize db.row? c = found at hmoves
  generalize (db.run op).1 = answer at hmoves
  cases hmoves with
  | kept | moved | counted | cancelled | interrupted => exact .kept _
  | first | claimed => exact .claimed
  | closed hrun =>
    simp only [Option.map_some, closed, hrun]
    exact .ended

theorem tells {db : Database} (hkeyed : db.Keyed) :
    Tells Database.run Database.holding Row.readTokens? db := by
  constructor
  · intro c run now r h
    obtain ⟨row, hrow, hrun, hmeans⟩ := of_claimed hkeyed h
    refine ⟨row.tokens, ?_, hmeans.tokens⟩
    rw [holding, hrow, Option.map_some, hrun]
  · intro c run report now r h
    obtain ⟨row, hrow, hrun, -, hrow', hmeans⟩ := of_finished hkeyed h
    refine ⟨row.tokens, Row.tokensText report.tokens, ?_, ?_, ?_⟩
    · rw [holding, hrow, Option.map_some, hrun]
    · rw [holding, hrow', Option.map_some, closed, hrun]
    · have htokens : Row.readTokens? (Row.tokensText report.tokens) = some r.tokens := hmeans.tokens
      rw [htokens, Row.readTokens?_tokensText htokens]

theorem keepsTokens (c : CollectionId) (run : RunId) (claimed : Record) (report : RunReport)
    {db : Database} (hkeyed : db.Keyed) :
    KeepsTokens Database.run Database.tokens c run claimed report db := by
  refine Possession.keepsTokens Database.Keyed (fun _ op h => keyed_run h op)
    (fun c _ op h => holding_moves h c op) (fun _ h => tells h) (fun c db => ?_) hkeyed
    c run claimed
    report
  unfold tokens holding
  cases db.row? c <;> rfl

end Database

end CollectionSync
