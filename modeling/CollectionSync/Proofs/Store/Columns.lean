import CollectionSync.Proofs.Dict
import CollectionSync.Proofs.Json.RoundTrip
import CollectionSync.Proofs.RunId
import CollectionSync.Proofs.Time.Microseconds
import CollectionSync.Store.Row

/-! # Records kept as rows

`toRecord_ofRecord` says that the row of a record is read back as the record with its times cut to
whole microseconds. That is so for a `Storable` record: its identifiers are ones that texts are read
as, its times have years of four digits, and its counters fit their columns. -/

namespace CollectionSync

/-! ## What columns hold -/

/-- An identifier that a text is read as. -/
def CollectionId.Valid (c : CollectionId) : Prop := CollectionId.ofText c.text = .ok c

/-- Tokens under identifiers and values that texts are read as. -/
def TokensValid (tokens : Dict RootId DeltaToken) : Prop :=
  ∀ e ∈ tokens.entries, RootId.ofText e.1.text = .ok e.1 ∧ DeltaToken.ofText e.2.text = .ok e.2

/-- Counters that fit their columns, with their sum. -/
structure Progress.Storable (p : Progress) : Prop where
  settled : p.processed + p.failed ≤ Row.counterLimit
  total : p.total ≤ Row.counterLimit

structure Record.Storable (r : Record) : Prop where
  collection : r.collection.Valid
  progress : r.progress.Storable
  tokens : TokensValid r.tokens
  startedAt : ∀ t ∈ r.startedAt, t.Storable
  finishedAt : ∀ t ∈ r.finishedAt, t.Storable
  updatedAt : r.updatedAt.Storable

instance decidableEqOk {ε α : Type} [DecidableEq α] :
    (result : Except ε α) → (a : α) → Decidable (result = .ok a)
  | .ok b, a => decidable_of_iff (b = a) ⟨congrArg Except.ok, Except.ok.inj⟩
  | .error _, _ => isFalse nofun

instance (c : CollectionId) : Decidable c.Valid :=
  inferInstanceAs (Decidable (CollectionId.ofText c.text = .ok c))

instance (tokens : Dict RootId DeltaToken) : Decidable (TokensValid tokens) :=
  inferInstanceAs (Decidable (∀ e ∈ tokens.entries,
    RootId.ofText e.1.text = .ok e.1 ∧ DeltaToken.ofText e.2.text = .ok e.2))

instance (p : Progress) : Decidable p.Storable :=
  decidable_of_iff (p.processed + p.failed ≤ Row.counterLimit ∧ p.total ≤ Row.counterLimit)
    ⟨fun h => ⟨h.1, h.2⟩, fun h => ⟨h.settled, h.total⟩⟩

instance (r : Record) : Decidable r.Storable :=
  decidable_of_iff (r.collection.Valid ∧ r.progress.Storable ∧ TokensValid r.tokens ∧
      (∀ t ∈ r.startedAt, t.Storable) ∧ (∀ t ∈ r.finishedAt, t.Storable) ∧ r.updatedAt.Storable)
    ⟨fun h => ⟨h.1, h.2.1, h.2.2.1, h.2.2.2.1, h.2.2.2.2.1, h.2.2.2.2.2⟩,
      fun h => ⟨h.collection, h.progress, h.tokens, h.startedAt, h.finishedAt, h.updatedAt⟩⟩

/-- The record with its times cut to whole microseconds. -/
def Record.toMicros (r : Record) : Record :=
  { r with
    startedAt := r.startedAt.map Instant.toMicros
    finishedAt := r.finishedAt.map Instant.toMicros
    updatedAt := r.updatedAt.toMicros }

theorem TokensValid.empty : TokensValid .empty := by simp [TokensValid, Dict.empty]

theorem Progress.Storable.zero : Progress.zero.Storable := ⟨Nat.zero_le _, Nat.zero_le _⟩

theorem Progress.Storable.settled?_eq {p : Progress} (h : p.Storable) :
    p.settled? = some (p.processed + p.failed) := by
  have h1 := h.settled
  have h2 : Row.counterLimit < Progress.counterLimit := by decide
  simp only [Progress.settled?]
  rw [if_pos (by omega)]

/-- A traversal in which every step succeeds is a map. -/
theorem mapM_eq_pure {μ : Type → Type} [Monad μ] [LawfulMonad μ] {α β : Type} {f : α → μ β}
    {g : α → β} {l : List α} (h : ∀ a ∈ l, f a = pure (g a)) : l.mapM f = pure (l.map g) := by
  induction l with
  | nil => simp
  | cons a l ih =>
    simp [h a List.mem_cons_self, ih fun b hb => h b (List.mem_cons_of_mem a hb)]

namespace Row

theorem counter_eq {n : Nat} (h : n ≤ counterLimit) : counter n = n := Nat.min_eq_left h

/-! ## Documents -/

theorem legible_tokens (tokens : Dict RootId DeltaToken) : (tokensToJson tokens).Legible := by
  refine .obj fun m hm => ?_
  obtain ⟨e, -, rfl⟩ := List.mem_map.mp hm
  exact .str _

theorem legible_failures (items : List FailedItem) : (failuresToJson items).Legible := by
  refine .arr fun j hj => ?_
  obtain ⟨i, -, rfl⟩ := List.mem_map.mp hj
  refine .obj fun m hm => ?_
  simp only [List.mem_cons, List.not_mem_nil, or_false] at hm
  rcases hm with rfl | rfl | rfl <;> exact .str _

theorem tokensOfJson?_tokensToJson {tokens : Dict RootId DeltaToken} (h : TokensValid tokens) :
    tokensOfJson? (tokensToJson tokens) = some tokens := by
  have hm : (tokens.entries.map fun e => (e.1.text, Json.str e.2.text)).mapM tokenEntry? =
      some (tokens.entries.map id) := by
    rw [List.mapM_map]
    refine mapM_eq_pure fun e he => ?_
    obtain ⟨h1, h2⟩ := h e he
    simp [ tokenEntry?, DeltaToken.ofJson?, Json.str?, Json.okay?, h1, h2]
  simp [tokensOfJson?, tokensToJson, Json.obj?, hm, Dict.ofList_entries]

theorem ofText?_text (kind : FailureKind) : FailureKind.ofText? kind.text = some kind := by
  cases kind <;> decide

theorem ofJson?_toJson (i : FailedItem) : FailedItem.ofJson? i.toJson = some i := by
  simp [FailedItem.ofJson?, FailedItem.toJson, Json.fields?, Json.membersNamed?, Json.required?,
    Json.str?, Json.variant?, ofText?_text]

theorem failuresOfJson?_failuresToJson (items : List FailedItem) :
    failuresOfJson? (failuresToJson items) = some items := by
  have hm : (items.map FailedItem.toJson).mapM FailedItem.ofJson? = some (items.map id) := by
    rw [List.mapM_map]
    exact mapM_eq_pure fun i _ => ofJson?_toJson i
  simp [failuresOfJson?, failuresToJson, Json.arr?, hm]

theorem read_tokensText {tokens : Dict RootId DeltaToken} (h : TokensValid tokens) :
    (Json.read? (tokensText tokens)).bind tokensOfJson? = some tokens := by
  rw [tokensText, Json.read?_render (legible_tokens tokens), Option.bind_some,
    tokensOfJson?_tokensToJson h]

theorem read_failuresText (items : List FailedItem) :
    (Json.read? (failuresText items)).bind failuresOfJson? = some items := by
  rw [failuresText, Json.read?_render (legible_failures items), Option.bind_some,
    failuresOfJson?_failuresToJson]

/-! ## Single columns -/

theorem readCollection_text {c : CollectionId} (h : c.Valid) : readCollection c.text = .ok c := by
  unfold CollectionId.Valid at h
  rw [readCollection, h]

theorem readRun_text (run : Option RunId) : readRun (run.map RunId.text) = .ok run := by
  cases run with
  | none => rfl
  | some run => simp [readRun, RunId.read?_text]

theorem readTime_microsText {t : Instant} (h : t.Storable) :
    readTime (Time.microsText t) = .ok t.toMicros := by
  rw [readTime, Time.readStrict?_microsText h]

theorem readOptionalTime_microsText {t : Option Instant} (h : ∀ x ∈ t, x.Storable) :
    readOptionalTime (t.map Time.microsText) = .ok (t.map Instant.toMicros) := by
  cases t with
  | none => rfl
  | some t =>
    have hne : (Time.microsText t).isEmpty = false := by
      rw [String.isEmpty_eq_false_iff]
      intro he
      have := congrArg String.toList he
      simp [Time.microsText] at this
    simp only [Option.map_some, readOptionalTime, hne, Bool.false_eq_true, if_false,
      readTime_microsText (h t rfl)]
    rfl

/-! ## The whole row -/

/-- The row of a record is read back as the record, with its times cut to microseconds. -/
theorem toRecord_ofRecord {r : Record} (h : r.Storable) :
    (ofRecord r).toRecord = .ok r.toMicros := by
  have hp := h.progress.settled
  simp only [toRecord, ofRecord, readCollection_text h.collection, read_tokensText h.tokens,
    read_failuresText, readRun_text, readOptionalTime_microsText h.startedAt,
    readOptionalTime_microsText h.finishedAt, readTime_microsText h.updatedAt,
    counter_eq h.progress.total, counter_eq (show r.progress.processed ≤ counterLimit by omega),
    counter_eq (show r.progress.failed ≤ counterLimit by omega), Option.elim_some]
  rfl

/-- The later of two stored times is the later time, stored. -/
theorem laterText_microsText {a b : Instant} (ha : a.Storable) (hb : b.Storable) :
    laterText (Time.microsText a) (Time.microsText b) = Time.microsText (a.later b) := by
  simp only [laterText, Time.microsText_lt_iff ha hb, Instant.later]
  obtain ⟨s, m⟩ := a
  obtain ⟨t, n⟩ := b
  by_cases hcut : (⟨s, m⟩ : Instant).toMicros < (⟨t, n⟩ : Instant).toMicros
  · have hlt : (⟨s, m⟩ : Instant) < ⟨t, n⟩ := by
      have hcut : s < t ∨ s = t ∧ m / 1000 * 1000 < n / 1000 * 1000 := hcut
      change s < t ∨ s = t ∧ m < n
      omega
    rw [if_pos hcut, if_pos hlt]
  · rw [if_neg hcut]
    split
    · next hlt =>
      -- the times differ, but not in the decimals that are kept
      have heq : (⟨s, m⟩ : Instant).toMicros = (⟨t, n⟩ : Instant).toMicros := by
        have hcut : ¬ (s < t ∨ s = t ∧ m / 1000 * 1000 < n / 1000 * 1000) := hcut
        have hlt : s < t ∨ s = t ∧ m < n := hlt
        simp only [Instant.toMicros, Instant.mk.injEq]
        omega
      rw [← Time.microsText_toMicros ⟨s, m⟩, heq, Time.microsText_toMicros]
    · rfl

end Row

end CollectionSync
