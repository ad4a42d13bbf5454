import CollectionSync.Program

/-! # What a program has heard

A program that was asked nothing of yet is followed through the answers that it hears. `Follows`
says where the answers lead; what programs that are joined have heard comes apart into what each of
them has heard. `Asks` bounds the questions that a program can come to ask, whatever it hears. -/

namespace CollectionSync

/-- A question with the answer to it. -/
abbrev Heard {Ask : Type} (Answer : Ask → Type) := (q : Ask) × Answer q

namespace Program

variable {Ask : Type} {Answer : Ask → Type} {α β : Type}

/-- The answers, heard in this order, lead from the first program to the second. -/
inductive Follows : Program Ask Answer α → List (Heard Answer) → Program Ask Answer α → Prop
  | refl (p : Program Ask Answer α) : Follows p [] p
  | hear {q : Ask} {next : Answer q → Program Ask Answer α} (a : Answer q)
      {h : List (Heard Answer)} {p : Program Ask Answer α} :
    Follows (next a) h p → Follows (ask q next) (⟨q, a⟩ :: h) p

/-- The program comes to an end with a result. -/
abbrev Yields (p : Program Ask Answer α) (h : List (Heard Answer)) (a : α) : Prop :=
  Follows p h (done a)

variable {p p' p'' : Program Ask Answer α} {f : α → Program Ask Answer β}
  {h h' : List (Heard Answer)} {q : Ask}

theorem follows_done {a : α} : Follows (done a) h p ↔ h = [] ∧ p = done a := by
  constructor
  · intro hf
    cases hf
    exact ⟨rfl, rfl⟩
  · rintro ⟨rfl, rfl⟩
    exact .refl _

theorem follows_nil : Follows p [] p' ↔ p' = p := by
  constructor
  · intro hf
    cases hf
    rfl
  · rintro rfl
    exact .refl _

theorem yields_pure {a b : α} : Yields (pure a : Program Ask Answer α) h b ↔ h = [] ∧ b = a :=
  follows_done.trans (and_congr_right fun _ => ⟨Program.done.inj, congrArg done⟩)

theorem yields_question {a : Answer q} :
    Yields (question q : Program Ask Answer (Answer q)) h a ↔ h = [⟨q, a⟩] := by
  constructor
  · intro hf
    cases hf with
    | hear b hf =>
      obtain ⟨rfl, hb⟩ := follows_done.mp hf
      cases hb
      rfl
  · rintro rfl
    exact .hear a (.refl _)

theorem Follows.append (h₁ : Follows p h p') (h₂ : Follows p' h' p'') :
    Follows p (h ++ h') p'' := by
  induction h₁ with
  | refl => exact h₂
  | hear a _ ih => exact .hear a (ih h₂)

theorem follows_append : Follows p (h ++ h') p'' ↔ ∃ p', Follows p h p' ∧ Follows p' h' p'' := by
  constructor
  · intro hf
    induction h generalizing p with
    | nil => exact ⟨p, .refl p, hf⟩
    | cons e h ih =>
      cases hf with
      | hear a hf =>
        obtain ⟨p', h₁, h₂⟩ := ih hf
        exact ⟨p', .hear a h₁, h₂⟩
  · rintro ⟨p', h₁, h₂⟩
    exact h₁.append h₂

/-- The answers alone decide where they lead. -/
theorem Follows.det (h₁ : Follows p h p') (h₂ : Follows p h p'') : p' = p'' := by
  induction h₁ with
  | refl =>
    cases h₂
    rfl
  | hear a _ ih =>
    cases h₂ with
    | hear _ h₂ => exact ih h₂

/-- Nothing is heard after the end. -/
theorem Follows.eq_nil_of_yields {a : α} (h₁ : Yields p h a) (h₂ : Follows p (h ++ h') p') :
    h' = [] ∧ p' = done a := by
  obtain ⟨p₀, hp, hrest⟩ := follows_append.mp h₂
  obtain rfl := h₁.det hp
  exact follows_done.mp hrest

/-- Of all that is heard, one part leads to the end, and to one result. -/
theorem Yields.unique {h₁ h₂ h₁' h₂' : List (Heard Answer)} {a a' : α} (hy : Yields p h₁ a)
    (hy' : Yields p h₁' a') (heq : h₁ ++ h₂ = h₁' ++ h₂') : h₁ = h₁' ∧ a = a' := by
  rcases List.append_eq_append_iff.mp heq with ⟨m, rfl, -⟩ | ⟨m, rfl, -⟩
  · obtain ⟨rfl, ha⟩ := hy.eq_nil_of_yields hy'
    exact ⟨(List.append_nil h₁).symm, (Program.done.inj ha).symm⟩
  · obtain ⟨rfl, ha⟩ := hy'.eq_nil_of_yields hy
    exact ⟨List.append_nil h₁', Program.done.inj ha⟩

/-- What was heard last is the answer to a question asked before. -/
theorem follows_concat {e : Heard Answer} : Follows p (h ++ [e]) p' ↔
    ∃ next, Follows p h (ask e.1 next) ∧ p' = next e.2 := by
  rw [follows_append]
  constructor
  · rintro ⟨p₀, h₁, h₂⟩
    obtain ⟨q, a⟩ := e
    cases h₂ with
    | @hear _ next _ _ _ h₂ => exact ⟨next, h₁, follows_nil.mp h₂⟩
  · rintro ⟨next, h₁, rfl⟩
    exact ⟨_, h₁, .hear e.2 (.refl _)⟩

/-- What was heard can go on to an end, as long as there are answers to all questions. -/
theorem Follows.exists_yields (hanswers : ∀ q, Nonempty (Answer q)) (hf : Follows p h p') :
    ∃ h' a, Yields p (h ++ h') a := by
  have hends : ∀ p : Program Ask Answer α, ∃ h a, Yields p h a := by
    intro p
    induction p with
    | done a => exact ⟨[], a, .refl _⟩
    | ask q next ih =>
      obtain ⟨a⟩ := hanswers q
      obtain ⟨h, b, hy⟩ := ih a
      exact ⟨⟨q, a⟩ :: h, b, .hear a hy⟩
  obtain ⟨h', a, hy⟩ := hends p'
  exact ⟨h', a, hf.append hy⟩

/-! ## Programs that are joined -/

theorem Follows.bind (hf : Follows p h p') : Follows (p >>= f) h (p' >>= f) := by
  induction hf with
  | refl => exact .refl _
  | hear a _ ih => exact .hear a ih

/-- Joined programs are still in the first one, or have come to its end and follow the second. -/
theorem follows_bind {r : Program Ask Answer β} : Follows (p >>= f) h r ↔
    (∃ p', Follows p h p' ∧ r = p' >>= f) ∨
      ∃ h₁ a h₂, h = h₁ ++ h₂ ∧ Yields p h₁ a ∧ Follows (f a) h₂ r := by
  constructor
  · intro hf
    induction p generalizing h with
    | done a => exact .inr ⟨[], a, h, rfl, .refl _, hf⟩
    | ask q next ih =>
      cases hf with
      | refl => exact .inl ⟨ask q next, .refl _, rfl⟩
      | hear a hf =>
        rcases ih a hf with ⟨p', hp, rfl⟩ | ⟨h₁, b, h₂, rfl, hp, hrest⟩
        · exact .inl ⟨p', .hear a hp, rfl⟩
        · exact .inr ⟨⟨q, a⟩ :: h₁, b, h₂, rfl, .hear a hp, hrest⟩
  · rintro (⟨p', hp, rfl⟩ | ⟨h₁, a, h₂, rfl, hp, hrest⟩)
    · exact hp.bind
    · exact hp.bind.append hrest

theorem yields_bind {b : β} : Yields (p >>= f) h b ↔
    ∃ h₁ a h₂, h = h₁ ++ h₂ ∧ Yields p h₁ a ∧ Yields (f a) h₂ b := by
  refine follows_bind.trans ⟨?_, .inr⟩
  rintro (⟨p', hp, hb⟩ | hsplit)
  · cases p' with
    | done a =>
      have hb : done b = f a := hb
      exact ⟨h, a, [], (List.append_nil h).symm, hp, follows_nil.mpr hb⟩
    | ask q next => cases hb
  · exact hsplit

/-- Once the first program has come to its end, the second one is followed. -/
theorem Follows.after {a : α} {r : Program Ask Answer β} (hy : Yields p h a)
    (hf : Follows (p >>= f) (h ++ h') r) : Follows (f a) h' r := by
  obtain ⟨p₀, hp, hrest⟩ := follows_append.mp hf
  have heq : f a = p₀ := hy.bind.det hp
  rwa [heq]

theorem follows_bind_ask {next : Answer q → Program Ask Answer β} :
    Follows (p >>= f) h (ask q next) ↔
      (∃ next', Follows p h (ask q next') ∧ next = fun a => next' a >>= f) ∨
        ∃ h₁ a h₂, h = h₁ ++ h₂ ∧ Yields p h₁ a ∧ Follows (f a) h₂ (ask q next) := by
  refine follows_bind.trans ⟨?_, ?_⟩
  · rintro (⟨p', hp, heq⟩ | hsplit)
    · cases p' with
      | done a =>
        have heq : ask q next = f a := heq
        exact .inr ⟨h, a, [], (List.append_nil h).symm, hp, follows_nil.mpr heq⟩
      | ask q' next' =>
        cases heq
        exact .inl ⟨next', hp, rfl⟩
    · exact .inr hsplit
  · rintro (⟨next', hp, rfl⟩ | hsplit)
    · exact .inl ⟨ask q next', hp, rfl⟩
    · exact .inr hsplit

/-! ## Questions of another kind -/

section

variable {Ask' : Type} {Answer' : Ask' → Type} (g : Ask → Ask')
  (back : ∀ q, Answer' (g q) → Answer q)

theorem lift_bind (p : Program Ask Answer α) (f : α → Program Ask Answer β) :
    (p >>= f).lift g back = p.lift g back >>= fun a => (f a).lift g back := by
  induction p with
  | done a => rfl
  | ask q next ih => exact congrArg (ask (g q)) (funext fun a => ih (back q a))

/-- Whoever answers the questions of the other kind answers these. -/
theorem run_lift {σ : Type} (handle : (q : Ask') → σ → Answer' q × σ) (p : Program Ask Answer α)
    (s : σ) :
    (p.lift g back).run handle s =
      p.run (fun q s => (back q (handle (g q) s).1, (handle (g q) s).2)) s := by
  induction p generalizing s with
  | done a => rfl
  | ask q next ih => exact ih (back q (handle (g q) s).1) (handle (g q) s).2

end

/-! ## Running -/

/-- Surroundings that answer alike, from states that stay related, lead to one result. -/
theorem run_related {σ τ : Type} {R : σ → τ → Prop} {handle : (q : Ask) → σ → Answer q × σ}
    {handle' : (q : Ask) → τ → Answer q × τ}
    (hstep : ∀ q s t, R s t → (handle q s).1 = (handle' q t).1 ∧ R (handle q s).2 (handle' q t).2)
    (p : Program Ask Answer α) {s : σ} {t : τ} (h : R s t) :
    (p.run handle s).1 = (p.run handle' t).1 ∧ R (p.run handle s).2 (p.run handle' t).2 := by
  induction p generalizing s t with
  | done a => exact ⟨rfl, h⟩
  | ask q next ih =>
    obtain ⟨hanswer, hstate⟩ := hstep q s t h
    have hrun : (ask q next).run handle s = (next (handle' q t).1).run handle (handle q s).2 := by
      rw [← hanswer]
      rfl
    rw [hrun]
    exact ih (handle' q t).1 hstate

/-! ## The questions that a program can ask -/

/-- Every question that the program can come to satisfies the condition. -/
def Asks (P : Ask → Prop) : Program Ask Answer α → Prop
  | done _ => True
  | ask q next => P q ∧ ∀ a, (next a).Asks P

variable {P Q : Ask → Prop}

theorem Asks.pure (a : α) : (pure a : Program Ask Answer α).Asks P := trivial

theorem Asks.question (hq : P q) : (question q : Program Ask Answer (Answer q)).Asks P :=
  ⟨hq, fun _ => trivial⟩

theorem Asks.bind (hp : p.Asks P) (hf : ∀ a, (f a).Asks P) : (p >>= f).Asks P := by
  induction p with
  | done a => exact hf a
  | ask q next ih => exact ⟨hp.1, fun a => ih a (hp.2 a)⟩

theorem Asks.mono (hp : p.Asks P) (hPQ : ∀ q, P q → Q q) : p.Asks Q := by
  induction p with
  | done a => trivial
  | ask q next ih => exact ⟨hPQ q hp.1, fun a => ih a (hp.2 a)⟩

theorem Asks.of_forall (p : Program Ask Answer α) (hP : ∀ q, P q) : p.Asks P := by
  induction p with
  | done a => trivial
  | ask q next ih => exact ⟨hP q, ih⟩

theorem Asks.lift {Ask' : Type} {Answer' : Ask' → Type} {g : Ask → Ask'}
    {back : ∀ q, Answer' (g q) → Answer q} {P' : Ask' → Prop}
    (hp : p.Asks fun q => P' (g q)) : (p.lift g back).Asks P' := by
  induction p with
  | done a => trivial
  | ask q next ih => exact ⟨hp.1, fun a => ih (back q a) (hp.2 (back q a))⟩

theorem Asks.of_follows (hp : p.Asks P) (hf : Follows p h p') :
    (∀ e ∈ h, P e.1) ∧ p'.Asks P := by
  induction hf with
  | refl => exact ⟨nofun, hp⟩
  | hear a _ ih =>
    obtain ⟨hh, hp'⟩ := ih (hp.2 a)
    exact ⟨List.forall_mem_cons.mpr ⟨hp.1, hh⟩, hp'⟩

end Program

end CollectionSync
