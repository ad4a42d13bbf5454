/-! Computations that ask their surroundings and go on with the answers. What the surroundings do
between a question and its answer is left open, so one program can be run on a clock of its own,
against a terminal, or followed through every order in which several of them may be served. -/

namespace CollectionSync

/-- A computation that is done, or asks `q` and goes on with the answer. -/
inductive Program (Ask : Type) (Answer : Ask → Type) (α : Type) : Type where
  | done (a : α)
  | ask (q : Ask) (next : Answer q → Program Ask Answer α)

namespace Program

variable {Ask : Type} {Answer : Ask → Type} {α β : Type}

def bind (p : Program Ask Answer α) (f : α → Program Ask Answer β) : Program Ask Answer β :=
  match p with
  | done a => f a
  | ask q next => ask q fun a => (next a).bind f

instance : Monad (Program Ask Answer) where
  pure := done
  bind := bind

/-- Asks one question. -/
def question (q : Ask) : Program Ask Answer (Answer q) := ask q done

/-- Asks the questions of a program as questions of another kind. -/
def lift {Ask' : Type} {Answer' : Ask' → Type} (f : Ask → Ask')
    (back : ∀ q, Answer' (f q) → Answer q) : Program Ask Answer α → Program Ask' Answer' α
  | done a => done a
  | ask q next => ask (f q) fun a => lift f back (next (back q a))

/-- Answers every question from a state that each answer may change. -/
def run {σ : Type} (handle : (q : Ask) → σ → Answer q × σ) : Program Ask Answer α → σ → α × σ
  | done a, s => (a, s)
  | ask q next, s =>
    let (a, s) := handle q s
    run handle (next a) s

@[simp] theorem pure_bind (a : α) (f : α → Program Ask Answer β) : (pure a >>= f) = f a := rfl

theorem bind_pure (p : Program Ask Answer α) : (p >>= pure) = p := by
  induction p with
  | done a => rfl
  | ask q next ih => exact congrArg (ask q) (funext ih)

theorem bind_assoc {γ : Type} (p : Program Ask Answer α) (f : α → Program Ask Answer β)
    (g : β → Program Ask Answer γ) : ((p >>= f) >>= g) = p >>= fun a => f a >>= g := by
  induction p with
  | done a => rfl
  | ask q next ih => exact congrArg (ask q) (funext ih)

/-- Running a program and then the next one is running them joined. -/
theorem run_bind {σ : Type} (handle : (q : Ask) → σ → Answer q × σ) (p : Program Ask Answer α)
    (f : α → Program Ask Answer β) (s : σ) :
    (p >>= f).run handle s = (f (p.run handle s).1).run handle (p.run handle s).2 := by
  induction p generalizing s with
  | done a => rfl
  | ask q next ih => exact ih (handle q s).1 (handle q s).2

end Program

end CollectionSync
