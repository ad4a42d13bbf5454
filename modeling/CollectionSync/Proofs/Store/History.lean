import CollectionSync.Store.Operation

/-! # Histories of a store

What a store answers to one operation after another, and what it holds after them. A store is given
by how it answers a single operation. -/

namespace CollectionSync.History

/-- An operation and the answer to it. -/
abbrev Answered := (op : StoreOp) × Except StoreError op.Reply

variable {σ : Type} (run : σ → (op : StoreOp) → Except StoreError op.Reply × σ)

/-- The store after the operations, the first of them first. -/
def after (s : σ) (ops : List StoreOp) : σ := ops.foldl (fun s op => (run s op).2) s

/-- Each operation with its answer, given where the operations before it have led. -/
def answers : σ → List StoreOp → List Answered
  | _, [] => []
  | s, op :: ops => ⟨op, (run s op).1⟩ :: answers (run s op).2 ops

@[simp] theorem after_nil (s : σ) : after run s [] = s := rfl

@[simp] theorem after_cons (s : σ) (op : StoreOp) (ops : List StoreOp) :
    after run s (op :: ops) = after run (run s op).2 ops := rfl

@[simp] theorem after_append (s : σ) (ops more : List StoreOp) :
    after run s (ops ++ more) = after run (after run s ops) more := List.foldl_append

/-- Where a property holds at first and not in the end, an operation ends it. -/
theorem exists_ending {P : σ → Prop} {ops : List StoreOp} {s : σ} (hs : P s)
    (hend : ¬ P (after run s ops)) :
    ∃ before op rest, ops = before ++ op :: rest ∧ P (after run s before) ∧
      ¬ P (run (after run s before) op).2 := by
  induction ops generalizing s with
  | nil => exact absurd hs hend
  | cons op ops ih =>
    by_cases hop : P (run s op).2
    · obtain ⟨before, op', rest, rfl, hbefore, hop'⟩ := ih hop hend
      exact ⟨op :: before, op', rest, rfl, hbefore, hop'⟩
    · exact ⟨[], op, ops, rfl, hs, hop⟩

/-- What every operation keeps, a history keeps. -/
theorem after_induction {P : σ → Prop} {ops : List StoreOp} {s : σ} (hs : P s)
    (hstep : ∀ op ∈ ops, ∀ s, P s → P (run s op).2) : P (after run s ops) := by
  induction ops generalizing s with
  | nil => exact hs
  | cons op ops ih =>
    exact ih (hstep op List.mem_cons_self s hs) fun op' h => hstep op' (List.mem_cons_of_mem op h)

end CollectionSync.History
