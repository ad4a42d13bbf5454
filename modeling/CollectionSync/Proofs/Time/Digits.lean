import CollectionSync.Time.Scan
import CollectionSync.Time.Span

/-! # Numbers in a fixed number of digits

A number written with `Span.padded` in as many places as it needs is read back by `number`, whatever
follows it, and two numbers written in the same number of places compare as their texts do. -/

namespace CollectionSync.Time

open CollectionSync.Span (padded)

variable {w n m : Nat}

/-! ## Rows of digits -/

theorem isDigit_iff (c : Char) : Text.isDigit c = c.isDigit := by
  simp [Text.isDigit, Char.isDigit, Char.le_def]

theorem digitsValue_eq (ds : List Char) : digitsValue ds = Nat.ofDigitChars 10 ds 0 := by
  simp [digitsValue, Nat.ofDigitChars, Nat.mul_comm]

theorem length_toDigits_le (hw : 0 < w) (h : n < Nat.pow 10 w) : (Nat.toDigits 10 n).length ≤ w :=
  (Nat.length_toDigits_le_iff (by omega) hw).mpr h

theorem length_padded (hw : 0 < w) (h : n < Nat.pow 10 w) : (padded w n).length = w := by
  have := length_toDigits_le hw h
  simp [padded]
  omega

theorem isDigit_of_mem_padded {c : Char} (h : c ∈ padded w n) : Text.isDigit c = true := by
  simp only [padded, List.mem_append, List.mem_replicate] at h
  rcases h with ⟨-, rfl⟩ | h
  · rfl
  · rw [isDigit_iff]
    exact Nat.isDigit_of_mem_toDigits (by decide) (by decide) h

theorem digitsValue_padded (w n : Nat) : digitsValue (padded w n) = n := by
  rw [digitsValue_eq, padded, Nat.ofDigitChars_append, Nat.ofDigitChars_replicate_zero]
  simp

theorem takeWhile_padded (w n : Nat) (rest : List Char) :
    (padded w n ++ rest).takeWhile Text.isDigit = padded w n ++ rest.takeWhile Text.isDigit :=
  List.takeWhile_append_of_pos fun _ => isDigit_of_mem_padded

/-- A number of exactly `w` digits is read off the front, also where more digits follow. -/
theorem number_padded (hw : 0 < w) (h : n < Nat.pow 10 w) (rest : List Char) :
    number w w (padded w n ++ rest) = some (n, rest) := by
  have hl := length_padded hw h
  have ht : ((padded w n ++ rest).takeWhile Text.isDigit).take w = padded w n := by
    rw [takeWhile_padded, List.take_append_of_le_length (by omega),
      List.take_of_length_le (by omega)]
  simp only [number, ht, hl, Nat.lt_irrefl, if_false, digitsValue_padded]
  rw [List.drop_append_of_le_length (by omega), List.drop_of_length_le (by omega), List.nil_append]

/-! ## Order -/

theorem lt_append {l₁ l₂ : List Char} (h : l₁ < l₂) (hl : l₁.length = l₂.length)
    (s t : List Char) : l₁ ++ s < l₂ ++ t := by
  induction l₁ generalizing l₂ with
  | nil => cases l₂ with
    | nil => exact absurd h (List.not_lt_nil _)
    | cons => simp at hl
  | cons c l₁ ih =>
    cases l₂ with
    | nil => simp at hl
    | cons d l₂ =>
      rw [List.cons_append, List.cons_append, List.cons_lt_cons_iff]
      rcases List.cons_lt_cons_iff.mp h with hcd | ⟨hcd, ht⟩
      · exact .inl hcd
      · exact .inr ⟨hcd, ih ht (by simpa using hl)⟩

theorem foldl_digits_lt {f : Nat → Char → Nat} (hf : f = fun n d => n * 10 + (d.toNat - 48)) :
    ∀ {l₁ l₂ : List Char} {a b : Nat}, l₁.length = l₂.length →
      (∀ c ∈ l₁, Text.isDigit c = true) → (∀ c ∈ l₂, Text.isDigit c = true) →
      a < b ∨ a = b ∧ l₁ < l₂ → l₁.foldl f a < l₂.foldl f b
  | [], [], a, b, _, _, _, h => by
    rcases h with h | ⟨-, h⟩
    · exact h
    · exact absurd h (List.not_lt_nil _)
  | c :: l₁, d :: l₂, a, b, hl, h₁, h₂, h => by
    simp only [List.foldl_cons]
    have hc := Text.isDigit_iff_toNat.mp (h₁ c List.mem_cons_self)
    have hd := Text.isDigit_iff_toNat.mp (h₂ d List.mem_cons_self)
    refine foldl_digits_lt hf (by simpa using hl) (fun x hx => h₁ x (List.mem_cons_of_mem c hx))
      (fun x hx => h₂ x (List.mem_cons_of_mem d hx)) ?_
    subst hf
    rcases h with h | ⟨rfl, h⟩
    · exact .inl (by simp only; omega)
    · rcases List.cons_lt_cons_iff.mp h with hcd | ⟨rfl, ht⟩
      · have hcd : c.toNat < d.toNat := hcd
        exact .inl (by simp only; omega)
      · exact .inr ⟨rfl, ht⟩

/-- In a fixed number of places the greater number has the greater text. -/
theorem padded_lt (hw : 0 < w) (hm : m < Nat.pow 10 w) (h : n < m) : padded w n < padded w m := by
  have hn : n < Nat.pow 10 w := Nat.lt_trans h hm
  have hlen : (padded w n).length = (padded w m).length := by
    rw [length_padded hw hn, length_padded hw hm]
  by_cases he : padded w n = padded w m
  · have := congrArg digitsValue he
    simp only [digitsValue_padded] at this
    omega
  · refine Decidable.byContradiction fun hlt => ?_
    have hgt : padded w m < padded w n :=
      (List.le_iff_lt_or_eq.mp (List.not_lt.mp hlt)).resolve_right (Ne.symm he)
    have hv := foldl_digits_lt rfl hlen.symm (fun _ => isDigit_of_mem_padded)
      (fun _ => isDigit_of_mem_padded) (.inr ⟨rfl, hgt⟩) (a := 0)
    change digitsValue (padded w m) < digitsValue (padded w n) at hv
    simp only [digitsValue_padded] at hv
    omega

theorem padded_lt_append (hw : 0 < w) (hm : m < Nat.pow 10 w) (h : n < m) (s t : List Char) :
    padded w n ++ s < padded w m ++ t := by
  refine lt_append (padded_lt hw hm h) ?_ s t
  rw [length_padded hw (Nat.lt_trans h hm), length_padded hw hm]

end CollectionSync.Time
