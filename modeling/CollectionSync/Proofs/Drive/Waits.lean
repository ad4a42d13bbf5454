import CollectionSync.Drive.RetryAfter
import CollectionSync.Proofs.Time.Digits

/-! # Which wait a row of digits asks for

A header of digits asks for that many seconds, and is read as long as 64 bits hold the number. A
longer row is no date either, so it is taken for nothing that can be read and leaves the default,
which may be shorter than the longest wait. -/

namespace CollectionSync

/-! ## Blanks around a text -/

namespace Text

variable {before s after : List Char}

theorem trimStart_append (hbefore : ∀ c ∈ before, isBlank c = true)
    (hs : ∀ c ∈ s.head?, isBlank c = false) :
    trimStart (before ++ s) = s := by
  rw [trimStart, List.dropWhile_append_of_pos hbefore]
  cases s with
  | nil => rfl
  | cons c rest => exact List.dropWhile_cons_of_neg (by rw [hs c rfl]; exact Bool.false_ne_true)

theorem trimEnd_append (hafter : ∀ c ∈ after, isBlank c = true)
    (hs : ∀ c ∈ s.getLast?, isBlank c = false) :
    trimEnd (s ++ after) = s := by
  have hreverse : trimStart (after.reverse ++ s.reverse) = s.reverse :=
    trimStart_append (fun c hc => hafter c (List.mem_reverse.mp hc)) (by rwa [List.head?_reverse])
  rw [trimEnd, List.reverse_append]
  exact (congrArg List.reverse hreverse).trans (List.reverse_reverse s)

/-- A text without blanks is what is left when those around it are dropped. -/
theorem trim_surrounded (hbefore : ∀ c ∈ before, isBlank c = true)
    (hafter : ∀ c ∈ after, isBlank c = true)
    (hs : ∀ c ∈ s, isBlank c = false) (hne : s ≠ []) : trim (before ++ s ++ after) = s := by
  have hhead : ∀ c ∈ (s ++ after).head?, isBlank c = false := by
    cases s with
    | nil => exact absurd rfl hne
    | cons c rest =>
      intro d hd
      exact hs d (by rw [← Option.some.inj hd]; exact List.mem_cons_self)
  rw [trim, List.append_assoc, trimStart_append hbefore hhead]
  exact trimEnd_append hafter fun c hc => hs c (List.mem_of_getLast? hc)

end Text

namespace Drive

/-! ## Digits as a number of seconds -/

/-- The text consists of decimal digits with the value `n`, and blanks around them. -/
def Asks (value : String) (n : Nat) : Prop :=
  ∃ before digits after : List Char, value.toList = before ++ digits ++ after ∧
    (∀ c ∈ before, Text.isBlank c = true) ∧ (∀ c ∈ after, Text.isBlank c = true) ∧
    digits ≠ [] ∧ (∀ c ∈ digits, c.isDigit = true) ∧ Nat.ofDigitChars 10 digits 0 = n

variable {digits : List Char}

theorem readSeconds?_digits (hdigits : ∀ c ∈ digits, Text.isDigit c = true) (hne : digits ≠ []) :
    readSeconds? digits =
      if Time.digitsValue digits < UInt64.size then some (Time.digitsValue digits) else none := by
  have hall : digits.all Text.isDigit = true := List.all_eq_true.mpr hdigits
  cases digits with
  | nil => exact absurd rfl hne
  | cons c rest =>
    have hplus : c ≠ '+' := by
      rintro rfl
      have hdigit := hdigits '+' List.mem_cons_self
      revert hdigit
      decide
    unfold readSeconds?
    split
    · next heq => exact absurd (List.cons.inj heq).1 hplus
    · simp only [hall, List.isEmpty_cons, Bool.not_true, Bool.or_false, Bool.false_eq_true,
        if_false]

/-- What 64 bits do not hold takes more than two digits. -/
theorem two_lt_length (hdigits : ∀ c ∈ digits, Text.isDigit c = true)
    (h : UInt64.size ≤ Time.digitsValue digits) : 2 < digits.length := by
  have hsize : UInt64.size = 18446744073709551616 := rfl
  match digits with
  | [] => exact absurd h (by decide)
  | [a] =>
    have ha := Text.isDigit_iff_toNat.mp (hdigits a (by simp))
    simp only [Time.digitsValue, List.foldl_cons, List.foldl_nil] at h
    omega
  | [a, b] =>
    have ha := Text.isDigit_iff_toNat.mp (hdigits a (by simp))
    have hb := Text.isDigit_iff_toNat.mp (hdigits b (by simp))
    simp only [Time.digitsValue, List.foldl_cons, List.foldl_nil] at h
    omega
  | _ :: _ :: _ :: rest =>
    simp only [List.length_cons]
    omega

variable {value : String} {n : Nat} {default : Span} {now : Instant}

theorem ofSeconds_min_longestWait (n : Nat) :
    (Span.ofSeconds n).min longestWait = .ofSeconds (min n 3600) :=
  congrArg Span.mk (Nat.mul_min_mul_right n 3600 1000000000)

/-- Digits ask for their number of seconds, and for nothing where the number does not fit. -/
theorem retryAfter_of_asks (h : Asks value n) :
    retryAfter value default now =
      if n < UInt64.size then .ofSeconds (min n 3600) else default := by
  obtain ⟨before, digits, after, hvalue, hbefore, hafter, hne, hdecimal, hn⟩ := h
  have hdigits : ∀ c ∈ digits, Text.isDigit c = true := fun c hc =>
    (congrArg (· = true) (Time.isDigit_iff c)).mpr (hdecimal c hc)
  have htrim : Text.trim value.toList = digits := by
    rw [hvalue]
    exact Text.trim_surrounded hbefore hafter (fun c hc =>
      Text.isBlank_of_isDigit (hdigits c hc)) hne
  rw [← Time.digitsValue_eq] at hn
  rw [retryAfter, htrim, readSeconds?_digits hdigits hne, hn]
  rcases Nat.lt_or_ge n UInt64.size with hfits | hlong
  · rw [if_pos hfits, if_pos hfits]
    exact ofSeconds_min_longestWait n
  · have hdate := Time.readHeaderDate?_digits hdigits (two_lt_length hdigits (hn ▸ hlong))
    rw [if_neg (Nat.not_lt.mpr hlong), if_neg (Nat.not_lt.mpr hlong), hdate]

/-- A row of digits is waited for as long as it says, an hour at most, if 64 bits hold its number,
and up to there a longer wait asked for is never a shorter one. A larger number leaves the
default. -/
theorem digits_waited_for (h : Asks value n) (default : Span) (now : Instant) :
    retryAfter value default now = (if n < UInt64.size then .ofSeconds (min n 3600) else default) ∧
    ∀ value' n' default' now', Asks value' n' → n' ≤ n → n < UInt64.size →
      retryAfter value' default' now' ≤ retryAfter value default now := by
  refine ⟨retryAfter_of_asks h, fun value' n' default' now' h' hle hfits => ?_⟩
  rw [retryAfter_of_asks h, retryAfter_of_asks h', if_pos hfits,
    if_pos (Nat.lt_of_le_of_lt hle hfits)]
  show min n' 3600 * 1000000000 ≤ min n 3600 * 1000000000
  omega

/-- Digits are read with any number of zeros in front of them and blanks around them. -/
theorem asks_padded : Asks " 0007\t" 7 :=
  ⟨[' '], ['0', '0', '0', '7'], ['\t'], by decide, List.all_eq_true.mp (by decide),
    List.all_eq_true.mp (by decide), by decide, List.all_eq_true.mp (by decide), by decide⟩

theorem asks_longest : Asks "18446744073709551615" 18446744073709551615 :=
  ⟨[], "18446744073709551615".toList, [], by decide, List.forall_mem_nil _,
    List.forall_mem_nil _, by decide, List.all_eq_true.mp (by decide), by decide⟩

theorem asks_tooLong : Asks "18446744073709551616" 18446744073709551616 :=
  ⟨[], "18446744073709551616".toList, [], by decide, List.forall_mem_nil _,
    List.forall_mem_nil _, by decide, List.all_eq_true.mp (by decide), by decide⟩

theorem digits_waited_for_longest :
    Asks " 0007\t" 7 ∧ Asks "18446744073709551615" 18446744073709551615 ∧
    retryAfter "18446744073709551615" usualWait ⟨0, 0⟩ = .ofSeconds 3600 ∧
    retryAfter " 0007\t" usualWait ⟨0, 0⟩ ≤ retryAfter "18446744073709551615" usualWait ⟨0, 0⟩ := by
  have hwaited := digits_waited_for asks_longest usualWait ⟨0, 0⟩
  exact ⟨asks_padded, asks_longest, hwaited.1,
    hwaited.2 _ _ _ _ asks_padded (by decide) (by decide)⟩

/-- One second more than 64 bits hold is waited for half a minute instead of an hour. -/
theorem long_wait_cut_short :
    Asks "18446744073709551615" 18446744073709551615 ∧
    Asks "18446744073709551616" 18446744073709551616 ∧
    retryAfter "18446744073709551615" usualWait ⟨0, 0⟩ = .ofSeconds 3600 ∧
    retryAfter "18446744073709551616" usualWait ⟨0, 0⟩ = .ofSeconds 30 ∧
    retryAfter "18446744073709551616" usualWait ⟨0, 0⟩ ≠
      .ofSeconds (min 18446744073709551616 3600) := by
  have hshort : retryAfter "18446744073709551616" usualWait ⟨0, 0⟩ = .ofSeconds 30 :=
    retryAfter_of_asks asks_tooLong
  exact ⟨asks_longest, asks_tooLong, retryAfter_of_asks asks_longest,
    hshort, by rw [hshort]; decide⟩

end Drive

end CollectionSync
