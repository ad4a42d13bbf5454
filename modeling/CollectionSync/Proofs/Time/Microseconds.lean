import CollectionSync.Proofs.Time.Calendar
import CollectionSync.Proofs.Time.Digits
import CollectionSync.Time.Rfc3339

/-! # Times as text with six decimals

`readStrict?_microsText` says that the text of a time is read back as the time cut to whole
microseconds, and `microsText_lt_iff` that texts sort as the cut times do. Both hold of the years 0
to 9999, which have four digits, leap seconds included. -/

namespace CollectionSync

/-- A time of a year with four digits. The nanoseconds reach a billion only inside a leap second,
which belongs to the last second of a minute. -/
structure Instant.Storable (t : Instant) : Prop where
  first : 0 ≤ t.fields.date.year
  last : t.fields.date.year ≤ 9999
  nanos : t.nanos < 1000000000 ∨ t.seconds % 60 = 59 ∧ t.nanos < 2000000000

namespace Instant

instance (t : Instant) : Decidable t.Storable :=
  decidable_of_iff (0 ≤ t.fields.date.year ∧ t.fields.date.year ≤ 9999 ∧
      (t.nanos < 1000000000 ∨ t.seconds % 60 = 59 ∧ t.nanos < 2000000000))
    ⟨fun h => ⟨h.1, h.2.1, h.2.2⟩, fun h => ⟨h.first, h.last, h.nanos⟩⟩

/-! ## The fields of a time -/

theorem fields_date (t : Instant) : t.fields.date = CivilDate.ofDayNumber (t.seconds / 86400) := rfl

/-- What a clock shows, in the terms in which it is computed. -/
theorem fields_clock {t : Instant} (h : t.nanos < 1000000000 ∨
    t.seconds % 60 = 59 ∧ t.nanos < 2000000000) :
    t.fields.hour ≤ 23 ∧ t.fields.minute ≤ 59 ∧ t.fields.nanos < 1000000000 ∧
      (t.fields.second ≤ 59 ∧ t.nanos = t.fields.nanos ∧
          t.seconds % 86400 =
            (t.fields.hour * 3600 + t.fields.minute * 60 + t.fields.second : Nat) ∨
        t.fields.second = 60 ∧ t.nanos = t.fields.nanos + 1000000000 ∧
          t.seconds % 86400 = (t.fields.hour * 3600 + t.fields.minute * 60 + 59 : Nat)) := by
  obtain ⟨d, hd, hlt⟩ : ∃ d : Nat, t.seconds % 86400 = d ∧ d < 86400 :=
    ⟨(t.seconds % 86400).toNat, by omega⟩
  simp only [fields, hd, Int.toNat_natCast]
  by_cases hl : t.nanos ≥ 1000000000
  · have h59 : d % 60 = 59 := by omega
    simp only [hl, if_true]
    omega
  · simp only [hl, if_false, true_and]
    omega

theorem fields_toMicros (t : Instant) :
    t.toMicros.fields = { t.fields with nanos := t.fields.nanos / 1000 * 1000 } := by
  have h : (t.nanos / 1000 * 1000 ≥ 1000000000) = (t.nanos ≥ 1000000000) := by
    rw [eq_iff_iff]; omega
  simp only [fields, toMicros, h]
  by_cases hl : t.nanos ≥ 1000000000
  · simp only [hl, if_true, Fields.mk.injEq, true_and]
    omega
  · simp only [hl, if_false]

theorem Storable.toMicros {t : Instant} (h : t.Storable) : t.toMicros.Storable where
  first := by rw [fields_toMicros]; exact h.first
  last := by rw [fields_toMicros]; exact h.last
  nanos := by have := h.nanos; simp only [Instant.toMicros]; omega

/-- A time that is a whole number of microseconds. -/
theorem toMicros_eq_self {t : Instant} (h : t.nanos % 1000 = 0) : t.toMicros = t := by
  obtain ⟨s, n⟩ := t
  have h : n % 1000 = 0 := h
  simp only [toMicros, Instant.mk.injEq, true_and]
  omega

/-- A whole number of microseconds lies after a time exactly if it lies after the cut time. -/
theorem toMicros_lt_iff {a b : Instant} (h : b.nanos % 1000 = 0) : a.toMicros < b ↔ a < b := by
  obtain ⟨s, m⟩ := a
  obtain ⟨t, n⟩ := b
  have h : n % 1000 = 0 := h
  change s < t ∨ s = t ∧ m / 1000 * 1000 < n ↔ s < t ∨ s = t ∧ m < n
  omega

theorem Storable.isRepresentable {t : Instant} (h : t.Storable) : t.isRepresentable = true := by
  have h0 : CivilDate.ofDayNumber (CivilDate.mk CivilDate.firstYear 1 1).dayNumber =
      ⟨CivilDate.firstYear, 1, 1⟩ := by decide
  have h1 : CivilDate.ofDayNumber (CivilDate.mk CivilDate.lastYear 12 31).dayNumber =
      ⟨CivilDate.lastYear, 12, 31⟩ := by decide
  have hf := h.first
  have hl := h.last
  rw [fields_date] at hf hl
  have hlo : (CivilDate.mk CivilDate.firstYear 1 1).dayNumber ≤ t.seconds / 86400 := by
    refine Int.not_lt.mp fun hlt => ?_
    have := CivilDate.before_ofDayNumber hlt
    rw [h0] at this
    simp only [CivilDate.Before, CivilDate.firstYear] at this
    omega
  have hhi : t.seconds / 86400 ≤ (CivilDate.mk CivilDate.lastYear 12 31).dayNumber := by
    refine Int.not_lt.mp fun hlt => ?_
    have := CivilDate.before_ofDayNumber hlt
    rw [h1] at this
    simp only [CivilDate.Before, CivilDate.lastYear] at this
    omega
  rw [Instant.isRepresentable, Bool.and_eq_true, decide_eq_true_eq, decide_eq_true_eq, firstSecond,
    lastSecond]
  omega

theorem Storable.date_valid {t : Instant} (h : t.Storable) : t.fields.date.isValid = true := by
  have hf := h.first
  have hl := h.last
  rw [fields_date] at hf hl ⊢
  apply CivilDate.ofDayNumber_valid
  · simp only [CivilDate.firstYear]; omega
  · simp only [CivilDate.lastYear]; omega

/-- A clock in UTC that shows the fields of a time shows that time. -/
theorem Storable.ofFields?_fields {t : Instant} (h : t.Storable) :
    ofFields? t.fields 0 = some t := by
  obtain ⟨hh, hm, hn, hs⟩ := fields_clock h.nanos
  have hv : t.fields.isValid = true := by
    simp only [Fields.isValid, h.date_valid, Bool.true_and, Bool.and_eq_true, decide_eq_true_eq]
    omega
  have hday : t.fields.date.dayNumber = t.seconds / 86400 := by
    rw [fields_date, CivilDate.dayNumber_ofDayNumber]
  have ht : (⟨t.fields.date.dayNumber * 86400 + (t.fields.hour * 3600 + t.fields.minute * 60 +
      (if t.fields.second = 60 then 59 else t.fields.second) : Nat) - 0,
      if t.fields.second = 60 then t.fields.nanos + 1000000000 else t.fields.nanos⟩ : Instant)
        = t := by
    obtain ⟨s, n⟩ := t
    rw [hday]
    simp only [Instant.mk.injEq]
    simp only at hs
    rcases hs with ⟨h59, hn', hs⟩ | ⟨h60, hn', hs⟩
    · have hne : (⟨s, n⟩ : Instant).fields.second ≠ 60 := by omega
      rw [if_neg hne, if_neg hne]
      omega
    · rw [if_pos h60, if_pos h60]
      omega
  simp only [ofFields?, hv]
  rw [ht, h.isRepresentable]
  rfl

end Instant

namespace Time

open CollectionSync.Span (padded)

/-! ## Reading back -/

theorem yearText_eq {y : Int} (h0 : 0 ≤ y) (h1 : y ≤ 9999) : yearText y = padded 4 y.toNat := by
  rw [yearText, if_pos ⟨h0, h1⟩]

theorem optionalFraction_padded (n : Nat) (h : n < 1000000) :
    optionalFraction ('.' :: (padded 6 n ++ ['Z'])) = some (n * 1000, ['Z']) := by
  have hl : (padded 6 n).length = 6 := length_padded (by omega) h
  have ht : (padded 6 n ++ ['Z']).takeWhile Text.isDigit = padded 6 n := by
    rw [takeWhile_padded]; exact List.append_nil _
  have hne : (padded 6 n).isEmpty = false := by
    cases hp : padded 6 n with
    | nil => rw [hp] at hl; cases hl
    | cons => rfl
  simp only [optionalFraction, fraction, ht, hne, Bool.false_eq_true, if_false,
    List.take_of_length_le (show (padded 6 n).length ≤ 9 by omega), digitsValue_padded, hl]
  rw [List.drop_append_of_le_length (by omega), List.drop_of_length_le (by omega)]
  rfl

theorem char_self (c : Char) (rest : List Char) : char c (c :: rest) = some ((), rest) :=
  if_pos rfl

theorem dateMark_self (rest : List Char) : dateMark ('T' :: rest) = some ((), rest) := rfl

/-- The bounds within which the parts of a stored time fit their places. -/
theorem fields_fit {t : Instant} (h : t.Storable) :
    t.fields.date.year.toNat < 10000 ∧ t.fields.date.month < 100 ∧ t.fields.date.day < 100 ∧
      t.fields.hour < 100 ∧ t.fields.minute < 100 ∧ t.fields.second < 100 ∧
      t.fields.nanos / 1000 < 1000000 := by
  obtain ⟨hh, hm, hn, hs⟩ := Instant.fields_clock h.nanos
  have hv := h.date_valid
  have hd : CivilDate.daysInMonth t.fields.date.year t.fields.date.month ≤ 31 := by
    unfold CivilDate.daysInMonth; split <;> (try split) <;> omega
  simp only [CivilDate.isValid, Bool.and_eq_true, decide_eq_true_eq] at hv
  have := h.last
  omega

/-- The text of a time is read back as the time cut to whole microseconds. -/
theorem readStrict?_microsText {t : Instant} (h : t.Storable) :
    readStrict? (microsText t) = some t.toMicros := by
  obtain ⟨hy, hmo, hd, hh, hmi, hs, hn⟩ := fields_fit h
  have hyear : ((t.fields.date.year.toNat : Nat) : Int) = t.fields.date.year :=
    Int.toNat_of_nonneg h.first
  have hof : Instant.ofFields? ⟨⟨t.fields.date.year, t.fields.date.month, t.fields.date.day⟩,
      t.fields.hour, t.fields.minute, t.fields.second, t.fields.nanos / 1000 * 1000⟩ 0
      = some t.toMicros := by
    have := h.toMicros.ofFields?_fields
    rwa [Instant.fields_toMicros] at this
  simp only [readStrict?, microsText, clockText, yearText_eq h.first h.last, String.toList_ofList,
    List.append_assoc, List.cons_append, Option.bind_eq_bind]
  rw [number_padded (by omega) hy]
  simp only [Option.bind_some, char_self]
  rw [number_padded (by omega) hmo]
  simp only [Option.bind_some, char_self]
  rw [number_padded (by omega) hd]
  simp only [Option.bind_some, dateMark_self]
  rw [number_padded (by omega) hh]
  simp only [Option.bind_some, char_self]
  rw [number_padded (by omega) hmi]
  simp only [Option.bind_some, char_self]
  rw [number_padded (by omega) hs]
  simp only [Option.bind_some]
  rw [optionalFraction_padded _ hn]
  simp only [Option.bind_some, strictOffset, List.isEmpty_nil, if_true, hyear, hof]

/-! ## Order -/

/-- The earlier of two showings of a clock, the fields compared one after the other. -/
def Earlier (f g : Instant.Fields) : Prop :=
  f.date.Before g.date ∨ f.date = g.date ∧
    (f.hour < g.hour ∨ f.hour = g.hour ∧
      (f.minute < g.minute ∨ f.minute = g.minute ∧
        (f.second < g.second ∨ f.second = g.second ∧ f.nanos / 1000 < g.nanos / 1000)))

theorem earlier_of_lt {a b : Instant} (ha : a.Storable) (hb : b.Storable)
    (h : a.toMicros < b.toMicros) : Earlier a.fields b.fields := by
  have h' : a.seconds < b.seconds ∨ a.seconds = b.seconds ∧ a.nanos / 1000 * 1000 <
      b.nanos / 1000 * 1000 := h
  by_cases hday : a.seconds / 86400 < b.seconds / 86400
  · exact .inl (CivilDate.before_ofDayNumber hday)
  · have he : a.seconds / 86400 = b.seconds / 86400 := by omega
    refine .inr ⟨by rw [Instant.fields_date, Instant.fields_date, he], ?_⟩
    obtain ⟨-, hma, hna, hsa⟩ := Instant.fields_clock ha.nanos
    obtain ⟨-, hmb, hnb, hsb⟩ := Instant.fields_clock hb.nanos
    omega

theorem microsText_lt_of_earlier {a b : Instant} (ha : a.Storable) (hb : b.Storable)
    (h : Earlier a.fields b.fields) : microsText a < microsText b := by
  obtain ⟨hy, hmo, hd, hh, hmi, hs, hn⟩ := fields_fit hb
  have h0 := ha.first
  change (microsText a).toList < (microsText b).toList
  simp only [microsText, clockText, yearText_eq ha.first ha.last, yearText_eq hb.first hb.last,
    String.toList_ofList, List.append_assoc, List.cons_append]
  have step (c : Char) {l r : List Char} (h : l < r) : c :: l < c :: r :=
    List.cons_lt_cons_iff.mpr (.inr ⟨rfl, h⟩)
  rcases h with (hlt | ⟨heq, hlt | ⟨heq', hlt⟩⟩) | ⟨heq, h⟩
  · exact padded_lt_append (by omega) hy (by omega) _ _
  · rw [heq]
    exact List.append_left_lt (step _ (padded_lt_append (by omega) hmo hlt _ _))
  · rw [heq, heq']
    exact List.append_left_lt (step _ (List.append_left_lt (step _
      (padded_lt_append (by omega) hd hlt _ _))))
  · rw [heq]
    refine List.append_left_lt (step _ (List.append_left_lt (step _ (List.append_left_lt
      (step _ ?_)))))
    rcases h with hlt | ⟨heq, h⟩
    · exact padded_lt_append (by omega) hh hlt _ _
    rw [heq]
    refine List.append_left_lt (step _ ?_)
    rcases h with hlt | ⟨heq, h⟩
    · exact padded_lt_append (by omega) hmi hlt _ _
    rw [heq]
    refine List.append_left_lt (step _ ?_)
    rcases h with hlt | ⟨heq, hlt⟩
    · exact padded_lt_append (by omega) hs hlt _ _
    rw [heq]
    exact List.append_left_lt (step _ (padded_lt_append (by omega) hn hlt _ _))

theorem microsText_toMicros (t : Instant) : microsText t.toMicros = microsText t := by
  simp only [microsText, Instant.fields_toMicros, clockText,
    Nat.mul_div_cancel _ (show 0 < 1000 by decide)]

/-- Stored times sort as text like the times cut to whole microseconds. -/
theorem microsText_lt_iff {a b : Instant} (ha : a.Storable) (hb : b.Storable) :
    microsText a < microsText b ↔ a.toMicros < b.toMicros := by
  refine ⟨fun h => ?_, fun h => microsText_lt_of_earlier ha hb (earlier_of_lt ha hb h)⟩
  refine Decidable.byContradiction fun hlt => ?_
  have h' : b.toMicros < a.toMicros ∨ a.toMicros = b.toMicros := by
    obtain ⟨s, m⟩ := a
    obtain ⟨t, n⟩ := b
    have hlt' : ¬ (s < t ∨ s = t ∧ m / 1000 * 1000 < n / 1000 * 1000) := hlt
    change (t < s ∨ t = s ∧ n / 1000 * 1000 < m / 1000 * 1000) ∨ _
    simp only [Instant.toMicros, Instant.mk.injEq]
    omega
  rcases h' with hgt | heq
  · exact String.lt_asymm h (microsText_lt_of_earlier hb ha (earlier_of_lt hb ha hgt))
  · rw [← microsText_toMicros a, heq, microsText_toMicros] at h
    exact String.lt_irrefl _ h

end Time

end CollectionSync
