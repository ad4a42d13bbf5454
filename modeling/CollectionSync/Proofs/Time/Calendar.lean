import CollectionSync.Time.Calendar

/-! # Day numbers and dates

The arithmetic of the calendar goes from a day number to a date by way of years that start in March.
`dayNumber_ofDayNumber` says that the way back leads to the same day, `ofDayNumber_valid` that the
date exists, and `before_ofDayNumber` that later days have later dates. -/

namespace CollectionSync.CivilDate

/-! ## Years that start in March -/

/-- The date that lies `d` days after the first of March of a year. -/
def ofMarch (year : Int) (d : Nat) : CivilDate :=
  let monthIndex := (5 * d + 2) / 153
  let month := if monthIndex < 10 then monthIndex + 3 else monthIndex - 9
  ⟨year + (if month ≤ 2 then 1 else 0), month, d - (153 * monthIndex + 2) / 5 + 1⟩

/-- Days from the first of March of year zero to that of the given year. -/
def daysToMarch (year : Int) : Int := 365 * year + year / 4 - year / 100 + year / 400

/-- The days that follow the first of March: 364, or 365 where the February at the end has 29. -/
def InMarchYear (year : Int) (d : Nat) : Prop :=
  d ≤ 364 ∨ d = 365 ∧ isLeapYear (year + 1) = true

theorem isLeapYear_iff (year : Int) :
    isLeapYear year = true ↔ year % 4 = 0 ∧ (year % 100 ≠ 0 ∨ year % 400 = 0) := by
  simp [isLeapYear]

theorem InMarchYear.le {year : Int} {d : Nat} (h : InMarchYear year d) : d ≤ 365 := by
  rcases h with h | h <;> omega

theorem dayNumber_ofMarch (year : Int) {d : Nat} (h : d ≤ 365) :
    (ofMarch year d).dayNumber = daysToMarch year + d - 719468 := by
  have hm : (5 * d + 2) / 153 ≤ 11 := by omega
  have hd : (153 * ((5 * d + 2) / 153) + 2) / 5 ≤ d := by omega
  simp only [dayNumber, ofMarch, marchYear, monthFromMarch, daysToMarch]
  by_cases hi : (5 * d + 2) / 153 < 10
  · have h2 : ¬ (5 * d + 2) / 153 + 3 ≤ 2 := by omega
    have h3 : ((5 * d + 2) / 153 + 3 + 9) % 12 = (5 * d + 2) / 153 := by omega
    simp only [hi, if_true, h2, if_false, Int.add_zero, h3]
    omega
  · have h2 : (5 * d + 2) / 153 - 9 ≤ 2 := by omega
    have h3 : ((5 * d + 2) / 153 - 9 + 9) % 12 = (5 * d + 2) / 153 := by omega
    simp only [hi, if_false, h2, if_true, Int.add_sub_cancel, h3]
    omega

theorem ofMarch_month (year : Int) {d : Nat} (h : d ≤ 365) :
    1 ≤ (ofMarch year d).month ∧ (ofMarch year d).month ≤ 12 := by
  simp only [ofMarch]
  split <;> omega

theorem ofMarch_day {year : Int} {d : Nat} (h : InMarchYear year d) :
    1 ≤ (ofMarch year d).day ∧
      (ofMarch year d).day ≤ daysInMonth (ofMarch year d).year (ofMarch year d).month := by
  refine ⟨by simp [ofMarch], ?_⟩
  have hle := h.le
  have hm : (5 * d + 2) / 153 ≤ 11 := by omega
  have hlo : 153 * ((5 * d + 2) / 153) ≤ 5 * d + 2 := by omega
  have hhi : 5 * d + 2 < 153 * ((5 * d + 2) / 153) + 153 := by omega
  simp only [ofMarch]
  generalize (5 * d + 2) / 153 = i at *
  have hcases : i = 0 ∨ i = 1 ∨ i = 2 ∨ i = 3 ∨ i = 4 ∨ i = 5 ∨ i = 6 ∨ i = 7 ∨ i = 8 ∨ i = 9 ∨
      i = 10 ∨ i = 11 := by omega
  rcases hcases with rfl | rfl | rfl | rfl | rfl | rfl | rfl | rfl | rfl | rfl | rfl | rfl
  case inr.inr.inr.inr.inr.inr.inr.inr.inr.inr.inr =>
    -- February, whose length depends on the year
    change d - 337 + 1 ≤ if isLeapYear (year + 1) = true then 29 else 28
    rcases h with h | ⟨h, hleap⟩
    · split <;> omega
    · rw [if_pos hleap]; omega
  all_goals simp only [daysInMonth]; simp; omega

/-! ## From a day number to a year -/

/-- A day of an era by centuries, cycles of four years, years and days. The last century and the
last year of a cycle may be a day longer. -/
theorem exists_eraParts {n : Nat} (h : n ≤ 146096) : ∃ a b c d, a ≤ 3 ∧ b ≤ 24 ∧ c ≤ 3 ∧
    (d ≤ 364 ∨ c = 3 ∧ d = 365 ∧ (b < 24 ∨ a = 3)) ∧
    n = 36524 * a + 1461 * b + 365 * c + d := by
  obtain ⟨a, r, ha, rfl, hr⟩ :
      ∃ a r, a ≤ 3 ∧ n = 36524 * a + r ∧ (r < 36524 ∨ a = 3 ∧ r = 36524) := by
    by_cases hl : n = 146096
    · exact ⟨3, 36524, by omega⟩
    · exact ⟨n / 36524, n % 36524, by omega⟩
  obtain ⟨c, d, hc, hcd, hd⟩ :
      ∃ c d, c ≤ 3 ∧ r % 1461 = 365 * c + d ∧ (d ≤ 364 ∨ c = 3 ∧ d = 365) := by
    by_cases hl : r % 1461 = 1460
    · exact ⟨3, 365, by omega⟩
    · exact ⟨r % 1461 / 365, r % 1461 % 365, by omega⟩
  exact ⟨a, r / 1461, c, d, ha, by omega, hc, by omega, by omega⟩

/-- The quotients by which the year of an era is found count the leap days before a day. -/
theorem yearOfEra_parts {a b c d n : Nat} (ha : a ≤ 3) (hb : b ≤ 24) (hc : c ≤ 3)
    (hd : d ≤ 364 ∨ c = 3 ∧ d = 365 ∧ (b < 24 ∨ a = 3))
    (h : n = 36524 * a + 1461 * b + 365 * c + d) :
    (n - n / 1460 + n / 36524 - n / 146096) / 365 = 100 * a + 4 * b + c := by
  have h1 : n / 36524 = if a = 3 ∧ b = 24 ∧ c = 3 ∧ d = 365 then 4 else a := by
    split <;> omega
  have h2 : n / 146096 = if a = 3 ∧ b = 24 ∧ c = 3 ∧ d = 365 then 1 else 0 := by
    split <;> omega
  have h3 : n / 1460 = 25 * a + b + (if 1460 ≤ 24 * a + b + 365 * c + d then 1 else 0) := by
    split <;> omega
  rw [h1, h2, h3]
  split <;> split <;> omega

/-- A day number belongs to one day of one year that starts in March. -/
theorem exists_ofMarch (n : Int) : ∃ year d, InMarchYear year d ∧
    ofDayNumber n = ofMarch year d ∧ n = daysToMarch year + d - 719468 := by
  obtain ⟨e, r, hr, hn⟩ : ∃ (e : Int) (r : Nat), r ≤ 146096 ∧ n + 719468 = 146097 * e + r :=
    ⟨(n + 719468) / 146097, ((n + 719468) % 146097).toNat, by omega⟩
  have he : (n + 719468) / 146097 = e := by omega
  have hm : ((n + 719468) % 146097).toNat = r := by omega
  obtain ⟨a, b, c, d, ha, hb, hc, hd, hp⟩ := exists_eraParts hr
  have h4 : (100 * a + 4 * b + c) / 4 = 25 * a + b := by omega
  have h100 : (100 * a + 4 * b + c) / 100 = a := by omega
  have hdoy : r - (365 * (100 * a + 4 * b + c) + (100 * a + 4 * b + c) / 4
      - (100 * a + 4 * b + c) / 100) = d := by omega
  have hy := yearOfEra_parts ha hb hc hd hp
  refine ⟨(100 * a + 4 * b + c : Nat) + e * 400, d, ?_, ?_, ?_⟩
  · rcases hd with hd | ⟨hc3, hd, hl⟩
    · exact .inl hd
    · exact .inr ⟨hd, (isLeapYear_iff _).mpr (by omega)⟩
  · simp only [ofDayNumber, he, hm, hy, hdoy, ofMarch]
  · simp only [daysToMarch]; omega

theorem dayNumber_ofDayNumber (n : Int) : (ofDayNumber n).dayNumber = n := by
  obtain ⟨year, d, hd, h, hn⟩ := exists_ofMarch n
  rw [h, dayNumber_ofMarch year hd.le, hn]

/-- The date of a day number is one of the calendar as long as its year is. -/
theorem ofDayNumber_valid {n : Int} (h1 : firstYear ≤ (ofDayNumber n).year)
    (h2 : (ofDayNumber n).year ≤ lastYear) : (ofDayNumber n).isValid = true := by
  obtain ⟨year, d, hd, h, -⟩ := exists_ofMarch n
  rw [h] at h1 h2 ⊢
  have hm := ofMarch_month year hd.le
  have hday := ofMarch_day hd
  simp only [isValid, Bool.and_eq_true, decide_eq_true_eq]
  exact ⟨⟨⟨⟨⟨h1, h2⟩, hm.1⟩, hm.2⟩, hday.1⟩, hday.2⟩

/-! ## Order -/

/-- The earlier of two dates by year, month and day. -/
def Before (p q : CivilDate) : Prop :=
  p.year < q.year ∨ p.year = q.year ∧ (p.month < q.month ∨ p.month = q.month ∧ p.day < q.day)

theorem ofMarch_before {y z : Int} {d e : Nat} (hd : d ≤ 365) (he : e ≤ 365)
    (h : y < z ∨ y = z ∧ d < e) : (ofMarch y d).Before (ofMarch z e) := by
  have hi : (5 * d + 2) / 153 ≤ 11 ∧ (153 * ((5 * d + 2) / 153) + 2) / 5 ≤ d := by omega
  have hj : (5 * e + 2) / 153 ≤ 11 ∧ (153 * ((5 * e + 2) / 153) + 2) / 5 ≤ e := by omega
  have hle : d < e → (5 * d + 2) / 153 ≤ (5 * e + 2) / 153 := by omega
  simp only [Before, ofMarch]
  generalize (5 * d + 2) / 153 = i at *
  generalize (5 * e + 2) / 153 = j at *
  by_cases h1 : i < 10 <;> by_cases h2 : j < 10 <;> simp only [h1, h2, if_true, if_false] <;>
    split <;> split <;> rcases h with h | ⟨rfl, h⟩ <;> omega

theorem daysToMarch_succ {year : Int} {d : Nat} (h : InMarchYear year d) :
    daysToMarch year + d < daysToMarch (year + 1) := by
  simp only [daysToMarch]
  rcases h with h | ⟨rfl, hl⟩
  · omega
  · rw [isLeapYear_iff] at hl; omega

theorem daysToMarch_mono {y z : Int} (h : y ≤ z) : daysToMarch y ≤ daysToMarch z := by
  -- the leap years of both calendars as functions of the number of cycles of four years
  have hy : y / 100 = y / 4 / 25 := by omega
  have hz : z / 100 = z / 4 / 25 := by omega
  have hq : y / 4 ≤ z / 4 := by omega
  simp only [daysToMarch, hy, hz]
  omega

/-- Later days have later dates. -/
theorem before_ofDayNumber {m n : Int} (h : m < n) : (ofDayNumber m).Before (ofDayNumber n) := by
  obtain ⟨y, d, hd, hm, rfl⟩ := exists_ofMarch m
  obtain ⟨z, e, he, hn, rfl⟩ := exists_ofMarch n
  rw [hm, hn]
  refine ofMarch_before hd.le he.le ?_
  rcases Int.lt_trichotomy y z with hlt | rfl | hgt
  · exact .inl hlt
  · exact .inr ⟨rfl, by omega⟩
  · have h1 := daysToMarch_succ he
    have h2 := daysToMarch_mono (show z + 1 ≤ y by omega)
    omega

end CollectionSync.CivilDate
