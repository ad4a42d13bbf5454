import CollectionSync.Proofs.Store.Columns
import CollectionSync.Proofs.Url.Percent

/-! # Stored times sort like time

A table compares its columns of text byte by byte. The texts of stored times have one length and no
character beyond ASCII, so their bytes are in the order of their characters, and that is the order
of time down to the microsecond. -/

namespace CollectionSync

namespace Time

open CollectionSync.Span (padded)
open Text (utf8)

variable {a b t : Instant}

/-! ## Years of four digits -/

/-- A time has a year of four digits from the first second of year 0 to the last one of year
9999. -/
theorem storable_iff (h : t.nanos < 1000000000) : t.Storable ↔
    -62167219200 ≤ t.seconds ∧ t.seconds ≤ 253402300799 := by
  have hfirst : CivilDate.ofDayNumber (-719528) = ⟨0, 1, 1⟩ := by decide
  have hbefore : CivilDate.ofDayNumber (-719529) = ⟨-1, 12, 31⟩ := by decide
  have hlast : CivilDate.ofDayNumber 2932896 = ⟨9999, 12, 31⟩ := by decide
  have hafter : CivilDate.ofDayNumber 2932897 = ⟨10000, 1, 1⟩ := by decide
  -- later days have no earlier years
  have hmono : ∀ m n : Int, m ≤ n → (CivilDate.ofDayNumber m).year ≤
      (CivilDate.ofDayNumber n).year := by
    intro m n hmn
    rcases Int.lt_or_eq_of_le hmn with hlt | rfl
    · have := CivilDate.before_ofDayNumber hlt
      simp only [CivilDate.Before] at this
      omega
    · exact Int.le_refl _
  have hdate : t.fields.date = CivilDate.ofDayNumber (t.seconds / 86400) := Instant.fields_date t
  constructor
  · intro hs
    have h0 := hs.first
    have h1 := hs.last
    rw [hdate] at h0 h1
    refine ⟨Int.not_lt.mp fun hlt => ?_, Int.not_lt.mp fun hlt => ?_⟩
    · have := hmono (t.seconds / 86400) (-719529) (by omega)
      rw [hbefore] at this
      simp only at this
      omega
    · have := hmono 2932897 (t.seconds / 86400) (by omega)
      rw [hafter] at this
      simp only at this
      omega
  · rintro ⟨hlo, hhi⟩
    have h0 := hmono (-719528) (t.seconds / 86400) (by omega)
    have h1 := hmono (t.seconds / 86400) 2932896 (by omega)
    rw [hfirst] at h0
    rw [hlast] at h1
    exact ⟨by rw [hdate]; exact h0, by rw [hdate]; exact h1, .inl h⟩

/-! ## Bytes -/

/-- The order of characters of ASCII is the order of their bytes. -/
theorem map_byte_lt_iff {l m : List Char} (hl : ∀ c ∈ l, c.toNat < 0x80)
    (hm : ∀ c ∈ m, c.toNat < 0x80) :
    (l.map fun c => UInt8.ofNat c.toNat) < (m.map fun c => UInt8.ofNat c.toNat) ↔ l < m := by
  induction l generalizing m with
  | nil => cases m <;> simp
  | cons c l ih =>
    cases m with
    | nil => simp
    | cons d m =>
      have hc := hl c List.mem_cons_self
      have hd := hm d List.mem_cons_self
      have hlt : UInt8.ofNat c.toNat < UInt8.ofNat d.toNat ↔ c < d := by
        rw [UInt8.lt_iff_toNat_lt, Text.toNat_ofNat_of_lt (by omega),
          Text.toNat_ofNat_of_lt (by omega)]
        rfl
      have heq : UInt8.ofNat c.toNat = UInt8.ofNat d.toNat ↔ c = d := by
        refine ⟨fun h => ?_, fun h => h ▸ rfl⟩
        have h := congrArg UInt8.toNat h
        rw [Text.toNat_ofNat_of_lt (by omega), Text.toNat_ofNat_of_lt (by omega)] at h
        exact Char.toNat_inj.mp h
      rw [List.map_cons, List.map_cons, List.cons_lt_cons_iff, List.cons_lt_cons_iff, hlt, heq,
        ih (fun x hx => hl x (List.mem_cons_of_mem c hx)) fun x hx =>
          hm x (List.mem_cons_of_mem d hx)]

/-- The characters of a stored time. -/
theorem toList_microsText (h : t.Storable) : (microsText t).toList =
    padded 4 t.fields.date.year.toNat ++ '-' :: padded 2 t.fields.date.month ++
      '-' :: padded 2 t.fields.date.day ++ 'T' :: padded 2 t.fields.hour ++ ':' ::
        padded 2 t.fields.minute ++
      ':' :: padded 2 t.fields.second ++ '.' :: padded 6 (t.fields.nanos / 1000) ++ ['Z'] := by
  rw [microsText, String.toList_ofList, clockText, yearText_eq h.first h.last]

theorem lt_of_isDigit {c : Char} (h : Text.isDigit c = true) : c.toNat < 0x80 := by
  have hrange := Text.isDigit_iff_toNat.mp h
  omega

theorem ascii_microsText (h : t.Storable) : ∀ c ∈ (microsText t).toList, c.toNat < 0x80 := by
  have hdigits : ∀ {w n : Nat}, ∀ c ∈ padded w n, c.toNat < 0x80 :=
    fun c hc => lt_of_isDigit (isDigit_of_mem_padded hc)
  rw [toList_microsText h]
  intro c hc
  simp only [List.mem_append, List.mem_cons, List.not_mem_nil, or_false] at hc
  rcases hc with
    ((((((hc | rfl | hc) | rfl | hc) | rfl | hc) | rfl | hc) | rfl | hc) | rfl | hc) | rfl
  all_goals first | exact hdigits c hc | decide

theorem length_microsText (h : t.Storable) : (utf8 (microsText t).toList).length = 27 := by
  obtain ⟨hy, hmo, hd, hh, hmi, hs, hn⟩ := fields_fit h
  rw [Url.utf8_of_ascii (ascii_microsText h), List.length_map, toList_microsText h]
  simp only [List.length_append, List.length_cons, List.length_nil]
  rw [length_padded (by omega) hy, length_padded (by omega) hmo, length_padded (by omega) hd,
    length_padded (by omega) hh, length_padded (by omega) hmi, length_padded (by omega) hs,
    length_padded (by omega) hn]

end Time

namespace Row

open Text (utf8)

/-- Stored times have texts of one length, byte by byte the texts are in the order of the times cut
to microseconds, and each text is read back as its time cut to microseconds. -/
theorem stored_times_sort {a b : Instant} (ha : a.Storable) (hb : b.Storable) :
    (utf8 (Time.microsText a).toList).length = (utf8 (Time.microsText b).toList).length ∧
      (utf8 (Time.microsText a).toList < utf8 (Time.microsText b).toList ↔
        a.toMicros < b.toMicros) ∧
      readTime (Time.microsText a) = .ok a.toMicros := by
  refine ⟨?_, ?_, readTime_microsText ha⟩
  · rw [Time.length_microsText ha, Time.length_microsText hb]
  · rw [Url.utf8_of_ascii (Time.ascii_microsText ha), Url.utf8_of_ascii (Time.ascii_microsText hb),
      Time.map_byte_lt_iff (Time.ascii_microsText ha) (Time.ascii_microsText hb), ← String.lt_iff,
      Time.microsText_lt_iff ha hb]

/-- The last nanosecond of the leap day of year 0, and the microsecond that follows it. -/
theorem stored_times_sort_leapDay :
    let a : Instant := ⟨-62162035201, 999999999⟩
    let b : Instant := ⟨-62162035200, 0⟩
    (a.Storable ∧ b.Storable) ∧
      (Time.microsText a = "0000-02-29T23:59:59.999999Z" ∧
        Time.microsText b = "0000-03-01T00:00:00.000000Z") ∧
      (utf8 (Time.microsText a).toList).length = (utf8 (Time.microsText b).toList).length ∧
      utf8 (Time.microsText a).toList < utf8 (Time.microsText b).toList ∧
      readTime (Time.microsText a) = .ok ⟨-62162035201, 999999000⟩ := by
  intro a b
  have ha : a.Storable := (Time.storable_iff (by decide)).mpr (by decide)
  have hb : b.Storable := (Time.storable_iff (by decide)).mpr (by decide)
  obtain ⟨hlength, horder, hread⟩ := stored_times_sort ha hb
  exact ⟨⟨ha, hb⟩, by decide +kernel, hlength, horder.mpr (by decide),
    hread.trans (congrArg Except.ok (by decide))⟩

end Row

end CollectionSync
