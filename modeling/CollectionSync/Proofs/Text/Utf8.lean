import CollectionSync.Text.Utf8

/-! # Characters as bytes and back

Whatever bytes follow, the bytes of a character are read as that character. So bytes that were made
of characters give them back, and no two texts have the same bytes. -/

namespace CollectionSync.Text

/-! ## The bytes of one character -/

section

variable {a b c d : UInt8} {n : Nat} (s : List UInt8)

theorem toNat_ofNat_of_lt (h : n < 256) : (UInt8.ofNat n).toNat = n := by
  simp only [UInt8.toNat_ofNat']
  omega

theorem isContinuation_iff : isContinuation b = true ↔ 0x80 ≤ b.toNat ∧ b.toNat < 0xC0 := by
  simp [isContinuation, UInt8.le_iff_toNat_le, UInt8.lt_iff_toNat_lt]

theorem decodeLossy_one (ha : a.toNat < 0x80) : decodeLossy
    (a :: s) = Char.ofNat a.toNat :: decodeLossy s := by
  have h₁ : a < 0x80 := UInt8.lt_iff_toNat_lt.mpr ha
  rw [decodeLossy.eq_def]
  simp only [h₁, if_true]

theorem not_lt_of_le_toNat {m : UInt8} (h : m.toNat ≤ a.toNat) : ¬ a < m := by
  rw [UInt8.lt_iff_toNat_lt]
  omega

theorem decodeLossy_two (ha : 0xC2 ≤ a.toNat) (ha' : a.toNat < 0xE0)
    (hb : isContinuation b = true) :
    decodeLossy (a :: b :: s) = Char.ofNat (extend (a.toNat - 0xC0) b) :: decodeLossy s := by
  have h₁ : ¬ a < 0x80 := not_lt_of_le_toNat (Nat.le_trans (by decide) ha)
  have h₂ : 0xC2 ≤ a ∧ a < 0xE0 := ⟨UInt8.le_iff_toNat_le.mpr ha, UInt8.lt_iff_toNat_lt.mpr ha'⟩
  rw [decodeLossy.eq_def]
  simp only [h₁, h₂, hb, and_self, if_true, if_false]

theorem decodeLossy_three (ha : 0xE0 ≤ a.toNat) (ha' : a.toNat < 0xF0) (hb : isSecond a b = true)
    (hc : isContinuation c = true) :
    decodeLossy (a :: b :: c :: s) =
      Char.ofNat (extend (extend (a.toNat - 0xE0) b) c) :: decodeLossy s := by
  have h₁ : ¬ a < 0x80 := not_lt_of_le_toNat (Nat.le_trans (by decide) ha)
  have h₂ : ¬ (0xC2 ≤ a ∧ a < 0xE0) := fun h => not_lt_of_le_toNat (Nat.le_trans (by decide) ha) h.2
  have h₃ : 0xE0 ≤ a ∧ a < 0xF0 := ⟨UInt8.le_iff_toNat_le.mpr ha, UInt8.lt_iff_toNat_lt.mpr ha'⟩
  rw [decodeLossy.eq_def]
  simp only [h₁, h₂, h₃, hb, hc, and_self, if_true, if_false]

theorem decodeLossy_four (ha : 0xF0 ≤ a.toNat) (ha' : a.toNat < 0xF5) (hb : isSecond a b = true)
    (hc : isContinuation c = true) (hd : isContinuation d = true) :
    decodeLossy (a :: b :: c :: d :: s) =
      Char.ofNat (extend (extend (extend (a.toNat - 0xF0) b) c) d) :: decodeLossy s := by
  have h₁ : ¬ a < 0x80 := not_lt_of_le_toNat (Nat.le_trans (by decide) ha)
  have h₂ : ¬ (0xC2 ≤ a ∧ a < 0xE0) := fun h => not_lt_of_le_toNat (Nat.le_trans (by decide) ha) h.2
  have h₃ : ¬ (0xE0 ≤ a ∧ a < 0xF0) := fun h => not_lt_of_le_toNat (Nat.le_trans (by decide) ha) h.2
  have h₄ : 0xF0 ≤ a ∧ a < 0xF5 := ⟨UInt8.le_iff_toNat_le.mpr ha, UInt8.lt_iff_toNat_lt.mpr ha'⟩
  rw [decodeLossy.eq_def]
  simp only [h₁, h₂, h₃, h₄, hb, hc, hd, and_self, if_true, if_false]

/-- A second byte goes with its first one where the two together are neither too small nor a
surrogate nor beyond the last character. -/
theorem isSecond_of (hb : isContinuation b = true) (h₁ : a.toNat = 0xE0 → 0xA0 ≤ b.toNat)
    (h₂ : a.toNat = 0xED → b.toNat < 0xA0) (h₃ : a.toNat = 0xF0 → 0x90 ≤ b.toNat)
    (h₄ : a.toNat = 0xF4 → b.toNat < 0x90) : isSecond a b = true := by
  obtain ⟨hlow, hhigh⟩ := isContinuation_iff.mp hb
  have hrange : ∀ low high : UInt8, low.toNat ≤ b.toNat → b.toNat < high.toNat →
      (decide (low ≤ b) && decide (b < high)) = true := fun low high h h' => by
    rw [Bool.and_eq_true, decide_eq_true_eq, decide_eq_true_eq]
    exact ⟨UInt8.le_iff_toNat_le.mpr h, UInt8.lt_iff_toNat_lt.mpr h'⟩
  unfold isSecond
  split
  · next h => exact hrange 0xA0 0xC0 (h₁ (congrArg UInt8.toNat h)) hhigh
  · split
    · next h => exact hrange 0x80 0xA0 hlow (h₂ (congrArg UInt8.toNat h))
    · split
      · next h => exact hrange 0x90 0xC0 (h₃ (congrArg UInt8.toNat h)) hhigh
      · split
        · next h => exact hrange 0x80 0x90 hlow (h₄ (congrArg UInt8.toNat h))
        · exact hb

end

/-! ## Texts -/

theorem extend_ofNat (m : Nat) {n : Nat} (h : n < 0x40) :
    extend m (UInt8.ofNat (n + 0x80)) = m * 64 + n := by
  unfold extend
  rw [toNat_ofNat_of_lt (by omega), Nat.add_sub_cancel]

theorem isContinuation_ofNat {n : Nat} (h : n < 0x40) :
    isContinuation (UInt8.ofNat (n + 0x80)) = true := by
  rw [isContinuation_iff, toNat_ofNat_of_lt (by omega)]
  omega

theorem decodeLossy_utf8EncodeChar (c : Char) (s : List UInt8) :
    decodeLossy (String.utf8EncodeChar c ++ s) = c :: decodeLossy s := by
  have hvalid : c.toNat < 0xD800 ∨ 0xDFFF < c.toNat ∧ c.toNat < 0x110000 := c.valid
  have hchar : ∀ n, n = c.toNat → Char.ofNat n = c := fun n h => h ▸ Char.ofNat_toNat c
  have hmod : ∀ k, k % 0x40 < 0x40 := fun k => Nat.mod_lt k (by decide)
  simp only [String.utf8EncodeChar, show c.val.toNat = c.toNat from rfl]
  generalize c.toNat = n at hvalid hchar ⊢
  split
  · next h =>
    have ha := toNat_ofNat_of_lt (show n < 256 by omega)
    rw [List.singleton_append, decodeLossy_one s (by omega), hchar _ ha]
  · split
    · next h₁ h₂ =>
      have ha := toNat_ofNat_of_lt (show n / 64 % 0x20 + 0xC0 < 256 by omega)
      simp only [List.cons_append, List.nil_append]
      rw [decodeLossy_two s (by omega) (by omega) (isContinuation_ofNat (hmod _)),
        extend_ofNat _ (hmod _), ha, hchar _ (by omega)]
    · split
      · next h₁ h₂ h₃ =>
        have ha := toNat_ofNat_of_lt (show n / 4096 % 0x10 + 0xE0 < 256 by omega)
        have hb := toNat_ofNat_of_lt (show n / 64 % 0x40 + 0x80 < 256 by omega)
        have hsecond : isSecond (UInt8.ofNat (n / 4096 % 0x10 + 0xE0))
            (UInt8.ofNat (n / 64 % 0x40 + 0x80)) = true :=
          isSecond_of (isContinuation_ofNat (hmod _)) (by omega) (by omega) (by omega) (by omega)
        simp only [List.cons_append, List.nil_append]
        rw [decodeLossy_three s (by omega) (by omega) hsecond (isContinuation_ofNat (hmod _)),
          extend_ofNat _ (hmod _), extend_ofNat _ (hmod _), ha, hchar _ (by omega)]
      · next h₁ h₂ h₃ =>
        have ha := toNat_ofNat_of_lt (show n / 262144 % 0x08 + 0xF0 < 256 by omega)
        have hb := toNat_ofNat_of_lt (show n / 4096 % 0x40 + 0x80 < 256 by omega)
        have hsecond : isSecond (UInt8.ofNat (n / 262144 % 0x08 + 0xF0))
            (UInt8.ofNat (n / 4096 % 0x40 + 0x80)) = true :=
          isSecond_of (isContinuation_ofNat (hmod _)) (by omega) (by omega) (by omega) (by omega)
        simp only [List.cons_append, List.nil_append]
        rw [decodeLossy_four s (by omega) (by omega) hsecond (isContinuation_ofNat (hmod _))
          (isContinuation_ofNat (hmod _)), extend_ofNat _ (hmod _), extend_ofNat _ (hmod _),
          extend_ofNat _ (hmod _), ha, hchar _ (by omega)]

@[simp] theorem utf8_nil : utf8 [] = [] := rfl

@[simp] theorem utf8_append (s t : List Char) : utf8 (s ++ t) = utf8 s ++ utf8 t :=
  List.flatMap_append

theorem utf8_cons (c : Char) (s : List Char) : utf8
    (c :: s) = String.utf8EncodeChar c ++ utf8 s := rfl

theorem utf8EncodeChar_ascii {c : Char} (h : c.toNat < 0x80) :
    String.utf8EncodeChar c = [UInt8.ofNat c.toNat] :=
  if_pos (Nat.le_of_lt_succ h)

/-- A character beyond ASCII has no byte of ASCII. -/
theorem le_of_mem_utf8EncodeChar {c : Char} (h : 0x80 ≤ c.toNat) :
    ∀ b ∈ String.utf8EncodeChar c, 0x80 ≤ b.toNat := by
  have hbyte : ∀ m, 0x80 ≤ m → m < 256 → 0x80 ≤ (UInt8.ofNat m).toNat := by
    intro m hm hlt
    rwa [toNat_ofNat_of_lt hlt]
  intro b hb
  simp only [String.utf8EncodeChar, show c.val.toNat = c.toNat from rfl] at hb
  generalize c.toNat = n at h hb
  split at hb
  · omega
  · split at hb
    · simp only [List.mem_cons, List.not_mem_nil, or_false] at hb
      rcases hb with rfl | rfl <;> exact hbyte _ (by omega) (by omega)
    · split at hb
      · simp only [List.mem_cons, List.not_mem_nil, or_false] at hb
        rcases hb with rfl | rfl | rfl <;> exact hbyte _ (by omega) (by omega)
      · simp only [List.mem_cons, List.not_mem_nil, or_false] at hb
        rcases hb with rfl | rfl | rfl | rfl <;> exact hbyte _ (by omega) (by omega)

theorem utf8EncodeChar_ne_nil (c : Char) : String.utf8EncodeChar c ≠ [] := by
  intro h
  have hread := decodeLossy_utf8EncodeChar c []
  rw [h, List.append_nil, decodeLossy.eq_def] at hread
  cases hread

/-- A text cannot lose a character without losing a byte. -/
theorem eq_of_sublist_of_length_utf8 {s t : List Char} (h : s.Sublist t) :
    (utf8 s).length ≤ (utf8 t).length ∧ ((utf8 t).length ≤ (utf8 s).length → s = t) := by
  induction h with
  | slnil => exact ⟨Nat.le_refl 0, fun _ => rfl⟩
  | cons c _ ih =>
    have hc := List.length_pos_iff.mpr (utf8EncodeChar_ne_nil c)
    rw [utf8_cons, List.length_append]
    exact ⟨by omega, fun hle => absurd hle (by omega)⟩
  | cons_cons c _ ih =>
    rw [utf8_cons, utf8_cons, List.length_append, List.length_append]
    exact ⟨by omega, fun hle => by rw [ih.2 (by omega)]⟩

/-- The bytes of a text are read as that text, whatever follows them. -/
theorem decodeLossy_utf8_append (s : List Char) (bytes : List UInt8) :
    decodeLossy (utf8 s ++ bytes) = s ++ decodeLossy bytes := by
  induction s with
  | nil => rfl
  | cons c s ih =>
    rw [utf8_cons, List.append_assoc, decodeLossy_utf8EncodeChar, ih, List.cons_append]

theorem decodeLossy_utf8 (s : List Char) : decodeLossy (utf8 s) = s := by
  have hread := decodeLossy_utf8_append s []
  rwa [List.append_nil, decodeLossy.eq_def [], List.append_nil] at hread

theorem utf8_injective {s t : List Char} (h : utf8 s = utf8 t) : s = t := by
  rw [← decodeLossy_utf8 s, h, decodeLossy_utf8]

/-- Bytes that start with those of a text are those of a text that starts with it. -/
theorem prefix_of_utf8_prefix {s t : List Char} (h : utf8 s <+: utf8 t) : s <+: t := by
  obtain ⟨bytes, hbytes⟩ := h
  refine ⟨decodeLossy bytes, ?_⟩
  rw [← decodeLossy_utf8_append, hbytes, decodeLossy_utf8]

end CollectionSync.Text
