import CollectionSync.Proofs.Text.Utf8
import CollectionSync.Url.Percent

/-! # Percent encoding and its undoing

A `%` is undone where two hexadecimal digits follow it, and stays everywhere else. So bytes that are
escaped come back, escaping a second time changes nothing, and bytes without an escape are left as
they are. -/

namespace CollectionSync.Url

open Text (utf8 utf8_append)

/-! ## Bytes -/

theorem forall_byte {P : UInt8 → Prop} (h : ∀ n < 256, P (UInt8.ofNat n)) (b : UInt8) : P b := by
  have hb := h b.toNat b.toNat_lt_size
  rwa [UInt8.ofNat_toNat] at hb

theorem toNat_ofNat_ascii {n : Nat} (h : n < 0x80) : (Char.ofNat n).toNat = n := by
  revert n
  decide

theorem utf8_singleton {c : Char} (h : c.toNat < 0x80) : utf8 [c] = [UInt8.ofNat c.toNat] := by
  rw [Text.utf8_cons, Text.utf8EncodeChar_ascii h]
  rfl

theorem utf8_of_ascii {s : List Char} (h : ∀ c ∈ s, c.toNat < 0x80) :
    utf8 s = s.map fun c => UInt8.ofNat c.toNat := by
  induction s with
  | nil => rfl
  | cons c s ih =>
    have hs := ih fun d hd => h d (List.mem_cons_of_mem c hd)
    rw [← List.singleton_append, utf8_append, hs, utf8_singleton (h c List.mem_cons_self)]
    rfl

/-! ## Digits -/

/-- The digit of a number below 16, as a byte. -/
def digitByte (n : Nat) : UInt8 := UInt8.ofNat (hexDigit n).toNat

theorem hexValue?_digitByte {n : Nat} (h : n < 16) : hexValue? (digitByte n) = some n := by
  revert n
  decide

theorem hexDigit_lt {n : Nat} (h : n < 16) : (hexDigit n).toNat < 0x80 := by
  revert n
  decide

/-- A byte that is escaped, as bytes. -/
def escape (b : UInt8) : List UInt8 := [0x25, digitByte (b.toNat / 16), digitByte (b.toNat % 16)]

theorem utf8_encodeByte (b : UInt8) : utf8 (encodeByte b) = escape b := by
  have hb : b.toNat < 256 := b.toNat_lt_size
  have hascii : ∀ c ∈ encodeByte b, c.toNat < 0x80 := by
    intro c hc
    simp only [encodeByte, List.mem_cons, List.not_mem_nil, or_false] at hc
    rcases hc with rfl | rfl | rfl
    · decide
    · exact hexDigit_lt (by omega)
    · exact hexDigit_lt (by omega)
  rw [utf8_of_ascii hascii]
  rfl

/-! ## Undoing it -/

/-- Whether the bytes begin with two digits, so that a `%` in front of them would be undone. -/
def startsWithDigits (s : List UInt8) : Prop :=
  ∃ h l rest, s = h :: l :: rest ∧ (hexValue? h).isSome ∧ (hexValue? l).isSome

section

variable {b h l : UInt8} {m n : Nat} {s t : List UInt8}

@[simp] theorem percentDecode_nil : percentDecode [] = [] := by
  rw [percentDecode.eq_def]

theorem percentDecode_escape (hh : hexValue? h = some m) (hl : hexValue? l = some n) :
    percentDecode (0x25 :: h :: l :: s) = UInt8.ofNat (m * 16 + n) :: percentDecode s := by
  rw [percentDecode.eq_def]
  simp only [hh, hl]

theorem percentDecode_of_ne (hb : b ≠ 0x25) : percentDecode (b :: s) = b :: percentDecode s := by
  rw [percentDecode.eq_def]
  split
  · next heq => cases heq
  · next heq => exact absurd (List.cons.inj heq).1 hb
  · next heq => rw [(List.cons.inj heq).1, (List.cons.inj heq).2]

theorem percentDecode_of_stays (hs : ¬ startsWithDigits s) :
    percentDecode (0x25 :: s) = 0x25 :: percentDecode s := by
  rw [percentDecode.eq_def]
  split
  · next heq => cases heq
  · next h l rest heq =>
    cases (List.cons.inj heq).2
    split
    · next m n hh hl => exact absurd ⟨h, l, rest, rfl, by rw [hh]; rfl, by rw [hl]; rfl⟩ hs
    · rfl
  · next heq => rw [← (List.cons.inj heq).1, ← (List.cons.inj heq).2]

end

/-- Bytes are read from the front: an escape as one byte, any other byte as itself. -/
theorem percentInduction {P : List UInt8 → Prop} (nil : P [])
    (escaped : ∀ h l m n s, hexValue? h = some m → hexValue? l = some n → P s →
      P (0x25 :: h :: l :: s))
    (plain : ∀ b s, (b = 0x25 → ¬ startsWithDigits s) → P s → P (b :: s))
    (s : List UInt8) : P s := by
  induction hn : s.length using Nat.strongRecOn generalizing s with
  | ind n ih =>
    cases s with
    | nil => exact nil
    | cons b s =>
      have hs : P s := ih s.length (by rw [← hn]; exact Nat.lt_succ_self _) s rfl
      by_cases hb : b = 0x25 ∧ startsWithDigits s
      · obtain ⟨rfl, h, l, rest, rfl, hh, hl⟩ := hb
        obtain ⟨m, hm⟩ := Option.isSome_iff_exists.mp hh
        obtain ⟨k, hk⟩ := Option.isSome_iff_exists.mp hl
        have hrest := ih rest.length (by rw [← hn]; simp only [List.length_cons]; omega) rest rfl
        exact escaped h l m k rest hm hk hrest
      · exact plain b s (fun h₁ h₂ => hb ⟨h₁, h₂⟩) hs

theorem percentDecode_of_plain {b : UInt8} {s : List UInt8} (h : b = 0x25 → ¬ startsWithDigits s) :
    percentDecode (b :: s) = b :: percentDecode s := by
  by_cases hb : b = 0x25
  · rw [hb]
    exact percentDecode_of_stays (h hb)
  · exact percentDecode_of_ne hb

/-! ## Escapes come back -/

theorem percentDecode_escape_append (b : UInt8) (s : List UInt8) :
    percentDecode (escape b ++ s) = b :: percentDecode s := by
  have hb : b.toNat < 256 := b.toNat_lt_size
  have hh := hexValue?_digitByte (show b.toNat / 16 < 16 by omega)
  have hl := hexValue?_digitByte (show b.toNat % 16 < 16 by omega)
  rw [escape, List.cons_append, List.cons_append, List.singleton_append, percentDecode_escape hh hl,
    Nat.div_add_mod' b.toNat 16, UInt8.ofNat_toNat]

/-- Escaping some of the bytes makes no difference to what comes back, as long as `%` and the digits
behind it are left alone. -/
theorem percentDecode_flatMap {e : UInt8 → List UInt8} (he : ∀ b, e b = [b] ∨ e b = escape b)
    (hkept : ∀ b, b = 0x25 ∨ (hexValue? b).isSome → e b = [b]) (s : List UInt8) :
    percentDecode (s.flatMap e) = percentDecode s := by
  have hfirst : ∀ {h : UInt8} {rest s}, s.flatMap e = h :: rest → (hexValue? h).isSome →
      ∃ s', s = h :: s' ∧ s'.flatMap e = rest := by
    intro h rest s hs hh
    cases s with
    | nil => cases hs
    | cons b s =>
      rw [List.flatMap_cons] at hs
      rcases he b with hb | hb
      · rw [hb] at hs
        obtain ⟨rfl, hrest⟩ := List.cons.inj hs
        exact ⟨s, rfl, hrest⟩
      · rw [hb] at hs
        obtain ⟨rfl, -⟩ := List.cons.inj hs
        exact absurd hh (by decide)
  have hstarts : ∀ s, startsWithDigits (s.flatMap e) → startsWithDigits s := by
    rintro s ⟨h, l, rest, hs, hh, hl⟩
    obtain ⟨s', rfl, hs'⟩ := hfirst hs hh
    obtain ⟨s'', rfl, -⟩ := hfirst hs' hl
    exact ⟨h, l, s'', rfl, hh, hl⟩
  induction s using percentInduction with
  | nil => rfl
  | escaped h l m n s hh hl ih =>
    have heh := hkept h (.inr (by rw [hh]; rfl))
    have hel := hkept l (.inr (by rw [hl]; rfl))
    simp only [List.flatMap_cons, hkept 0x25 (.inl rfl), heh, hel, List.singleton_append]
    rw [percentDecode_escape hh hl, percentDecode_escape hh hl, ih]
  | plain b s h ih =>
    rw [List.flatMap_cons, percentDecode_of_plain h]
    rcases he b with hb | hb
    · rw [hb, List.singleton_append, percentDecode_of_plain fun h' => mt (hstarts s) (h h'), ih]
    · rw [hb, percentDecode_escape_append, ih]

/-- What a part of a URL escapes, as bytes. -/
def escapeBytes (escaped : Char → Bool) (b : UInt8) : List UInt8 :=
  if (0x80 ≤ b || escaped (Char.ofNat b.toNat)) = true then escape b else [b]

theorem utf8_percentEncode (escaped : Char → Bool) (s : List Char) :
    utf8 (percentEncode escaped s) = (utf8 s).flatMap (escapeBytes escaped) := by
  unfold percentEncode
  induction utf8 s with
  | nil => rfl
  | cons b bs ih =>
    rw [List.flatMap_cons, List.flatMap_cons, utf8_append, ih]
    congr 1
    simp only [escapeBytes]
    split
    · exact utf8_encodeByte b
    · next h =>
      have hb : b.toNat < 0x80 := by
        have : ¬ (0x80 : UInt8) ≤ b := fun hle => h (by simp [hle])
        rw [UInt8.le_iff_toNat_le] at this
        exact Nat.lt_of_not_le this
      have htoNat : (Char.ofNat b.toNat).toNat = b.toNat := toNat_ofNat_ascii hb
      rw [utf8_singleton (by rwa [htoNat]), htoNat, UInt8.ofNat_toNat]

/-- Characters that are not escaped stand for themselves. -/
theorem percentEncode_of_plain {escaped : Char → Bool} {s : List Char}
    (h : ∀ c ∈ s, c.toNat < 0x80 ∧ escaped c = false) : percentEncode escaped s = s := by
  unfold percentEncode
  rw [utf8_of_ascii fun c hc => (h c hc).1, List.flatMap_map]
  induction s with
  | nil => rfl
  | cons c s ih =>
    obtain ⟨hlt, hescaped⟩ := h c List.mem_cons_self
    have hnat : (UInt8.ofNat c.toNat).toNat = c.toNat := Text.toNat_ofNat_of_lt (by omega)
    have hascii : decide ((0x80 : UInt8) ≤ UInt8.ofNat c.toNat) = false := by
      rw [decide_eq_false_iff_not, UInt8.le_iff_toNat_le, hnat]
      exact Nat.not_le_of_lt hlt
    rw [List.flatMap_cons, ih fun d hd => h d (List.mem_cons_of_mem c hd)]
    simp only [hnat, Char.ofNat_toNat, hescaped, hascii, Bool.or_false]
    rfl

/-- What a path escapes comes back as it was, escapes that were there before too. -/
theorem percentDecode_percentEncode_path (s : List Char) :
    percentDecode (utf8 (percentEncode escapedInPath s)) = percentDecode (utf8 s) := by
  rw [utf8_percentEncode]
  refine percentDecode_flatMap (fun b => ?_) (fun b => ?_) (utf8 s)
  · unfold escapeBytes
    split
    · exact .inr rfl
    · exact .inl rfl
  · have hkept : ∀ b : UInt8, b = 0x25 ∨ (hexValue? b).isSome →
        (0x80 ≤ b || escapedInPath (Char.ofNat b.toNat)) = false := forall_byte (by decide +kernel)
    intro hb
    rw [escapeBytes, hkept b hb]
    rfl

/-! ## Bytes without escapes -/

theorem length_percentDecode_le (s : List UInt8) : (percentDecode s).length ≤ s.length := by
  induction s using percentInduction with
  | nil => exact Nat.le_of_eq (congrArg List.length percentDecode_nil)
  | escaped h l m n s hh hl ih =>
    rw [percentDecode_escape hh hl]
    simp only [List.length_cons]
    omega
  | plain b s h ih =>
    rw [percentDecode_of_plain h]
    exact Nat.succ_le_succ ih

/-- Bytes of which none is lost have no escape. -/
theorem percentDecode_eq_self {s : List UInt8} (hs : s.length ≤ (percentDecode s).length) :
    percentDecode s = s := by
  induction s using percentInduction with
  | nil => exact percentDecode_nil
  | escaped h l m n s hh hl ih =>
    rw [percentDecode_escape hh hl] at hs
    have hle := length_percentDecode_le s
    simp only [List.length_cons] at hs
    omega
  | plain b s h ih =>
    rw [percentDecode_of_plain h] at hs ⊢
    rw [ih (Nat.le_of_succ_le_succ hs)]

/-- No escape reaches over a slash. -/
theorem percentDecode_append_slash (s t : List UInt8) :
    percentDecode (s ++ 0x2F :: t) = percentDecode s ++ 0x2F :: percentDecode t := by
  have hstarts : ∀ s, startsWithDigits (s ++ 0x2F :: t) → startsWithDigits s := by
    rintro s ⟨h, l, rest, hs, hh, hl⟩
    rcases s with _ | ⟨b, _ | ⟨c, s⟩⟩
    · cases hs
      exact absurd hh (by decide)
    · cases hs
      exact absurd hl (by decide)
    · cases hs
      exact ⟨h, l, s, rfl, hh, hl⟩
  induction s using percentInduction with
  | nil => rw [percentDecode_nil, List.nil_append, percentDecode_of_ne (by decide)]; rfl
  | escaped h l m n s hh hl ih =>
    rw [List.cons_append, List.cons_append, List.cons_append, percentDecode_escape hh hl, ih,
      percentDecode_escape hh hl]
    rfl
  | plain b s h ih =>
    rw [List.cons_append, percentDecode_of_plain fun h' => mt (hstarts s) (h h'), ih,
      percentDecode_of_plain h]
    rfl

/-! ## Escapes in a text -/

/-- A hexadecimal digit. -/
def isHex (c : Char) : Bool := c.toNat < 0x80 && (hexValue? (UInt8.ofNat c.toNat)).isSome

theorem exists_of_utf8_eq_cons {s : List Char} {b : UInt8} {bs : List UInt8} (h : utf8 s = b :: bs)
    (hb : (hexValue? b).isSome) : ∃ c s', s = c :: s' ∧ isHex c = true ∧ utf8 s' = bs := by
  have hlt : ∀ b : UInt8, (hexValue? b).isSome → b.toNat < 0x80 := forall_byte (by decide +kernel)
  cases s with
  | nil => cases h
  | cons c s =>
    rw [Text.utf8_cons] at h
    by_cases hc : c.toNat < 0x80
    · rw [Text.utf8EncodeChar_ascii hc] at h
      obtain ⟨rfl, hs⟩ := List.cons.inj h
      exact ⟨c, s, rfl, by rw [isHex, decide_eq_true hc, hb]; rfl, hs⟩
    · obtain ⟨rest, hrest⟩ : ∃ rest, String.utf8EncodeChar c = b :: rest := by
        obtain ⟨a, as, ha⟩ := List.exists_cons_of_ne_nil (Text.utf8EncodeChar_ne_nil c)
        rw [ha] at h
        exact ⟨as, by rw [ha, (List.cons.inj h).1]⟩
      have hmem : b ∈ String.utf8EncodeChar c := by rw [hrest]; exact List.mem_cons_self
      have hge := Text.le_of_mem_utf8EncodeChar (Nat.le_of_not_lt hc) b hmem
      exact absurd (hlt b hb) (Nat.not_lt_of_le hge)

theorem startsWithDigits_utf8 {s : List Char} :
    startsWithDigits (utf8 s) ↔ ∃ h l rest, s = h :: l :: rest ∧ isHex h = true ∧
    isHex l = true := by
  constructor
  · rintro ⟨h, l, rest, hs, hh, hl⟩
    obtain ⟨c, s, rfl, hc, hs⟩ := exists_of_utf8_eq_cons hs hh
    obtain ⟨d, s, rfl, hd, -⟩ := exists_of_utf8_eq_cons hs hl
    exact ⟨c, d, s, rfl, hc, hd⟩
  · rintro ⟨h, l, rest, rfl, hh, hl⟩
    obtain ⟨hh, hh'⟩ := Bool.and_eq_true_iff.mp hh
    obtain ⟨hl, hl'⟩ := Bool.and_eq_true_iff.mp hl
    refine ⟨_, _, utf8 rest, ?_, hh', hl'⟩
    rw [Text.utf8_cons, Text.utf8_cons, Text.utf8EncodeChar_ascii (of_decide_eq_true hh),
      Text.utf8EncodeChar_ascii (of_decide_eq_true hl)]
    rfl

theorem percentDecode_append {s : List UInt8} (hs : 0x25 ∉ s) (t : List UInt8) :
    percentDecode (s ++ t) = s ++ percentDecode t := by
  induction s with
  | nil => rfl
  | cons b s ih =>
    rw [List.cons_append, percentDecode_of_ne (Ne.symm (List.ne_of_not_mem_cons hs)),
      ih (List.not_mem_of_not_mem_cons hs)]
    rfl

theorem percent_not_mem {c : Char} (hc : c ≠ '%') : 0x25 ∉ String.utf8EncodeChar c := by
  intro hmem
  by_cases hlt : c.toNat < 0x80
  · rw [Text.utf8EncodeChar_ascii hlt, List.mem_singleton] at hmem
    have hnat := congrArg UInt8.toNat hmem
    rw [Text.toNat_ofNat_of_lt (by omega)] at hnat
    exact hc (by rw [← Char.ofNat_toNat c, ← hnat]; rfl)
  · exact absurd (Text.le_of_mem_utf8EncodeChar (Nat.le_of_not_lt hlt) _ hmem) (by decide)

theorem percentDecode_utf8_cons_iff {c : Char} {s : List Char} :
    percentDecode (utf8 (c :: s)) = utf8 (c :: s) ↔
      (c = '%' → ¬ startsWithDigits (utf8 s)) ∧ percentDecode (utf8 s) = utf8 s := by
  by_cases hc : c = '%'
  · have hutf8 : utf8 (c :: s) = 0x25 :: utf8 s := by rw [hc]; rfl
    rw [hutf8]
    by_cases hs : startsWithDigits (utf8 s)
    · refine iff_of_false (fun heq => ?_) fun h => h.1 hc hs
      obtain ⟨h, l, rest, hrest, hh, hl⟩ := hs
      obtain ⟨m, hm⟩ := Option.isSome_iff_exists.mp hh
      obtain ⟨n, hn⟩ := Option.isSome_iff_exists.mp hl
      have hlen := congrArg List.length heq
      have hle := length_percentDecode_le rest
      rw [hrest, percentDecode_escape hm hn] at hlen
      simp only [List.length_cons] at hlen
      omega
    · rw [percentDecode_of_stays hs, List.cons_inj_right]
      exact ⟨fun h => ⟨fun _ => hs, h⟩, And.right⟩
  · rw [Text.utf8_cons, percentDecode_append (percent_not_mem hc), List.append_right_inj]
    exact ⟨fun h => ⟨fun hc' => absurd hc' hc, h⟩, And.right⟩

/-- Undoing escapes leaves a text alone just if no `%` in it is followed by two digits. -/
theorem percentDecode_utf8_eq_self_iff {s : List Char} : percentDecode (utf8 s) = utf8 s ↔
    ∀ h l rest, '%' :: h :: l :: rest <:+ s → ¬ (isHex h = true ∧ isHex l = true) := by
  induction s with
  | nil =>
    refine iff_of_true percentDecode_nil fun h l rest hsuffix => ?_
    cases List.suffix_nil.mp hsuffix
  | cons c s ih =>
    rw [percentDecode_utf8_cons_iff, ih, startsWithDigits_utf8]
    constructor
    · rintro ⟨hfirst, hrest⟩ h l rest hsuffix hhex
      rcases List.suffix_cons_iff.mp hsuffix with heq | hsuffix
      · obtain ⟨rfl, rfl⟩ := List.cons.inj heq
        exact hfirst rfl ⟨h, l, rest, rfl, hhex⟩
      · exact hrest h l rest hsuffix hhex
    · intro hall
      refine ⟨?_, fun h l rest hsuffix => hall h l rest (hsuffix.trans (List.suffix_cons c s))⟩
      rintro rfl ⟨h, l, rest, rfl, hhex⟩
      exact hall h l rest (List.suffix_refl _) hhex

end CollectionSync.Url
