import CollectionSync.Json.Parser
import CollectionSync.Json.Printer

/-! # Documents read back

`read?_render` says that a document of texts, lists and objects, written as text, is read back as it
was. A document is `Legible` if the reader finds it whatever follows it; lists and objects are so as
soon as their parts are. -/

namespace CollectionSync.Json

open Text (isHighSurrogate isLowSurrogate)

/-! ## Texts -/

theorem hexValue?_digitChar : ∀ d < 16, hexValue? (Nat.digitChar d) = some d := by decide

theorem unit?_control {n : Nat} (h : n < 32) :
    unit? '0' '0' (Nat.digitChar (n / 16)) (Nat.digitChar (n % 16)) = some n := by
  have h1 := hexValue?_digitChar (n / 16) (by omega)
  have h2 := hexValue?_digitChar (n % 16) (by omega)
  have h0 : hexValue? '0' = some 0 := rfl
  simp only [unit?, h0, h1, h2, Option.bind_eq_bind, Option.bind_some, Option.some.injEq]
  omega

/-- A character stands in a text behind a backslash, as four digits, or as it is. -/
theorem escape_cases (c : Char) :
    (∃ e, escape c = ['\\', e] ∧ e ≠ 'u' ∧ simpleEscape? e = some c) ∨
    (c.toNat < 32 ∧ escape c =
      ['\\', 'u', '0', '0', Nat.digitChar (c.toNat / 16), Nat.digitChar (c.toNat % 16)]) ∨
    (c ≠ '"' ∧ c ≠ '\\' ∧ ¬ c.toNat < 32 ∧ escape c = [c]) := by
  have hnamed : ∀ c ∈ ['"', '\\', '\x08', '\x0c', '\n', '\r', '\t'],
      ∃ e, escape c = ['\\', e] ∧ e ≠ 'u' ∧ simpleEscape? e = some c := by
    simp only [List.forall_mem_cons]
    refine ⟨⟨'"', ?_⟩, ⟨'\\', ?_⟩, ⟨'b', ?_⟩, ⟨'f', ?_⟩, ⟨'n', ?_⟩, ⟨'r', ?_⟩, ⟨'t', ?_⟩,
      fun _ h => nomatch h⟩ <;> decide
  by_cases hc : c ∈ ['"', '\\', '\x08', '\x0c', '\n', '\r', '\t']
  · exact .inl (hnamed c hc)
  · simp only [List.mem_cons, List.not_mem_nil, or_false, not_or] at hc
    obtain ⟨h1, h2, h3, h4, h5, h6, h7⟩ := hc
    by_cases h : c.toNat < 32
    · exact .inr (.inl ⟨h, by simp only [escape, h1, h2, h3, h4, h5, h6, h7, h, if_false, if_true]⟩)
    · exact .inr (.inr ⟨h1, h2, h, by
        simp only [escape, h1, h2, h3, h4, h5, h6, h7, h, if_false]⟩)

/-- Four digits that are no half of a pair stand for their character, whatever follows them. -/
theorem stringBody_unit {a b c d : Char} {n : Nat} (hn : unit? a b c d = some n) (h : n < 32)
    (done rest : List Char) : stringBody done ('\\' :: 'u' :: a :: b :: c :: d :: rest) =
      stringBody (Char.ofNat n :: done) rest := by
  have hhigh : isHighSurrogate n = false := by simp [isHighSurrogate]; omega
  have hlow : isLowSurrogate n = false := by simp [isLowSurrogate]; omega
  by_cases hp : ∃ e f g h r, rest = '\\' :: 'u' :: e :: f :: g :: h :: r
  · obtain ⟨e, f, g, h, r, rfl⟩ := hp
    rw [stringBody]
    simp [hn, hhigh, hlow]
  · rw [stringBody]
    · simp [hn, hhigh, hlow]
    · exact fun e f g h r he => hp ⟨e, f, g, h, r, he⟩

/-- Reading a character as it stands inside a text. -/
theorem stringBody_escape (c : Char) (done rest : List Char) :
    stringBody done (escape c ++ rest) = stringBody (c :: done) rest := by
  rcases escape_cases c with ⟨e, he, hu, hs⟩ | ⟨h, he⟩ | ⟨hq, hb, h, he⟩ <;> rw [he]
  · simp only [List.cons_append, List.nil_append]
    rw [stringBody]
    · rw [hs]
    all_goals intros; contradiction
  · simp only [List.cons_append, List.nil_append]
    rw [stringBody_unit (unit?_control h) h, Char.ofNat_toNat]
  · simp only [List.cons_append, List.nil_append]
    rw [stringBody]
    · rw [if_neg h]
    all_goals intros; contradiction

theorem stringBody_flatMap (cs done rest : List Char) :
    stringBody done (cs.flatMap escape ++ '"' :: rest) =
      some (String.ofList (done.reverse ++ cs), rest) := by
  induction cs generalizing done with
  | nil => simp [stringBody]
  | cons c cs ih =>
    rw [List.flatMap_cons, List.append_assoc, stringBody_escape, ih]
    simp

theorem stringBody_stringText (s : String) (rest : List Char) :
    ∃ body, stringText s ++ rest = '"' :: body ∧ stringBody [] body = some (s, rest) :=
  ⟨s.toList.flatMap escape ++ '"' :: rest, by simp [stringText], by
    rw [stringBody_flatMap]; simp⟩

/-! ## Documents -/

/-- A document that is found at the front of any text that starts with it. -/
structure Legible (j : Json) : Prop where
  opens : ∃ c cs, chars j = c :: cs ∧ (c = '"' ∨ c = '[' ∨ c = '\x7b')
  reads : ∀ fuel rest, (chars j).length < fuel →
    plain.value fuel (chars j ++ rest) = some (j, rest)

theorem skipGap_quote (s : List Char) : skipGap ('"' :: s) = '"' :: s := rfl

theorem Legible.skipGap {j : Json} (h : Legible j) (rest : List Char) :
    skipGap (chars j ++ rest) = chars j ++ rest := by
  obtain ⟨c, cs, hc, rfl | rfl | rfl⟩ := h.opens <;> rw [hc] <;> rfl

theorem Legible.ne_bracket {j : Json} (h : Legible j) (rest r : List Char) :
    chars j ++ rest ≠ ']' :: r := by
  obtain ⟨c, cs, hc, rfl | rfl | rfl⟩ := h.opens <;> rw [hc] <;> simp

theorem Legible.str (s : String) : Legible (.str s) where
  opens := ⟨'"', _, by simp only [chars, stringText, List.cons_append]; rfl, .inl rfl⟩
  reads := by
    intro fuel rest h
    cases fuel with
    | zero => omega
    | succ fuel =>
      obtain ⟨body, hb, hs⟩ := stringBody_stringText s rest
      simp only [chars, hb, Reader.value, skipGap_quote, plain_text, hs, Option.map_some, plain_str]

/-- Reading the rest of a list, after the items already read. -/
theorem items_itemChars : ∀ (l : List Json) (j : Json) (done : List Json) (fuel : Nat)
    (rest : List Char), (∀ k ∈ j :: l, Legible k) →
    (chars j).length + (itemChars l).length + 1 < fuel →
    plain.items fuel done (chars j ++ itemChars l ++ ']' :: rest) =
      some (done.reverse ++ j :: l, rest)
  | _, _, _, 0, _, _, hf => by omega
  | [], j, done, fuel + 1, rest, hl, hf => by
    have hj := (hl j List.mem_cons_self).reads fuel (']' :: rest) (by omega)
    simp only [itemChars, List.append_nil, Reader.items, hj]
    simp [skipGap, isGap]
  | k :: l, j, done, fuel + 1, rest, hl, hf => by
    simp only [itemChars, List.length_cons, List.length_append] at hf
    have hj := (hl j List.mem_cons_self).reads fuel
      (',' :: (chars k ++ itemChars l ++ ']' :: rest)) (by omega)
    have hk := items_itemChars l k (j :: done) fuel rest
      (fun x hx => hl x (List.mem_cons_of_mem j hx)) (by omega)
    have hsplit : chars j ++ itemChars (k :: l) ++ ']' :: rest =
        chars j ++ ',' :: (chars k ++ itemChars l ++ ']' :: rest) := by
      simp [itemChars]
    have hgap (s : List Char) : skipGap (',' :: s) = ',' :: s := rfl
    rw [hsplit, Reader.items, hj]
    simp only [hgap, hk]
    simp

theorem Legible.arr {l : List Json} (h : ∀ j ∈ l, Legible j) : Legible (.arr l) where
  opens := by
    cases l with
    | nil => exact ⟨'[', _, rfl, .inr (.inl rfl)⟩
    | cons => exact ⟨'[', _, by simp only [chars, List.cons_append]; rfl, .inr (.inl rfl)⟩
  reads := by
    intro fuel rest hf
    have hgap (s : List Char) : Json.skipGap ('[' :: s) = '[' :: s := rfl
    cases fuel with
    | zero => omega
    | succ fuel =>
      cases l with
      | nil => simp [chars, Reader.value, Json.skipGap, isGap]
      | cons j l =>
        have hj := h j List.mem_cons_self
        simp only [chars, List.length_cons, List.length_append, List.length_nil] at hf
        have hi := items_itemChars l j [] fuel rest h (by omega)
        have hsplit : chars (.arr (j :: l)) ++ rest =
            '[' :: (chars j ++ (itemChars l ++ ']' :: rest)) := by simp [chars]
        rw [List.append_assoc] at hi
        rw [hsplit, Reader.value, hgap]
        simp only [hj.skipGap]
        split
        · next hb => exact absurd hb (hj.ne_bracket _ _)
        · simp [hi]

/-- Reading the rest of an object, after the members already read. -/
theorem members_memberChars : ∀ (l : List (String × Json)) (name : String) (j : Json)
    (done : List (String × Json)) (fuel : Nat) (rest : List Char),
    (∀ m ∈ (name, j) :: l, Legible m.2) →
    (stringText name).length + (chars j).length + (memberChars l).length + 2 < fuel →
    plain.members fuel done
        (stringText name ++ ':' :: (chars j ++ (memberChars l ++ '\x7d' :: rest))) =
      some (done.reverse ++ (name, j) :: l, rest)
  | _, _, _, _, 0, _, _, hf => by omega
  | l, name, j, done, fuel + 1, rest, hl, hf => by
    have hcolon (s : List Char) : skipGap (':' :: s) = ':' :: s := rfl
    obtain ⟨body, hb, hs⟩ := stringBody_stringText name
      (':' :: (chars j ++ (memberChars l ++ '\x7d' :: rest)))
    have hj := (hl (name, j) List.mem_cons_self).reads fuel (memberChars l ++ '\x7d' :: rest)
      (show (chars j).length < fuel by omega)
    rw [hb, Reader.members]
    simp only [skipGap_quote, plain_text, hs, hcolon, hj]
    cases l with
    | nil => simp [memberChars, skipGap, isGap]
    | cons m l =>
      obtain ⟨name', k⟩ := m
      have hcomma (s : List Char) : skipGap (',' :: s) = ',' :: s := rfl
      have hlen : (stringText name).length ≥ 2 := by simp [stringText]
      simp only [memberChars, List.length_cons, List.length_append] at hf
      have hk := members_memberChars l name' k ((name, j) :: done) fuel rest
        (fun x hx => hl x (List.mem_cons_of_mem (name, j) hx)) (by omega)
      have hsplit : memberChars ((name', k) :: l) ++ '\x7d' :: rest =
          ',' :: (stringText name' ++ ':' :: (chars k ++ (memberChars l ++ '\x7d' :: rest))) := by
        simp [memberChars]
      rw [hsplit]
      simp only [hcomma, hk]
      simp

theorem Legible.obj {l : List (String × Json)} (h : ∀ m ∈ l, Legible m.2) : Legible (.obj l) where
  opens := by
    cases l with
    | nil => exact ⟨'\x7b', _, rfl, .inr (.inr rfl)⟩
    | cons => exact ⟨'\x7b', _, by simp only [chars, List.cons_append]; rfl, .inr (.inr rfl)⟩
  reads := by
    intro fuel rest hf
    have hgap (s : List Char) : Json.skipGap ('\x7b' :: s) = '\x7b' :: s := rfl
    cases fuel with
    | zero => omega
    | succ fuel =>
      cases l with
      | nil => simp [chars, Reader.value, Json.skipGap, isGap]
      | cons m l =>
        obtain ⟨name, j⟩ := m
        simp only [chars, List.length_cons, List.length_append, List.length_nil] at hf
        have hm := members_memberChars l name j [] fuel rest h (by omega)
        have hsplit : chars (.obj ((name, j) :: l)) ++ rest =
            '\x7b' :: (stringText name ++ ':' ::
              (chars j ++ (memberChars l ++ '\x7d' :: rest))) := by
          simp [chars]
        obtain ⟨body, hb, -⟩ := stringBody_stringText name
          (':' :: (chars j ++ (memberChars l ++ '\x7d' :: rest)))
        rw [hb] at hm hsplit
        rw [hsplit, Reader.value, hgap]
        simp only [skipGap_quote]
        split
        · next heq => cases heq
        · rw [hm]; rfl

/-- A written document is read back as it was. -/
theorem read?_render {j : Json} (h : Legible j) : read? (render j) = some j := by
  have := h.reads ((chars j).length + 1) [] (by omega)
  simp only [List.append_nil] at this
  simp [read?, Reader.read?, render, this, skipGap]

end CollectionSync.Json
