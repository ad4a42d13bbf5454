import CollectionSync.Proofs.Url.Percent
import CollectionSync.Url.Form

/-! # Values in a query

A value that was written into a query is read from it as it was, whatever its characters: what is
written holds none of the marks that part a query. -/

namespace CollectionSync.Url

open Text (utf8 utf8_append decodeLossy decodeLossy_utf8)

/-! ## What is written -/

/-- A byte of a value as it stands in a query. -/
def formByte (b : UInt8) : List Char :=
  if b = 0x20 then ['+']
  else if b < 0x80 && isFormSafe (Char.ofNat b.toNat) then [Char.ofNat b.toNat]
  else encodeByte b

theorem formEncode_eq (s : List Char) : formEncode s = (utf8 s).flatMap formByte := rfl

/-- The characters that are written. -/
def isFormMark (c : Char) : Bool := isFormSafe c || c == '+' || c == '%'

theorem isFormMark_of_mem {s : List Char} :
    ∀ c ∈ formEncode s, isFormMark c = true ∧ c.toNat < 0x80 := by
  intro c hc
  have hbyte : ∀ b, (formByte b).all (fun c => isFormMark c && decide (c.toNat < 0x80)) = true :=
    forall_byte (by decide +kernel)
  rw [formEncode_eq] at hc
  obtain ⟨b, -, hb⟩ := List.mem_flatMap.mp hc
  obtain ⟨hmark, hlt⟩ := Bool.and_eq_true_iff.mp (List.all_eq_true.mp (hbyte b) c hb)
  exact ⟨hmark, of_decide_eq_true hlt⟩

/-- A part of a URL that escapes none of the marks carries a value as it is written. -/
theorem not_mem_formEncode {c : Char} (hc : isFormMark c = false)
    (s : List Char) : c ∉ formEncode s := by
  intro h
  rw [(isFormMark_of_mem c h).1] at hc
  cases hc

/-! ## What is read -/

/-- In a query a `+` stands for a space. -/
def unplus (b : UInt8) : UInt8 := if b = 0x2B then 0x20 else b

theorem percentDecode_formByte (b : UInt8) (s : List UInt8) :
    percentDecode ((utf8 (formByte b)).map unplus ++ s) = b :: percentDecode s := by
  have hbyte : ∀ b, (utf8 (formByte b)).map unplus = [b] ∧ b ≠ 0x25 ∨
      (utf8 (formByte b)).map unplus = escape b := forall_byte (by decide +kernel)
  rcases hbyte b with ⟨h, hb⟩ | h
  · rw [h, List.singleton_append, percentDecode_of_ne hb]
  · rw [h, percentDecode_escape_append]

/-- A value is read as it was written. -/
theorem formDecode_formEncode (s : List Char) : formDecode (formEncode s) = s := by
  have hbytes : ∀ bs : List UInt8,
      percentDecode ((utf8 (bs.flatMap formByte)).map unplus) = bs := by
    intro bs
    induction bs with
    | nil => exact percentDecode_nil
    | cons b bs ih =>
      rw [List.flatMap_cons, utf8_append, List.map_append, percentDecode_formByte, ih]
  calc formDecode (formEncode s)
      = decodeLossy (percentDecode ((utf8 ((utf8 s).flatMap formByte)).map unplus)) := rfl
    _ = s := by rw [hbytes, decodeLossy_utf8]

/-! ## Pairs -/

theorem splitOn_of_not_mem {c : Char} {s : List Char} (h : c ∉ s) : splitOn c s = [s] := by
  induction s with
  | nil => rfl
  | cons d s ih =>
    have hd : d ≠ c := Ne.symm (List.ne_of_not_mem_cons h)
    rw [splitOn, if_neg hd, ih (List.not_mem_of_not_mem_cons h)]

theorem nameAndValue_append {name : List Char} (h : '=' ∉ name) (value : List Char) :
    nameAndValue (name ++ '=' :: value) = (name, value) := by
  have hname : ∀ c ∈ name, (c != '=') = true := fun c hc => bne_iff_ne.mpr fun heq => h (heq ▸ hc)
  rw [nameAndValue, List.takeWhile_append_of_pos hname, List.dropWhile_append_of_pos hname,
    List.takeWhile_cons_of_neg (by decide), List.dropWhile_cons_of_neg (by decide), List.append_nil]
  rfl

/-- A query of one pair. -/
theorem queryPairs_pair (name value : List Char) :
    queryPairs (formEncode name ++ '=' :: formEncode value) = [(name, value)] := by
  have hamp : '&' ∉ formEncode name ++ '=' :: formEncode value := by
    rw [List.mem_append, List.mem_cons]
    rintro (h | h | h)
    · exact not_mem_formEncode (by decide) name h
    · cases h
    · exact not_mem_formEncode (by decide) value h
  have hne : (formEncode name ++ '=' :: formEncode value).isEmpty = false :=
    List.isEmpty_eq_false_iff.mpr (List.append_ne_nil_of_right_ne_nil _ (List.cons_ne_nil _ _))
  rw [queryPairs, splitOn_of_not_mem hamp]
  simp only [List.filter_cons, hne, Bool.not_false, if_true, List.filter_nil, List.map_cons,
    List.map_nil, nameAndValue_append (not_mem_formEncode (by decide) name), formDecode_formEncode]

end CollectionSync.Url
