import CollectionSync.RunId

/-! # Run identifiers as text

`RunId.read?_text` says that the text of a run identifier is read back as that identifier, so that
the text can stand for it in a column. -/

namespace CollectionSync.RunId

/-! ## Digits -/

theorem length_hexDigits (n v : Nat) : (hexDigits n v).length = n := by
  induction n generalizing v with
  | zero => rfl
  | succ n ih => simp [hexDigits, ih]

theorem exists_of_mem_hexDigits {n v : Nat} {c : Char} (h : c ∈ hexDigits n v) :
    ∃ d < 16, c = Nat.digitChar d := by
  induction n generalizing v with
  | zero => simp [hexDigits] at h
  | succ n ih =>
    simp only [hexDigits, List.mem_append, List.mem_singleton] at h
    rcases h with h | rfl
    · exact ih h
    · exact ⟨v % 16, Nat.mod_lt _ (by decide), rfl⟩

theorem digitValue_digitChar : ∀ d < 16, digitValue (Nat.digitChar d) = some d := by decide

theorem digitChar_ne_hyphen : ∀ d < 16, Nat.digitChar d ≠ '-' := by decide

/-- No digit starts the mark in front of a run identifier that is written as a name. -/
theorem toLower_digitChar_ne : ∀ d < 16, (Nat.digitChar d).toLower ≠ 'u' := by decide

/-- The digits of a number that they suffice for are read as that number. -/
theorem mapM_hexDigits {n v : Nat} (h : v < Nat.pow 16 n) :
    ∃ ds, (hexDigits n v).mapM digitValue = some ds ∧
      ds.foldl (fun n d => n * 16 + d) 0 = v := by
  induction n generalizing v with
  | zero => exact ⟨[], rfl, by simp only [Nat.pow_eq, Nat.pow_zero] at h; simp; omega⟩
  | succ n ih =>
    have hv : v / 16 < Nat.pow 16 n := by
      simp only [Nat.pow_eq, Nat.pow_succ] at h ⊢
      omega
    obtain ⟨ds, hds, hval⟩ := ih hv
    refine ⟨ds ++ [v % 16], ?_, ?_⟩
    · simp [hexDigits, List.mapM_append, hds, digitValue_digitChar _ (Nat.mod_lt v (by decide))]
    · rw [List.foldl_append, hval]
      simp only [List.foldl_cons, List.foldl_nil]
      omega

/-! ## Groups -/

/-- The number of digits in groups of the given lengths. -/
def total (ns : List Nat) : Nat := ns.foldr (· + ·) 0

theorem length_drop_of_total {n : Nat} {ns : List Nat} {s : List Char}
    (h : s.length = total (n :: ns)) : n ≤ s.length ∧ (s.drop n).length = total ns := by
  have hcons : total (n :: ns) = n + total ns := rfl
  rw [List.length_drop]
  omega

theorem flatten_split {ns : List Nat} {s : List Char} (h : s.length = total ns) :
    (split ns s).flatten = s := by
  induction ns generalizing s with
  | nil => rw [List.length_eq_zero_iff.mp h]; rfl
  | cons n ns ih => simp [split, ih (length_drop_of_total h).2]

theorem map_length_split {ns : List Nat} {s : List Char} (h : s.length = total ns) :
    (split ns s).map List.length = ns := by
  induction ns generalizing s with
  | nil => rfl
  | cons n ns ih =>
    obtain ⟨hn, hd⟩ := length_drop_of_total h
    simp [split, ih hd, Nat.min_eq_left hn]

theorem atHyphens_append {g : List Char} (hg : '-' ∉ g) (rest : List Char) :
    atHyphens (g ++ '-' :: rest) = g :: atHyphens rest := by
  induction g with
  | nil => simp [atHyphens]
  | cons c g ih =>
    have hc : c ≠ '-' := fun h => hg (h ▸ List.mem_cons_self)
    have hg' : '-' ∉ g := fun h => hg (List.mem_cons_of_mem c h)
    simp [atHyphens, hc, ih hg']

theorem atHyphens_of_not_mem {g : List Char} (hg : '-' ∉ g) : atHyphens g = [g] := by
  induction g with
  | nil => rfl
  | cons c g ih =>
    have hc : c ≠ '-' := fun h => hg (h ▸ List.mem_cons_self)
    have hg' : '-' ∉ g := fun h => hg (List.mem_cons_of_mem c h)
    simp [atHyphens, hc, ih hg']

theorem intercalate_cons_cons (sep g h : List Char) (gs : List (List Char)) :
    sep.intercalate (g :: h :: gs) = g ++ sep ++ sep.intercalate (h :: gs) := by
  simp [List.intercalate, List.intersperse]

/-- Groups without hyphens come apart where they were joined. -/
theorem atHyphens_intercalate {gs : List (List Char)} (hne : gs ≠ [])
    (hg : ∀ g ∈ gs, '-' ∉ g) : atHyphens (['-'].intercalate gs) = gs := by
  induction gs with
  | nil => exact absurd rfl hne
  | cons g gs ih =>
    cases gs with
    | nil =>
      have : ['-'].intercalate [g] = g := by simp [List.intercalate]
      rw [this, atHyphens_of_not_mem (hg g List.mem_cons_self)]
    | cons h gs =>
      have hrest := ih (List.cons_ne_nil h gs) fun x hx => hg x (List.mem_cons_of_mem g hx)
      rw [intercalate_cons_cons, List.append_assoc, List.singleton_append,
        atHyphens_append (hg g List.mem_cons_self), hrest]

/-! ## The text -/

theorem length_intercalate {gs : List (List Char)} (hne : gs ≠ []) :
    (['-'].intercalate gs).length + 1 = total (gs.map List.length) + gs.length := by
  induction gs with
  | nil => exact absurd rfl hne
  | cons g gs ih =>
    have hcons : total ((g :: gs).map List.length) =
        g.length + total (gs.map List.length) := rfl
    cases gs with
    | nil => simp [List.intercalate, total]
    | cons h gs =>
      have hrest := ih (List.cons_ne_nil h gs)
      rw [intercalate_cons_cons, List.length_append, List.length_append, List.length_singleton,
        hcons, List.length_cons]
      omega

theorem split_groups_ne_nil (s : List Char) : split groups s ≠ [] := by simp [groups, split]

/-- The text of a run identifier is read back as that identifier. -/
theorem read?_text (id : RunId) : read? id.text = some id := by
  have hlen : (hexDigits 32 id.bits.toNat).length = total groups := length_hexDigits _ _
  have hmem : ∀ g ∈ split groups (hexDigits 32 id.bits.toNat), ∀ c ∈ g, ∃ d < 16,
      c = Nat.digitChar d := by
    intro g hg c hc
    apply exists_of_mem_hexDigits (n := 32) (v := id.bits.toNat)
    rw [← flatten_split hlen]
    exact List.mem_flatten_of_mem hg hc
  have hparts := atHyphens_intercalate (split_groups_ne_nil (hexDigits 32 id.bits.toNat))
    fun g hg hc => by
      obtain ⟨d, hd, h⟩ := hmem g hg '-' hc
      exact digitChar_ne_hyphen d hd h.symm
  obtain ⟨ds, hds, hval⟩ := mapM_hexDigits (n := 32) (v := id.bits.toNat) id.bits.isLt
  have hread : ofHyphenated? (['-'].intercalate (split groups (hexDigits 32 id.bits.toNat)))
      = some id := by
    simp only [ofHyphenated?, hparts, map_length_split hlen, if_true,
      flatten_split hlen]
    simp [ofDigits?, length_hexDigits, hds, hval]
  have h36 : (['-'].intercalate (split groups (hexDigits 32 id.bits.toNat))).length = 36 := by
    have := length_intercalate (split_groups_ne_nil (hexDigits 32 id.bits.toNat))
    rw [map_length_split hlen] at this
    simpa [groups, split, total] using this
  -- the first character is a digit, so the text does not start with the mark
  have hmark : ((['-'].intercalate (split groups (hexDigits 32 id.bits.toNat))).take
      nameMark.toList.length).map Char.toLower ≠ nameMark.toList := by
    intro h
    cases hx : hexDigits 32 id.bits.toNat with
    | nil => rw [hx] at hlen; simp [groups, total] at hlen
    | cons c l =>
      obtain ⟨d, hd, rfl⟩ := exists_of_mem_hexDigits (hx ▸ List.mem_cons_self : c ∈ _)
      have hhead := congrArg List.head? h
      rw [hx] at hhead
      simp [groups, split, nameMark] at hhead
      exact toLower_digitChar_ne d hd hhead
  simp only [read?, text, String.toList_ofList, h36]
  rw [if_neg (by decide), if_neg (by simp), if_neg hmark, hread]

theorem text_injective {a b : RunId} (h : a.text = b.text) : a = b := by
  have := congrArg read? h
  simpa [read?_text] using this

theorem text_inj {a b : RunId} : a.text = b.text ↔ a = b :=
  ⟨text_injective, congrArg text⟩

end CollectionSync.RunId
