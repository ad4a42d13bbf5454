import CollectionSync.Dict

/-! # Dictionaries by their entries

A key has at most one entry, so a lookup is a question about membership. An insertion under a key
that is there changes its entry in place, and any other insertion adds one. -/

namespace CollectionSync.Dict

variable {κ β γ : Type} [Key κ]

theorem text_inj {j k : κ} : Key.text j = Key.text k ↔ j = k :=
  ⟨Key.text_injective, congrArg Key.text⟩

/-- Entries in ascending order of their keys' texts. -/
abbrev Ordered (l : List (κ × β)) : Prop := l.Pairwise fun a b => Key.text a.1 < Key.text b.1

theorem Ordered.ne {a : κ × β} {l : List (κ × β)} (h : Ordered (a :: l)) {e : κ × β} (he : e ∈ l) :
    e.1 ≠ a.1 := by
  intro heq
  have hlt := (List.pairwise_cons.mp h).1 e he
  rw [heq] at hlt
  exact String.lt_irrefl _ hlt

/-! ## Lookups -/

theorem lookup_eq_some_iff {k : κ} {v : β} {l : List (κ × β)} (h : Ordered l) :
    lookup k l = some v ↔ (k, v) ∈ l := by
  induction l with
  | nil => simp [lookup]
  | cons a l ih =>
    obtain ⟨j, w⟩ := a
    have hl := (List.pairwise_cons.mp h).2
    simp only [lookup, List.mem_cons, Prod.mk.injEq]
    by_cases hk : j = k
    · subst hk
      rw [if_pos rfl, Option.some.injEq]
      refine ⟨fun hv => .inl ⟨rfl, hv.symm⟩, ?_⟩
      rintro (⟨-, hv⟩ | hmem)
      · exact hv.symm
      · exact (h.ne hmem rfl).elim
    · rw [if_neg (fun ht => hk (text_inj.mp ht)), ih hl]
      exact ⟨.inr, fun h => h.resolve_left fun he => hk he.1.symm⟩

theorem get?_eq_some_iff {d : Dict κ β} {k : κ} {v : β} :
    d.get? k = some v ↔ (k, v) ∈ d.entries := lookup_eq_some_iff d.ordered

theorem get?_eq_none_iff {d : Dict κ β} {k : κ} : d.get? k = none ↔ ∀ e ∈ d.entries, e.1 ≠ k := by
  constructor
  · rintro h ⟨j, w⟩ he rfl
    rw [get?_eq_some_iff.mpr he] at h
    cases h
  · intro h
    cases hv : d.get? k with
    | none => rfl
    | some v => exact absurd rfl (h (k, v) (get?_eq_some_iff.mp hv))

theorem ext_get? {d e : Dict κ β} (h : ∀ k, d.get? k = e.get? k) : d = e := by
  have hnodup : ∀ d : Dict κ β, d.entries.Nodup := by
    intro d
    refine List.Pairwise.imp ?_ d.ordered
    rintro a b hlt rfl
    exact String.lt_irrefl _ hlt
  have hmem : ∀ x, x ∈ d.entries ↔ x ∈ e.entries := by
    rintro ⟨k, v⟩
    rw [← get?_eq_some_iff, ← get?_eq_some_iff, h]
  have hperm := (List.perm_ext_iff_of_nodup (hnodup d) (hnodup e)).mpr hmem
  refine ext_entries (hperm.eq_of_pairwise (fun a b _ _ hab hba => ?_) d.ordered e.ordered)
  exact absurd hba (String.lt_asymm hab)

/-! ## Insertions -/

/-- Under a new key an insertion adds an entry. -/
theorem perm_place {k : κ} (v : β) {l : List (κ × β)} (h : ∀ e ∈ l, e.1 ≠ k) :
    (place k v l).Perm ((k, v) :: l) := by
  induction l with
  | nil => exact .refl _
  | cons a l ih =>
    have ha : ¬ Key.text k = Key.text a.1 :=
      fun h' => h a List.mem_cons_self (text_inj.mp h').symm
    simp only [place, ha, if_false]
    split
    · exact .refl _
    · exact ((ih fun e he => h e (List.mem_cons_of_mem a he)).cons a).trans (.swap _ _ _)

theorem perm_insert {d : Dict κ β} {k : κ} (v : β) (h : d.get? k = none) :
    (d.insert k v).entries.Perm ((k, v) :: d.entries) :=
  perm_place v (get?_eq_none_iff.mp h)

/-- Behind all other keys an insertion adds its entry at the end. -/
theorem place_of_lt {k : κ} {v : β} {l : List (κ × β)} (h : ∀ e ∈ l, Key.text e.1 < Key.text k) :
    place k v l = l ++ [(k, v)] := by
  induction l with
  | nil => rfl
  | cons a l ih =>
    have ha := h a List.mem_cons_self
    have h1 : ¬ Key.text k < Key.text a.1 := fun h' => String.lt_asymm ha h'
    have h2 : ¬ Key.text k = Key.text a.1 := fun h' => String.lt_irrefl _ (h' ▸ ha)
    simp [place, h1, h2, ih fun e he => h e (List.mem_cons_of_mem a he)]

theorem entries_foldl_insert (l : List (κ × β)) (d : Dict κ β) (h : Ordered (d.entries ++ l)) :
    (l.foldl (fun d e => d.insert e.1 e.2) d).entries = d.entries ++ l := by
  induction l generalizing d with
  | nil => simp
  | cons a l ih =>
    have hlt : ∀ e ∈ d.entries, Key.text e.1 < Key.text a.1 := fun e he =>
      (List.pairwise_append.mp h).2.2 e he a List.mem_cons_self
    have hd : (d.insert a.1 a.2).entries = d.entries ++ [a] := place_of_lt hlt
    rw [List.foldl_cons, ih, hd]
    · simp
    · rw [hd]; simpa using h

/-- The entries of a dictionary make that dictionary. -/
theorem ofList_entries (d : Dict κ β) : ofList d.entries = d :=
  ext_entries (by simpa [ofList, empty] using entries_foldl_insert d.entries empty d.ordered)

/-! ## Keys that can be told apart -/

variable [DecidableEq κ]

/-- The entries of a key are the one that a lookup finds. -/
theorem filter_key {l : List (κ × β)} (h : Ordered l) (k : κ) :
    l.filter (fun e => e.1 = k) = ((lookup k l).map fun v => (k, v)).toList := by
  induction l with
  | nil => rfl
  | cons a l ih =>
    obtain ⟨j, w⟩ := a
    have hl := (List.pairwise_cons.mp h).2
    simp only [lookup]
    by_cases hk : j = k
    · subst hk
      have hnil : l.filter (fun e => decide (e.1 = j)) = [] :=
        List.filter_eq_nil_iff.mpr fun e he => by simpa using h.ne he
      simp [hnil]
    · rw [if_neg (fun ht => hk (text_inj.mp ht)), ← ih hl]
      simp [hk]

theorem filter_entries (d : Dict κ β) (k : κ) :
    d.entries.filter (fun e => e.1 = k) = ((d.get? k).map fun v => (k, v)).toList :=
  filter_key d.ordered k

/-- Under a key that is there, an insertion changes its entry. -/
theorem place_of_lookup {k : κ} {v w : β} {l : List (κ × β)} (h : Ordered l)
    (hk : lookup k l = some w) :
    place k v l = l.map fun e => (e.1, if e.1 = k then v else e.2) := by
  induction l with
  | nil => simp [lookup] at hk
  | cons a l ih =>
    obtain ⟨j, u⟩ := a
    obtain ⟨hlt, hl⟩ := List.pairwise_cons.mp h
    by_cases hj : j = k
    · subst hj
      have hrest : l.map (fun e => (e.1, if e.1 = j then v else e.2)) = l := by
        refine (List.map_congr_left fun e he => ?_).trans (List.map_id l)
        rw [if_neg (h.ne he)]
        rfl
      rw [List.map_cons, hrest]
      rw [place, if_neg (String.lt_irrefl _), if_pos rfl, if_pos rfl]
    · have hmem : lookup k l = some w := by
        rw [lookup, if_neg (fun ht => hj (text_inj.mp ht))] at hk
        exact hk
      have hgt := hlt _ ((lookup_eq_some_iff hl).mp hmem)
      have h1 : ¬ Key.text k < Key.text j := fun h' => String.lt_asymm hgt h'
      have h2 : ¬ Key.text k = Key.text j := fun h' => hj (text_inj.mp h').symm
      simp [place, h1, h2, hj, ih hl hmem]

theorem insert_of_get? {d : Dict κ β} {k : κ} {v w : β} (h : d.get? k = some w) :
    d.insert k v = d.map fun j u => if j = k then v else u :=
  ext_entries (place_of_lookup d.ordered h)

/-- An insertion of what is there already changes nothing. -/
theorem insert_self {d : Dict κ β} {k : κ} {v : β} (h : d.get? k = some v) : d.insert k v = d := by
  rw [insert_of_get? h]
  refine ext_entries ((List.map_congr_left fun e he => ?_).trans (List.map_id d.entries))
  by_cases hk : e.1 = k
  · have : d.get? k = some e.2 := get?_eq_some_iff.mpr (hk ▸ he)
    rw [h, Option.some.injEq] at this
    simp [hk, this, Prod.ext_iff]
  · simp [hk]

end CollectionSync.Dict
