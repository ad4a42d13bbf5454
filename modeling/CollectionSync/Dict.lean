/-! Dictionaries kept in the order of their keys' texts. A dictionary is determined by its lookups,
so two dictionaries with the same content are equal. -/

namespace CollectionSync

/-- Keys that are ordered, and told apart, by a text. -/
class Key (κ : Type) where
  text : κ → String
  text_injective : ∀ {a b : κ}, text a = text b → a = b

instance : Key String := ⟨id, id⟩

/-- Entries in ascending order of their keys' texts. -/
structure Dict (κ β : Type) [Key κ] where
  entries : List (κ × β)
  ordered : entries.Pairwise fun a b => Key.text a.1 < Key.text b.1

namespace Dict

variable {κ β γ : Type} [Key κ]

theorem ext_entries {d e : Dict κ β} (h : d.entries = e.entries) : d = e := by
  cases d; cases e; simp_all

instance [DecidableEq κ] [DecidableEq β] : DecidableEq (Dict κ β) := fun d e =>
  decidable_of_iff (d.entries = e.entries) ⟨ext_entries, fun h => h ▸ rfl⟩

def empty : Dict κ β := ⟨[], .nil⟩

instance : Inhabited (Dict κ β) := ⟨empty⟩

/-- The value of the entry whose key has the text of `k`. -/
def lookup (k : κ) : List (κ × β) → Option β
  | [] => none
  | (j, v) :: rest => if Key.text j = Key.text k then some v else lookup k rest

def get? (d : Dict κ β) (k : κ) : Option β := lookup k d.entries

/-- Puts an entry at its place, over the entry with the same key. -/
def place (k : κ) (v : β) : List (κ × β) → List (κ × β)
  | [] => [(k, v)]
  | (j, w) :: rest =>
    if Key.text k < Key.text j then (k, v) :: (j, w) :: rest
    else if Key.text k = Key.text j then (k, v) :: rest
    else (j, w) :: place k v rest

theorem mem_place {k : κ} {v : β} {e : κ × β} {l : List (κ × β)} (h : e ∈ place k v l) :
    e = (k, v) ∨ e ∈ l := by
  induction l with
  | nil => simpa [place] using h
  | cons a l ih =>
    simp only [place] at h
    split at h
    · simpa using h
    · split at h
      · simp only [List.mem_cons] at h
        exact h.imp_right fun h => List.mem_cons_of_mem a h
      · rcases List.mem_cons.1 h with h | h
        · exact .inr (h ▸ List.mem_cons_self)
        · exact (ih h).imp_right fun h => List.mem_cons_of_mem a h

theorem place_ordered (k : κ) (v : β) {l : List (κ × β)}
    (h : l.Pairwise fun a b => Key.text a.1 < Key.text b.1) :
    (place k v l).Pairwise fun a b => Key.text a.1 < Key.text b.1 := by
  induction l with
  | nil => simp [place]
  | cons a l ih =>
    obtain ⟨ha, hl⟩ := List.pairwise_cons.1 h
    simp only [place]
    split
    next hlt =>
      refine List.pairwise_cons.2 ⟨fun e he => ?_, h⟩
      rcases List.mem_cons.1 he with rfl | he
      · exact hlt
      · exact String.lt_trans hlt (ha e he)
    next hlt =>
      split
      next heq => exact List.pairwise_cons.2 ⟨fun e he => by rw [heq]; exact ha e he, hl⟩
      next hne =>
        refine List.pairwise_cons.2 ⟨fun e he => ?_, ih hl⟩
        rcases mem_place he with rfl | he
        · have : Key.text a.1 < Key.text k := by grind
          exact this
        · exact ha e he

def insert (d : Dict κ β) (k : κ) (v : β) : Dict κ β :=
  ⟨place k v d.entries, place_ordered k v d.ordered⟩

theorem lookup_place (k j : κ) (v : β) {l : List (κ × β)}
    (h : l.Pairwise fun a b => Key.text a.1 < Key.text b.1) :
    lookup j (place k v l) = if Key.text k = Key.text j then some v else lookup j l := by
  induction l with
  | nil => simp [place, lookup]
  | cons a l ih =>
    obtain ⟨ha, hl⟩ := List.pairwise_cons.1 h
    simp only [place]
    split
    · simp [lookup]
    · split
      next heq => by_cases hk : Key.text k = Key.text j <;> simp_all [lookup]
      next hne =>
        simp only [lookup, ih hl]
        by_cases hk : Key.text k = Key.text j
        · have : ¬ Key.text a.1 = Key.text j := fun h => hne (hk.trans h.symm)
          simp [hk, this]
        · simp [hk]

/-- A lookup after an insertion finds the new value under its key and nothing else new. -/
theorem get?_insert (d : Dict κ β) (k j : κ) (v : β) :
    (d.insert k v).get? j = if Key.text k = Key.text j then some v else d.get? j :=
  lookup_place k j v d.ordered

@[simp] theorem get?_insert_self (d : Dict κ β) (k : κ) (v : β) :
    (d.insert k v).get? k = some v := by
  simp [get?_insert]

theorem get?_insert_of_ne (d : Dict κ β) {k j : κ} (v : β) (h : k ≠ j) :
    (d.insert k v).get? j = d.get? j := by
  have hk : Key.text k ≠ Key.text j := fun e => h (Key.text_injective e)
  simp [get?_insert, hk]

/-- Inserts each entry in turn, a later one over an earlier one with its key. -/
def ofList (l : List (κ × β)) : Dict κ β := l.foldl (fun d e => d.insert e.1 e.2) empty

def erase (d : Dict κ β) (k : κ) : Dict κ β :=
  ⟨d.entries.filter fun e => Key.text e.1 != Key.text k, d.ordered.filter _⟩

/-- Changes each value under the eyes of its key. -/
def map (d : Dict κ β) (f : κ → β → γ) : Dict κ γ :=
  ⟨d.entries.map fun e => (e.1, f e.1 e.2), d.ordered.map _ fun _ _ h => h⟩

def size (d : Dict κ β) : Nat := d.entries.length

theorem lookup_map (f : κ → β → γ) (k : κ) (l : List (κ × β)) :
    lookup k (l.map fun e => (e.1, f e.1 e.2)) = (lookup k l).map (f k) := by
  induction l with
  | nil => rfl
  | cons a l ih =>
    simp only [List.map_cons, lookup, ih]
    split
    next h => rw [Key.text_injective h, Option.map_some]
    · rfl

theorem get?_map (d : Dict κ β) (f : κ → β → γ) (k : κ) : (d.map f).get? k = (d.get? k).map (f k) :=
  lookup_map f k d.entries

end Dict

end CollectionSync
