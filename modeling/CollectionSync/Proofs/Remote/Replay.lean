import CollectionSync.Remote.ChangeSet

/-! # What a feed says of each file

A feed is a history of files. Folding it into a set of changes leaves one entry of each file, its
last one, which is all that the history means to whoever has the files. -/

namespace CollectionSync

/-! ## The history of files -/

/-- The files after a change: an upsert sets the file, a removal deletes it. -/
def Change.apply (files : RemoteId → Option Item) : Change → RemoteId → Option Item
  | .upsert item => fun id => if id = item.id then some item else files id
  | .removed gone => fun id => if id = gone then none else files id

/-- The files after all changes, the first of them first. -/
def replay (changes : List Change) (files : RemoteId → Option Item) : RemoteId → Option Item :=
  changes.foldl Change.apply files

theorem Change.apply_eq (files : RemoteId → Option Item) (change : Change) (id : RemoteId) :
    apply files change id = if id = change.id then change.item? else files id := by
  cases change <;> rfl

namespace Feed

/-- What a feed says last of a file. -/
def last? (id : RemoteId) : List Change → Option Change
  | [] => none
  | change :: rest => (last? id rest).or (if change.id = id then some change else none)

/-- Only the last entry of a file counts. -/
theorem replay_eq (changes : List Change) (files : RemoteId → Option Item) (id : RemoteId) :
    replay changes files id = (last? id changes).elim (files id) Change.item? := by
  induction changes generalizing files with
  | nil => rfl
  | cons change rest ih =>
    have hrest : replay (change :: rest) files id =
        (last? id rest).elim (Change.apply files change id) Change.item? := ih _
    rw [hrest, Change.apply_eq, last?]
    cases last? id rest with
    | some later => rfl
    | none =>
      by_cases hid : change.id = id
      · rw [if_pos hid.symm, if_pos hid]
        rfl
      · rw [if_neg fun h => hid h.symm, if_neg hid]
        rfl

theorem last?_eq_some {id : RemoteId} {changes : List Change} {change : Change}
    (h : last? id changes = some change) : change ∈ changes ∧ change.id = id := by
  induction changes with
  | nil => cases h
  | cons first rest ih =>
    rcases Option.or_eq_some_iff.mp h with h | ⟨-, h⟩
    · exact ⟨List.mem_cons_of_mem first (ih h).1, (ih h).2⟩
    · obtain ⟨hid, heq⟩ := Option.ite_none_right_eq_some.mp h
      cases heq
      exact ⟨List.mem_cons_self, hid⟩

theorem last?_eq_none {id : RemoteId} {changes : List Change} (h : last? id changes = none) :
    ∀ change ∈ changes, change.id ≠ id := by
  induction changes with
  | nil => exact nofun
  | cons first rest ih =>
    obtain ⟨hrest, hfirst⟩ := Option.or_eq_none_iff.mp h
    refine List.forall_mem_cons.mpr ⟨fun hid => ?_, ih hrest⟩
    rw [if_pos hid] at hfirst
    cases hfirst

/-- Where no file is mentioned twice, an entry is the last of its file. -/
theorem last?_of_mem {changes : List Change} (hnodup : (changes.map Change.id).Nodup)
    {change : Change} (hmem : change ∈ changes) : last? change.id changes = some change := by
  induction changes with
  | nil => cases hmem
  | cons first rest ih =>
    obtain ⟨hfresh, hrest⟩ := List.nodup_cons.mp hnodup
    rcases List.mem_cons.mp hmem with rfl | hmem
    · cases hlast : last? change.id rest with
      | some later =>
        obtain ⟨hlater, hid⟩ := last?_eq_some hlast
        exact absurd (List.mem_map.mpr ⟨later, hlater, hid⟩) hfresh
      | none => rw [last?, hlast, if_pos rfl, Option.none_or]
    · rw [last?, ih hrest hmem, Option.some_or]

/-- Where no file is mentioned twice, the order of the entries does not matter. -/
theorem last?_perm {changes order : List Change} (hperm : order.Perm changes)
    (hnodup : (changes.map Change.id).Nodup) (id : RemoteId) :
    last? id order = last? id changes := by
  cases hlast : last? id changes with
  | some change =>
    obtain ⟨hmem, rfl⟩ := last?_eq_some hlast
    exact last?_of_mem ((hperm.map Change.id).nodup_iff.mpr hnodup) (hperm.mem_iff.mpr hmem)
  | none =>
    cases hother : last? id order with
    | none => rfl
    | some change =>
      obtain ⟨hmem, hid⟩ := last?_eq_some hother
      exact absurd hid (last?_eq_none hlast change (hperm.mem_iff.mp hmem))

/-! ## The last entry of each file -/

/-- The entry stands at a place of the feed, and the file is not mentioned after it. -/
structure LastAt (changes : List Change) (place : Nat) (change : Change) : Prop where
  here : changes[place]? = some change
  last : ∀ later other, place < later → changes[later]? = some other → other.id ≠ change.id

/-- The entries are the last ones of their files, in the order of the feed. -/
structure InFeedOrder (changes entries : List Change) : Prop where
  last : ∀ change ∈ entries, ∃ place, LastAt changes place change
  ordered : entries.Pairwise fun a b => ∃ i j, i < j ∧ LastAt changes i a ∧ LastAt changes j b

theorem LastAt.cons {changes : List Change} {place : Nat} {change : Change}
    (h : LastAt changes place change) (first : Change) : LastAt
    (first :: changes) (place + 1) change where
  here := h.here
  last later other hlater hother := by
    obtain ⟨later, rfl⟩ : ∃ k, later = k + 1 := ⟨later - 1, by omega⟩
    exact h.last later other (Nat.lt_of_succ_lt_succ hlater) hother

theorem lastAt_zero {first : Change} {rest : List Change}
    (h : ∀ other ∈ rest, other.id ≠ first.id) :
    LastAt (first :: rest) 0 first where
  here := rfl
  last later other hlater hother := by
    obtain ⟨later, rfl⟩ : ∃ k, later = k + 1 := ⟨later - 1, by omega⟩
    exact h other (List.mem_of_getElem? hother)

theorem InFeedOrder.cons {changes entries : List Change} (h : InFeedOrder changes entries)
    (first : Change) : InFeedOrder (first :: changes) entries where
  last change hmem := (h.last change hmem).elim fun place hlast => ⟨place + 1, hlast.cons first⟩
  ordered := h.ordered.imp fun ⟨i, j, hij, hi, hj⟩ =>
    ⟨i + 1, j + 1, Nat.succ_lt_succ hij, hi.cons first, hj.cons first⟩

theorem InFeedOrder.sublist {changes entries kept : List Change} (h : InFeedOrder changes entries)
    (hkept : kept.Sublist entries) : InFeedOrder changes kept where
  last change hmem := h.last change (hkept.subset hmem)
  ordered := h.ordered.sublist hkept

/-- An entry is left out where its file is mentioned again. -/
theorem lastEntries_cons (first : Change) (rest : List Change) :
    (∃ other ∈ rest, other.id = first.id) ∧ lastEntries (first :: rest) = lastEntries rest ∨
      (∀ other ∈ rest, other.id ≠ first.id) ∧
        lastEntries (first :: rest) = first :: lastEntries rest := by
  rw [lastEntries]
  by_cases hagain : (rest.any fun d => d.id = first.id) = true
  · rw [if_pos hagain]
    simp only [List.any_eq_true, decide_eq_true_eq] at hagain
    exact .inl ⟨hagain, rfl⟩
  · rw [if_neg hagain]
    simp only [List.any_eq_true, decide_eq_true_eq, not_exists, not_and] at hagain
    exact .inr ⟨hagain, rfl⟩

theorem inFeedOrder_lastEntries (changes : List Change) :
    InFeedOrder changes (lastEntries changes) := by
  induction changes with
  | nil => exact ⟨nofun, .nil⟩
  | cons first rest ih =>
    have hrest := ih.cons first
    rcases lastEntries_cons first rest with ⟨-, heq⟩ | ⟨hnew, heq⟩
    · rwa [heq]
    · rw [heq]
      have hfirst := lastAt_zero hnew
      refine ⟨List.forall_mem_cons.mpr ⟨⟨0, hfirst⟩, hrest.last⟩,
        List.pairwise_cons.mpr ⟨fun other hmem => ?_, hrest.ordered⟩⟩
      obtain ⟨place, hplace⟩ := ih.last other hmem
      exact ⟨0, place + 1, Nat.succ_pos place, hfirst, hplace.cons first⟩

theorem mem_ids_lastEntries (changes : List Change) (id : RemoteId) :
    id ∈ (lastEntries changes).map Change.id ↔ id ∈ changes.map Change.id := by
  induction changes with
  | nil => exact Iff.rfl
  | cons first rest ih =>
    rcases lastEntries_cons first rest with ⟨⟨other, hmem, hid⟩, heq⟩ | ⟨-, heq⟩
    · rw [heq, ih, List.map_cons, List.mem_cons, or_iff_right_of_imp]
      rintro rfl
      exact List.mem_map.mpr ⟨other, hmem, hid⟩
    · rw [heq, List.map_cons, List.map_cons, List.mem_cons, List.mem_cons, ih]

theorem nodup_ids_lastEntries (changes : List Change) :
    ((lastEntries changes).map Change.id).Nodup := by
  induction changes with
  | nil => exact .nil
  | cons first rest ih =>
    rcases lastEntries_cons first rest with ⟨-, heq⟩ | ⟨hnew, heq⟩
    · rwa [heq]
    · rw [heq, List.map_cons]
      refine List.nodup_cons.mpr ⟨fun hmem => ?_, ih⟩
      obtain ⟨other, hother, hid⟩ := List.mem_map.mp ((mem_ids_lastEntries rest first.id).mp hmem)
      exact hnew other hother hid

theorem last?_lastEntries (changes : List Change) (id : RemoteId) :
    last? id (lastEntries changes) = last? id changes := by
  induction changes with
  | nil => rfl
  | cons first rest ih =>
    rcases lastEntries_cons first rest with ⟨⟨other, hmem, hid⟩, heq⟩ | ⟨-, heq⟩
    · -- the entry left out is not the last of its file
      rw [heq, ih, last?]
      cases hlast : last? id rest with
      | some later => rfl
      | none =>
        have hne : first.id ≠ id := fun h => last?_eq_none hlast other hmem (hid.trans h)
        rw [if_neg hne]
        rfl
    · rw [heq, last?, last?, ih]

/-! ## Upserts and removals apart -/

/-- The entries of a set of changes, the upserts first. -/
def entries (set : ChangeSet) : List Change := set.items.map .upsert ++ set.removed.map .removed

/-- Entries of one kind, taken apart and put together again, are the feed with the others left
out. -/
theorem filterMap_sublist {α : Type} {take? : Change → Option α} {make : α → Change}
    (hmake : ∀ change a, take? change = some a → make a = change) (changes : List Change) :
    ((changes.filterMap take?).map make).Sublist changes := by
  induction changes with
  | nil => exact .slnil
  | cons change rest ih =>
    cases htake : take? change with
    | none =>
      rw [List.filterMap_cons_none htake]
      exact ih.cons change
    | some a =>
      rw [List.filterMap_cons_some htake, List.map_cons, hmake change a htake]
      exact ih.cons_cons change

theorem upsert_of_item? (change : Change) (item : Item) (h : change.item? = some item) :
    .upsert item = change := by
  cases change <;> cases h
  rfl

theorem removed_of_removed? (change : Change) (id : RemoteId) (h : change.removed? = some id) :
    .removed id = change := by
  cases change <;> cases h
  rfl

theorem entries_perm (changes : List Change) (link : Option String) :
    (entries (.ofFeed changes link)).Perm (lastEntries changes) := by
  have hsplit : ∀ l : List Change, ((l.filterMap Change.item?).map Change.upsert ++
      (l.filterMap Change.removed?).map Change.removed).Perm l := by
    intro l
    induction l with
    | nil => exact .nil
    | cons change rest ih =>
      cases change with
      | upsert item => exact ih.cons _
      | removed id => exact List.perm_middle.trans (ih.cons _)
  exact hsplit (lastEntries changes)

theorem ids_entries (set : ChangeSet) :
    (entries set).map Change.id = set.items.map Item.id ++ set.removed := by
  rw [entries, List.map_append, List.map_map, List.map_map]
  exact congrArg (set.items.map Item.id ++ ·) (List.map_id _)

/-- A feed folded into a set of changes means the same, in whichever order the set is applied. It
has one entry for each file of the feed, and each kind of entries in the order of the feed. -/
theorem ofFeed_means_same (changes : List Change) (link : Option String) :
    let set := ChangeSet.ofFeed changes link
    (∀ order, order.Perm (entries set) → ∀ files, replay order files = replay changes files) ∧
      (set.items.map Item.id ++ set.removed).Nodup ∧
      (∀ id, id ∈ set.items.map Item.id ++ set.removed ↔ id ∈ changes.map Change.id) ∧
      InFeedOrder changes (set.items.map .upsert) ∧
      InFeedOrder changes (set.removed.map .removed) := by
  intro set
  have hperm := entries_perm changes link
  have hids := hperm.map Change.id
  rw [ids_entries] at hids
  have hordered := inFeedOrder_lastEntries changes
  refine ⟨fun order horder files => ?_, hids.nodup_iff.mpr (nodup_ids_lastEntries changes),
    fun id => hids.mem_iff.trans (mem_ids_lastEntries changes id),
    hordered.sublist (filterMap_sublist upsert_of_item? _),
    hordered.sublist (filterMap_sublist removed_of_removed? _)⟩
  funext id
  rw [replay_eq, replay_eq, ← last?_lastEntries changes,
    last?_perm (horder.trans hperm) (nodup_ids_lastEntries changes)]

namespace Repeated

def file (id hash : String) : Item where
  id := ⟨id⟩
  root := ⟨"drive"⟩
  name := id
  path := none
  hash := some ⟨hash⟩
  modified := none
  size := 1

/-- A file that is reported twice, and one that is added and removed. -/
def changes : List Change :=
  [.upsert (file "a" "old"), .upsert (file "b" "new"), .upsert (file "a" "new"), .removed ⟨"b"⟩]

def known : RemoteId → Option Item := fun id => if id = ⟨"b"⟩ then some (file "b" "old") else none

end Repeated

open Repeated in
/-- The set of changes of a feed that reports a file twice, with the removal applied first. -/
theorem ofFeed_means_same_repeated :
    let order := [Change.removed ⟨"b"⟩, .upsert (file "a" "new")]
    order.Perm (entries (.ofFeed changes none)) ∧ replay order known = replay changes known := by
  intro order
  have horder : order.Perm (entries (.ofFeed changes none)) := by decide
  exact ⟨horder, (ofFeed_means_same changes none).1 order horder known⟩

end Feed

end CollectionSync
