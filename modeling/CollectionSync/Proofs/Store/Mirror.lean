import CollectionSync.Proofs.Record.Rules
import CollectionSync.Proofs.Store.Columns
import CollectionSync.Store.Database
import CollectionSync.Store.Memory

/-! # A table that mirrors a memory

The rows are those of the memory's records, in any order. What a statement selects and changes in
the table is then what an operation finds and changes in the memory. -/

namespace CollectionSync

/-- A memory that holds the given records. -/
def Memory.ofRecords (records : List Record) : Memory := records.foldl Memory.put .empty

/-! ## Rows of changed records -/

theorem Instant.Storable.later {a b : Instant} (ha : a.Storable) (hb : b.Storable) :
    (a.later b).Storable := by
  unfold Instant.later
  split
  · exact hb
  · exact ha

theorem Record.Storable.touch {r : Record} {now : Instant} (h : r.Storable) (hn : now.Storable) :
    (r.touch now).Storable := { h with updatedAt := h.updatedAt.later hn }

/-- A touched record is stored with the later of its two texts. -/
theorem Row.ofRecord_touch {r : Record} {now : Instant} (h : r.updatedAt.Storable)
    (hn : now.Storable) :
    ofRecord (r.touch now) =
      { ofRecord r with
        updatedAt := laterText (ofRecord r).updatedAt (Time.microsText now) } := by
  simp only [ofRecord, Record.touch, laterText_microsText h hn]

/-! ## Rows and records side by side -/

/-- The rows are those of the memory's records, each of which stands under its own collection. -/
structure Mirrors (m : Memory) (rows : List Row) : Prop where
  perm : rows.Perm (m.records.entries.map fun e => Row.ofRecord e.2)
  keyed : ∀ e ∈ m.records.entries, e.2.collection = e.1
  storable : ∀ e ∈ m.records.entries, e.2.Storable

namespace Mirrors

variable {m : Memory} {rows : List Row}

theorem collection_eq (h : Mirrors m rows) {c : CollectionId} {r : Record} (hr : m.get c = some r) :
    r.collection = c := h.keyed (c, r) (Dict.get?_eq_some_iff.mp hr)

theorem row_collection (h : Mirrors m rows) {c : CollectionId} {r : Record}
    (hr : m.get c = some r) : (Row.ofRecord r).collection = c.text :=
  congrArg CollectionId.text (h.collection_eq hr)

theorem storable_of_get (h : Mirrors m rows) {c : CollectionId} {r : Record}
    (hr : m.get c = some r) : r.Storable := h.storable (c, r) (Dict.get?_eq_some_iff.mp hr)

theorem empty : Mirrors .empty [] := ⟨.nil, nofun, nofun⟩

/-- Rows are selected as their records are. -/
theorem perm_filter (h : Mirrors m rows) (condition : Row → Bool)
    (holds : CollectionId × Record → Bool)
    (hcondition : ∀ e ∈ m.records.entries, condition (Row.ofRecord e.2) = holds e) :
    (rows.filter condition).Perm
      ((m.records.entries.filter holds).map fun e => Row.ofRecord e.2) := by
  have hperm := h.perm.filter condition
  rw [List.filter_map] at hperm
  rwa [← List.filter_congr hcondition]

/-- The rows of a collection are the row of its record. -/
theorem filter_collection (h : Mirrors m rows) (c : CollectionId) :
    rows.filter (fun row => row.collection = c.text) = ((m.get c).map Row.ofRecord).toList := by
  have hkey : ∀ e ∈ m.records.entries,
      decide ((Row.ofRecord e.2).collection = c.text) = decide (e.1 = c) := by
    intro e he
    have hc : (Row.ofRecord e.2).collection = Key.text e.1 := by rw [← h.keyed e he]; rfl
    rw [decide_eq_decide, hc]
    exact Dict.text_inj
  have hperm := h.perm_filter (fun row => row.collection = c.text) (fun e => e.1 = c) hkey
  rw [Dict.filter_entries] at hperm
  change List.Perm _ (((m.get c).map fun r => (c, r)).toList.map fun e => Row.ofRecord e.2) at hperm
  cases hr : m.get c with
  | none =>
    rw [hr] at hperm
    exact List.perm_nil.mp hperm
  | some r =>
    rw [hr] at hperm
    exact List.perm_singleton.mp hperm

theorem find?_eq (h : Mirrors m rows) (c : CollectionId) :
    Database.find? rows c = (m.get c).map Row.ofRecord := by
  rw [Database.find?, ← List.head?_filter, h.filter_collection]
  cases m.get c <;> rfl

theorem getRows_eq (h : Mirrors m rows) (c : CollectionId) :
    Database.getRows c rows = .ok ((m.get c).map Record.toMicros) := by
  rw [Database.getRows, h.find?_eq]
  cases hr : m.get c with
  | none => rfl
  | some r =>
    simp only [Option.map_some, Database.readRow, Row.toRecord_ofRecord (h.storable_of_get hr)]
    rfl

theorem existing_eq (h : Mirrors m rows) {c : CollectionId} {r : Record} (hr : m.get c = some r) :
    Database.existing c rows = .ok r.toMicros := by
  simp only [Database.existing, h.getRows_eq, hr, Option.map_some]

/-- A record of a new collection is stored as a row of its own. -/
theorem put (h : Mirrors m rows) {r : Record} (hr : m.get r.collection = none)
    (hs : r.Storable) : Mirrors (m.put r) (rows ++ [Row.ofRecord r]) := by
  have hp := Dict.perm_insert r hr
  have hmem : ∀ e ∈ (m.put r).records.entries, e = (r.collection, r) ∨ e ∈ m.records.entries :=
    fun e he => List.mem_cons.mp (hp.mem_iff.mp he)
  refine ⟨?_, fun e he => ?_, fun e he => ?_⟩
  · refine .trans ?_ (hp.map fun e => Row.ofRecord e.2).symm
    exact List.perm_append_comm.trans (h.perm.cons (Row.ofRecord r))
  · rcases hmem e he with rfl | he
    · rfl
    · exact h.keyed e he
  · rcases hmem e he with rfl | he
    · exact hs
    · exact h.storable e he

theorem foldl_put (records : List Record) (h : Mirrors m rows)
    (hn : (records.map (·.collection)).Nodup) (hnew : ∀ r ∈ records, m.get r.collection = none)
    (hs : ∀ r ∈ records, r.Storable) :
    Mirrors (records.foldl Memory.put m) (rows ++ records.map Row.ofRecord) := by
  induction records generalizing m rows with
  | nil => simpa using h
  | cons r records ih =>
    obtain ⟨hr, hn⟩ := List.nodup_cons.mp hn
    have h' := h.put (hnew r List.mem_cons_self) (hs r List.mem_cons_self)
    have := ih h' hn (fun s hmem => ?_) fun s hmem => hs s (List.mem_cons_of_mem r hmem)
    · simpa using this
    · have hne : r.collection ≠ s.collection := fun he =>
        hr (List.mem_map.mpr ⟨s, hmem, he.symm⟩)
      have hset : (m.put r).get s.collection = m.get s.collection :=
        Dict.get?_insert_of_ne m.records r hne
      rw [hset]
      exact hnew s (List.mem_cons_of_mem r hmem)

/-- Records of different collections are stored alike on both sides. -/
theorem ofRecords {records : List Record} (hn : (records.map (·.collection)).Nodup)
    (hs : ∀ r ∈ records, r.Storable) :
    Mirrors (Memory.ofRecords records) (records.map Row.ofRecord) :=
  empty.foldl_put records hn (fun _ _ => rfl) hs

/-! ## Statements -/

/-- A row of a collection is the row of its record. -/
theorem get_of_mem (h : Mirrors m rows) {c : CollectionId} {row : Row} (hrow : row ∈ rows)
    (hc : row.collection = c.text) : ∃ r, m.get c = some r ∧ row = Row.ofRecord r := by
  have hmem : row ∈ rows.filter fun row => row.collection = c.text :=
    List.mem_filter.mpr ⟨hrow, by simpa using hc⟩
  rw [h.filter_collection] at hmem
  cases hr : m.get c with
  | none => simp [hr] at hmem
  | some r => exact ⟨r, rfl, by simpa [hr] using hmem⟩

/-- A statement that holds for rows as a change of the memory does for their records. -/
theorem update (h : Mirrors m rows) (holds : CollectionId → Record → Prop)
    [∀ c r, Decidable (holds c r)] (f : Record → Record) {condition : Row → Bool}
    {change : Row → Row}
    (hcondition : ∀ e ∈ m.records.entries, condition (Row.ofRecord e.2) = true ↔ holds e.1 e.2)
    (hchange : ∀ e ∈ m.records.entries, holds e.1 e.2 →
      change (Row.ofRecord e.2) = Row.ofRecord (f e.2) ∧ (f e.2).collection = e.1 ∧
        (f e.2).Storable) :
    Mirrors ⟨m.records.map fun c r => if holds c r then f r else r⟩
      (Database.update rows condition change).2 := by
  refine ⟨?_, fun e he => ?_, fun e he => ?_⟩
  · refine (h.perm.map _).trans (.of_eq ?_)
    simp only [Dict.map, List.map_map]
    refine List.map_congr_left fun e he => ?_
    simp only [Function.comp, hcondition e he]
    split
    next hh => exact (hchange e he hh).1
    · rfl
  · obtain ⟨e, hmem, rfl⟩ := List.mem_map.mp he
    dsimp only
    split
    next hh => exact (hchange e hmem hh).2.1
    · exact h.keyed e hmem
  · obtain ⟨e, hmem, rfl⟩ := List.mem_map.mp he
    dsimp only
    split
    next hh => exact (hchange e hmem hh).2.2
    · exact h.storable e hmem

section

variable {c : CollectionId} {condition : Row → Bool} (change : Row → Row)
  (honly : ∀ row, condition row = true → row.collection = c.text)

include honly

/-- A statement about a collection changes nothing where it does not hold for its row. -/
theorem update_none (h : Mirrors m rows)
    (hno : ∀ r, m.get c = some r → ¬ condition (Row.ofRecord r) = true) :
    Database.update rows condition change = ([], rows) := by
  have hfalse : ∀ row ∈ rows, ¬ condition row = true := by
    intro row hrow htrue
    obtain ⟨r, hr, rfl⟩ := h.get_of_mem hrow (honly row htrue)
    exact hno r hr htrue
  have hsame : (rows.map fun row => if condition row then change row else row) = rows := by
    refine (List.map_congr_left fun row hrow => ?_).trans (List.map_id rows)
    exact if_neg (hfalse row hrow)
  rw [Database.update, List.filter_eq_nil_iff.mpr hfalse, hsame, List.map_nil]

theorem update_absent (h : Mirrors m rows) (hr : m.get c = none) :
    Database.update rows condition change = ([], rows) :=
  h.update_none change honly (by simp [hr])

theorem update_other (h : Mirrors m rows) {r : Record} (hr : m.get c = some r)
    (hno : ¬ condition (Row.ofRecord r) = true) :
    Database.update rows condition change = ([], rows) := by
  refine h.update_none change honly fun s hs => ?_
  rw [hr, Option.some.injEq] at hs
  exact hs ▸ hno

/-- A statement about a collection that holds for its row changes that row alone. -/
theorem update_one (h : Mirrors m rows) {r : Record} (r' : Record) (hr : m.get c = some r)
    (hyes : condition (Row.ofRecord r) = true) (hrow : change (Row.ofRecord r) = Row.ofRecord r')
    (hc : r'.collection = r.collection) (hs : r'.Storable) :
    ∃ rows', Database.update rows condition change = ([Row.ofRecord r'], rows') ∧
      Mirrors (m.set c r') rows' := by
  refine ⟨(Database.update rows condition change).2, Prod.ext ?_ rfl, ?_⟩
  · have hand : (fun row => condition row && decide (row.collection = c.text)) = condition := by
      funext row
      cases hcond : condition row with
      | false => rfl
      | true => simp [honly row hcond]
    have hone : rows.filter condition = [Row.ofRecord r] := by
      rw [← hand, ← List.filter_filter, h.filter_collection, hr]
      simp [hyes]
    simp [Database.update, hone, hrow]
  · have hset : m.set c r' = ⟨m.records.map fun j u => if j = c then r' else u⟩ :=
      congrArg Memory.mk (Dict.insert_of_get? hr)
    have heq : ∀ e ∈ m.records.entries, e.1 = c → e.2 = r := by
      intro e he hce
      have : m.get c = some e.2 := Dict.get?_eq_some_iff.mpr (hce ▸ he)
      rw [hr] at this
      exact (Option.some.inj this).symm
    rw [hset]
    refine h.update (fun j _ => j = c) (fun _ => r') (fun e he => ⟨fun ht => ?_, fun hce => ?_⟩)
      fun e he hce => ?_
    · have ht : e.2.collection.text = c.text := honly _ ht
      rw [h.keyed e he] at ht
      exact Dict.text_inj.mp ht
    · rw [heq e he hce]
      exact hyes
    · rw [heq e he hce]
      exact ⟨hrow, hc.trans ((h.collection_eq hr).trans hce.symm), hs⟩

end

end Mirrors

end CollectionSync
