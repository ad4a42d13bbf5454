import CollectionSync.Remote.Item
import CollectionSync.Run.Error

/-! Requests to bring a collection up to date. -/

namespace CollectionSync

structure RunRequest where
  collection : CollectionId
  roots : List SourceRoot
  deriving DecidableEq

/-- The first root with the id of an earlier one, of which `seen` are known. -/
def repeated? (seen : List RootId) : List RootId → Option RootId
  | [] => none
  | root :: rest => if root ∈ seen then some root else repeated? (root :: seen) rest

/-- No id is found just if none comes twice. -/
theorem repeated?_eq_none {seen ids : List RootId} :
    repeated? seen ids = none ↔ ids.Nodup ∧ ∀ id ∈ ids, id ∉ seen := by
  induction ids generalizing seen with
  | nil => simp [repeated?]
  | cons id rest ih =>
    rw [repeated?]
    by_cases hid : id ∈ seen
    · rw [if_pos hid]
      exact ⟨nofun, fun h => absurd hid (h.2 id List.mem_cons_self)⟩
    · rw [if_neg hid, ih]
      simp only [List.mem_cons, not_or, List.nodup_cons, forall_eq_or_imp]
      constructor
      · rintro ⟨hnodup, hrest⟩
        exact ⟨⟨fun hmem => (hrest id hmem).1 rfl, hnodup⟩, hid, fun x hx => (hrest x hx).2⟩
      · rintro ⟨⟨hfresh, hnodup⟩, -, hrest⟩
        exact ⟨hnodup, fun x hx => ⟨fun heq => hfresh (heq ▸ hx), hrest x hx⟩⟩

/-- Refuses a request that cannot lead to a meaningful run. -/
def RunRequest.check (r : RunRequest) : Except RunError Unit :=
  if r.roots.isEmpty then
    .error (.invalidRequest ("no source roots given for " ++ r.collection.text))
  else match repeated? [] (r.roots.map (·.id)) with
    | some root => .error (.invalidRequest ("source root " ++ root.text ++ " listed twice"))
    | none => .ok ()

/-- A run that was admitted, with the record as it was claimed. -/
structure Admission where
  run : RunId
  record : Record
  deriving DecidableEq

/-- All that a run works from. -/
structure RunOrder where
  request : RunRequest
  admission : Admission
  /-- What the remote side is shown. -/
  credentials : String
  deriving DecidableEq

end CollectionSync
