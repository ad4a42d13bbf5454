import CollectionSync.Pipeline
import CollectionSync.Remote.ChangeSet

/-! What a run does with each change: which files are extracted, which only attached, which left
alone and which detached. -/

namespace CollectionSync

inductive TaskAction where
  /-- Downloads the file and extracts it. -/
  | extract (item : Item)
  /-- Reuses what was extracted for another collection. -/
  | attach (item : Item)
  /-- Takes the file out of the collection. -/
  | detach (id : RemoteId)
  deriving DecidableEq

/-- One unit of work of a run. -/
structure SyncTask where
  root : SourceRoot
  action : TaskAction
  deriving DecidableEq

/-- What reports call the task. -/
def SyncTask.name (t : SyncTask) : String :=
  match t.action with
  | .extract item | .attach item => item.displayName
  | .detach id => t.root.id.text ++ ":" ++ id.text

def SyncTask.file (t : SyncTask) : FileId :=
  match t.action with
  | .extract item | .attach item => item.file
  | .detach id => id.file

/-- The work of a run, and the number of files that are in place already. -/
structure RunPlan where
  tasks : List SyncTask
  skipped : Nat
  deriving DecidableEq

/-- Decides on one changed file; none where it is in place. -/
def classify (item : Item) (known : Option ContentRecord) (collection : CollectionId) :
    Option TaskAction :=
  match known with
  | none => some (.extract item)
  | some record =>
    if item.hash = some record.hash then
      if collection ∈ record.collections then none
      else if record.collections.isEmpty then some (.extract item)
      else some (.attach item)
    else some (.extract item)

/-- Keeps the first report of each file. -/
def firstReports : List FileId → List (SourceRoot × Item) → List (SourceRoot × Item)
  | _, [] => []
  | seen, (root, item) :: rest =>
    if item.file ∈ seen then firstReports seen rest
    else (root, item) :: firstReports (item.file :: seen) rest

/-- All files that are reported as added or changed, each once. -/
def reportedItems (changes : List (SourceRoot × ChangeSet)) : List (SourceRoot × Item) :=
  firstReports [] (changes.flatMap fun (root, set) => set.items.map fun item => (root, item))

/-- All removals that no report of the same file outdoes. -/
def reportedRemovals (changes : List (SourceRoot × ChangeSet)) : List (SourceRoot × RemoteId) :=
  let kept := (reportedItems changes).map fun (_, item) => item.file
  (changes.flatMap fun (root, set) => set.removed.map fun id => (root, id)).filter
    fun (_, id) => id.file ∉ kept

/-- The plan, given what the pipeline knows of each reported file. -/
def RunPlan.make (collection : CollectionId) (changes : List (SourceRoot × ChangeSet))
    (known : List (Option ContentRecord)) : RunPlan :=
  let decided := ((reportedItems changes).zip known).map fun ((root, item), record) =>
    (classify item record collection).map fun action => (⟨root, action⟩ : SyncTask)
  { tasks := decided.filterMap id
      ++ (reportedRemovals changes).map fun (root, id) => ⟨root, .detach id⟩
    skipped := (decided.filter Option.isNone).length }

end CollectionSync
