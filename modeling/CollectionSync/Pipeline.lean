import CollectionSync.Identifier

/-! The content pipeline: what it is asked to do with files, what it knows of them and how it
fails. -/

namespace CollectionSync

/-- A full extraction of a file into a collection. -/
structure ExtractRequest where
  file : FileId
  collection : CollectionId
  name : String
  path : Option String
  hash : Option ContentHash
  bytes : List UInt8
  deriving DecidableEq

inductive PipelineOutcome where
  /-- New content was written. -/
  | processed
  /-- The same content was there already. -/
  | duplicate
  deriving DecidableEq

/-- What the pipeline knows of a file. -/
structure ContentRecord where
  hash : ContentHash
  /-- The collections that hold the file. -/
  collections : List CollectionId
  deriving DecidableEq

inductive PipelineError where
  | alreadyAttached (file : FileId)
  | duplicateContent (file : FileId)
  | notFound (file : FileId)
  /-- The pipeline does not take the file. -/
  | rejected (detail : String)
  | unavailable (detail : String)
  deriving DecidableEq

def PipelineError.message : PipelineError → String
  | .alreadyAttached file => "File " ++ file.text ++ " is already attached to the collection"
  | .duplicateContent file => "Duplicate content for file " ++ file.text
  | .notFound file => "No processed content for file " ++ file.text
  | .rejected detail => "Rejected: " ++ detail
  | .unavailable detail => "Pipeline unavailable: " ++ detail

end CollectionSync
