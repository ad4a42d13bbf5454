import CollectionSync.Dict
import CollectionSync.RunId
import CollectionSync.Text.Alphanumeric
import CollectionSync.Text.Blank
import CollectionSync.Text.Quoted

/-! The identifiers that a collection, its sources and their files go by, and which texts may serve
as each. -/

namespace CollectionSync

/-- Why a text cannot name a collection or a source root. -/
inductive NameFault where
  | blank
  | tooLong
  | control (text : String)
  deriving DecidableEq

/-- Why a text cannot be a remote identifier. -/
inductive RemoteIdFault where
  | empty
  | badCharacter (text : String)
  deriving DecidableEq

/-- Why a text cannot be a content hash. -/
inductive HashFault where
  | empty
  | blank (text : String)
  deriving DecidableEq

/-- Names longer than this many bytes are refused. -/
def nameLimit : Nat := 256

/-- The fault of a text as a name; of several the first in this order. -/
def nameFault? (s : String) : Option NameFault :=
  if Text.isBlankText s then some .blank
  else if s.utf8ByteSize > nameLimit then some .tooLong
  else if s.toList.any Text.isControl then some (.control s)
  else none

def NameFault.message : NameFault → String
  | .blank => "identifier cannot be empty"
  | .tooLong => "identifier longer than " ++ toString nameLimit ++ " bytes"
  | .control s => "identifier contains control characters: " ++ Text.quoted s

def RemoteIdFault.message : RemoteIdFault → String
  | .empty => "Remote ID cannot be empty"
  | .badCharacter s => "Remote ID contains invalid characters: " ++ s

def HashFault.message : HashFault → String
  | .empty => "Hash cannot be empty"
  | .blank s => "Hash contains whitespace: " ++ Text.quoted s

/-- A collection, the unit that is kept in step with its sources. -/
structure CollectionId where
  text : String
  deriving DecidableEq

/-- A source root: a drive, or a folder in one. -/
structure RootId where
  text : String
  deriving DecidableEq

/-- A file as the remote side names it. -/
structure RemoteId where
  text : String
  deriving DecidableEq

/-- A fingerprint of content, compared for equality only. -/
structure ContentHash where
  text : String
  deriving DecidableEq

/-- The point in a root's history up to which changes have been seen. -/
structure DeltaToken where
  text : String
  deriving DecidableEq

/-- A file as the content pipeline names it. -/
structure FileId where
  text : String
  deriving DecidableEq

/-- Why a text is refused as an identifier. -/
inductive IdentifierError where
  | collection (fault : NameFault)
  | root (fault : NameFault)
  | remote (fault : RemoteIdFault)
  | hash (fault : HashFault)
  /-- Tokens are opaque, and only the empty text is none. -/
  | token
  | run
  deriving DecidableEq

def IdentifierError.message : IdentifierError → String
  | .collection fault => "Invalid collection ID: " ++ fault.message
  | .root fault => "Invalid source root ID: " ++ fault.message
  | .remote fault => "Invalid remote ID: " ++ fault.message
  | .hash fault => "Invalid hash format: " ++ fault.message
  | .token => "Invalid delta token: Delta token cannot be empty"
  | .run => "Invalid ID format: Invalid RunId"

def CollectionId.ofText (s : String) : Except IdentifierError CollectionId :=
  match nameFault? s with
  | some fault => .error (.collection fault)
  | none => .ok ⟨s⟩

def RootId.ofText (s : String) : Except IdentifierError RootId :=
  match nameFault? s with
  | some fault => .error (.root fault)
  | none => .ok ⟨s⟩

/-- Letters and digits of any script, and the three marks that identifiers use. -/
def isRemoteIdChar (c : Char) : Bool :=
  Text.isAlphanumeric c || c == '!' || c == '-' || c == '_'

def RemoteId.ofText (s : String) : Except IdentifierError RemoteId :=
  if s.isEmpty then .error (.remote .empty)
  else if s.toList.all isRemoteIdChar then .ok ⟨s⟩
  else .error (.remote (.badCharacter s))

def ContentHash.ofText (s : String) : Except IdentifierError ContentHash :=
  if s.isEmpty then .error (.hash .empty)
  else if s.toList.any Text.isBlank then .error (.hash (.blank s))
  else .ok ⟨s⟩

def DeltaToken.ofText (s : String) : Except IdentifierError DeltaToken :=
  if s.isEmpty then .error .token else .ok ⟨s⟩

def RunId.ofText (s : String) : Except IdentifierError RunId :=
  match RunId.read? s with
  | some run => .ok run
  | none => .error .run

/-- The same remote file has the same identifier in every collection. -/
def RemoteId.file (id : RemoteId) : FileId := ⟨"remote:" ++ id.text⟩

instance : Key CollectionId := ⟨CollectionId.text, fun {a b} h => by cases a; cases b; simp_all⟩
instance : Key RootId := ⟨RootId.text, fun {a b} h => by cases a; cases b; simp_all⟩
instance : Key RemoteId := ⟨RemoteId.text, fun {a b} h => by cases a; cases b; simp_all⟩
instance : Key FileId := ⟨FileId.text, fun {a b} h => by cases a; cases b; simp_all⟩

end CollectionSync
