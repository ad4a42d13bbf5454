import CollectionSync.Drive.Feed
import CollectionSync.Drive.Response

/-! The client of the drive service: listing the changes of a root page by page, and fetching
contents. -/

namespace CollectionSync.Drive

/-- The public address of the drive service. -/
def publicBase : String := "https://graph.microsoft.com/v1.0"

/-- A client with the address that its paths are relative to, and with its way to read the page in a
body. -/
structure Client where
  base : String
  decode : List UInt8 → Option RawPage

def Client.at (base : String) : Client := ⟨trimSlashes base, RawPage.ofBody?⟩

/-- Credentials stand in a header, where controls other than the tab have no place. -/
def isHeaderText (s : String) : Bool :=
  s.toList.all fun c => (c.toNat ≥ 32 && c.toNat ≠ 127) || c == '\t'

def urlError (text : String) (url : Url) : DriveError :=
  .network (text ++ " for url (" ++ url.text ++ ")")

/-- The request for an absolute URL, or why there is none. -/
def request (url credentials : String) : Except DriveError HttpRequest :=
  match Url.read? url.toList with
  | none => .error (.network "builder error")
  | some u =>
    if !u.hasHost then .error (urlError "builder error" u)
    else if !isHeaderText credentials then .error (.network "builder error")
    else if u.scheme != "http".toList && u.scheme != "https".toList then
      .error (urlError "builder error" u.withoutUserinfo)
    else .ok ⟨u.withoutUserinfo, some ("Bearer " ++ credentials)⟩

/-- Sends a request and passes on a response of success. -/
def send (url credentials : String) : HttpProgram (Except DriveError HttpResponse) := do
  match request url credentials with
  | .error e => pure (.error e)
  | .ok request =>
    match ← deliver redirectLimit request with
    | .tooManyRedirects u => pure (.error (urlError "error following redirect" u))
    | .fault u .broken => pure (.error (urlError "error sending request" u))
    | .fault u .late =>
      pure (.error (.timeout ("error sending request for url (" ++ u.text ++ ")")))
    | .response u r =>
      let now ← clock
      match statusError? u r now with
      | some e => pure (.error e)
      | none => pure (.ok r)

/-- The error of a body that is no page. -/
def unreadable : DriveError :=
  .invalidResponse "Failed to parse delta response: error decoding response body"

/-- Pages that are read of one feed; a server that links on and on is cut off here. -/
def pageLimit : Nat := 10000

namespace Client

/-- The page in a response. -/
def page (client : Client) (root : RootId) (r : HttpResponse) : Except DriveError Page :=
  match r.bodyFault with
  | some .late => .error (.timeout "error decoding response body")
  | some .cut => .error unreadable
  | none =>
    match client.decode r.body with
    | some raw => .ok (raw.page root)
    | none => .error unreadable

/-- Fetches the page at an absolute URL. -/
def fetchPage (client : Client) (root : RootId) (credentials url : String) :
    HttpProgram (Except DriveError Page) := do
  match ← send url credentials with
  | .error e => pure (.error e)
  | .ok r => pure (client.page root r)

/-- Reads the pages that follow one, with the changes read so far. -/
def readOn (client : Client) (root : RootId) (credentials : String) :
    Nat → List Change → Page → HttpProgram (Except DriveError ChangeSet)
  | left, seen, page =>
    let seen := seen ++ page.changes
    match page.next with
    | none => pure (.ok (ChangeSet.ofFeed seen page.closing))
    | some url =>
      match left with
      | 0 => pure (.error (.invalidResponse
          ("Delta feed for " ++ root.text ++ " exceeded " ++ toString pageLimit ++ " pages")))
      | left + 1 => do
        match ← client.fetchPage root credentials url with
        | .error e => pure (.error e)
        | .ok page => readOn client root credentials left seen page

/-- All changes of a root since a token. -/
def listChanges (client : Client) (root : SourceRoot) (token : Option DeltaToken)
    (credentials : String) : HttpProgram (Except DriveError ChangeSet) := do
  match ← client.fetchPage root.id credentials (client.base ++ deltaPath root token) with
  | .error e => pure (.error e)
  | .ok page => client.readOn root.id credentials (pageLimit - 1) [] page

/-- The content of a file. -/
def fetch (client : Client) (root : SourceRoot) (id : RemoteId) (credentials : String) :
    HttpProgram (Except DriveError (List UInt8)) := do
  match ← send (client.base ++ contentPath root id) credentials with
  | .error e => pure (.error e)
  | .ok r =>
    match r.bodyFault with
    | some .late => pure (.error (.timeout "error decoding response body"))
    | some .cut => pure (.error (.invalidResponse "error decoding response body"))
    | none => pure (.ok r.body)

end Client

end CollectionSync.Drive
