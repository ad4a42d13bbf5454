import CollectionSync.Program
import CollectionSync.Time.Instant
import CollectionSync.Url.Resolve

/-! Requests to the drive service and what comes back. Redirects are followed up to a limit; the
credentials go along as long as the host stays the same. -/

namespace CollectionSync.Drive

/-- A request for the resource at a URL. -/
structure HttpRequest where
  url : Url
  authorization : Option String
  deriving DecidableEq

/-- Why no response came. -/
inductive SendFault where
  /-- The connection was refused or broke. -/
  | broken
  /-- The time for the request ran out. -/
  | late
  deriving DecidableEq

/-- Why a body did not come whole. -/
inductive BodyFault where
  | cut
  | late
  deriving DecidableEq

structure HttpResponse where
  status : Nat
  headers : List (String × List UInt8)
  body : List UInt8
  bodyFault : Option BodyFault
  deriving DecidableEq

/-- The first header of that name, in any case. -/
def HttpResponse.header? (r : HttpResponse) (name : String) : Option (List UInt8) :=
  (r.headers.find? fun h => h.1.toList.map Char.toLower = name.toList.map Char.toLower).map (·.2)

/-- What a client asks: one exchange with a server, or the time. -/
inductive HttpAsk where
  | exchange (request : HttpRequest)
  | clock

def HttpAsk.Answer : HttpAsk → Type
  | .exchange _ => Except SendFault HttpResponse
  | .clock => Instant

abbrev HttpProgram := Program HttpAsk HttpAsk.Answer

/-- One exchange with a server, redirects not followed. -/
def exchange (request : HttpRequest) : HttpProgram (Except SendFault HttpResponse) :=
  .ask (.exchange request) .done

def clock : HttpProgram Instant := .ask .clock .done

/-- What became of a request after all redirects. -/
inductive Delivery where
  | response (url : Url) (response : HttpResponse)
  | fault (url : Url) (fault : SendFault)
  | tooManyRedirects (url : Url)

/-- Redirects that are followed for one request. -/
def redirectLimit : Nat := 10

def isRedirect (status : Nat) : Bool :=
  status == 301 || status == 302 || status == 303 || status == 307 || status == 308

/-- Where a response sends the client; a place that is no text is none. -/
def redirectTarget? (url : Url) (r : HttpResponse) : Option Url :=
  if isRedirect r.status then do
    let place ← Text.decode? (← r.header? "location")
    url.resolve? place
  else none

/-- A request as a redirect sends it on: the credentials stay with the host and its number, whatever
the scheme. -/
def HttpRequest.sentOn (request : HttpRequest) (target : Url) : HttpRequest :=
  let same := target.host == request.url.host && target.asksOn? == request.url.asksOn?
  ⟨target.withoutUserinfo, if same then request.authorization else none⟩

/-- Sends a request and follows at most `left` redirects. -/
def deliver (left : Nat) (request : HttpRequest) : HttpProgram Delivery := do
  match ← exchange request with
  | .error fault => pure (.fault request.url fault)
  | .ok r =>
    match redirectTarget? request.url r with
    | none => pure (.response request.url r)
    | some target =>
      match left with
      | 0 => pure (.tooManyRedirects request.url)
      | left + 1 => deliver left (request.sentOn target)

end CollectionSync.Drive
