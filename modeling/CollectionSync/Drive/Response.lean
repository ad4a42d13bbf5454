import CollectionSync.Drive.Error
import CollectionSync.Drive.Http
import CollectionSync.Drive.RetryAfter
import CollectionSync.Json.Wire
import CollectionSync.Text.Charset

/-! What the status of a response means. -/

namespace CollectionSync.Drive

/-- The text of a header; none where it holds other than visible ASCII. -/
def headerText? (value : List UInt8) : Option String :=
  if value.all fun b => (0x20 ≤ b && b < 0x7F) || b = 0x09 then
    some (String.ofList (value.map fun b => Char.ofNat b.toNat))
  else none

/-- The wait that a response asks for. -/
def requestedWait? (r : HttpResponse) (now : Instant) : Option Span :=
  ((r.header? "retry-after").bind headerText?).map fun value => retryAfter value usualWait now

/-- The error that the service describes in a body, its message and its code. -/
def describedError? (body : String) : Option String := do
  let [error] ← (← Json.Wire.ofBytes? (Text.utf8 body.toList)).fields? ["error"] | none
  let [code, message] ← (← error).fields? ["code", "message"] 0 | none
  let text (field : Option Json.Wire) : Option String := field.elim (some "") Json.Wire.text?
  some ((← text message) ++ " (" ++ (← text code) ++ ")")

/-- A body in short: the error that it describes, or its first 200 characters. -/
def summary (body : String) : String :=
  (describedError? body).getD (String.ofList (body.toList.take 200))

/-- The body of an error as text; one that did not come whole counts as empty. -/
def bodyText (r : HttpResponse) : String :=
  let charset := ((r.header? "content-type").bind headerText?).elim .utf8 Text.Charset.ofContentType
  if r.bodyFault.isSome then "" else String.ofList (charset.decodeMarked r.body)

/-- The failure that a response stands for; none for success. -/
def statusError? (url : Url) (r : HttpResponse) (now : Instant) : Option DriveError :=
  if 200 ≤ r.status ∧ r.status < 300 then none
  else
    let detail := toString r.status ++ " " ++ String.ofList url.path ++ ": " ++ summary (bodyText r)
    if r.status = 429 then some (.tooManyRequests ((requestedWait? r now).getD usualWait))
    else if r.status = 503 then
      match requestedWait? r now with
      | some wait => some (.tooManyRequests wait)
      | none => some (.server detail)
    else if r.status = 401 then some (.unauthorized detail)
    else if r.status = 403 then some (.forbidden detail)
    else if r.status = 404 then some (.notFound detail)
    else if r.status = 410 then some .tokenExpired
    else if r.status = 408 ∨ r.status = 504 then some (.timeout detail)
    else if 500 ≤ r.status ∧ r.status < 600 then some (.server detail)
    else some (.invalidResponse detail)

end CollectionSync.Drive
