import CollectionSync.Rehearsal.World
import CollectionSync.Text.Utf8

/-! What a rehearsal brings, as JSON. Runs are called by labels, since their identifiers say
nothing. -/

namespace CollectionSync.Rehearsal

/-- What all identifiers of rehearsed runs begin with. -/
def runMark : String := String.ofList ((runNumbered 0).text.toList.take 28)

def hexNumber (cs : List Char) : Nat :=
  cs.foldl (fun n c => 16 * n + (RunId.digitValue c).getD 0) 0

/-- A text with labels for the identifiers of rehearsed runs. -/
def labelled (s : String) : String :=
  match s.splitOn runMark with
  | [] => s
  | first :: rest => first ++ String.join (rest.map fun piece =>
      "r" ++ toString (hexNumber (piece.toList.take 8)) ++ String.ofList (piece.toList.drop 8))

/-- The run that has a label; any other text is read as an identifier. -/
def runOfLabel (s : String) : RunId :=
  match s.toList with
  | 'r' :: digits => runNumbered ((String.ofList digits).toNat?.getD 0)
  | _ => (RunId.read? s).getD (runNumbered 0)

def runJson (run : RunId) : Json := .str (labelled run.text)

/-- A record without its times. -/
def recordJson (r : Record) : Json := .obj
  [("collection", .str r.collection.text), ("status", .str r.status.text),
    ("progress", r.progress.toJson), ("delta_tokens", tokensToJson r.tokens),
    ("failed_items", failuresToJson r.failures), ("run", Json.ofOption runJson r.run),
    ("error", Json.ofOption (fun e => .str (labelled e)) r.error),
    ("started", .bool r.startedAt.isSome), ("finished", .bool r.finishedAt.isSome)]

def Heard.toJson : Heard → Json
  | .lagged count => .obj [("lagged", .nat count)]
  | .event ⟨.terminal, r⟩ => .obj [("terminal", recordJson r)]
  | .event ⟨.progress, r⟩ => .obj
    [("collection", .str r.collection.text), ("status", .str r.status.text),
      ("progress", r.progress.toJson), ("run", Json.ofOption runJson r.run)]

/-- The name of a call and what it was given. -/
def callParts : Call → List Json
  | .list root token _ =>
    [.str "list", .str root.id.text, Json.ofOption (fun t => .str t.text) token]
  | .fetch root id credentials => [.str "fetch", .str root.id.text, .str id.text, .str credentials]
  | .lookup file => [.str "lookup", .str file.text]
  | .extract r =>
    [.str "extract", .str r.file.text, .str r.collection.text, .str r.name,
      Json.ofOption .str r.path, Json.ofOption (fun h => .str h.text) r.hash,
      .str (String.ofList (Text.decodeLossy r.bytes))]
  | .attach file c => [.str "attach", .str file.text, .str c.text]
  | .detach file c => [.str "detach", .str file.text, .str c.text]

def callJson (c : Nat × Call) : Json := .arr (.nat c.1 :: callParts c.2)

def contentJson (d : Dict FileId ContentRecord) : Json :=
  .obj (d.entries.map fun (file, record) => (file.text, .obj
    [("hash", .str record.hash.text),
      ("collections", .arr (record.collections.map fun c => .str c.text))]))

end CollectionSync.Rehearsal
