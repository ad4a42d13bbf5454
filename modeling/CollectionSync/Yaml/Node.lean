import CollectionSync.Yaml.Token

/-! The values that YAML texts stand for. -/

namespace CollectionSync.Yaml

inductive Node where
  | scalar (text : String) (plain : Bool)
  | list (items : List Node)
  | mapping (entries : List (Node × Node))

/-- What stands for a value that is left out. -/
def Node.empty : Node := .scalar "" true

namespace Node

mutual

/-- Reads a value. Block collections are read only where `block` holds, and dashes at the column of
the mapping around them only where `bare` holds. -/
def read (fuel : Nat) (block bare : Bool) (tokens : List Token) : Option (Node × List Token) :=
  match fuel, tokens with
  | _ + 1, .scalar text plain :: rest => some (.scalar text plain, rest)
  | fuel + 1, .dash :: rest => if bare then readBare fuel [] (.dash :: rest) else none
  | fuel + 1, .flowList :: rest => readFlowList fuel [] rest
  | fuel + 1, .flowMapping :: rest => readFlowMapping fuel [] rest
  | fuel + 1, .blockList :: rest => if block then readBlockList fuel [] rest else none
  | fuel + 1, .blockMapping :: rest => if block then readBlockMapping fuel [] rest else none
  | _, _ => none

def readBlockList (fuel : Nat) (items : List Node) (tokens : List Token) :
    Option (Node × List Token) :=
  match fuel, tokens with
  | _ + 1, .blockEnd :: rest => some (.list items.reverse, rest)
  | fuel + 1, .dash :: rest =>
    match rest with
    | .dash :: _ | .blockEnd :: _ => readBlockList fuel (empty :: items) rest
    | _ => do
      let (item, rest) ← read fuel true false rest
      readBlockList fuel (item :: items) rest
  | _, _ => none

/-- Reads the entries of a list whose dashes stand at the column of the mapping around them. -/
def readBare (fuel : Nat) (items : List Node) (tokens : List Token) : Option (Node × List Token) :=
  match fuel, tokens with
  | 0, _ => none
  | fuel + 1, .dash :: rest =>
    match rest with
    | .dash :: _ | .key :: _ | .value :: _ | .blockEnd :: _ => readBare fuel (empty :: items) rest
    | _ => do
      let (item, rest) ← read fuel true false rest
      readBare fuel (item :: items) rest
  | _ + 1, rest => some (.list items.reverse, rest)

def readBlockMapping (fuel : Nat) (entries : List (Node × Node)) (tokens : List Token) :
    Option (Node × List Token) :=
  match fuel, tokens with
  | _ + 1, .blockEnd :: rest => some (.mapping entries.reverse, rest)
  | fuel + 1, .key :: rest => do
    let (key, rest) ← readBlockPart fuel rest
    readBlockValue fuel entries key rest
  | fuel + 1, .value :: rest => readBlockValue fuel entries empty (.value :: rest)
  | _, _ => none

def readBlockValue (fuel : Nat) (entries : List (Node × Node)) (key : Node) (tokens : List Token) :
    Option (Node × List Token) :=
  match fuel, tokens with
  | 0, _ => none
  | fuel + 1, .value :: rest => do
    let (value, rest) ← readBlockPart fuel rest
    readBlockMapping fuel ((key, value) :: entries) rest
  | fuel + 1, rest => readBlockMapping fuel ((key, empty) :: entries) rest

/-- Reads a key or a value of a block mapping. -/
def readBlockPart (fuel : Nat) (tokens : List Token) : Option (Node × List Token) :=
  match fuel, tokens with
  | 0, _ => none
  | _ + 1, .key :: rest => some (empty, .key :: rest)
  | _ + 1, .value :: rest => some (empty, .value :: rest)
  | _ + 1, .blockEnd :: rest => some (empty, .blockEnd :: rest)
  | fuel + 1, rest => read fuel true true rest

def readFlowList (fuel : Nat) (items : List Node) (tokens : List Token) :
    Option (Node × List Token) :=
  match fuel, tokens with
  | _ + 1, .flowListEnd :: rest => some (.list items.reverse, rest)
  | fuel + 1, .key :: rest => do
    let (key, rest) ← readFlowPart fuel rest
    let (value, rest) ← readFlowValue fuel rest
    readFlowListRest fuel (.mapping [(key, value)] :: items) rest
  | fuel + 1, rest => do
    let (item, rest) ← read fuel false false rest
    readFlowListRest fuel (item :: items) rest
  | _, _ => none

def readFlowListRest (fuel : Nat) (items : List Node) (tokens : List Token) :
    Option (Node × List Token) :=
  match fuel, tokens with
  | fuel + 1, .comma :: rest => readFlowList fuel items rest
  | _ + 1, .flowListEnd :: rest => some (.list items.reverse, rest)
  | _, _ => none

def readFlowMapping (fuel : Nat) (entries : List (Node × Node)) (tokens : List Token) :
    Option (Node × List Token) :=
  match fuel, tokens with
  | _ + 1, .flowMappingEnd :: rest => some (.mapping entries.reverse, rest)
  | fuel + 1, .key :: rest => do
    let (key, rest) ← readFlowPart fuel rest
    let (value, rest) ← readFlowValue fuel rest
    readFlowMappingRest fuel ((key, value) :: entries) rest
  | fuel + 1, rest => do
    let (key, rest) ← read fuel false false rest
    readFlowMappingRest fuel ((key, empty) :: entries) rest
  | _, _ => none

def readFlowMappingRest (fuel : Nat) (entries : List (Node × Node)) (tokens : List Token) :
    Option (Node × List Token) :=
  match fuel, tokens with
  | fuel + 1, .comma :: rest => readFlowMapping fuel entries rest
  | _ + 1, .flowMappingEnd :: rest => some (.mapping entries.reverse, rest)
  | _, _ => none

/-- Reads a key or a value inside a flow collection. -/
def readFlowPart (fuel : Nat) (tokens : List Token) : Option (Node × List Token) :=
  match fuel, tokens with
  | 0, _ => none
  | _ + 1, .value :: rest => some (empty, .value :: rest)
  | _ + 1, .comma :: rest => some (empty, .comma :: rest)
  | _ + 1, .flowListEnd :: rest => some (empty, .flowListEnd :: rest)
  | _ + 1, .flowMappingEnd :: rest => some (empty, .flowMappingEnd :: rest)
  | fuel + 1, rest => read fuel false false rest

def readFlowValue (fuel : Nat) (tokens : List Token) : Option (Node × List Token) :=
  match fuel, tokens with
  | 0, _ => none
  | fuel + 1, .value :: rest => readFlowPart fuel rest
  | _ + 1, rest => some (empty, rest)

end

/-- Reads the content of a document, which may be left out after its start marker. -/
def readContent (tokens : List Token) : Option (Node × List Token) :=
  match tokens with
  | [] | .documentStart :: _ | .documentEnd :: _ => some (empty, tokens)
  | _ => read (4 * tokens.length + 4) true false tokens

/-- Reads the tokens of a single document. -/
def ofTokens? (tokens : List Token) : Option Node :=
  let content := match tokens with
    | .documentStart :: rest => readContent rest
    | [] => some (empty, [])
    | tokens => read (4 * tokens.length + 4) true false tokens
  content.bind fun (node, rest) =>
    if rest.all (· == Token.documentEnd) then some node else none

/-- Reads a text that holds a single document, or none at all. -/
def ofText? (text : String) : Option Node := (Token.ofText? text.toList).bind ofTokens?

end Node

end CollectionSync.Yaml
