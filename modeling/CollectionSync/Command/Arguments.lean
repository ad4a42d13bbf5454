import CollectionSync.Command.Manual

/-! Reading the arguments of the program. They are read from left to right, each command with the
options after its name; the first argument that does not fit decides, and so does a request for
help. -/

namespace CollectionSync.Command

/-- What the arguments ask for. -/
inductive Reading where
  | run (i : Invocation)
  | help (t : Topic)
  | version
  /-- The arguments do not fit the usage. -/
  | misuse
  deriving DecidableEq

/-- What was given to one command, or to the program in front of the command. -/
structure Given where
  json : Bool
  settingsPath : Option String
  /-- The number that the option of its own takes. -/
  number : Option UInt64
  collection : Option String
  deriving DecidableEq

namespace Given

def nothing : Given := ⟨false, none, none, none⟩

/-- What was given to a command, with what was given in front of it where it has nothing itself. -/
def within (inner outer : Given) : Given :=
  { inner with
    json := inner.json || outer.json
    settingsPath := inner.settingsPath <|> outer.settingsPath }

end Given

/-- A number of 64 bits in decimal digits, with a plus sign if need be. -/
def readNumber? (s : String) : Option UInt64 :=
  let digits := match s.toList with
    | '+' :: rest => rest
    | cs => cs
  if digits.isEmpty || !digits.all Char.isDigit then none
  else
    let n : Nat := digits.foldl (fun n c => n * 10 + (c.toNat - '0'.toNat)) 0
    if n < UInt64.size then some n.toUInt64 else none

namespace Topic

/-- The name of the option with a number that a command has. -/
def numberOption? : Topic → Option String
  | watch => some intervalOption.long
  | recover => some staleOption.long
  | _ => none

/-- Takes the value of an option. An option comes once, and its value fits it. -/
def withValue? (t : Topic) (name value : String) (g : Given) : Option Given :=
  if name = configOption.long then
    if value.isEmpty || g.settingsPath.isSome then none
    else some { g with settingsPath := some value }
  else if t.numberOption? = some name then
    if g.number.isSome then none else (readNumber? value).map fun n => { g with number := some n }
  else none

def takesValue (t : Topic) (name : String) : Bool :=
  name = configOption.long || t.numberOption? = some name

/-- Takes an argument that is no option: the collection of a command that works on one. -/
def withCollection? (t : Topic) (arg : String) (g : Given) : Option Given :=
  match t with
  | status | cancel | watch =>
    if g.collection.isSome then none else some { g with collection := some arg }
  | _ => none

/-- What stands in a cluster of short options: requests for help and for the version end it. -/
def readShort (t : Topic) : List Char → Option Reading
  | [] => none
  | c :: rest =>
    if c = 'v' then readShort t rest
    else if c = 'h' then some (.help t)
    else if c = 'V' && t = program then some .version
    else some .misuse

/-- Whether an argument can be the value of the option in front of it. -/
def isValue (arg : String) : Bool := arg = "-" || !"-".toList.isPrefixOf arg.toList

/-- The command that all arguments together ask for. -/
def finish (t : Topic) (g : Given) : Reading :=
  let invocation (action : Action) : Reading :=
    .run ⟨if g.json then .json else .human, g.settingsPath, action⟩
  match t, g.collection with
  | status, some c => invocation (.status c)
  | cancel, some c => invocation (.cancel c)
  | watch, some c => invocation (.watch c ((g.number.map UInt64.toNat).getD 1000))
  | recover, _ => invocation (.recover g.number)
  | settings view, _ => invocation (.settings view)
  | _, _ => .misuse

/-- The topic that names lead to from a topic. -/
def below (t : Topic) : List String → Reading
  | [] => .help t
  | name :: rest =>
    match t.command? name with
    | some sub => below sub rest
    | none => .misuse

/-- Reads arguments behind `--`, where nothing counts as an option or a command. -/
def readBare (t : Topic) (outer g : Given) : List String → Reading
  | [] => t.finish (g.within outer)
  | arg :: rest =>
    match t.withCollection? arg g with
    | some g => readBare t outer g rest
    | none => .misuse

/-- Reads the arguments of a topic; `outer` is what was given in front of it. -/
def read (t : Topic) (outer g : Given) : List String → Reading
  | [] => t.finish (g.within outer)
  | arg :: rest =>
    match t.command? arg with
    | some (help _) => below t rest
    | some sub => read sub (g.within outer) .nothing rest
    | none =>
      match arg.toList with
      | ['-', '-'] => readBare t outer g rest
      | '-' :: '-' :: long =>
        let name := String.ofList (long.takeWhile (· != '='))
        match long.dropWhile (· != '=') with
        | _ :: value =>
          match t.withValue? name (String.ofList value) g with
          | some g => read t outer g rest
          | none => .misuse
        | [] =>
          if name = jsonOption.long then
            if g.json then .misuse else read t outer { g with json := true } rest
          else if name = verboseOption.long then read t outer g rest
          else if name = helpOption.long then .help t
          else if name = versionOption.long && t = program then .version
          else if t.takesValue name then
            match rest with
            | value :: rest =>
              match (if isValue value then t.withValue? name value g else none) with
              | some g => read t outer g rest
              | none => .misuse
            | [] => .misuse
          else .misuse
      | '-' :: c :: short =>
        match t.readShort (c :: short) with
        | some reading => reading
        | none => read t outer g rest
      | _ =>
        match t.withCollection? arg g with
        | some g => read t outer g rest
        | none => .misuse

end Topic

/-- Reads the arguments of the program. -/
def Reading.ofArguments (args : List String) : Reading := Topic.program.read .nothing .nothing args

end CollectionSync.Command
