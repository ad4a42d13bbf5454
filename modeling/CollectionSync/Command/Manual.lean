import CollectionSync.Command.Invocation

/-! The help texts: what a command is for, how it is called, and what its arguments and options
mean. -/

namespace CollectionSync.Command

/-- What a help text is about. -/
inductive Topic where
  | program
  | status
  | cancel
  | watch
  | recover
  | config
  | settings (view : SettingsView)
  /-- The `help` command of the program, or that of `config`. -/
  | help (ofConfig : Bool)
  deriving DecidableEq

/-- An option as a help text lists it. -/
structure OptionEntry where
  short : Option Char
  long : String
  /-- The name of its value, if it takes one. -/
  value : Option String
  repeatable : Bool
  about : String

/-- The parts of a help text. -/
structure Manual where
  about : String
  usage : String
  commands : List (String × String)
  arguments : List (String × String)
  options : List OptionEntry

namespace OptionEntry

/-- The option with what may follow it. -/
def callText (o : OptionEntry) : String :=
  "--" ++ o.long
    ++ (match o.value with
      | some name => " <" ++ name ++ ">"
      | none => "")
    ++ if o.repeatable then "..." else ""

/-- The option after its short form, or after the gap that a short form would fill. -/
def nameText (o : OptionEntry) : String :=
  (match o.short with
    | some c => "  -" ++ c.toString ++ ", "
    | none => "      ")
  ++ o.callText

end OptionEntry

namespace Manual

/-- Columns of a help text. -/
def width : Nat := 100

def spaces (n : Nat) : String := String.ofList (List.replicate n ' ')

def longest (names : List String) : Nat := (names.map String.length).foldl max 0

/-- A table of two columns, two places in and two places apart. -/
def table (rows : List (String × String)) : List String :=
  let column := longest (rows.map (·.1))
  rows.map fun (name, about) =>
    "  " ++ name ++ spaces (column - name.length + 2) ++ about

/-- Whether explanations go below their options: where the options take more than two fifths of the
line and some explanation does not fit beside them. -/
def isTall (options : List OptionEntry) : Bool :=
  let taken := longest (options.map OptionEntry.callText) + 12
  taken ≤ width && 5 * taken > 2 * width && options.any fun o => o.about.length > width - taken

def optionLines (options : List OptionEntry) : List String :=
  if isTall options then options.flatMap fun o => [o.nameText, spaces 10 ++ o.about]
  else
    let column := longest (options.map OptionEntry.callText)
    options.map fun o => o.nameText ++ spaces (column - o.callText.length + 2) ++ o.about

/-- A heading with what stands below it, after an empty line; nothing where nothing stands there. -/
def part (heading : String) (lines : List String) : List String :=
  if lines.isEmpty then [] else "" :: heading :: lines

def lines (m : Manual) : List String :=
  [m.about, "", "Usage: " ++ m.usage] ++ part "Commands:" (table m.commands)
    ++ part "Arguments:" (table m.arguments) ++ part "Options:" (optionLines m.options)

end Manual

def programName : String := "deltamirror"

def versionLine : String := programName ++ " 0.1.0"

namespace Topic

def jsonOption : OptionEntry := ⟨none, "json", none, false, "Output in JSON format"⟩

def verboseOption : OptionEntry :=
  ⟨some 'v', "verbose", none, true, "Verbose output (can be repeated: -v, -vv)"⟩

def configOption : OptionEntry :=
  ⟨none, "config", some "CONFIG", false, "Use alternate config file"⟩

def helpOption : OptionEntry := ⟨some 'h', "help", none, false, "Print help"⟩

def versionOption : OptionEntry := ⟨some 'V', "version", none, false, "Print version"⟩

def intervalOption : OptionEntry :=
  ⟨none, "interval-ms", some "INTERVAL_MS", false, "Poll interval in milliseconds [default: 1000]"⟩

def staleOption : OptionEntry :=
  ⟨none, "stale-after-secs", some "STALE_AFTER_SECS", false,
    "Treat runs untouched for this many seconds as interrupted "
      ++ "(defaults to \x60sync.stale_run_after_secs\x60)"⟩

/-- The options that every command takes. -/
def commonOptions : List OptionEntry := [jsonOption, verboseOption, configOption, helpOption]

def collectionArgument : String × String := ("<COLLECTION>", "Target collection")

def about : Topic → String
  | program => "Incremental remote-to-collection sync"
  | status => "Show the sync record of a collection"
  | cancel => "Request cancellation of a running sync"
  | watch => "Follow a running sync until it finishes"
  | recover => "Fail sync runs interrupted by a crash"
  | config => "View and validate configuration"
  | settings .display => "Display the effective configuration"
  | settings .check => "Validate the configuration file"
  | settings .location => "Print the configuration file path"
  | help _ => "Print this message or the help of the given subcommand(s)"

/-- The commands below a topic, by name. -/
def commands : Topic → List (String × Topic)
  | program =>
    [("status", status), ("cancel", cancel), ("watch", watch), ("recover", recover),
      ("config", config), ("help", help false)]
  | config =>
    [("show", settings .display), ("validate", settings .check), ("path", settings .location),
      ("help", help true)]
  | _ => []

def command? (t : Topic) (name : String) : Option Topic :=
  (t.commands.find? fun c => c.1 = name).map (·.2)

def usage : Topic → String
  | program => programName ++ " [OPTIONS] <COMMAND>"
  | status => programName ++ " status [OPTIONS] <COLLECTION>"
  | cancel => programName ++ " cancel [OPTIONS] <COLLECTION>"
  | watch => programName ++ " watch [OPTIONS] <COLLECTION>"
  | recover => programName ++ " recover [OPTIONS]"
  | config => programName ++ " config [OPTIONS] <COMMAND>"
  | settings .display => programName ++ " config show [OPTIONS]"
  | settings .check => programName ++ " config validate [OPTIONS]"
  | settings .location => programName ++ " config path [OPTIONS]"
  | help ofConfig => programName ++ (if ofConfig then " config" else "") ++ " help [COMMAND]..."

def arguments : Topic → List (String × String)
  | status | cancel | watch => [collectionArgument]
  | help _ => [("[COMMAND]...", "Print help for the subcommand(s)")]
  | _ => []

def options : Topic → List OptionEntry
  | program => commonOptions ++ [versionOption]
  | watch => intervalOption :: commonOptions
  | recover => [jsonOption, staleOption, verboseOption, configOption, helpOption]
  | help _ => []
  | _ => commonOptions

def manual (t : Topic) : Manual where
  about := t.about
  usage := t.usage
  commands := t.commands.map fun c => (c.1, c.2.about)
  arguments := t.arguments
  options := t.options

end Topic

end CollectionSync.Command
