import Scenario.Binary64.Decimal
import Scenario.Text.Blank

/-!
# Arguments of the command line

The switches, each with a long name and most with a letter, and how a list of arguments is read.

* `Request.ofArguments` reads the arguments one after the other. The first thing that is wrong is
  reported; a wish for help or for the version ends the reading.
* A value follows its switch as the next argument, behind `=`, or directly behind the letter. The
  next argument is no value if it looks like a switch.
* `Arguments.completed` takes what is missing from environment variables.
* `helpLines` is the text that explains all this.
-/

namespace Scenario

namespace CommandLine

/-- How reports are written. -/
inductive ReportFormat where
  | json
  | yaml
  | text
deriving DecidableEq, Repr

/-- The formats with their names. -/
def ReportFormat.names : List (String × ReportFormat) :=
  [("json", .json), ("yaml", .yaml), ("text", .text)]

/-- A switch. -/
inductive Switch where
  | path
  | filter
  | environment
  | verbose
  | timeout
  | reportFolder
  | reportFormat
  | value
  | help
  | version
deriving DecidableEq, Repr

namespace Switch

/-- All switches in the order in which they are explained. -/
def all : List Switch :=
  [path, filter, environment, verbose, timeout, reportFolder, reportFormat, value, help, version]

/-- The letter of a switch. -/
def letter? : Switch → Option Char
  | path => some 'p'
  | filter => some 'f'
  | environment => some 'e'
  | verbose => some 'v'
  | timeout => some 't'
  | reportFolder => some 'r'
  | reportFormat => none
  | value => none
  | help => some 'h'
  | version => some 'V'

/-- The long name of a switch. -/
def longName : Switch → String
  | path => "path"
  | filter => "filter"
  | environment => "env"
  | verbose => "verbose"
  | timeout => "timeout"
  | reportFolder => "report-dir"
  | reportFormat => "report-format"
  | value => "var"
  | help => "help"
  | version => "version"

/-- What stands for the value of a switch, if it takes one. -/
def placeholder? : Switch → Option String
  | path => some "CASE_PATH"
  | filter => some "CASE_FILTER"
  | environment => some "ENVIRONMENT"
  | verbose => none
  | timeout => some "TIMEOUT"
  | reportFolder => some "REPORT_DIR"
  | reportFormat => some "REPORT_FORMAT"
  | value => some "KEY=VALUE"
  | help => none
  | version => none

/-- The environment variable that stands in for a switch. -/
def standIn? : Switch → Option String
  | path => some "STEPCASE_PATH"
  | environment => some "STEPCASE_ENV"
  | reportFolder => some "STEPCASE_REPORT_DIR"
  | _ => none

/-- What a switch does. -/
def purpose : Switch → String
  | path => "Case file or directory path"
  | filter => "Filter cases by name or code (partial match)"
  | environment => "Environment used to resolve relative request URLs"
  | verbose => "Enable verbose logging"
  | timeout => "Timeout in seconds per HTTP request"
  | reportFolder => "Directory to save case report files"
  | reportFormat => "Report output format"
  | value => "Initial session variable, \x60key=value\x60. The value is parsed as JSON when " ++
      "possible. Repeatable"
  | help => "Print help"
  | version => "Print version"

/-- A switch with what stands for its value. -/
def usage (switch : Switch) : String :=
  "--" ++ switch.longName ++
    match switch.placeholder? with
    | some p => " <" ++ p ++ ">"
    | none => ""

end Switch

/-- What the arguments ask for. -/
structure Arguments where
  path : Option String := none
  filter : Option String := none
  environment : Option String := none
  verbose : Bool := false
  /-- Seconds for a whole exchange. -/
  timeout : Option Binary64 := none
  reportFolder : Option String := none
  format : ReportFormat := .json
  /-- Variables to start from, each as `key=value`. -/
  values : List String := []

/-- What is wrong with arguments. -/
inductive Misuse where
  | unexpected (argument : String)
  | repeated (switch : Switch)
  | withoutValue (switch : Switch)
  | withValue (switch : Switch) (value : String)
  | noNumber (value : String)
  | noFormat (value : String)
deriving DecidableEq, Repr

/-- The wording. -/
def Misuse.message : Misuse → String
  | unexpected argument => "unexpected argument '" ++ argument ++ "' found"
  | repeated switch =>
    "the argument '" ++ switch.usage ++ "' cannot be used multiple times"
  | withoutValue switch =>
    "a value is required for '" ++ switch.usage ++ "' but none was supplied"
  | withValue switch value =>
    "unexpected value '" ++ value ++ "' for '" ++ switch.usage ++ "' found; no more were expected"
  | noNumber value =>
    "invalid value '" ++ value ++ "' for '" ++ Switch.timeout.usage ++ "': " ++
      (if value.isEmpty then "cannot parse float from empty string" else "invalid float literal")
  | noFormat value =>
    "invalid value '" ++ value ++ "' for '" ++ Switch.reportFormat.usage ++
      "'\n  [possible values: json, yaml, text]"

/-- What the command line is used for. -/
inductive Request where
  | run (arguments : Arguments)
  | help
  | version

/-- Arguments on their way. -/
structure Draft where
  arguments : Arguments := {}
  seen : List Switch := []

namespace Draft

/-- Notes that a switch has come. Only values may come more than once. -/
def meet (draft : Draft) (switch : Switch) : Except Misuse Draft :=
  if switch ≠ .value && switch ∈ draft.seen then .error (.repeated switch)
  else .ok { draft with seen := switch :: draft.seen }

/-- Sets the value of a switch. -/
def assign (draft : Draft) (switch : Switch) (value : String) : Except Misuse Draft := do
  let met ← draft.meet switch
  let set (arguments : Arguments) : Except Misuse Draft := .ok { met with arguments }
  let arguments := met.arguments
  match switch with
  | .path => set { arguments with path := some value }
  | .filter => set { arguments with filter := some value }
  | .environment => set { arguments with environment := some value }
  | .reportFolder => set { arguments with reportFolder := some value }
  | .value => set { arguments with values := arguments.values ++ [value] }
  | .timeout =>
    match Binary64.ofText? value with
    | some seconds => set { arguments with timeout := some seconds }
    | none => .error (.noNumber value)
  | .reportFormat =>
    match List.find? (fun entry => entry.1 = value) ReportFormat.names with
    | some (_, format) => set { arguments with format }
    | none => .error (.noFormat value)
  -- these take no value
  | .verbose => .error (.withValue switch value)
  | .help => .error (.withValue switch value)
  | .version => .error (.withValue switch value)

end Draft

/-- How the reading goes on after a switch: with the next argument, with a value for the switch, or
not at all. -/
inductive Progress where
  | next (draft : Draft)
  | awaiting (switch : Switch) (draft : Draft)
  | done (request : Request)

/-- A switch without a value. -/
def takeSwitch (draft : Draft) (switch : Switch) : Except Misuse Progress :=
  match switch with
  | .help => .ok (.done .help)
  | .version => .ok (.done .version)
  | .verbose => do
    let draft ← draft.meet .verbose
    return .next { draft with arguments := { draft.arguments with verbose := true } }
  | switch => .ok (.awaiting switch draft)

/-- A switch with its long name. -/
def takeLong (draft : Draft) (argument : String) : Except Misuse Progress :=
  let (name, value?) := match Text.splitOnce? '=' argument with
    | some (name, value) => (name, some value)
    | none => (argument, none)
  match Switch.all.find? (fun s => "--" ++ s.longName = name), value? with
  | none, _ => .error (.unexpected argument)
  | some switch, none => takeSwitch draft switch
  | some switch, some value => Progress.next <$> draft.assign switch value

/-- Letters, each a switch. What stands behind a letter that takes a value is the value. -/
def takeLetters (draft : Draft) : List Char → Except Misuse Progress
  | [] => .ok (.next draft)
  | c :: rest =>
    match Switch.all.find? fun s => s.letter? = some c with
    | none => .error (.unexpected ("-" ++ c.toString))
    | some switch =>
      match switch.placeholder?, rest with
      -- nothing is left behind the letter, so that the value is the next argument
      | some _, [] => .ok (.awaiting switch draft)
      | some _, '=' :: value => Progress.next <$> draft.assign switch (String.ofList value)
      | some _, value => Progress.next <$> draft.assign switch (String.ofList value)
      | none, '=' :: value => .error (.withValue switch (String.ofList value))
      | none, rest =>
        match takeSwitch draft switch with
        | .ok (.next draft) => takeLetters draft rest
        -- a switch that asks for help or for the version ends the reading at once
        | other => other

/-- Reads arguments; `awaiting` is a switch whose value comes next. -/
def readArguments (awaiting : Option Switch) (draft : Draft) : List String → Except Misuse Request
  | [] =>
    match awaiting with
    | some switch => .error (.withoutValue switch)
    | none => .ok (.run draft.arguments)
  | argument :: rest =>
    -- a hyphen alone may be a value
    if argument.startsWith "-" && argument ≠ "-" then
      match awaiting with
      | some switch => .error (.withoutValue switch)
      | none =>
        -- only arguments without a switch may stand behind `--`, and no such argument is known
        if argument = "--" then
          match rest with
          | [] => .ok (.run draft.arguments)
          | extra :: _ => .error (.unexpected extra)
        else
          let progress :=
            if argument.startsWith "--" then takeLong draft argument
            else takeLetters draft (argument.toList.drop 1)
          match progress with
          | .error misuse => .error misuse
          | .ok (.done request) => .ok request
          | .ok (.next draft) => readArguments none draft rest
          | .ok (.awaiting switch draft) => readArguments (some switch) draft rest
    else
      match awaiting with
      | none => .error (.unexpected argument)
      | some switch =>
        match draft.assign switch argument with
        | .error misuse => .error misuse
        | .ok draft => readArguments none draft rest

/-- **Reading the arguments.** -/
def Request.ofArguments (arguments : List String) : Except Misuse Request :=
  readArguments none {} arguments

/-- **The arguments with what environment variables say.** -/
def Arguments.completed (arguments : Arguments) (lookup? : String → Option String) : Arguments :=
  let fromOutside (switch : Switch) := switch.standIn?.bind lookup?
  { arguments with
    path := arguments.path <|> fromOutside .path
    environment := arguments.environment <|> fromOutside .environment
    reportFolder := arguments.reportFolder <|> fromOutside .reportFolder }

/-! ### Explaining the switches -/

/-- What is said of the values of a switch. -/
def valueNotes (lookup? : String → Option String) (switch : Switch) : List String :=
  (switch.standIn?.map fun name =>
    "[env: " ++ name ++ "=" ++ (lookup? name).getD "" ++ "]").toList ++
  (if switch = .reportFormat then ["[default: json]", "[possible values: json, yaml, text]"]
    else [])

/-- The two lines that explain a switch. -/
def switchLines (lookup? : String → Option String) (switch : Switch) : List String :=
  let letter := match switch.letter? with
    | some c => "-" ++ c.toString ++ ", "
    | none => "    "
  ["  " ++ letter ++ switch.usage,
    "          " ++ " ".intercalate (switch.purpose :: valueNotes lookup? switch)]

/-- How the program is called. -/
def usageLine : String := "Usage: stepcase [OPTIONS]"

/-- **The text that explains the command line.** -/
def helpLines (lookup? : String → Option String) : List String :=
  ["Step-tree execution engine for automated API test cases", "", usageLine, "", "Options:"] ++
    Switch.all.flatMap (switchLines lookup?)

/-- The name and the version of the program. -/
def versionLine : String := "stepcase 0.1.0"

/-- What is said of arguments that cannot be read. -/
def misuseLines (misuse : Misuse) : List String :=
  Text.split '\n' ("error: " ++ misuse.message) ++
    ["", usageLine, "", "For more information, try '--help'."]

end CommandLine

end Scenario
