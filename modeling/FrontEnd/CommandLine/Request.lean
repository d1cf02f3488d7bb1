import FrontEnd.Journal
import FrontEnd.Text.Quoted

/-! # Requests

The arguments of the command line, read from left to right. Options may stand anywhere before a
pair of dashes, and behind it every word is a file. The first thing that is wrong ends the
reading, and so does a wish for help or for the version.
-/

namespace FrontEnd.CommandLine

/-- The gravest events only, or none: which entries of the journal are shown. -/
abbrev Threshold := Option Journal.Level

def thresholds : List (String × Threshold) :=
  [("off", none), ("error", some .error), ("warn", some .warn), ("info", some .info),
    ("debug", some .debug), ("trace", some .trace)]

/-- The threshold with a name, in letters of either case. -/
def threshold? (name : String) : Option Threshold :=
  (thresholds.find? fun named => named.1 == name.map Char.toLower).map Prod.snd

/-- What the program is asked to do. -/
structure Request where
  file : String
  echoSource : Bool
  hideTokens : Bool
  threshold : Option Threshold
deriving DecidableEq, Repr

inductive UsageError where
  | missingFile
  | unexpected (word : String)
  | repeated (option : String)
  | takesNoValue (option : String)
  | missingValue (option : String)
  | unknownLevel (value : String)
deriving DecidableEq, Repr

def UsageError.message : UsageError → String
  | missingFile => "the argument <FILE> is missing"
  | unexpected word => "unexpected argument '" ++ word ++ "'"
  | repeated option => "the option '" ++ option ++ "' cannot be used twice"
  | takesNoValue option => "the option '" ++ option ++ "' takes no value"
  | missingValue option => "the option '" ++ option ++ "' needs a value"
  | unknownLevel value => "there is no log level '" ++ value ++ "'"

/-- What the arguments come to. -/
inductive Reading where
  | help
  | version
  | wrong (error : UsageError)
  | request (request : Request)
deriving DecidableEq, Repr

/-- What has been read so far. -/
structure Draft where
  file : Option String := none
  echoSource : Bool := false
  hideTokens : Bool := false
  threshold : Option Threshold := none
deriving DecidableEq, Repr

namespace Draft

/-- The request that a draft has come to; a threshold that was not asked for is taken from the
environment if it is set there. -/
def complete (draft : Draft) (environment : Option String) : Reading :=
  let chosen : Except UsageError (Option Threshold) :=
    match draft.threshold, environment with
    | some threshold, _ => .ok (some threshold)
    | none, none => .ok none
    | none, some value =>
      match threshold? value with
      | none => .error (.unknownLevel value)
      | some threshold => .ok (some threshold)
  match chosen, draft.file with
  | .error error, _ => .wrong error
  | .ok _, none => .wrong .missingFile
  | .ok threshold, some file => .request ⟨file, draft.echoSource, draft.hideTokens, threshold⟩

def withFile (draft : Draft) (word : String) : Except UsageError Draft :=
  if draft.file.isSome then .error (.unexpected word) else .ok { draft with file := some word }

/-- Take a word as the level of a `--log-level` option. -/
def withLevel (draft : Draft) (value : String) : Except UsageError Draft :=
  if draft.threshold.isSome then .error (.repeated "--log-level")
  else
    match threshold? value with
    | none => .error (.unknownLevel value)
    | some threshold => .ok { draft with threshold := some threshold }

/-- Take words behind a pair of dashes, all of which are files. -/
def withFiles (draft : Draft) : List String → Except UsageError Draft
  | [] => .ok draft
  | word :: rest =>
    match draft.withFile word with
    | .error error => .error error
    | .ok later => later.withFiles rest

end Draft

/-- A single word of the arguments. -/
inductive Word where
  | dashes
  | echoSource
  | hideTokens
  | logLevel
  | logLevelWith (value : String)
  | help
  | version
  | file
  | wrong (error : UsageError)
deriving DecidableEq, Repr

/-- The words that stand for an option without a value. -/
def switches : List (String × Word) :=
  [("--", .dashes), ("--echo-source", .echoSource), ("--no-trace-scan", .hideTokens),
    ("--log-level", .logLevel), ("--help", .help), ("--version", .version)]

def Word.of (word : String) : Word :=
  match switches.find? fun switch => switch.1 == word with
  | some switch => switch.2
  | none =>
    match word.toList with
    | '-' :: '-' :: long =>
      let name := String.ofList ('-' :: '-' :: long.takeWhile (· ≠ '='))
      match long.dropWhile (· ≠ '=') with
      | [] => .wrong (.unexpected word)
      | _ :: value =>
        if name == "--log-level" then .logLevelWith (String.ofList value)
        else if switches.any fun switch => switch.1 == name then .wrong (.takesNoValue name)
        else .wrong (.unexpected word)
    | '-' :: 'h' :: _ => .help
    | '-' :: 'V' :: _ => .version
    | '-' :: _ :: _ => .wrong (.unexpected word)
    | _ => .file

/-- Read the arguments, given what the environment says about the log level. -/
def read (environment : Option String) (draft : Draft) : List String → Reading
  | [] => draft.complete environment
  | word :: rest =>
    match Word.of word with
    | .help => .help
    | .version => .version
    | .wrong error => .wrong error
    | .dashes =>
      match draft.withFiles rest with
      | .error error => .wrong error
      | .ok last => last.complete environment
    | .echoSource =>
      if draft.echoSource then .wrong (.repeated word)
      else read environment { draft with echoSource := true } rest
    | .hideTokens =>
      if draft.hideTokens then .wrong (.repeated word)
      else read environment { draft with hideTokens := true } rest
    | .logLevelWith value =>
      match draft.withLevel value with
      | .error error => .wrong error
      | .ok later => read environment later rest
    | .logLevel =>
      match rest with
      | [] => .wrong (.missingValue word)
      | value :: later =>
        match draft.withLevel value with
        | .error error => .wrong error
        | .ok last => read environment last later
    | .file =>
      match draft.withFile word with
      | .error error => .wrong error
      | .ok later => read environment later rest

namespace Request

/-- The name of a threshold in the description of a request. -/
def thresholdText : Threshold → String
  | none => "Off"
  | some .error => "Error"
  | some .warn => "Warn"
  | some .info => "Info"
  | some .debug => "Debug"
  | some .trace => "Trace"

/-- A request in words, for the journal. -/
def description (request : Request) : String :=
  let level :=
    match request.threshold with
    | none => "None"
    | some threshold => "Some(" ++ thresholdText threshold ++ ")"
  "App \x7b file: " ++ Text.quoted request.file ++ ", echo_source: " ++
    toString request.echoSource ++ ", no_trace_scan: " ++ toString request.hideTokens ++
    ", log_level: " ++ level ++ " \x7d"

end FrontEnd.CommandLine.Request
