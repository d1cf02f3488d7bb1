import FrontEnd.CommandLine.Help
import FrontEnd.CommandLine.Request
import FrontEnd.Compilation.Build
import FrontEnd.Terminal.Notice
import FrontEnd.Terminal.Plain

/-! # Invocations

One call of the program builds one file with no stages beyond the scanner, and tells how it went by
its exit status: zero for a program without errors, one for a program with errors, and two when
there was nothing to build or no place for the listing.
-/

namespace FrontEnd.CommandLine

/-- How a call of the program ends. -/
structure Exit where
  status : UInt8
  misuse : Option UsageError
  output : String
  errors : String
  files : FileTree
deriving DecidableEq

/-- The threshold when none is asked for. -/
def defaultThreshold : Threshold := some .warn

/-- Whether an event is grave enough to be shown. -/
def isShown (threshold : Threshold) (entry : Journal.Entry) : Bool :=
  match threshold with
  | none => false
  | some level => entry.level.rank ≤ level.rank

/-- The severity of an event at the head of its row. -/
def levelSpan (level : Journal.Level) : Terminal.Span :=
  let text := Text.alignRight 5 level.name
  match level with
  | .error => { text, colour := some .brightRed }
  | .warn => { text, colour := some .yellow }
  | .info => { text, colour := some .green }
  | .debug => { text, colour := some .blue }
  | .trace => { text, weight := some .dim }

def journalRow (entry : Journal.Entry) : List Terminal.Span :=
  [levelSpan entry.level, { text := " " }, { text := "[", weight := some .dim },
      { text := entry.target, weight := some .dim }, { text := "]", weight := some .dim },
      { text := " " }] ++
    entry.parts.map (fun part => { text := part }) ++ [{ text := "\n" }]

/-- A notice as it is shown, with an empty line behind it. -/
def noticeText (notice : Terminal.Notice) : String :=
  Terminal.plain (notice.spans ++ [{ text := "\n" }])

def Request.settings (request : Request) : Settings :=
  { echoSource := request.echoSource, traceScan := !request.hideTokens }

def Request.carryOut (request : Request) (files : FileTree) : Exit :=
  let build : Build Empty := Build.ofProgram .none request.settings request.file files
  let shown := (.starting request.description :: build.journal).filter
    (isShown (request.threshold.getD defaultThreshold))
  let journal := Terminal.plain (shown.flatMap journalRow)
  match build.result with
  | .error failure =>
    ⟨2, none, "", journal ++ noticeText (.ofFailure failure), build.files⟩
  | .ok outcome =>
    if outcome.flagged then
      let notice := Terminal.Notice.warning ("Errors found in `" ++ request.file ++ "`")
        ("see the listing `" ++ outcome.listing.text ++ "`")
      ⟨1, none, "", journal ++ noticeText notice, build.files⟩
    else
      let done : List Terminal.Span :=
        [{ text := "Listing written to `" }, { text := outcome.listing.text }, { text := "`\n" }]
      ⟨0, none, Terminal.plain done, journal, build.files⟩

/-- The paths that a call of the program reads or writes. -/
def pathsOf (arguments : List String) (environment : Option String) : List Path :=
  match read environment {} arguments with
  | .request request =>
    let source := Path.ofProgram request.file
    [source, source.listing]
  | _ => []

def misuseText (error : UsageError) : String :=
  "error: " ++ error.message ++ "\n\n" ++ usage ++ "\n\nFor more information, try '--help'.\n"

/-- Call the program with arguments, what the environment says about the log level, and files. -/
def invoke (arguments : List String) (environment : Option String) (files : FileTree) : Exit :=
  match read environment {} arguments with
  | .help => ⟨0, none, Terminal.plain (helpSpans environment), "", files⟩
  | .version => ⟨0, none, versionText, "", files⟩
  | .wrong error => ⟨2, some error, "", Terminal.plain [{ text := misuseText error }], files⟩
  | .request request => request.carryOut files

end FrontEnd.CommandLine
