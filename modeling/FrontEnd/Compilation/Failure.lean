import FrontEnd.Compilation.Settings
import FrontEnd.Fault
import FrontEnd.Path.Basic

/-! # Failures of a compilation

What stops a compilation: a stage that is not there, or a file or listing that cannot be read,
created or written. Faults in the compiled program are not failures.
-/

namespace FrontEnd

/-- A stage that a compilation is given. -/
inductive Stage where
  | parser
  | analyzer
  | codeGenerator
deriving DecidableEq, Repr

def Stage.name : Stage → String
  | parser => "parser"
  | analyzer => "analyzer"
  | codeGenerator => "code generator"

/-- Why a compilation stopped. -/
inductive Failure where
  | missingStage (stage : Stage) (phase : Phase)
  | sourceUnreadable (path : Path) (fault : Fault)
  | listingNotCreated (path : Path) (fault : Fault)
  | codeNotCreated (path : Path) (fault : Fault)
  | codeNotWritten (path : Path) (fault : Fault)
  | listingNotWritten (fault : Fault)
deriving DecidableEq, Repr

namespace Failure

def fault? : Failure → Option Fault
  | missingStage .. => none
  | sourceUnreadable _ fault | listingNotCreated _ fault | codeNotCreated _ fault
  | codeNotWritten _ fault | listingNotWritten fault => some fault

/-- The wording of a failure, without the fault behind it. -/
def headline : Failure → String
  | missingStage stage phase =>
    "No " ++ stage.name ++ " is available to run the " ++ phase.name ++ " phase"
  | sourceUnreadable path _ => "File " ++ path.text ++ " not found"
  | listingNotCreated path _ => "Unable to create listing file " ++ path.text
  | codeNotCreated path _ => "Unable to open " ++ path.text
  | codeNotWritten path _ => "Unable to write to " ++ path.text
  | listingNotWritten _ => "Unable to write to the listing"

/-- A short name for the kind of failure. -/
def title : Failure → String
  | missingStage .. => "Missing Stage"
  | sourceUnreadable .. => "File Not Found"
  | listingNotCreated .. | codeNotCreated .. => "Unable To Create File"
  | codeNotWritten .. | listingNotWritten _ => "Unable To Write File"

def message (failure : Failure) : String :=
  match failure.fault? with
  | none => failure.headline
  | some fault => failure.headline ++ " (" ++ fault.message ++ ")"

def suggestion : Failure → Option String
  | missingStage _ phase =>
    some ("run an earlier phase than " ++ phase.name ++ ", or provide the stage")
  | sourceUnreadable .. => some "a `.tny` extension is added when the file name has none"
  | _ => none

end FrontEnd.Failure
