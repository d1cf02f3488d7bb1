import FrontEnd.Compilation.Run
import FrontEnd.Path.Companion

/-! # Building a program

A build reads the source of a program, creates the listing beside it and runs the phases into that
listing. Each build starts with a status of its own. Whatever a run wrote before it stopped is in
the listing file.
-/

namespace FrontEnd

/-- What a build that was not stopped has come to. -/
structure Outcome where
  listing : Path
  code : Option Path
  flagged : Bool
deriving DecidableEq, Repr

/-- A build and what it leaves behind. -/
structure Build (ρ : Type) where
  result : Except Failure Outcome
  files : FileTree
  journal : List Journal.Entry
  reports : List ρ
  calls : List StageCall

namespace Build

variable {ρ : Type}

/-- A build that stopped before it changed anything. -/
def refused (files : FileTree) (failure : Failure) : Build ρ :=
  ⟨.error failure, files, [], [], []⟩

/-- The first lines of a listing file. -/
def header (source : Path) : String :=
  "\nTINY COMPILATION: " ++ source.text ++ "\n"

/-- The run of a build, which starts with the header of its listing. -/
def run (stages : Stages ρ) (settings : Settings) (source : Path) (text : String) :
    Run ρ (Option Path) := do
  Run.write (header source)
  Run.ofStages stages settings text source.code

/-- What a run leaves behind, with its listing in the file at a location. -/
def ofRun (source : Path) (location : Location)
    (result : EStateM.Result Failure (Workspace ρ) (Option Path)) : Build ρ :=
  let leave (outcome : Workspace ρ → Except Failure Outcome) (workspace : Workspace ρ) : Build ρ :=
    ⟨outcome workspace, workspace.files.put location (.file workspace.listing.content),
      workspace.journal, workspace.reports, workspace.calls⟩
  match result with
  | .ok code workspace =>
    leave (fun last => .ok ⟨source.listing, code, last.status.flagged⟩) workspace
  | .error failure workspace => leave (fun _ => .error failure) workspace

def ofProgram (stages : Stages ρ) (settings : Settings) (program : String) (files : FileTree) :
    Build ρ :=
  match stages.plan settings.phase with
  | .error stage => refused files (.missingStage stage settings.phase)
  | .ok _ =>
    let source := Path.ofProgram program
    match files.read source with
    | .error fault => refused files (.sourceUnreadable source fault)
    | .ok text =>
      match files.create source.listing with
      | .error fault => refused files (.listingNotCreated source.listing fault)
      | .ok (location, created) =>
        let workspace : Workspace ρ :=
          { Workspace.start {} none created with
            journal := [.compiling source.text source.listing.text] }
        ofRun source location ((run stages settings source text).run workspace)

end FrontEnd.Build
