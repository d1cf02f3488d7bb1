import FrontEnd.Compilation.Stage
import FrontEnd.FileTree.Access
import FrontEnd.Forest.Outline
import FrontEnd.Lexer.Basic
import FrontEnd.Scanner.Transcriber

/-! # Running the phases

A run takes a source through the phases of its plan and writes a listing on the way. Once the
error flag is up no later stage is started, and all that was written stays. A parser that runs out
of memory has that written into the listing and leaves an empty forest. A run that stops on a
failure leaves its workspace as it was at that moment.
-/

namespace FrontEnd

/-- A stage's entry point that a run has called. -/
inductive StageCall where
  | parse
  | buildSymbols
  | checkTypes
  | generate
deriving DecidableEq, Repr

/-- What a run works on. -/
structure Workspace (ρ : Type) where
  status : Status
  listing : Listing
  files : FileTree
  journal : List Journal.Entry
  reports : List ρ
  /-- The stages called so far, in order. -/
  calls : List StageCall

namespace Workspace

variable {ρ : Type}

/-- A workspace with nothing in its listing and its journal. -/
def start (status : Status) (limit : Option Nat) (files : FileTree) : Workspace ρ :=
  ⟨status, .empty limit, files, [], [], []⟩

end Workspace

/-- A computation on a workspace that may stop on a failure. -/
abbrev Run (ρ : Type) := EStateM Failure (Workspace ρ)

namespace Run

variable {ρ : Type}

def write (text : String) : Run ρ Unit := fun workspace =>
  let written := { workspace with listing := workspace.listing.write text }
  if workspace.listing.fits text then .ok () written
  else .error (.listingNotWritten .listingFull) written

/-- Write into the listing if a setting asks for it. -/
def writeWhen (wanted : Bool) (text : String) : Run ρ Unit :=
  if wanted then write text else pure ()

/-- Add to the journal. -/
def note (entry : Journal.Entry) : Run ρ Unit :=
  modify fun workspace => { workspace with journal := workspace.journal ++ [entry] }

/-- Remember that a stage is called. -/
def call (stage : StageCall) : Run ρ Unit :=
  modify fun workspace => { workspace with calls := workspace.calls ++ [stage] }

def flag : Run ρ Unit :=
  modify fun workspace => { workspace with
    status := workspace.status.flag
    journal := workspace.journal ++ workspace.status.flagEntries }

/-- The header of the token rows. -/
def scanHeader : String :=
  "\n" ++ Text.alignLeft Token.columnWidth "line number" ++
    Text.alignLeft Token.columnWidth "token" ++ Text.alignLeft Token.columnWidth "lexeme" ++ "\n" ++
    String.ofList (List.replicate (3 * Token.columnWidth) '=') ++ "\n"

/-- A lexer of a source whose transcript goes into the listing of a workspace. -/
def openTranscript (settings : Settings) (source : String) (workspace : Workspace ρ) :
    Session (Transcriber Lexer) :=
  let transcriber :=
    (Transcriber.silent (Lexer.ofSource source.toList) workspace.listing).writingTokens
      settings.traceScan
  ⟨if settings.echoSource then transcriber.echoing source else transcriber,
    workspace.status, workspace.journal⟩

/-- Take over what a session has come to, and stop if its transcript has failed. -/
def closeTranscript (session : Session (Transcriber Lexer)) : Run ρ Unit := fun workspace =>
  let closed := { workspace with
    status := session.status
    listing := session.scanner.listing
    journal := session.journal }
  match session.scanner.outcome with
  | .ok _ => .ok () closed
  | .error fault => .error (.listingNotWritten fault) closed

/-- The scan phase on its own. -/
def scan (settings : Settings) (source : String) : Run ρ Unit := do
  writeWhen settings.traceScan scanHeader
  closeTranscript (openTranscript settings source (← get)).drain.2
  note (.scannedTo (← get).status.line)

/-- The parse phase, with the tree shown if that is wanted. -/
def parse (settings : Settings) (source : String) (parser : Parser ρ) : Run ρ Forest := do
  note .parsing
  call .parse
  let parsed := parser.parse (openTranscript settings source (← get))
  modify fun workspace => { workspace with reports := workspace.reports ++ parsed.reports }
  closeTranscript parsed.session
  let forest ← match parsed.result with
    | .ok forest => do
      note (.parsed forest.size)
      pure forest
    | .error failure => do
      note (.parsingAbandoned failure)
      write (failure.message ++ "\n")
      flag
      pure .empty
  writeWhen settings.traceParse ("\nSyntax tree:\n" ++ forest.outline)
  pure forest

/-- Let an analyzer work on the status and the listing. -/
def atDesk {α : Type} (stage : StageCall) (work : EStateM Fault Desk α) : Run ρ α := do
  call stage
  fun workspace =>
    let leave (desk : Desk) : Workspace ρ := { workspace with
      status := desk.status
      listing := desk.listing
      journal := desk.journal }
    match work ⟨workspace.status, workspace.listing, workspace.journal⟩ with
    | .ok value desk => .ok value (leave desk)
    | .error fault desk => .error (.listingNotWritten fault) (leave desk)

def analyze (settings : Settings) (analyzer : Analyzer) (forest : Forest) : Run ρ Forest := do
  writeWhen settings.traceAnalyze "\nBuilding Symbol Table...\n"
  atDesk .buildSymbols (analyzer.buildSymbols forest)
  writeWhen settings.traceAnalyze "\nChecking Types...\n"
  let checked ← atDesk .checkTypes (analyzer.checkTypes forest)
  writeWhen settings.traceAnalyze "\nType Checking Finished\n"
  pure checked

def generate (settings : Settings) (generator : CodeGenerator) (path : Path) (forest : Forest) :
    Run ρ Path := do
  match (← get).files.create path with
  | .error fault => throw (.codeNotCreated path fault)
  | .ok (location, files) =>
    modify fun workspace => { workspace with files }
    note (.generating path.text)
    call .generate
    let code := generator.generate forest path settings.traceCode
    modify fun workspace => { workspace with
      files := workspace.files.put location (.file code.text.toUTF8) }
    match code.fault with
    | none => pure path
    | some fault => throw (.codeNotWritten path fault)

/-- Whether an activity is skipped because an error was found. -/
def skips (activity : Journal.Activity) : Run ρ Bool := do
  if (← get).status.flagged then
    note (.skipping activity)
    pure true
  else pure false

def ofPlan (settings : Settings) (source : String) (codePath : Path) :
    Plan ρ → Run ρ (Option Path)
  | .scan => do
    scan settings source
    pure none
  | .parse parser => do
    let _ ← parse settings source parser
    pure none
  | .analyze parser analyzer => do
    let forest ← parse settings source parser
    if ← skips .analysis then pure none
    else
      let _ ← analyze settings analyzer forest
      pure none
  | .generate parser analyzer generator => do
    let forest ← parse settings source parser
    if ← skips .analysis then pure none
    else
      let checked ← analyze settings analyzer forest
      if ← skips .codeGeneration then pure none
      else some <$> generate settings generator codePath checked

/-- Run a source through the phases, yielding the path of its code if there is any. -/
def ofStages (stages : Stages ρ) (settings : Settings) (source : String) (codePath : Path) :
    Run ρ (Option Path) :=
  match stages.plan settings.phase with
  | .error stage => throw (.missingStage stage settings.phase)
  | .ok plan => ofPlan settings source codePath plan

end FrontEnd.Run
