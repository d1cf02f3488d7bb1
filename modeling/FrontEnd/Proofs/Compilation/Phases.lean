import FrontEnd.Compilation.Run

/-! # The phases in steps

Each phase is a sequence of small computations on a workspace. What scanning and parsing have in
common is a transcribed use of a parser; an analyzer's desk is a view of the workspace, so what is
done at the desk is done on the workspace.
-/

namespace FrontEnd

/-- A parser that only takes the tokens of a source. -/
def Parser.draining (ρ : Type) : Parser ρ where
  parse session := ⟨session.drain.2, .ok .empty, []⟩

namespace Run

variable {ρ α β γ : Type}

/-- The workspace that a computation leaves behind, whether or not it stopped. -/
def after (work : Run ρ α) (workspace : Workspace ρ) : Workspace ρ :=
  match work workspace with
  | .ok _ last => last
  | .error _ last => last

theorem after_of_ok {work : Run ρ α} {workspace last : Workspace ρ} {value : α}
    (done : work workspace = .ok value last) : after work workspace = last := by
  rw [after, done]

theorem after_of_error {work : Run ρ α} {workspace last : Workspace ρ} {failure : Failure}
    (stopped : work workspace = .error failure last) : after work workspace = last := by
  rw [after, stopped]

theorem bind_of_ok {work : Run ρ α} {later : α → Run ρ β} {workspace last : Workspace ρ}
    {value : α} (done : work workspace = .ok value last) :
    (work >>= later) workspace = later value last := by
  simp only [bind, EStateM.bind, done]

theorem bind_of_error {work : Run ρ α} {later : α → Run ρ β} {workspace last : Workspace ρ}
    {failure : Failure} (stopped : work workspace = .error failure last) :
    (work >>= later) workspace = .error failure last := by
  simp only [bind, EStateM.bind, stopped]

/-- A computation that leaves a part of the workspace as it is. -/
def Keeps (part : Workspace ρ → γ) (work : Run ρ α) : Prop :=
  ∀ workspace, part (after work workspace) = part workspace

theorem Keeps.bind {part : Workspace ρ → γ} {work : Run ρ α} {later : α → Run ρ β}
    (first : Keeps part work) (second : ∀ value, Keeps part (later value)) :
    Keeps part (work >>= later) := by
  intro workspace
  have kept := first workspace
  cases done : work workspace with
  | ok value last =>
    rw [after_of_ok done] at kept
    rw [after, bind_of_ok done, ← kept]
    exact second value last
  | error failure last =>
    rw [after_of_error done] at kept
    rwa [after_of_error (bind_of_error done)]

/-- Without a limit a write succeeds. -/
theorem write_unlimited {workspace : Workspace ρ} (unlimited : workspace.listing.limit = none)
    (text : String) :
    write text workspace = .ok () { workspace with listing := workspace.listing.write text } := by
  simp only [write, Listing.fits, unlimited, ↓reduceIte]

theorem writeWhen_unlimited {workspace : Workspace ρ} (unlimited : workspace.listing.limit = none)
    (wanted : Bool) (text : String) :
    writeWhen wanted text workspace =
      .ok () { workspace with
        listing := if wanted then workspace.listing.write text else workspace.listing } := by
  cases wanted with
  | false => rfl
  | true => exact write_unlimited unlimited text

/-! ## Scanning and parsing -/

/-- A transcript starts unbroken, at the start of a source and in the listing of a workspace. -/
theorem openTranscript_scanner (settings : Settings) (source : String) (workspace : Workspace ρ) :
    let scanner := (openTranscript settings source workspace).scanner
    scanner.fault = none ∧ scanner.listing = workspace.listing ∧
      scanner.inner = Lexer.ofSource source.toList := by
  unfold openTranscript
  cases settings.echoSource <;> exact ⟨rfl, rfl, rfl⟩

/-- A workspace that has taken over what a parser has come to. -/
def take (workspace : Workspace ρ) (parsed : Parsed ρ (Transcriber Lexer)) : Workspace ρ :=
  { workspace with
    status := parsed.session.status
    listing := parsed.session.scanner.listing
    journal := parsed.session.journal
    reports := workspace.reports ++ parsed.reports }

/-- The use of a parser over a source whose transcript goes into the listing. -/
def transcribe (settings : Settings) (source : String) (parser : Parser ρ) :
    Run ρ (Except OutOfMemory Forest) := fun workspace =>
  let parsed := parser.parse (openTranscript settings source workspace)
  match parsed.session.scanner.fault with
  | none => .ok parsed.result (take workspace parsed)
  | some fault => .error (.listingNotWritten fault) (take workspace parsed)

section

variable {settings : Settings} {source : String} {parser : Parser ρ} {workspace : Workspace ρ}
  {parsed : Parsed ρ (Transcriber Lexer)}
  (ran : parser.parse (openTranscript settings source workspace) = parsed)

include ran

theorem transcribe_of_sound (sound : parsed.session.scanner.fault = none) :
    transcribe settings source parser workspace = .ok parsed.result (take workspace parsed) := by
  simp only [transcribe, ran, sound]

theorem transcribe_of_fault {fault : Fault} (broken : parsed.session.scanner.fault = some fault) :
    transcribe settings source parser workspace =
      .error (.listingNotWritten fault) (take workspace parsed) := by
  simp only [transcribe, ran, broken]

end

/-- The forest of a parser, which is empty if memory ran out. -/
def accept : Except OutOfMemory Forest → Run ρ Forest
  | .ok forest => do
    note (.parsed forest.size)
    pure forest
  | .error failure => do
    note (.parsingAbandoned failure)
    write (failure.message ++ "\n")
    flag
    pure .empty

/-- Pulling a parser through a transcript and closing the transcript is one use of the parser. -/
theorem transcribe_bind (settings : Settings) (source : String) (parser : Parser ρ)
    (later : Except OutOfMemory Forest → Run ρ α) :
    (do
      let workspace ← get
      let parsed := parser.parse (openTranscript settings source workspace)
      modify fun workspace => { workspace with reports := workspace.reports ++ parsed.reports }
      closeTranscript parsed.session
      later parsed.result) = transcribe settings source parser >>= later := by
  funext workspace
  change (closeTranscript _ >>= fun _ => later _) _ = _
  simp only [bind, EStateM.bind, transcribe, closeTranscript, Transcriber.outcome]
  cases (parser.parse (openTranscript settings source workspace)).session.scanner.fault <;> rfl

theorem parse_eq (settings : Settings) (source : String) (parser : Parser ρ) :
    parse settings source parser = (do
      note .parsing
      call .parse
      let result ← transcribe settings source parser
      let forest ← accept result
      writeWhen settings.traceParse ("\nSyntax tree:\n" ++ forest.outline)
      pure forest) := by
  simp only [← transcribe_bind]
  unfold parse
  refine bind_congr fun _ => bind_congr fun _ => bind_congr fun workspace =>
    bind_congr fun _ => bind_congr fun _ => ?_
  cases (parser.parse (openTranscript settings source workspace)).result with
  | ok forest => simp only [accept, bind_assoc, pure_bind]
  | error failure => simp only [accept, bind_assoc, pure_bind]

theorem scan_eq (settings : Settings) (source : String) :
    (scan settings source : Run ρ Unit) = (do
      writeWhen settings.traceScan scanHeader
      let _ ← transcribe settings source (.draining ρ)
      note (.scannedTo (← get).status.line)) := by
  simp only [← transcribe_bind, Parser.draining, List.append_nil]
  rfl

/-! ## Work at the desk -/

/-- What is done at an analyzer's desk, done on the workspace. -/
def onDesk (work : EStateM Fault Desk α) : Run ρ α := fun workspace =>
  let leave (desk : Desk) : Workspace ρ := { workspace with
    status := desk.status
    listing := desk.listing
    journal := desk.journal }
  match work ⟨workspace.status, workspace.listing, workspace.journal⟩ with
  | .ok value desk => .ok value (leave desk)
  | .error fault desk => .error (.listingNotWritten fault) (leave desk)

theorem atDesk_eq (stage : StageCall) (work : EStateM Fault Desk α) :
    (atDesk stage work : Run ρ α) = (do call stage; onDesk work) := rfl

theorem onDesk_pure (value : α) : onDesk (pure value) = (pure value : Run ρ α) := rfl

theorem onDesk_throw (fault : Fault) :
    onDesk (throw fault) = (throw (.listingNotWritten fault) : Run ρ α) := rfl

theorem onDesk_bind (work : EStateM Fault Desk α) (later : α → EStateM Fault Desk β) :
    onDesk (work >>= later) = (onDesk work >>= fun value => onDesk (later value) : Run ρ β) := by
  funext workspace
  simp only [onDesk, bind, EStateM.bind]
  cases work ⟨workspace.status, workspace.listing, workspace.journal⟩ <;> rfl

theorem onDesk_write (text : String) : onDesk (Desk.write text) = (write text : Run ρ Unit) := by
  funext workspace
  simp only [onDesk, Desk.write, write]
  cases workspace.listing.fits text <;> rfl

theorem onDesk_flag : onDesk Desk.flag = (flag : Run ρ Unit) := rfl

/-- Work that is made of writes, flags and failures, and reads nothing at the desk. -/
inductive Blind : {α : Type} → EStateM Fault Desk α → Prop where
  | pure {α : Type} (value : α) : Blind (pure value)
  | throw {α : Type} (fault : Fault) : Blind (throw fault : EStateM Fault Desk α)
  | write (text : String) : Blind (Desk.write text)
  | flag : Blind Desk.flag
  | bind {α β : Type} {work : EStateM Fault Desk α} {later : α → EStateM Fault Desk β} :
    Blind work → (∀ value, Blind (later value)) → Blind (work >>= later)

/-- An analyzer neither of whose passes reads anything at its desk. -/
structure BlindAnalyzer (analyzer : Analyzer) : Prop where
  symbols (forest : Forest) : Blind (analyzer.buildSymbols forest)
  types (forest : Forest) : Blind (analyzer.checkTypes forest)

/-! ## Generating code -/

theorem generate_apply (settings : Settings) (generator : CodeGenerator) (path : Path)
    (forest : Forest) (workspace : Workspace ρ) :
    generate settings generator path forest workspace =
      match workspace.files.create path with
      | .error fault => .error (.codeNotCreated path fault) workspace
      | .ok (location, files) =>
        let code := generator.generate forest path settings.traceCode
        let last := { workspace with
          files := files.put location (.file code.text.toUTF8)
          journal := workspace.journal ++ [.generating path.text]
          calls := workspace.calls ++ [.generate] }
        match code.fault with
        | none => .ok path last
        | some fault => .error (.codeNotWritten path fault) last := by
  have opened {later : Workspace ρ → Run ρ Path} :
      (get >>= later) workspace = later workspace workspace := rfl
  unfold generate
  rw [opened]
  generalize generator.generate forest path settings.traceCode = code
  obtain ⟨text, fault⟩ := code
  cases workspace.files.create path with
  | error refused => rfl
  | ok created => cases fault <;> rfl

end Run

end FrontEnd
