import FrontEnd.Proofs.Compilation.Effects
import FrontEnd.Proofs.Scanner.Behind

/-! # Builds are runs

Nothing before the generation of code depends on the files, on what is already in the listing or on
the journal. The generation depends on the files, but not on the listing among them. So a build is
the run of its source on a fresh status, with a header before the listing.
-/

namespace FrontEnd

variable {ρ α β : Type} {header : ByteArray} {entries : List Journal.Entry}

/-- A workspace with other files, and with more before its listing and its journal. -/
def Workspace.behind (header : ByteArray) (entries : List Journal.Entry) (files : FileTree)
    (workspace : Workspace ρ) : Workspace ρ :=
  { workspace with
    listing := workspace.listing.behind header
    journal := entries ++ workspace.journal
    files }

namespace Run

/-- A computation that is the same with other files, and with more before its listing and its
journal. -/
def Unaware (work : Run ρ α) : Prop :=
  ∀ header entries files workspace,
    work (workspace.behind header entries files) =
      mapLast (Workspace.behind header entries files) (work workspace)

theorem Unaware.bind {work : Run ρ α} {later : α → Run ρ β} (first : Unaware work)
    (second : ∀ value, Unaware (later value)) : Unaware (work >>= later) := by
  intro header entries files workspace
  have ran := first header entries files workspace
  cases done : work workspace with
  | ok value last =>
    rw [done] at ran
    rw [bind_of_ok ran, bind_of_ok done]
    exact second value header entries files last
  | error failure last =>
    rw [done] at ran
    rw [bind_of_error ran, bind_of_error done]
    rfl

theorem unaware_write (text : String) : Unaware (write text : Run ρ Unit) := by
  intro header entries files workspace
  simp only [write, Workspace.behind, Listing.fits_behind, Listing.write_behind]
  cases workspace.listing.fits text <;> rfl

theorem unaware_note (entry : Journal.Entry) : Unaware (note entry : Run ρ Unit) := by
  intro header entries files workspace
  change EStateM.Result.ok () _ = EStateM.Result.ok () _
  simp only [Workspace.behind, List.append_assoc]

theorem unaware_flag : Unaware (flag : Run ρ Unit) := by
  intro header entries files workspace
  change EStateM.Result.ok () _ = EStateM.Result.ok () _
  simp only [Workspace.behind, List.append_assoc]

theorem openTranscript_behind (settings : Settings) (source : String) (files : FileTree)
    (workspace : Workspace ρ) :
    Session.IsBehind header entries
      (openTranscript settings source (workspace.behind header entries files))
      (openTranscript settings source workspace) := by
  unfold openTranscript
  cases settings.echoSource <;> rfl

/-- A uniform parser cannot tell what is before its transcript. -/
theorem unaware_transcribe (settings : Settings) (source : String) {parser : Parser ρ}
    (uniform : parser.Uniform) : Unaware (transcribe settings source parser) := by
  intro header entries files workspace
  have alike := uniform.alike (Session.IsBehind.simulation header entries)
    (openTranscript_behind settings source files workspace)
  generalize ran : parser.parse (openTranscript settings source workspace) = parsed,
    ran' : parser.parse (openTranscript settings source (workspace.behind header entries files)) =
      parsed' at alike
  have session : parsed'.session = parsed.session.behind header entries := alike.session
  have taken : take (workspace.behind header entries files) parsed' =
      (take workspace parsed).behind header entries files := by
    simp only [take, session, alike.reports]
    rfl
  have fault : parsed'.session.scanner.fault = parsed.session.scanner.fault := by
    rw [session]
    rfl
  cases broken : parsed.session.scanner.fault with
  | none =>
    rw [transcribe_of_sound ran' (fault.trans broken), transcribe_of_sound ran broken, taken,
      alike.result]
    rfl
  | some reason =>
    rw [transcribe_of_fault ran' (fault.trans broken), transcribe_of_fault ran broken, taken]
    rfl

theorem Blind.unaware {work : EStateM Fault Desk α} (blind : Blind work) :
    Unaware (onDesk work : Run ρ α) := by
  induction blind with
  | pure value =>
    rw [onDesk_pure]
    exact fun _ _ _ _ => rfl
  | throw fault =>
    rw [onDesk_throw]
    exact fun _ _ _ _ => rfl
  | write text =>
    rw [onDesk_write]
    exact unaware_write text
  | flag =>
    rw [onDesk_flag]
    exact unaware_flag
  | bind _ _ first later =>
    rw [onDesk_bind]
    exact first.bind later

/-- The preparation of code by a uniform parser and a blind analyzer is unaware. -/
theorem Preparation.unaware {stages : Stages ρ} {work : Run ρ α}
    (prepared : Preparation stages work) (uniform : ∀ parser ∈ stages.parser, parser.Uniform)
    (blind : ∀ analyzer ∈ stages.analyzer, BlindAnalyzer analyzer) : Unaware work := by
  induction prepared with
  | pure | call => exact fun _ _ _ _ => rfl
  | note entry => exact unaware_note entry
  | flag => exact unaware_flag
  | write text => exact unaware_write text
  | drain settings source => exact unaware_transcribe settings source (draining_uniform ρ)
  | transcribe settings source parses =>
    exact unaware_transcribe settings source (uniform _ parses)
  | symbols analyzes forest => exact ((blind _ analyzes).symbols forest).unaware
  | types analyzes forest => exact ((blind _ analyzes).types forest).unaware
  | status _ ih =>
    exact fun header entries files workspace => ih workspace.status header entries files workspace
  | bind _ _ first later => exact first.bind later

/-- Where its file is created at the same place, code is generated alike. -/
theorem issue_behind (settings : Settings) (codePath : Path)
    (code : Option (CodeGenerator × Forest)) {location : Location} {workspace : Workspace ρ}
    {files : FileTree} (same : workspace.files.SameBut location files)
    (site : files.creationSite codePath = workspace.files.creationSite codePath) :
    ∃ later, (after (issue settings codePath code) workspace).files.SameBut location later ∧
      issue settings codePath code (workspace.behind header entries files) =
        mapLast (Workspace.behind header entries later) (issue settings codePath code workspace) := by
  cases code with
  | none => exact ⟨files, same, rfl⟩
  | some code =>
    obtain ⟨generator, checked⟩ := code
    have issued (start : Workspace ρ) :
        issue settings codePath (some (generator, checked)) start =
          EStateM.map some (generate settings generator codePath checked) start := rfl
    simp only [after, issued, EStateM.map, generate_apply, FileTree.create]
    have site' : (workspace.behind header entries files).files.creationSite codePath =
        workspace.files.creationSite codePath := site
    rw [site']
    cases created : workspace.files.creationSite codePath with
    | error fault => exact ⟨files, same, rfl⟩
    | ok place =>
      have below := FileTree.creationSite_ne_nil created
      have later (content : ByteArray) := (same.both below (.file .empty)).both below (.file content)
      dsimp only [Except.map]
      cases (generator.generate checked codePath settings.traceCode).fault with
      | none => exact ⟨_, later _, by simp [mapLast, Workspace.behind]⟩
      | some fault => exact ⟨_, later _, by simp [mapLast, Workspace.behind]⟩

end Run

namespace Job

open Run

/-- A run is the same behind a header, and with other files, as long as its code is created at the
same place. -/
theorem run_behind (job : Job ρ) (uniform : ∀ parser ∈ job.stages.parser, parser.Uniform)
    (blind : ∀ analyzer ∈ job.stages.analyzer, BlindAnalyzer analyzer) {location : Location}
    {start : Workspace ρ} {files : FileTree} (same : start.files.SameBut location files)
    (site : files.creationSite job.codePath = start.files.creationSite job.codePath) :
    ∃ later, (after job.run start).files.SameBut location later ∧
      job.run (start.behind header entries files) =
        mapLast (Workspace.behind header entries later) (job.run start) := by
  cases present : job.missing? with
  | some stage =>
    rw [run_of_missing present, after_of_error (run_of_missing present start),
      run_of_missing present]
    exact ⟨files, same, rfl⟩
  | none =>
    obtain ⟨plan, provides, run_eq⟩ := exists_plan present
    rw [run_eq, ofPlan_eq]
    have prepared := Preparation.draft provides job.settings job.source
    have kept := prepared.keeps_files start
    have ran := prepared.unaware uniform blind header entries files start
    cases drafted : draft job.settings job.source plan start with
    | error failure last =>
      rw [after_of_error drafted] at kept
      rw [drafted] at ran
      rw [bind_of_error ran, after_of_error (bind_of_error drafted), bind_of_error drafted, kept]
      exact ⟨files, same, rfl⟩
    | ok code last =>
      rw [after_of_ok drafted] at kept
      rw [drafted] at ran
      rw [← kept] at same site
      rw [bind_of_ok ran, after, bind_of_ok drafted]
      exact issue_behind job.settings job.codePath code same site

end Job

namespace Build

open Run

/-- A build that is a run: it comes to the same, writes the same behind the header of its listing,
and leaves the same files besides. -/
structure Refines (source : Path) (location : Location) (job : Job ρ) (fresh : Workspace ρ)
    (build : Build ρ) : Prop where
  /-- A run that fails has the build fail with it. Otherwise the build tells of its code and flag. -/
  result : build.result =
    match job.run fresh with
    | .ok code last => .ok ⟨source.listing, code, last.status.flagged⟩
    | .error failure _ => .error failure
  /-- Failed or not, all that the run has written is in the listing file, behind a header that names
  the source. -/
  listing : build.files.lookup? location = some (.file
    (("\nTINY COMPILATION: " ++ String.ofList source.chars ++ "\n").toUTF8 ++
      (after job.run fresh).listing.content))
  files : (after job.run fresh).files.SameBut location build.files
  journal : build.journal =
    .compiling source.text source.listing.text :: (after job.run fresh).journal
  reports : build.reports = (after job.run fresh).reports
  calls : build.calls = (after job.run fresh).calls

/-- A build starts like a run, behind the header of its listing. -/
theorem start_eq (source : Path) (files others : FileTree) (location : Location) :
    (start source files location : Workspace ρ) =
      (Workspace.start {} none others).behind (Build.header source).toUTF8
        [.compiling source.text source.listing.text] (files.put location (.file .empty)) := by
  simp [start, Workspace.behind, Workspace.start, Listing.behind, Listing.write, Listing.empty,
    Listing.cut]

/-- What a build makes of a run, with the listing put where it was created. -/
theorem ofRun_refines {source : Path} {location : Location} {job : Job ρ} {fresh : Workspace ρ}
    {later : FileTree} {result : EStateM.Result Failure (Workspace ρ) (Option Path)}
    (ran : job.run fresh = result) (below : location ≠ [])
    (apart : (after job.run fresh).files.SameBut location later) :
    Refines source location job fresh (ofRun source location
      (mapLast (Workspace.behind (Build.header source).toUTF8
        [.compiling source.text source.listing.text] later) result)) := by
  have listed (content : ByteArray) :
      (later.put location (.file content)).lookup? location = some (.file content) := by
    rw [FileTree.lookup?_put _ _ _ _ below, if_pos rfl]
  have closed (content : ByteArray) := apart.trans (.put later below (.file content))
  cases result with
  | ok code last =>
    have last_eq := after_of_ok ran
    constructor
    case result => rw [ran]; rfl
    case listing => rw [last_eq]; exact listed _
    case files => exact closed _
    case journal => rw [last_eq]; rfl
    case reports => rw [last_eq]; rfl
    case calls => rw [last_eq]; rfl
  | error failure last =>
    have last_eq := after_of_error ran
    constructor
    case result => rw [ran]; rfl
    case listing => rw [last_eq]; exact listed _
    case files => exact closed _
    case journal => rw [last_eq]; rfl
    case reports => rw [last_eq]; rfl
    case calls => rw [last_eq]; rfl

variable {stages : Stages ρ} {settings : Settings} {program : String} {files others : FileTree}
  {text : String} {location : Location}

/-- A build that is not refused is a run on a fresh status, whatever was in the listing before. -/
theorem ofProgram_refines (uniform : ∀ parser ∈ stages.parser, parser.Uniform)
    (blind : ∀ analyzer ∈ stages.analyzer, BlindAnalyzer analyzer)
    (begun : Begun stages settings (Path.ofProgram program) files text location)
    (same : files.SameBut location others) :
    Refines (Path.ofProgram program) location (job stages settings (Path.ofProgram program) text)
      (Workspace.start {} none others) (ofProgram stages settings program files) := by
  obtain ⟨failure, refusal, -⟩ | ⟨text', location', begun', build⟩ :=
    ofProgram_cases stages settings program files
  · cases begun.refusal?.symm.trans refusal
  obtain rfl : text = text' := by
    cases begun.read.symm.trans begun'.read
    rfl
  obtain rfl : location = location' := by
    cases begun.site.symm.trans begun'.site
    rfl
  rw [build]
  generalize Path.ofProgram program = source at begun ⊢
  have below := FileTree.creationSite_ne_nil begun.site
  have opened := FileTree.SameBut.put files below (.file .empty)
  -- The build and the run see different listings, but the same place for the code.
  have site := FileTree.code_creationSite begun.read begun.site opened
  have site' := FileTree.code_creationSite begun.read begun.site same
  let fresh : Workspace ρ := .start {} none others
  have apart : fresh.files.SameBut location (files.put location (.file .empty)) :=
    same.symm.trans opened
  obtain ⟨later, apart', ran⟩ := (job stages settings source text).run_behind uniform blind apart
    (site.trans site'.symm)
  rw [start_eq source files others, ran]
  exact ofRun_refines rfl below apart'

end Build

end FrontEnd
