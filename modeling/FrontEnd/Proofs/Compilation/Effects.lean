import FrontEnd.Compilation.Build
import FrontEnd.Proofs.Compilation.Preparation

/-! # What a build does to the files

A build is refused for the first of three reasons, and then it has not touched any file. Otherwise it
leaves a listing behind. Beyond that it touches the file of the code only, and only once parsing and
analysis have come to their end with the error flag down.
-/

namespace FrontEnd

variable {ρ : Type}

/-- Whether a failure is found before any file is touched. -/
def Failure.isRefusal : Failure → Bool
  | missingStage .. | sourceUnreadable .. | listingNotCreated .. => true
  | codeNotCreated .. | codeNotWritten .. | listingNotWritten _ => false

namespace Build

/-! ## How a build starts -/

/-- The first reason to refuse a build: a stage is missing, the source cannot be read, or the
listing cannot be created. -/
def refusal? (stages : Stages ρ) (settings : Settings) (source : Path) (files : FileTree) :
    Option Failure :=
  match stages.missing? settings.phase, files.read source, files.creationSite source.listing with
  | some stage, _, _ => some (.missingStage stage settings.phase)
  | none, .error fault, _ => some (.sourceUnreadable source fault)
  | none, .ok _, .error fault => some (.listingNotCreated source.listing fault)
  | none, .ok _, .ok _ => none

def job (stages : Stages ρ) (settings : Settings) (source : Path) (text : String) : Job ρ :=
  ⟨stages, settings, text, source.code⟩

/-- The workspace of a build whose listing was created at a location and has its header. -/
def start (source : Path) (files : FileTree) (location : Location) : Workspace ρ :=
  { Workspace.start {} none (files.put location (.file .empty)) with
    listing := (Listing.empty none).write (header source)
    journal := [.compiling source.text source.listing.text] }

/-- A build that is not refused: it has the text of its source and a place for its listing. -/
structure Begun (stages : Stages ρ) (settings : Settings) (source : Path) (files : FileTree)
    (text : String) (location : Location) : Prop where
  present : stages.missing? settings.phase = none
  read : files.read source = .ok text
  site : files.creationSite source.listing = .ok location

section

variable {stages : Stages ρ} {settings : Settings} {source : Path} {files : FileTree}
  {text : String} {location : Location} {build : Build ρ}

theorem isRefusal_of_refusal? {failure : Failure}
    (refusal : refusal? stages settings source files = some failure) :
    failure.isRefusal = true := by
  unfold refusal? at refusal
  split at refusal <;> cases refusal <;> rfl

theorem Begun.refusal? (begun : Begun stages settings source files text location) :
    Build.refusal? stages settings source files = none := by
  rw [Build.refusal?, begun.present, begun.read, begun.site]

theorem Begun.unique {other : String} {place : Location}
    (begun : Begun stages settings source files text location)
    (begun' : Begun stages settings source files other place) : other = text ∧ place = location := by
  cases begun.read.symm.trans begun'.read
  cases begun.site.symm.trans begun'.site
  exact ⟨rfl, rfl⟩

/-- The header of a listing is written before anything else. -/
theorem run_eq (stages : Stages ρ) (settings : Settings) (source : Path) (text : String)
    (files : FileTree) (location : Location) :
    (run stages settings source text).run
        { Workspace.start {} none (files.put location (.file .empty)) with
          journal := [.compiling source.text source.listing.text] } =
      (job stages settings source text).run (start source files location) :=
  Run.bind_of_ok (Run.write_unlimited rfl _)

/-- A build is refused for the first reason there is, or it runs. -/
theorem ofProgram_cases (stages : Stages ρ) (settings : Settings) (program : String)
    (files : FileTree) :
    let source := Path.ofProgram program
    let build := ofProgram stages settings program files
    (∃ failure, refusal? stages settings source files = some failure ∧
        build = refused files failure) ∨
      ∃ text location, Begun stages settings source files text location ∧
        build = ofRun source location
          ((job stages settings source text).run (start source files location)) := by
  unfold ofProgram refusal?
  obtain ⟨stage, planned, missing⟩ | ⟨plan, planned, present, -⟩ := stages.plan_cases settings.phase
  · rw [planned, missing]
    exact .inl ⟨_, rfl, rfl⟩
  rw [planned, present]
  dsimp only
  cases read : files.read (Path.ofProgram program) with
  | error fault => exact .inl ⟨_, rfl, rfl⟩
  | ok text =>
    dsimp only [FileTree.create]
    cases site : files.creationSite (Path.ofProgram program).listing with
    | error fault => exact .inl ⟨_, rfl, rfl⟩
    | ok location =>
      dsimp only [Except.map]
      rw [run_eq]
      exact .inr ⟨text, location, ⟨present, read, site⟩, rfl⟩

/-! ## What a build touches -/

/-- What a build does to the files, and when. -/
structure Effects (stages : Stages ρ) (settings : Settings) (source : Path) (files : FileTree)
    (build : Build ρ) : Prop where
  workingDirectory : build.files.workingDirectory = files.workingDirectory
  /-- Nothing is touched but the listing and the code. -/
  frame (place) : files.creationSite source.listing ≠ .ok place →
    files.creationSite source.code ≠ .ok place → build.files.lookup? place = files.lookup? place
  /-- A build is refused for the first reason there is, with all files as they were. -/
  refused (failure) : refusal? stages settings source files = some failure →
    build.result = .error failure ∧ build.files = files
  /-- A build for whose refusal there is no reason is not refused, and it leaves a listing behind. -/
  listed : refusal? stages settings source files = none →
    (∀ failure, build.result = .error failure → failure.isRefusal = false) ∧
      ∃ text location content, Begun stages settings source files text location ∧
        build.files.lookup? location = some (.file content)
  /-- The code is touched only if the run has come to generate it, and the listing was written. -/
  code (place) : files.creationSite source.code = .ok place →
    build.files.lookup? place ≠ files.lookup? place →
      (∀ fault, build.result ≠ .error (.listingNotWritten fault)) ∧
      ∃ text location generator checked last, Begun stages settings source files text location ∧
        (job stages settings source text).Drafts (start source files location) generator checked last
  /-- Once it has come to that, all that was generated is in the file of the code. -/
  generated (place text location generator checked last) : files.creationSite source.code = .ok place →
    Begun stages settings source files text location →
      (job stages settings source text).Drafts (start source files location) generator checked last →
        build.files.lookup? place = some (.file
          (generator.generate checked source.code settings.traceCode).text.toUTF8)
  /-- Code that cannot be created is left as it is, and so is all but the listing. -/
  uncreated (path fault) : build.result = .error (.codeNotCreated path fault) →
    path = source.code ∧ files.creationSite source.code = .error fault ∧
      ∃ location, files.creationSite source.listing = .ok location ∧
        files.SameBut location build.files
  /-- Code that cannot be written is what was generated up to the fault. -/
  unwritten (path fault) : build.result = .error (.codeNotWritten path fault) →
    path = source.code ∧ ∃ place text location generator checked last,
      files.creationSite source.code = .ok place ∧
      Begun stages settings source files text location ∧
      (job stages settings source text).Drafts (start source files location) generator checked last ∧
      (generator.generate checked source.code settings.traceCode).fault = some fault ∧
      build.files.lookup? place = some (.file
        (generator.generate checked source.code settings.traceCode).text.toUTF8)

/-- A build that is refused touches nothing. -/
theorem refused_effects {failure : Failure}
    (refusal : refusal? stages settings source files = some failure) :
    Effects stages settings source files (refused files failure) where
  workingDirectory := rfl
  frame _ _ _ := rfl
  refused other refusal' := by
    cases refusal.symm.trans refusal'
    exact ⟨rfl, rfl⟩
  listed sound := by cases refusal.symm.trans sound
  code place _ touched := absurd rfl touched
  generated _ _ _ _ _ _ _ begun _ := by cases begun.refusal?.symm.trans refusal
  uncreated path fault failed := by
    cases failed
    cases isRefusal_of_refusal? refusal
  unwritten path fault failed := by
    cases failed
    cases isRefusal_of_refusal? refusal

/-- A build that does not come to write code touches its listing only. -/
theorem uncoded_effects (begun : Begun stages settings source files text location)
    (same : files.SameBut location build.files)
    (listed : ∃ content, build.files.lookup? location = some (.file content))
    (late : ∀ failure, build.result = .error failure → failure.isRefusal = false)
    (written : ∀ path fault, build.result ≠ .error (.codeNotWritten path fault))
    (uncreated : ∀ path fault, build.result = .error (.codeNotCreated path fault) →
      path = source.code ∧ files.creationSite source.code = .error fault)
    (undrafted : ∀ place, files.creationSite source.code = .ok place → ∀ generator checked last,
      ¬(job stages settings source text).Drafts (start source files location) generator checked last) :
    Effects stages settings source files build where
  workingDirectory := same.workingDirectory
  frame place unlisted _ := by
    apply same.elsewhere
    rintro rfl
    exact unlisted begun.site
  refused failure refusal := by cases begun.refusal?.symm.trans refusal
  listed _ := by
    obtain ⟨content, listed⟩ := listed
    exact ⟨late, text, location, content, begun, listed⟩
  code place site touched := by
    have apart := FileTree.code_site_ne begun.read begun.site site
    exact absurd (same.elsewhere place apart) touched
  generated place _ _ generator checked last site begun' drafts := by
    obtain ⟨rfl, rfl⟩ := begun.unique begun'
    exact absurd drafts (undrafted place site generator checked last)
  uncreated path fault failed := by
    obtain ⟨rfl, site⟩ := uncreated path fault failed
    exact ⟨rfl, site, location, begun.site, same⟩
  unwritten path fault failed := absurd failed (written path fault)

/-- A build that comes to write code touches its listing and the code. -/
theorem coded_effects {generator : CodeGenerator} {checked : Forest} {last : Workspace ρ}
    {place : Location}
    (begun : Begun stages settings source files text location)
    (drafts : (job stages settings source text).Drafts (start source files location) generator
      checked last)
    (site : files.creationSite source.code = .ok place)
    (workingDirectory : build.files.workingDirectory = files.workingDirectory)
    (elsewhere : ∀ other, other ≠ location → other ≠ place →
      build.files.lookup? other = files.lookup? other)
    (listed : ∃ content, build.files.lookup? location = some (.file content))
    (result : (∃ outcome, build.result = .ok outcome) ∨
      ∃ fault, build.result = .error (.codeNotWritten source.code fault) ∧
        (generator.generate checked source.code settings.traceCode).fault = some fault)
    (written : build.files.lookup? place = some (.file
      (generator.generate checked source.code settings.traceCode).text.toUTF8)) :
    Effects stages settings source files build where
  workingDirectory := workingDirectory
  frame other unlisted uncoded := by
    apply elsewhere
    · rintro rfl
      exact unlisted begun.site
    · rintro rfl
      exact uncoded site
  refused failure refusal := by cases begun.refusal?.symm.trans refusal
  listed _ := by
    obtain ⟨content, listed⟩ := listed
    refine ⟨fun failure failed => ?_, text, location, content, begun, listed⟩
    obtain ⟨outcome, done⟩ | ⟨fault, stopped, -⟩ := result
    · cases done.symm.trans failed
    · cases stopped.symm.trans failed
      rfl
  code _ _ _ := by
    refine ⟨fun fault failed => ?_, text, location, generator, checked, last, begun, drafts⟩
    obtain ⟨outcome, done⟩ | ⟨fault, stopped, -⟩ := result
    · cases done.symm.trans failed
    · cases stopped.symm.trans failed
  generated other _ _ _ _ _ site' begun' drafts' := by
    obtain ⟨rfl, rfl⟩ := begun.unique begun'
    obtain ⟨rfl, rfl⟩ := drafts.unique drafts'
    cases site.symm.trans site'
    exact written
  uncreated path fault failed := by
    obtain ⟨outcome, done⟩ | ⟨fault, stopped, -⟩ := result
    · cases done.symm.trans failed
    · cases stopped.symm.trans failed
  unwritten path fault failed := by
    obtain ⟨outcome, done⟩ | ⟨fault, stopped, wrong⟩ := result
    · cases done.symm.trans failed
    · cases stopped.symm.trans failed
      exact ⟨rfl, place, text, location, generator, checked, last, site, begun, drafts, wrong,
        written⟩

/-- However the run of a build ends, the build touches the files as it should. -/
theorem ofRun_effects (begun : Begun stages settings source files text location)
    {result : EStateM.Result Failure (Workspace ρ) (Option Path)}
    (ends : (job stages settings source text).Ends (start source files location) result) :
    Effects stages settings source files (ofRun source location result) := by
  have below := FileTree.creationSite_ne_nil begun.site
  have opened := FileTree.SameBut.put files below (.file .empty)
  have codeSite := FileTree.code_creationSite begun.read begun.site opened
  have listed (tree : FileTree) (content : ByteArray) :
      ∃ listing, (tree.put location (.file content)).lookup? location = some (.file listing) :=
    ⟨content, by rw [FileTree.lookup?_put _ _ _ _ below, if_pos rfl]⟩
  have closed {tree : FileTree} (content : ByteArray)
      (kept : tree = files.put location (.file .empty)) :
      files.SameBut location (tree.put location (.file content)) := by
    rw [kept]
    exact opened.trans (.put _ below _)
  have coded {place : Location} {tree : FileTree} (content : ByteArray)
      (apart : (files.put location (.file .empty)).SameBut place tree) (other : Location)
      (unlisted : other ≠ location) (uncoded : other ≠ place) :
      (tree.put location (.file content)).lookup? other = files.lookup? other := by
    rw [FileTree.lookup?_put _ _ _ _ below, if_neg unlisted]
    exact (apart.elsewhere other uncoded).trans (opened.elsewhere other unlisted)
  -- The listing is closed last, and that leaves the code as it was written.
  have kept {place : Location} {tree : FileTree} (content : ByteArray) {entry : FileEntry}
      (site : files.creationSite source.code = .ok place)
      (written : tree.lookup? place = some entry) :
      (tree.put location (.file content)).lookup? place = some entry := by
    have apart := FileTree.code_site_ne begun.read begun.site site
    rwa [FileTree.lookup?_put _ _ _ _ below, if_neg apart]
  cases ends with
  | uncoded kept undrafted =>
    exact uncoded_effects begun (closed _ kept) (listed _ _) nofun nofun nofun fun _ _ => undrafted
  | unlisted fault kept undrafted =>
    refine uncoded_effects begun (closed _ kept) (listed _ _) ?_ nofun nofun fun _ _ => undrafted
    rintro _ ⟨rfl⟩
    rfl
  | uncreated drafts kept refused =>
    have refused := codeSite.symm.trans refused
    refine uncoded_effects begun (closed _ kept) (listed _ _) ?_ nofun ?_ ?_
    · rintro _ ⟨rfl⟩
      rfl
    · rintro _ _ ⟨rfl⟩
      exact ⟨rfl, refused⟩
    · intro place site
      cases refused.symm.trans site
  | unwritten drafts site apart stopped written =>
    have site := codeSite.symm.trans site
    exact coded_effects begun drafts site apart.workingDirectory (coded _ apart) (listed _ _)
      (.inr ⟨_, rfl, stopped⟩) (kept _ site written)
  | coded drafts site apart written =>
    have site := codeSite.symm.trans site
    exact coded_effects begun drafts site apart.workingDirectory (coded _ apart) (listed _ _)
      (.inl ⟨_, rfl⟩) (kept _ site written)

end

/-- Whatever the stages, the files and the program, a build that is refused leaves all files as they
are. Any other build leaves a listing, and besides it touches the code only, once that is due. -/
theorem ofProgram_effects (stages : Stages ρ) (settings : Settings) (program : String)
    (files : FileTree) :
    Effects stages settings (Path.ofProgram program) files
      (ofProgram stages settings program files) := by
  obtain ⟨failure, refusal, build⟩ | ⟨text, location, begun, build⟩ :=
    ofProgram_cases stages settings program files
  · rw [build]
    exact refused_effects refusal
  · let asked := job stages settings (Path.ofProgram program) text
    have present : asked.missing? = none := begun.present
    rw [build]
    exact ofRun_effects begun (Job.ends present _)

end Build

end FrontEnd
