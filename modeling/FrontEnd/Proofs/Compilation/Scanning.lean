import FrontEnd.Proofs.Compilation.Refinement
import FrontEnd.Proofs.Compilation.Tracing
import FrontEnd.Proofs.Lexer.Progress

/-! # Builds that scan

A build of the scan phase is a run of that phase behind the header of the listing file. It has no code,
the flag tells whether a fault is among the tokens of the source, and nothing it reports is a warning.
-/

namespace FrontEnd

variable {ρ : Type}

namespace Run

variable {settings : Settings} {source : String} {workspace : Workspace ρ}

theorem flagged_scanned : (scanned settings source workspace).status.flagged =
    (workspace.status.flagged || (Session.drain ⟨Lexer.ofSource source.toList, workspace.status,
      workspace.journal⟩).1.any fun token => token.kind.isFault) :=
  Lexer.flagged_drain _

theorem level_scanned : ∀ entry ∈ (scanned settings source workspace).journal,
    entry ∈ workspace.journal ∨ entry.level = .debug := by
  intro entry member
  obtain drained | noted := List.mem_append.mp member
  · exact Lexer.level_drain _ entry drained
  · rw [List.mem_singleton.mp noted]
    exact .inr rfl

/-- Scanning makes progress and stops. From anywhere, in a comment or not, skipping comes to a stop, in one
step more than there are bytes ahead at most. However a session is used, its next token leads further
or is the end of the file, where it stays. So a source has at most one token for each byte and the end
of the file, and the scan phase takes no more, whatever its settings and its listing. -/
theorem scanning_stops (source : String) (status : Status) :
    let session := Lexer.session source status
    (∀ skip : Cursor.Skip, ∃ count ≤ source.utf8ByteSize - skip.cursor.position + 1,
      skip.Ends source count (skip.run source)) ∧
    (∀ uses : List Session.Use, ∃ cursor later : Cursor,
      Lexer.Progress source (session.useAll uses) cursor later) ∧
    (∃ count ≤ source.utf8ByteSize + 1, session.Drains count session.drain.2) ∧
    ∀ (settings : Settings) (workspace : Workspace ρ),
      let opened := openTranscript settings source workspace
      ∃ count ≤ source.utf8ByteSize + 1, opened.Drains count opened.drain.2 := by
  have bound (status : Status) :
      (Lexer.session source status).drain.1.length ≤ source.utf8ByteSize + 1 :=
    Lexer.length_drain_le (Lexer.session source status) (Cursor.marks_start source)
  refine ⟨Cursor.Skip.ends_run source, fun uses => ?_, ?_, fun settings workspace => ?_⟩
  · obtain ⟨cursor, marks⟩ := Lexer.exists_marks (Lexer.session source status)
      (Cursor.marks_start source) uses
    exact ⟨cursor, Lexer.progress marks⟩
  · exact ⟨_, bound status, Session.drains_drain _⟩
  · have fronts : (openTranscript settings source workspace).Fronts _ :=
      openTranscript_fronts settings source
    obtain ⟨tokens, -⟩ := Session.Fronts.simulation.drain fronts
    refine ⟨_, ?_, Session.drains_drain _⟩
    rw [tokens]
    exact bound workspace.status

end Run

namespace Build

/-- A build that has scanned a text, with its listing at a location. -/
structure Scanned (settings : Settings) (source : Path) (files : FileTree) (text : String)
    (location : Location) (build : Build ρ) : Prop where
  result : build.result =
    .ok ⟨source.listing, none, (tokens text {}).1.any fun token => token.kind.isFault⟩
  /-- The listing file holds a header that names the source, and the listing of the scan phase. -/
  listing : build.files.lookup? location = some (.file
    (("\nTINY COMPILATION: " ++ String.ofList source.chars ++ "\n").toUTF8 ++
      (Run.scanned settings text (Workspace.start {} none files : Workspace ρ)).listing.content))
  files : files.SameBut location build.files
  /-- What is reported is for information or for debugging. -/
  journal : ∀ entry ∈ build.journal, entry.level = .info ∨ entry.level = .debug

variable {settings : Settings} {files : FileTree} {text : String} {location : Location}

/-- A build that is a run of the scan phase has scanned its text. -/
theorem Refines.scanned {source : Path} {stages : Stages ρ} {build : Build ρ}
    (scans : settings.phase = .scan)
    (refines : Refines source location (job stages settings source text) (.start {} none files)
      build) : Scanned settings source files text location build := by
  have ran : (job stages settings source text).run (.start {} none files) =
      .ok none (Run.scanned settings text (.start {} none files)) :=
    Run.ofStages_scan text rfl stages scans source.code
  have last := Run.after_of_ok ran
  constructor
  case result =>
    rw [refines.result, ran]
    dsimp only
    rw [Run.flagged_scanned]
    rfl
  case listing => rw [refines.listing, last]
  case files =>
    have kept := refines.files
    rwa [last] at kept
  case journal =>
    rw [refines.journal, last]
    refine List.forall_mem_cons.mpr ⟨.inl rfl, fun entry member => .inr ?_⟩
    exact (Run.level_scanned entry member).elim nofun id

/-- A build that only scans is refused for its files, or it scans the text of its source. -/
theorem ofProgram_scan (scans : settings.phase = .scan) (program : String) (files : FileTree) :
    let source := Path.ofProgram program
    let build : Build ρ := ofProgram .none settings program files
    (∃ failure, refusal? (.none : Stages ρ) settings source files = some failure ∧
        build = refused files failure) ∨
      ∃ text location, files.read source = .ok text ∧
        files.creationSite source.listing = .ok location ∧
        Scanned settings source files text location build := by
  intro source build
  obtain refused | ⟨text, location, begun, -⟩ := ofProgram_cases .none settings program files
  · exact .inl refused
  have unparsed : ∀ parser ∈ (Stages.none : Stages ρ).parser, parser.Uniform := by
    intro parser listed
    cases listed
  have unanalyzed : ∀ analyzer ∈ (Stages.none : Stages ρ).analyzer,
      Run.BlindAnalyzer analyzer := by
    intro analyzer listed
    cases listed
  have refines := ofProgram_refines unparsed unanalyzed begun (.refl location files)
  exact .inr ⟨text, location, begun.read, begun.site, refines.scanned scans⟩

end Build

end FrontEnd
