import FrontEnd.CommandLine.Invocation
import FrontEnd.Proofs.CommandLine.Reading
import FrontEnd.Proofs.Compilation.Scanning
import FrontEnd.Proofs.Terminal.Plain

/-! # What the exit status tells

A call for a file ends in one of three ways. If there is no text to read or no place for the listing,
nothing is done and the reason is told. Otherwise the listing is written, and the status says whether a
fault is among the tokens of the source. What is listed makes no difference to that.
-/

namespace FrontEnd

open Terminal

namespace Failure

theorem visible_title (failure : Failure) : Visible failure.title := by
  cases failure <;> simp only [title] <;> decide

theorem visible_suggestion (failure : Failure) :
    ∀ hint ∈ failure.suggestion, Visible hint := by
  intro hint suggested
  cases failure with
  | missingStage stage phase =>
    cases suggested
    have named : Visible phase.name := by cases phase <;> decide
    exact (Visible.append (by decide) named).append (by decide)
  | sourceUnreadable path fault =>
    cases suggested
    decide
  | _ => cases suggested

theorem headline_ne_empty (failure : Failure) : failure.headline ≠ "" := by
  have spoken {text : String} (begun : text ≠ "") (rest : String) : text ++ rest ≠ "" :=
    fun silent => begun (String.append_eq_empty_iff.mp silent).1
  cases failure with
  | missingStage => exact spoken (spoken (spoken (spoken (by decide) _) _) _) _
  | sourceUnreadable => exact spoken (spoken (by decide) _) _
  | listingNotCreated => exact spoken (by decide) _
  | codeNotCreated => exact spoken (by decide) _
  | codeNotWritten => exact spoken (by decide) _
  | listingNotWritten =>
    change "Unable to write to the listing" ≠ ""
    decide

theorem message_ne_empty (failure : Failure) : failure.message ≠ "" := by
  rw [message]
  split <;> simp only [ne_eq, String.append_eq_empty_iff, headline_ne_empty, not_false_eq_true,
    false_and]

end Failure

namespace CommandLine

/-- A failure is told by its title, on a line of its own, and its message. -/
structure Tells (failure : Failure) (text : String) : Prop where
  /-- Of the message all is shown but controls and escape sequences. -/
  shown : ∃ rest, text =
    "✕ Error: " ++ failure.title ++ "\n" ++ plain [{ text := failure.message }] ++ rest
  whole : Visible failure.message → text =
    "✕ Error: " ++ failure.title ++ "\n" ++ failure.message ++ "\n" ++
      (Notice.ofFailure failure).hintLine ++ "\n"

/-- The notice of a failure tells it. -/
theorem tells_noticeText (failure : Failure) : Tells failure (noticeText (.ofFailure failure)) := by
  let notice := Notice.ofFailure failure
  have present : notice.body ≠ "" := failure.message_ne_empty
  have titled : noticeText notice =
      "✕ Error: " ++ failure.title ++ "\n" ++ plain (notice.tellingSpans ++ [{ text := "\n" }]) := by
    have visible : Visible notice.title := failure.visible_title
    rw [noticeText, Notice.plain_title visible]
    rfl
  constructor
  case shown =>
    obtain ⟨rest, body⟩ := Notice.plain_body present [{ text := "\n" }]
    rw [titled, body, ← String.append_assoc]
    exact ⟨rest, rfl⟩
  case whole =>
    intro visible
    have told : Visible notice.body := visible
    have hinted : ∀ hint ∈ notice.hint, Visible hint := failure.visible_suggestion
    have newline : plain [{ text := "\n" }] = "\n" := by decide
    rw [titled, Notice.plain_telling told present hinted, newline]
    simp only [String.append_assoc]
    rfl

/-- A call that asks for a file, and what it tells by its exit status. -/
structure Truthful (file : String) (settings : Settings) (files : FileTree) (ended : Exit) :
    Prop where
  understood : ended.misuse = none
  /-- The status is two if the source cannot be read or the listing cannot be created. -/
  two : ended.status = 2 ↔
    (∃ fault, files.read (.ofProgram file) = .error fault) ∨
      ∃ fault, files.create (Path.ofProgram file).listing = .error fault
  /-- Otherwise it is one if a fault is among the tokens of the source, -/
  one : ended.status = 1 ↔ ended.status ≠ 2 ∧ ∃ text,
    files.read (.ofProgram file) = .ok text ∧ ∃ token ∈ (tokens text {}).1, token.kind.isFault = true
  /-- and it is zero if none is. -/
  zero : ended.status = 0 ↔ ended.status ≠ 2 ∧ ∃ text,
    files.read (.ofProgram file) = .ok text ∧ ¬∃ token ∈ (tokens text {}).1, token.kind.isFault = true
  output : ended.status ≠ 0 → ended.output = ""
  errors : ended.status = 0 → ended.errors = ""
  /-- A status of two means that nothing was done, and the reason is told. -/
  refused : ended.status = 2 → ended.files = files ∧ ∃ failure,
    Build.refusal? (.none : Stages Empty) settings (.ofProgram file) files = some failure ∧
      Tells failure ended.errors
  /-- Any other status means that the listing file holds a header that names the source and what the
  scan phase writes, and no other file has changed. -/
  listed : ended.status ≠ 2 → ∃ text location scanning,
    files.read (.ofProgram file) = .ok text ∧
    files.creationSite (Path.ofProgram file).listing = .ok location ∧
    Run.ofStages (.none : Stages Empty) settings text (Path.ofProgram file).code
      (.start {} none files) = .ok none scanning ∧
    ended.files.lookup? location = some (.file
      (("\nTINY COMPILATION: " ++ String.ofList (Path.ofProgram file).chars ++ "\n").toUTF8 ++
        scanning.listing.content)) ∧
    files.SameBut location ended.files

/-- Whatever is listed, the status is the same. -/
theorem Truthful.status_eq {file : String} {settings others : Settings} {files : FileTree}
    {ended other : Exit} (truthful : Truthful file settings files ended)
    (truthful' : Truthful file others files other) : other.status = ended.status := by
  by_cases refused : ended.status = 2
  · rw [refused, truthful'.two]
    exact truthful.two.mp refused
  have begun : other.status ≠ 2 := fun refused' => refused (truthful.two.mpr (truthful'.two.mp refused'))
  obtain ⟨text, -, -, read, -⟩ := truthful.listed refused
  by_cases faulty : ∃ token ∈ (tokens text {}).1, token.kind.isFault = true
  · rw [truthful.one.mpr ⟨refused, text, read, faulty⟩, truthful'.one]
    exact ⟨begun, text, read, faulty⟩
  · rw [truthful.zero.mpr ⟨refused, text, read, faulty⟩, truthful'.zero]
    exact ⟨begun, text, read, faulty⟩

/-- Nothing but warnings and errors is shown if no threshold is asked for. -/
theorem plain_journal {entries : List Journal.Entry} (description : String)
    (quiet : ∀ entry ∈ entries, entry.level = .info ∨ entry.level = .debug) :
    plain (((.starting description :: entries).filter (isShown defaultThreshold)).flatMap
      journalRow) = "" := by
  have hidden : (.starting description :: entries).filter (isShown defaultThreshold) = [] := by
    have starting : ¬isShown defaultThreshold (.starting description) = true := nofun
    rw [List.filter_eq_nil_iff, List.forall_mem_cons]
    refine ⟨starting, fun entry member => ?_⟩
    obtain level | level := quiet entry member <;>
      simp only [isShown, defaultThreshold, level] <;> decide
  rw [hidden]
  rfl

namespace Request

variable {request : Request} {files : FileTree} (unset : request.threshold = none)

include unset

/-- A request whose build is refused does nothing but tell why. -/
theorem carryOut_refused {failure : Failure}
    (build : Build.ofProgram .none request.settings request.file files =
      (Build.refused files failure : Build Empty)) :
    request.carryOut files = ⟨2, none, "", noticeText (.ofFailure failure), files⟩ := by
  have journal := plain_journal request.description (List.forall_mem_nil _)
  unfold carryOut
  rw [build, unset]
  simp only [Build.refused, Option.getD_none, journal, String.empty_append]

/-- A request whose build scans the source tells whether a fault was found. -/
theorem carryOut_scanned {source : Path} {text : String} {location : Location}
    {build : Build Empty}
    (built : Build.ofProgram .none request.settings request.file files = build)
    (scanned : Build.Scanned request.settings source files text location build) :
    request.carryOut files =
      if (tokens text {}).1.any fun token => token.kind.isFault then
        ⟨1, none, "", noticeText (.warning ("Errors found in `" ++ request.file ++ "`")
          ("see the listing `" ++ source.listing.text ++ "`")), build.files⟩
      else
        ⟨0, none, plain [{ text := "Listing written to `" }, { text := source.listing.text },
          { text := "`\n" }], "", build.files⟩ := by
  have journal := plain_journal request.description scanned.journal
  unfold carryOut
  rw [built, unset]
  simp only [scanned.result, Option.getD_none, journal, String.empty_append]

omit unset in
/-- A build that only scans is not refused but for the reasons a status of two stands for. -/
theorem unreadable_or_uncreated {source : Path} {failure : Failure}
    (refusal : Build.refusal? (.none : Stages Empty) request.settings source files = some failure) :
    (∃ fault, files.read source = .error fault) ∨
      ∃ fault, files.create source.listing = .error fault := by
  cases read : files.read source with
  | error fault => exact .inl ⟨fault, rfl⟩
  | ok text =>
    cases site : files.creationSite source.listing with
    | error fault => exact .inr ⟨fault, by rw [FileTree.create, site]; rfl⟩
    | ok location =>
      have begun : Build.Begun (.none : Stages Empty) request.settings source files text location :=
        ⟨rfl, read, site⟩
      cases begun.refusal?.symm.trans refusal

theorem truthful_of_refused {failure : Failure}
    (refusal : Build.refusal? (.none : Stages Empty) request.settings (.ofProgram request.file) files =
      some failure)
    (build : Build.ofProgram .none request.settings request.file files =
      (Build.refused files failure : Build Empty)) :
    Truthful request.file request.settings files (request.carryOut files) := by
  have apart : (2 : UInt8) ≠ 1 ∧ (2 : UInt8) ≠ 0 := by decide
  rw [carryOut_refused unset build]
  constructor
  case understood => rfl
  case two => exact ⟨fun _ => unreadable_or_uncreated refusal, fun _ => rfl⟩
  case one => exact ⟨fun one => absurd one apart.1, fun other => absurd rfl other.1⟩
  case zero => exact ⟨fun zero => absurd zero apart.2, fun other => absurd rfl other.1⟩
  case output => exact fun _ => rfl
  case errors => exact fun zero => absurd zero apart.2
  case refused => exact fun _ => ⟨rfl, failure, refusal, tells_noticeText failure⟩
  case listed => exact fun other => absurd rfl other

theorem truthful_of_scanned {text : String} {location : Location}
    (read : files.read (.ofProgram request.file) = .ok text)
    (site : files.creationSite (Path.ofProgram request.file).listing = .ok location)
    (scanned : Build.Scanned request.settings (.ofProgram request.file) files text location
      (Build.ofProgram .none request.settings request.file files : Build Empty)) :
    Truthful request.file request.settings files (request.carryOut files) := by
  have ended := carryOut_scanned unset rfl scanned
  have status : (request.carryOut files).status =
      if (tokens text {}).1.any fun token => token.kind.isFault then 1 else 0 := by
    rw [ended]
    split <;> rfl
  obtain ⟨begun, one, zero⟩ : (request.carryOut files).status ≠ 2 ∧
      ((request.carryOut files).status = 1 ↔
        ∃ token ∈ (tokens text {}).1, token.kind.isFault = true) ∧
      ((request.carryOut files).status = 0 ↔
        ¬∃ token ∈ (tokens text {}).1, token.kind.isFault = true) := by
    rw [status, ← List.any_eq_true]
    cases (tokens text {}).1.any fun token => token.kind.isFault <;> decide
  have unique {other : String} (read' : files.read (.ofProgram request.file) = .ok other) :
      other = text := by
    cases read.symm.trans read'
    rfl
  constructor
  case understood =>
    rw [ended]
    split <;> rfl
  case two =>
    refine ⟨fun two => absurd two begun, ?_⟩
    rw [read, FileTree.create, site]
    rintro (⟨_, ⟨⟩⟩ | ⟨_, ⟨⟩⟩)
  case one =>
    refine ⟨fun status => ⟨begun, text, read, one.mp status⟩, ?_⟩
    rintro ⟨-, other, read', faulty⟩
    exact one.mpr (unique read' ▸ faulty)
  case zero =>
    refine ⟨fun status => ⟨begun, text, read, zero.mp status⟩, ?_⟩
    rintro ⟨-, other, read', sound⟩
    exact zero.mpr (unique read' ▸ sound)
  case output =>
    rw [ended]
    split
    · exact fun _ => rfl
    · exact fun other => absurd rfl other
  case errors =>
    have apart : (1 : UInt8) ≠ 0 := by decide
    rw [ended]
    split
    · exact fun zero => absurd zero apart
    · exact fun _ => rfl
  case refused => exact fun two => absurd two begun
  case listed =>
    let fresh : Workspace Empty := .start {} none files
    have scans : request.settings.phase = .scan := rfl
    have unlimited : fresh.listing.limit = none := rfl
    have ran := Run.ofStages_scan text unlimited .none scans (Path.ofProgram request.file).code
    have left : (request.carryOut files).files =
        (Build.ofProgram .none request.settings request.file files : Build Empty).files := by
      rw [ended]
      split <;> rfl
    rw [left]
    exact fun _ => ⟨text, location, _, read, site, ran, scanned.listing, scanned.files⟩

/-- The status that a request ends with is the truth. -/
theorem carryOut_truthful :
    Truthful request.file request.settings files (request.carryOut files) := by
  have scans : request.settings.phase = .scan := rfl
  obtain ⟨failure, refusal, build⟩ | ⟨text, location, read, site, scanned⟩ :=
    Build.ofProgram_scan scans request.file files
  · exact truthful_of_refused unset refusal build
  · exact truthful_of_scanned unset read site scanned

end Request

section

variable {file : String} {options arguments : List String}

theorem invoke_file_with_options (named : file.toList.head? ≠ some '-')
    (chosen : options.Sublist listingOptions) (asked : arguments.Perm (file :: options))
    (files : FileTree) :
    Truthful file
      { echoSource := decide ("--echo-source" ∈ options)
        traceScan := !decide ("--no-trace-scan" ∈ options) }
      files (invoke arguments none files) := by
  let request : Request := ⟨file, decide ("--echo-source" ∈ options),
    decide ("--no-trace-scan" ∈ options), none⟩
  have unset : request.threshold = none := rfl
  rw [invoke, read_file_with_options named chosen asked]
  exact request.carryOut_truthful unset

end

end CommandLine

end FrontEnd
