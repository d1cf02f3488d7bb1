import FrontEnd.Proofs.Compilation.Onward
import FrontEnd.Proofs.Scanner.Trace

/-! # Traces of whoever pulls

The scan phase takes the tokens of a source itself, and in the parse phase the parser takes them. In
either phase the listing is the trace of the tokens that were taken, behind the header if there is
one. So it does not matter who takes them, and a parser that takes too few or too many leaves a trace
that is too short or has the end of the file in it once more for each.
-/

namespace FrontEnd

variable {ρ σ : Type}

/-- A parser that takes a number of tokens of a session, makes no other use of its scanner and its
status, and does not run out of memory. -/
structure Parser.Pulls [FiniteScanner σ] (parser : Parser ρ) (session : Session σ) (count : Nat) :
    Prop where
  scanner : (parser.parse session).session.scanner = (session.pulls count).2.scanner
  status : (parser.parse session).session.status = (session.pulls count).2.status
  done : ∃ forest, (parser.parse session).result = .ok forest

/-- A parser that takes a number of tokens and does nothing with them. -/
def Parser.pulling (ρ : Type) (count : Nat) : Parser ρ where
  parse session := ⟨(session.pulls count).2, .ok .empty, []⟩

theorem Parser.pulling_pulls [FiniteScanner σ] (session : Session σ) (count : Nat) :
    (pulling ρ count).Pulls session count :=
  ⟨rfl, rfl, _, rfl⟩

namespace Run

open Transcriber

/-- The lines that the listing of a source echoes. -/
def echoed (settings : Settings) (source : String) : List (Nat × String) :=
  if settings.echoSource then Text.numberedLines source.toList else []

/-- What the scan phase writes before any token. -/
def header (settings : Settings) : String :=
  if settings.traceScan then
    "\nline number         token               lexeme              \n" ++
      "============================================================\n"
  else ""

theorem header_eq (settings : Settings) :
    header settings = if settings.traceScan then scanHeader else "" := by
  unfold header
  cases settings.traceScan <;> decide

/-- A workspace that the scan phase has been through: the header and the trace of all tokens are in
the listing, and the status and the journal are those of the lexer. -/
def scanned (settings : Settings) (source : String) (workspace : Workspace ρ) : Workspace ρ :=
  let drained := Session.drain ⟨Lexer.ofSource source.toList, workspace.status, workspace.journal⟩
  { workspace with
    status := drained.2.status
    listing := workspace.listing.write (header settings ++
      trace settings.traceScan (echoed settings source) drained.1)
    journal := drained.2.journal ++ [.scannedTo drained.2.status.line] }

section

variable (settings : Settings) (source : String) {workspace : Workspace ρ}

theorem openTranscript_fronts :
    (openTranscript settings source workspace).Fronts (Lexer.session source workspace.status) := by
  refine ⟨(openTranscript_scanner settings source workspace).2.2, ?_⟩
  rw [openTranscript]
  rfl

variable (unlimited : workspace.listing.limit = none)

include unlimited

theorem openTranscript_frontsFreely : (openTranscript settings source workspace).FrontsFreely
    ⟨Lexer.ofSource source.toList, workspace.status, workspace.journal⟩ where
  scanner := (openTranscript_fronts settings source).scanner
  status := (openTranscript_fronts settings source).status
  free := free_openTranscript settings source unlimited
  journal := by
    rw [openTranscript]

/-- What is written into a listing while tokens of a source are taken is their trace. -/
theorem openTranscript_pulls (count : Nat) :
    let pulled := (openTranscript settings source workspace).pulls count
    pulled.2.scanner.Free ∧
      pulled.2.scanner.listing = workspace.listing.write (trace settings.traceScan
        (echoed settings source) ((Lexer.ofSource source.toList).ahead count)) ∧
      pulled.2.status = ((Lexer.session source workspace.status).pulls count).2.status := by
  let session := openTranscript settings source workspace
  have fronts : session.Fronts (Lexer.session source workspace.status) :=
    openTranscript_fronts settings source
  obtain ⟨tokens, later⟩ := Session.Fronts.simulation.pulls count fronts
  obtain ⟨free, listing⟩ :=
    Session.listing_pulls count (free_openTranscript settings source unlimited)
  have opened : session.scanner.listing = workspace.listing ∧
      session.scanner.writesTokens = settings.traceScan ∧
      session.scanner.pending = echoed settings source := by
    simp only [session, openTranscript, echoed]
    split <;> exact ⟨rfl, rfl, rfl⟩
  rw [tokens, Lexer.tokens_pulls, opened.1, opened.2.1, opened.2.2] at listing
  exact ⟨free, listing, later.status⟩

/-- A parser that does nothing but take tokens leaves their trace. -/
theorem transcribe_pulls {parser : Parser ρ} {count : Nat}
    (pulls : parser.Pulls (openTranscript settings source workspace) count) :
    ∃ forest last, transcribe settings source parser workspace = .ok (.ok forest) last ∧
      last.listing = workspace.listing.write (trace settings.traceScan (echoed settings source)
        ((Lexer.ofSource source.toList).ahead count)) ∧
      last.status = ((Lexer.session source workspace.status).pulls count).2.status := by
  obtain ⟨free, listing, status⟩ := openTranscript_pulls settings source unlimited count
  obtain ⟨forest, done⟩ := pulls.done
  have sound := transcribe_of_sound rfl (pulls.scanner ▸ free.sound)
  rw [done] at sound
  refine ⟨forest, _, sound, ?_, pulls.status.trans status⟩
  exact (congrArg Transcriber.listing pulls.scanner).trans listing

/-- With a parser that does nothing but take tokens, parsing writes their trace. -/
theorem parse_pulls {settings : Settings} (untraced : settings.traceParse = false)
    {parser : Parser ρ} {count : Nat}
    (pulls : parser.Pulls (openTranscript settings source
      { workspace with journal := workspace.journal ++ [.parsing] }) count) :
    ∃ forest last, parse settings source parser workspace = .ok forest last ∧
      last.listing = workspace.listing.write (trace settings.traceScan (echoed settings source)
        ((Lexer.ofSource source.toList).ahead count)) ∧
      last.status = ((Lexer.session source workspace.status).pulls count).2.status := by
  let begun : Workspace ρ := { workspace with
    journal := workspace.journal ++ [.parsing]
    calls := workspace.calls ++ [.parse] }
  have room : begun.listing.limit = none := unlimited
  obtain ⟨forest, last, transcribed, left⟩ := transcribe_pulls settings source room pulls
  have ran : parse settings source parser workspace =
      (do
        let result ← transcribe settings source parser
        let forest ← accept result
        writeWhen settings.traceParse ("\nSyntax tree:\n" ++ forest.outline)
        pure forest) begun := by
    rw [parse_eq]
    rfl
  rw [untraced, bind_of_ok transcribed] at ran
  exact ⟨forest, _, ran, left⟩

/-- Without a limit the scan phase comes to its end. -/
theorem scan_run : scan settings source workspace = .ok () (scanned settings source workspace) := by
  let drained := Session.drain ⟨Lexer.ofSource source.toList, workspace.status, workspace.journal⟩
  let headed : Workspace ρ :=
    { workspace with listing := workspace.listing.write (header settings) }
  have wrote : writeWhen settings.traceScan scanHeader workspace = .ok () headed := by
    rw [writeWhen_unlimited unlimited]
    simp only [headed, header_eq]
    split
    · rfl
    · rw [Listing.write_nothing unlimited]
  let session := openTranscript settings source headed
  have room : headed.listing.limit = none := unlimited
  obtain ⟨tokens, later⟩ :=
    Session.FrontsFreely.simulation.drain (openTranscript_frontsFreely settings source room)
  obtain ⟨-, listing, -⟩ := openTranscript_pulls settings source room session.drain.1.length
  have counted := Lexer.ahead_drain ⟨Lexer.ofSource source.toList, headed.status, headed.journal⟩
  rw [session.drain_pulls.2, tokens, counted, Listing.write_write] at listing
  have transcribed : transcribe settings source (.draining ρ) headed =
      .ok (.ok .empty) (take headed ((Parser.draining ρ).parse session)) :=
    transcribe_of_sound rfl later.free.sound
  have taken : take headed ((Parser.draining ρ).parse session) = { workspace with
      status := drained.2.status
      listing := workspace.listing.write (header settings ++
        trace settings.traceScan (echoed settings source) drained.1)
      journal := drained.2.journal } := by
    have status : session.drain.2.status = drained.2.status := later.status
    have journal : session.drain.2.journal = drained.2.journal := later.journal
    simp only [take, Parser.draining, List.append_nil, listing, status, journal]
    rfl
  rw [scan_eq, bind_of_ok wrote, bind_of_ok transcribed, taken]
  rfl

theorem ofStages_scan (stages : Stages ρ) {settings : Settings} (scans : settings.phase = .scan)
    (codePath : Path) :
    ofStages stages settings source codePath workspace =
      .ok none (scanned settings source workspace) := by
  rw [ofStages, scans]
  exact bind_of_ok (scan_run settings source unlimited)

end

/-- What the scan phase has left, and what the parse phase has left with a parser that took a number
of tokens. Behind the last token of the source that token comes again and again. -/
structure TracedAlike (settings : Settings) (source : String) (status : Status) (count : Nat)
    (last : Token) (scanning parsing : Workspace ρ) : Prop where
  ending : (tokens source status).1.getLast? = some last ∧ last.kind = .endOfFile
  /-- The scan phase writes its header and the trace of all tokens. -/
  scanned : scanning.listing.content = (header settings ++
    trace settings.traceScan (echoed settings source) (tokens source status).1).toUTF8
  /-- The parse phase writes the trace of the tokens that were taken. -/
  parsed : parsing.listing.content = (trace settings.traceScan (echoed settings source)
    (((tokens source status).1 ++ List.replicate count last).take count)).toUTF8
  /-- The status is that of a lexer that was asked for as many tokens. -/
  moved : parsing.status = ((Lexer.session source status).pulls count).2.status
  /-- With all the tokens of the source, nothing but the header tells the two apart. -/
  whole : count = (tokens source status).1.length →
    scanning.listing.content = (header settings).toUTF8 ++ parsing.listing.content ∧
      parsing.status = scanning.status
  /-- With fewer tokens, the trace stops short. -/
  short : count ≤ (tokens source status).1.length →
    ∃ rest, scanning.listing.content = (header settings).toUTF8 ++ (parsing.listing.content ++ rest)
  /-- Each further token is one more row for the end of the file, if it is written at all. -/
  long : (tokens source status).1.length ≤ count →
    let more := List.replicate (count - (tokens source status).1.length) last.numberedRow
    (header settings).toUTF8 ++ parsing.listing.content =
        scanning.listing.content ++ (if settings.traceScan then String.join more else "").toUTF8 ∧
      parsing.status = scanning.status

/-- What a parser with too few or too many tokens leaves follows from what it writes. -/
private theorem tracedAlike_of_contents {settings : Settings} {source : String} {status : Status}
    {count : Nat} {last : Token} {scanning parsing : Workspace ρ}
    (ending : (tokens source status).1.getLast? = some last ∧ last.kind = .endOfFile)
    (scanned : scanning.listing.content = (header settings ++
      trace settings.traceScan (echoed settings source) (tokens source status).1).toUTF8)
    (scannedTo : scanning.status = (tokens source status).2.status)
    (parsed : parsing.listing.content = (trace settings.traceScan (echoed settings source)
      (((tokens source status).1 ++ List.replicate count last).take count)).toUTF8)
    (moved : parsing.status = ((Lexer.session source status).pulls count).2.status) :
    TracedAlike settings source status count last scanning parsing := by
  have ended := Session.exists_endOfFile_drain (Lexer.session source status)
  have joined (first second : String) : (first ++ second).toUTF8 = first.toUTF8 ++ second.toUTF8 :=
    String.toByteArray_append
  have past (past : (tokens source status).1.length ≤ count) : parsing.status = scanning.status := by
    rw [moved, scannedTo]
    exact congrArg Session.status (Lexer.pulls_past past)
  constructor
  case ending => exact ending
  case scanned => exact scanned
  case parsed => exact parsed
  case moved => exact moved
  case whole =>
    rintro rfl
    refine ⟨?_, past (Nat.le_refl _)⟩
    rw [scanned, parsed, List.take_left, joined]
  case short =>
    intro within
    obtain ⟨rest, begins⟩ : ∃ rest, trace settings.traceScan (echoed settings source)
        (tokens source status).1 = trace settings.traceScan (echoed settings source)
          (((tokens source status).1 ++ List.replicate count last).take count) ++ rest :=
      trace_take within _
    refine ⟨rest.toUTF8, ?_⟩
    rw [scanned, parsed, begins, joined, joined]
  case long =>
    intro long more
    refine ⟨?_, past long⟩
    rw [scanned, parsed, trace_past long ended last, ← joined, ← joined, String.append_assoc]

/-- Whoever takes the tokens of a source, what is written into a listing without a limit is their
trace, and the status is moved alike. -/
theorem traced_alike (settings : Settings) (source : String) (codePath : Path) (status : Status)
    (files : FileTree) {stages : Stages ρ} {parser : Parser ρ} {count : Nat}
    (parses : stages.parser = some parser)
    (pulls : parser.Pulls (openTranscript settings source
      { (.start status none files : Workspace ρ) with journal := [.parsing] }) count) :
    let run := fun settings =>
      ofStages stages settings source codePath (.start status none files)
    ∃ last scanning parsing,
      run { settings with phase := .scan } = .ok none scanning ∧
      run { settings with phase := .parse, traceParse := false } = .ok none parsing ∧
      TracedAlike settings source status count last scanning parsing := by
  intro run
  let start : Workspace ρ := .start status none files
  have unlimited : start.listing.limit = none := rfl
  let parseSettings : Settings := { settings with phase := .parse, traceParse := false }
  let scanSettings : Settings := { settings with phase := .scan }
  have scans : scanSettings.phase = .scan := rfl
  have untraced : parseSettings.traceParse = false := rfl
  have scans_run := ofStages_scan source unlimited stages scans codePath
  obtain ⟨forest, parsing, parse_ran, listing, moved⟩ :=
    parse_pulls source unlimited untraced pulls
  have parses_run : run parseSettings = .ok none parsing := by
    simp only [run, ofStages, Stages.plan, parseSettings, parses]
    exact bind_of_ok parse_ran
  obtain ⟨last, ends, isLast, ahead⟩ := Lexer.ahead_eq (Lexer.session source status)
  refine ⟨last, _, parsing, scans_run, parses_run, ?_⟩
  apply tracedAlike_of_contents
  case ending => exact ⟨ends, isLast⟩
  case scanned => exact ByteArray.empty_append
  case scannedTo => rfl
  case moved => exact moved
  case parsed =>
    rw [listing, tokens, ← ahead count]
    exact ByteArray.empty_append

/-- A parser that asks for one token too many. -/
theorem traced_alike_threePulls :
    let parser : Parser Unit := .pulling Unit 3
    let settings : Settings := { echoSource := true }
    let start : Workspace Unit := .start {} none (.scratch ["work"])
    let run := fun settings =>
      ofStages ⟨some parser, none, none⟩ settings "x" (.ofText "x.tm") start
    (tokens "x" {}).1.length < 3 ∧
      parser.Pulls (openTranscript settings "x" { start with journal := [.parsing] }) 3 ∧
      ∃ last scanning parsing,
        run { settings with phase := .scan } = .ok none scanning ∧
        run { settings with phase := .parse, traceParse := false } = .ok none parsing ∧
        TracedAlike settings "x" {} 3 last scanning parsing := by
  intro parser settings start run
  have pulls := Parser.pulling_pulls (ρ := Unit)
    (openTranscript settings "x" { start with journal := [.parsing] }) 3
  exact ⟨by decide +kernel, pulls,
    traced_alike settings "x" (.ofText "x.tm") {} (.scratch ["work"]) rfl pulls⟩

end Run

end FrontEnd
