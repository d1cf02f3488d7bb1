import FrontEnd.Proofs.Compilation.Telling

/-! # What is handed to a parser

A run hands one session to one parser, if it comes to that. The faults that are told of are those of
the tokens that the parser takes, the end of a transcript is told of if the session is left with a
fault, and there is one verdict at most on what the parser has come to.
-/

namespace FrontEnd

open Journal

variable {ρ : Type}

/-- The workspace that a computation leaves behind if it comes to its end. -/
def Run.last? {α : Type} (work : Run ρ α) (start : Workspace ρ) : Option (Workspace ρ) :=
  match work start with
  | .ok _ last => some last
  | .error .. => none

namespace Job

open Run

variable {job : Job ρ} {start : Workspace ρ}

/-- The parser of a run and the session that it is handed, if the run comes to that. The scan phase
has a parser of its own, which drains the source. -/
def handed (job : Job ρ) (start : Workspace ρ) :
    Option (Parser ρ × Session (Transcriber Lexer)) :=
  match job.missing?, job.settings.phase with
  | some _, _ => none
  | none, .scan =>
    (last? (writeWhen job.settings.traceScan scanHeader) start).map fun opened =>
      (.draining ρ, openTranscript job.settings job.source opened)
  | none, _ => job.stages.parser.map fun parser => (parser, job.session start)

def takings (job : Job ρ) (start : Workspace ρ) : List Taking :=
  match job.handed start with
  | none => []
  | some (parser, session) => parser.takings session

/-- The fault that has ended the transcript of a run. -/
def transcriptFault? (job : Job ρ) (start : Workspace ρ) : Option Fault :=
  (job.handed start).bind fun (parser, session) => (parser.parse session).session.scanner.fault

/-! ### What a parser takes -/

/-- Behind the parse phase a run tells of its flag, its gates and its code. -/
theorem exists_later (proper : job.stages.Proper) (present : job.missing? = none)
    (other : job.settings.phase ≠ .scan) :
    ∃ parser, job.stages.parser = some parser ∧ ∃ later : Forest → Run ρ (Option Path),
      job.run = parse job.settings job.source parser >>= later ∧
        ∀ forest, Tells [.flag, .gate, .code] (later forest) := by
  obtain ⟨plan, provides, run_eq⟩ := exists_plan present
  generalize phase_eq : job.settings.phase = phase at provides other
  cases provides with
  | scan => exact absurd rfl other
  | @parse parser parses => exact ⟨parser, parses, _, run_eq, fun _ => tells_pure none⟩
  | @analyze parser analyzer parses analyzes =>
    have sound := proper.analyzer analyzer analyzes
    refine ⟨parser, parses, fun forest => analyzing job.settings forest analyzer, run_eq, ?_⟩
    intro forest
    refine tells_gate _ (by decide) ?_
    exact (tells_analyze _ sound forest (by decide)).bind fun _ => tells_pure none
  | @generate parser analyzer generator parses analyzes generates =>
    have sound := proper.analyzer analyzer analyzes
    refine ⟨parser, parses,
      fun forest => generating job.settings job.codePath generator forest analyzer, run_eq, ?_⟩
    intro forest
    refine tells_gate _ (by decide) ?_
    apply (tells_analyze _ sound forest (by decide)).bind
    intro checked
    refine tells_gate _ (by decide) ?_
    rw [map_eq_pure_bind]
    exact (tells_generate _ _ _ checked (by decide)).bind fun _ => tells_pure _

/-- What a run hands a session to drains the source or is the parser that it was given. -/
theorem handed_cases {parser : Parser ρ} {session : Session (Transcriber Lexer)}
    (handed : job.handed start = some (parser, session)) :
    job.missing? = none ∧
      ((job.settings.phase = .scan ∧ parser = .draining ρ ∧
          ∃ opened, writeWhen job.settings.traceScan scanHeader start = .ok () opened ∧
            session = openTranscript job.settings job.source opened) ∨
        job.settings.phase ≠ .scan ∧ job.stages.parser = some parser ∧
          session = job.session start) := by
  unfold Job.handed at handed
  split at handed
  · cases handed
  · next present phase =>
    obtain ⟨opened, ready, same⟩ := Option.map_eq_some_iff.mp handed
    cases same
    refine ⟨present, .inl ⟨phase, rfl, opened, ?_, rfl⟩⟩
    unfold last? at ready
    split at ready
    · next ran =>
      cases ready
      exact ran
    · cases ready
  · next present other =>
    obtain ⟨parser, parses, same⟩ := Option.map_eq_some_iff.mp handed
    cases same
    exact ⟨present, .inr ⟨other, parses, rfl⟩⟩

theorem sound_of_handed {parser : Parser ρ} {session : Session (Transcriber Lexer)}
    (handed : job.handed start = some (parser, session)) : session.scanner.fault = none := by
  obtain ⟨-, ⟨-, -, opened, -, rfl⟩ | ⟨-, -, rfl⟩⟩ := handed_cases handed
  · exact (openTranscript_scanner _ _ opened).1
  · exact (openTranscript_scanner _ _ _).1

theorem proper_of_handed (proper : job.stages.Proper) {parser : Parser ρ}
    {session : Session (Transcriber Lexer)} (handed : job.handed start = some (parser, session)) :
    parser.Proper := by
  obtain ⟨-, ⟨-, rfl, -⟩ | ⟨-, parses, -⟩⟩ := handed_cases handed
  · exact draining_proper ρ
  · exact proper.parser parser parses

theorem uniform_of_handed (uniform : ∀ parser ∈ job.stages.parser, parser.Uniform)
    {parser : Parser ρ} {session : Session (Transcriber Lexer)}
    (handed : job.handed start = some (parser, session)) : parser.Uniform := by
  obtain ⟨-, ⟨-, rfl, -⟩ | ⟨-, parses, -⟩⟩ := handed_cases handed
  · exact draining_uniform ρ
  · exact uniform parser parses

/-- The scan phase does nothing but scan. -/
theorem after_run_of_scan (present : job.missing? = none) (phase : job.settings.phase = .scan)
    (start : Workspace ρ) :
    after job.run start = after (scan job.settings job.source) start := by
  obtain ⟨plan, provides, run_eq⟩ := exists_plan present
  rw [phase] at provides
  cases provides
  rw [run_eq]
  exact after_bind_pure _ none start

/-- Before it hands over a session a run has told no more than that it parses. Behind it, it tells
of neither faults nor its transcript. -/
theorem handed_told (proper : job.stages.Proper) {parser : Parser ρ}
    {session : Session (Transcriber Lexer)} (handed : job.handed start = some (parser, session)) :
    AddsTo [.progress] start.journal session.journal ∧
      AddsTo [.progress, .verdict, .flag, .gate, .code] (parser.parse session).session.journal
        (after job.run start).journal := by
  obtain ⟨present, ⟨phase, rfl, opened, ready, rfl⟩ | ⟨other, parses, rfl⟩⟩ := handed_cases handed
  · have header : Tells [.progress] (writeWhen job.settings.traceScan scanHeader : Run ρ Unit) :=
      tells_writeWhen _ _
    have unchanged := header.adds start
    rw [after_of_ok ready] at unchanged
    refine ⟨unchanged, ?_⟩
    rw [after_run_of_scan present phase]
    exact (scan_told job.settings job.source ready).mono (by decide)
  · obtain ⟨parser', parses', later, run_eq, tells⟩ := exists_later proper present other
    cases parses.symm.trans parses'
    refine ⟨⟨[.parsing], rfl, List.forall_mem_singleton.mpr (by decide)⟩, ?_⟩
    have parsed := (parse_told job.settings job.source parser start).1
    have behind := Tells.after_bind tells (parse job.settings job.source parser) start
    rw [run_eq]
    exact (parsed.mono (by decide)).trans (behind.mono (by decide))

/-- A run that hands over no session tells of nothing. -/
theorem unhanded_told (proper : job.stages.Proper) (unhanded : job.handed start = none) :
    (after job.run start).journal = start.journal := by
  cases present : job.missing? with
  | some stage => rw [after_of_error (run_of_missing present start)]
  | none =>
    by_cases phase : job.settings.phase = .scan
    · simp only [Job.handed, present, phase, Option.map_eq_none_iff, last?] at unhanded
      cases wrote : (writeWhen job.settings.traceScan scanHeader : Run ρ Unit) start with
      | ok value opened => simp [wrote] at unhanded
      | error failure stopped =>
        have silent : Tells [] (writeWhen job.settings.traceScan scanHeader : Run ρ Unit) :=
          tells_writeWhen _ _
        have unchanged := (silent.adds start).eq_of_nil
        rw [after_of_error wrote] at unchanged
        rw [after_run_of_scan present phase, scan_eq, after_of_error (bind_of_error wrote), unchanged]
    · obtain ⟨parser, parses, -⟩ := exists_later proper present phase
      simp [Job.handed, present, parses] at unhanded

/-! ### Faults, the flag and the transcript -/

section

variable (proper : job.stages.Proper)

include proper

/-- The log follows the tokens that are taken. -/
theorem follows_log (uniform : ∀ parser ∈ job.stages.parser, parser.Uniform)
    (fresh : start.journal = []) : Follows (job.takings start) (after job.run start).journal := by
  unfold Job.takings
  split
  · next unhanded =>
    rw [unhanded_told proper unhanded, fresh]
    exact .start
  · next parser session handed =>
    obtain ⟨before, behind⟩ := handed_told proper handed
    obtain ⟨entries, opened, others⟩ := before
    obtain ⟨more, whole, later⟩ := behind
    have opening : Follows session.recording.scanner.taken session.recording.journal := by
      change Follows [] session.journal
      rw [opened, fresh]
      refine Follows.start.append entries fun entry member => ?_
      have topic := others entry member
      grind
    obtain ⟨uses, used⟩ := proper_of_handed proper handed session.recording
    have follows := Session.follows_useAll opening uses
    rw [whole, (uniform_of_handed uniform handed).bare_parse, Parser.takings, used]
    refine follows.append more fun entry member => ?_
    have topic := later entry member
    grind

/-- In a run the entries about the flag stay balanced with the flag. -/
theorem flag_balanced (start : Workspace ρ) :
    flagBalance (after job.run start) = flagBalance start := by
  cases present : job.missing? with
  | some stage => rw [after_of_error (run_of_missing present start)]
  | none =>
    by_cases phase : job.settings.phase = .scan
    · rw [after_run_of_scan present phase]
      exact (tells_scan job.settings job.source).flag start
    · obtain ⟨parser, parses, later, run_eq, tells⟩ := exists_later proper present phase
      rw [run_eq]
      have parsed := tells_parse job.settings job.source (proper.parser parser parses)
      exact (parsed.flag.bind fun forest => (tells forest).flag) start

/-- The end of a transcript is told of once if there is a fault behind it, and never if not. -/
theorem transcript_told (fresh : start.journal = []) :
    (about .transcript (after job.run start).journal).length =
      (job.transcriptFault? start).isSome.toNat := by
  unfold Job.transcriptFault?
  cases handed : job.handed start with
  | none => rw [unhanded_told proper handed, fresh]; rfl
  | some both =>
    obtain ⟨parser, session⟩ := both
    obtain ⟨before, behind⟩ := handed_told proper handed
    obtain ⟨uses, used⟩ := proper_of_handed proper handed session
    have balanced := ((Session.Tells.refl session).useAll uses).transcript
    rw [← used, sound_of_handed handed, balance, balance, before.about_eq (by decide),
      fresh] at balanced
    rw [behind.about_eq (by decide)]
    simp only [Option.bind_some, about_nil, List.length_nil, Option.isSome_none,
      Bool.toNat_false] at balanced ⊢
    omega

/-- A run tells of one verdict on its source at most. -/
theorem verdict_told (fresh : start.journal = []) :
    (about .verdict (after job.run start).journal).length ≤ 1 := by
  cases handed : job.handed start with
  | none => rw [unhanded_told proper handed, fresh]; exact Nat.zero_le 1
  | some both =>
    obtain ⟨parser, session⟩ := both
    obtain ⟨before, -⟩ := handed_told proper handed
    obtain ⟨uses, used⟩ := proper_of_handed proper handed session
    obtain ⟨entries, told, topics⟩ := ((Session.Tells.refl session).useAll uses).told
    have silent : about .verdict (parser.parse session).session.journal = [] := by
      have adds : AddsTo [.faults, .flag, .transcript] session.journal
          (parser.parse session).session.journal := by
        rw [used]
        exact ⟨entries, told, topics⟩
      rw [adds.about_eq (by decide), before.about_eq (by decide), fresh, about_nil]
    obtain ⟨present, ⟨phase, rfl, opened, ready, rfl⟩ | ⟨other, parses, rfl⟩⟩ := handed_cases handed
    · have scanned := scan_told job.settings job.source ready
      rw [after_run_of_scan present phase, scanned.about_eq (by decide), silent]
      exact Nat.zero_le 1
    · obtain ⟨parser', parses', later, run_eq, tells⟩ := exists_later proper present other
      cases parses.symm.trans parses'
      have once := (parse_told job.settings job.source parser start).2
      change _ ≤ (about .verdict (parser.parse (job.session start)).session.journal).length + 1 at once
      have behind := Tells.after_bind tells (parse job.settings job.source parser) start
      rw [← run_eq] at behind
      rw [silent] at once
      rwa [behind.about_eq (by decide)]

end

/-! ### Under a limit -/

/-- Whether, under a limit, the first write that fails is one of the transcript: what is written
before that still fits, and what the transcript adds to it does not. -/
def Overflows (job : Job ρ) (start : Workspace ρ) (limit : Nat) : Prop :=
  ∃ parser session, job.handed start = some (parser, session) ∧
    session.scanner.listing.Within limit ∧
    ¬(parser.parse session).session.scanner.listing.Within limit

section

variable (unlimited : start.listing.limit = none) {limit : Nat}

include unlimited

/-- A session is handed over under a limit if what is written before it fits. -/
theorem handed_capped (within : start.listing.Within limit) :
    job.handed (start.capped limit) =
      (job.handed start).bind fun (parser, session) =>
        if session.scanner.listing.Within limit then some (parser, session.capped limit)
        else none := by
  have given : job.session (start.capped limit) = (job.session start).capped limit := by
    rw [Job.session, Job.session, ← openTranscript_capped]
    rfl
  have listing : (job.session start).scanner.listing = start.listing :=
    (openTranscript_scanner _ _ _).2.1
  unfold Job.handed
  split
  · rfl
  · -- The header of the scan phase is the one thing that is written before a session.
    obtain ⟨-, whole, short⟩ :=
      (steady_writeWhen job.settings.traceScan scanHeader).cuts start unlimited
    obtain ⟨opened, ready⟩ :
        ∃ opened, writeWhen job.settings.traceScan scanHeader start = .ok () opened :=
      ⟨_, writeWhen_unlimited unlimited job.settings.traceScan scanHeader⟩
    rw [after_of_ok ready] at whole short
    have opens : (openTranscript job.settings job.source opened).scanner.listing = opened.listing :=
      (openTranscript_scanner _ _ _).2.1
    simp only [last?, ready, Option.map_some, Option.bind_some, opens]
    by_cases room : opened.listing.Within limit
    · rw [whole limit room, ready, if_pos room]
      simp only [mapLast, Option.map_some, openTranscript_capped]
    · obtain ⟨stopped, ran, -⟩ := short limit within room
      rw [ran, if_neg room]
      rfl
  · cases job.stages.parser with
    | none => rfl
    | some parser => simp [given, listing, within]

theorem unlimited_of_handed {parser : Parser ρ} {session : Session (Transcriber Lexer)}
    (handed : job.handed start = some (parser, session)) :
    session.scanner.listing.limit = none := by
  obtain ⟨-, ⟨-, -, opened, ready, rfl⟩ | ⟨-, -, rfl⟩⟩ := handed_cases handed
  · rw [(openTranscript_scanner _ _ opened).2.1, ← after_of_ok ready]
    exact ((steady_writeWhen _ _).cuts start unlimited).grows.limit.trans unlimited
  · rw [Job.session, (openTranscript_scanner _ _ _).2.1]
    exact unlimited

variable (uniform : ∀ parser ∈ job.stages.parser, parser.Uniform)

include uniform

/-- What is handed a limited session shadows what is handed one without a limit. -/
theorem shadows_of_handed {parser : Parser ρ} {session : Session (Transcriber Lexer)}
    (handed : job.handed start = some (parser, session))
    (within : session.scanner.listing.Within limit) :
    Session.Shadows session.scanner.listing limit (parser.parse session).session
      (parser.parse (session.capped limit)).session := by
  have uniform := uniform_of_handed uniform handed
  have unlimited := unlimited_of_handed unlimited handed
  have shadows := Session.Shadows.refl session (sound_of_handed handed) within
  exact (uniform.alike (Session.Shadows.simulation unlimited limit) shadows).session

/-- Without a limit no transcript is broken. -/
theorem transcriptFault?_unlimited : job.transcriptFault? start = none := by
  unfold Job.transcriptFault?
  cases handed : job.handed start with
  | none => rfl
  | some both =>
    obtain ⟨parser, session⟩ := both
    exact (shadows_of_handed unlimited uniform handed (Nat.le_refl _)).sound

/-- Under a limit a transcript is broken by the first write that fails, if it is that of the
transcript. -/
theorem isSome_transcriptFault?_capped (within : start.listing.Within limit) :
    (job.transcriptFault? (start.capped limit)).isSome = true ↔ job.Overflows start limit := by
  unfold Job.transcriptFault? Job.Overflows
  rw [handed_capped unlimited within]
  cases handed : job.handed start with
  | none => simp
  | some both =>
    obtain ⟨parser, session⟩ := both
    by_cases room : session.scanner.listing.Within limit
    · have shadows := shadows_of_handed unlimited uniform handed room
      by_cases whole : (parser.parse session).session.scanner.listing.Within limit
      · have same : (parser.parse (session.capped limit)).session.scanner.fault = none := by
          rw [shadows.whole whole]
          exact shadows.sound
        simp [room, whole, same]
      · simp [room, whole, shadows.stopped whole]
    · simp [room]

end

end Job

end FrontEnd
